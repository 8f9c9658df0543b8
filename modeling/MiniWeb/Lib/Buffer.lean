import MiniWeb.Lib.Loop

/-!
# Objects of a fixed size

An array of a C program is a list, read and written by index. An access outside it has no value,
so a computation over arrays that has a value stays inside them.
-/

namespace MiniWeb.Buffer

open Loop

variable {α β σ : Type} {x y : List α} {a c : α}

/-- `buf[i]`. -/
def load (buf : List α) (i : Nat) : Option α := buf[i]?

/-- `buf[i] = c`. -/
def store (buf : List α) (i : Nat) (c : α) : Option (List α) :=
  if i < buf.length then some (buf.set i c) else none

/-- A pass of a loop over arrays; without a value the loop is left without one. -/
def pass (step : σ → Option (Step σ β)) (s : σ) : Step σ (Option β) :=
  match step s with
  | none => .done none
  | some (.next s') => .next s'
  | some (.done b) => .done (some b)

theorem run_pass_next {step : σ → Option (Step σ β)} {s s' : σ} {fuel : Nat}
    (h : step s = some (.next s')) : run (pass step) (fuel + 1) s = run (pass step) fuel s' :=
  run_succ_next (by simp only [pass, h])

theorem run_pass_done {step : σ → Option (Step σ β)} {s : σ} {b : β} {fuel : Nat}
    (h : step s = some (.done b)) : run (pass step) (fuel + 1) s = some (some b) :=
  run_succ_done (by simp only [pass, h])

/-- An access outside ends the loop without a value. -/
theorem run_pass_none {step : σ → Option (Step σ β)} {s : σ} {fuel : Nat} (h : step s = none) :
    run (pass step) (fuel + 1) s = some none :=
  run_succ_done (by simp only [pass, h])

/-- A loop that takes a byte of a string in each pass has fuel for all of it. -/
theorem length_lt_fuel (x : List α) (a : α) (y : List α) : x.length < (x ++ a :: y).length + 1 := by
  rw [List.length_append]
  omega

/-- Behind a prefix of an array the rest is read from its own start. -/
theorem load_add (x y : List α) (k : Nat) : load (x ++ y) (x.length + k) = load y k := by
  rw [load, List.getElem?_append_right (Nat.le_add_right _ _), Nat.add_sub_cancel_left, load]

@[simp] theorem load_append : load (x ++ a :: y) x.length = some a := by
  simp [load]

@[simp] theorem store_append : store (x ++ a :: y) x.length c = some (x ++ c :: y) := by
  simp [store]

/-- An array whose start has been written. -/
def overlay (written buf : List α) : List α := written ++ buf.drop written.length

theorem store_overlay (h : x.length < y.length) :
    store (overlay x y) x.length c = some (overlay (x ++ [c]) y) := by
  rw [overlay, List.drop_eq_getElem_cons h, store_append, overlay, List.length_append,
    List.length_singleton, List.append_assoc, List.singleton_append]

end MiniWeb.Buffer
