import Mathlib.Data.List.Basic
import Mathlib.Data.List.Infix
import Mathlib.Data.Nat.ModEq
import Mathlib.Logic.Function.Basic
import Mathlib.Tactic.Common

/-!
# Ring buffers

A ring buffer keeps `count` elements in the slots from `head` on, wrapping at the capacity; new
elements go into slot `tail`. `contents` is the list it stands for: `push` appends to it and
`pop` takes its first element, which is `front`.
-/

namespace MiniWeb

universe u

structure Ring (α : Type u) where
  slots : Nat → α
  head : Nat
  tail : Nat
  count : Nat

namespace Ring

variable {α : Type u}

/-- An element into the slot at `tail`. -/
def push (cap : Nat) (r : Ring α) (x : α) : Ring α where
  slots := Function.update r.slots r.tail x
  head := r.head
  tail := (r.tail + 1) % cap
  count := r.count + 1

def front (r : Ring α) : α := r.slots r.head

def pop (cap : Nat) (r : Ring α) : Ring α :=
  { r with head := (r.head + 1) % cap, count := r.count - 1 }

/-- The elements, from `head` on. -/
def contents (cap : Nat) (r : Ring α) : List α :=
  (List.range r.count).map fun k => r.slots ((r.head + k) % cap)

/-- The positions are in order. -/
structure Wf (cap : Nat) (r : Ring α) : Prop where
  head_lt : r.head < cap
  count_le : r.count ≤ cap
  tail_eq : r.tail = (r.head + r.count) % cap

variable {cap : Nat} {r : Ring α} {x : α}

@[simp] theorem push_count : (r.push cap x).count = r.count + 1 := rfl
@[simp] theorem pop_count : (r.pop cap).count = r.count - 1 := rfl

@[simp] theorem length_contents : (r.contents cap).length = r.count := by
  rw [contents, List.length_map, List.length_range]

theorem contents_eq_nil (h : r.count = 0) : r.contents cap = [] := by
  rw [contents, h]
  rfl

/-- Offsets below the capacity lead to different slots. -/
theorem slot_inj {head a b : Nat} (ha : a < cap) (hb : b < cap)
    (h : (head + a) % cap = (head + b) % cap) : a = b := by
  have hmod : a % cap = b % cap := Nat.ModEq.add_left_cancel' head h
  rwa [Nat.mod_eq_of_lt ha, Nat.mod_eq_of_lt hb] at hmod

theorem Wf.push (h : r.Wf cap) (hroom : r.count < cap) : (r.push cap x).Wf cap := by
  refine ⟨h.head_lt, hroom, ?_⟩
  show (r.tail + 1) % cap = (r.head + (r.count + 1)) % cap
  rw [h.tail_eq, Nat.mod_add_mod, Nat.add_assoc]

theorem Wf.contents_push (h : r.Wf cap) (hroom : r.count < cap) :
    (r.push cap x).contents cap = r.contents cap ++ [x] := by
  have hslot : (r.head + r.count) % cap = r.tail := h.tail_eq.symm
  unfold contents
  rw [push_count, List.range_succ, List.map_append, List.map_singleton]
  congr 1
  · apply List.map_congr_left
    intro k hk
    have hk : k < r.count := List.mem_range.mp hk
    apply Function.update_of_ne
    intro heq
    have := slot_inj (by omega) hroom (heq.trans h.tail_eq)
    omega
  · show [Function.update r.slots r.tail x ((r.head + r.count) % cap)] = [x]
    rw [hslot, Function.update_self]

theorem Wf.pop (h : r.Wf cap) (hpos : r.count ≠ 0) : (r.pop cap).Wf cap := by
  have hcap : 0 < cap := Nat.zero_lt_of_lt h.head_lt
  refine ⟨Nat.mod_lt _ hcap, Nat.le_trans (Nat.sub_le ..) h.count_le, ?_⟩
  show r.tail = ((r.head + 1) % cap + (r.count - 1)) % cap
  rw [h.tail_eq, Nat.mod_add_mod]
  congr 1
  omega

theorem Wf.contents_pop (h : r.Wf cap) (hpos : r.count ≠ 0) :
    r.contents cap = r.front :: (r.pop cap).contents cap := by
  obtain ⟨n, hn⟩ : ∃ n, r.count = n + 1 := ⟨r.count - 1, by omega⟩
  unfold contents
  rw [pop_count, hn, List.range_succ_eq_map, List.map_cons, List.map_map, Nat.add_sub_cancel]
  congr 1
  · rw [Nat.add_zero, Nat.mod_eq_of_lt h.head_lt]
    rfl
  · apply List.map_congr_left
    intro k _
    show r.slots ((r.head + (k + 1)) % cap) = r.slots (((r.head + 1) % cap + k) % cap)
    rw [Nat.mod_add_mod]
    congr 2
    omega

end Ring

end MiniWeb
