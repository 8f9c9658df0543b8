import MiniWeb.Lib.Loop

/-!
# Loops over a cursor

A loop whose state has a cursor into `total` places. A pass may run other loops over the same
cursor; it has no result when one of these does not end. If every pass moves the cursor on or
leaves, then the loop ends, and nowhere before the place it began at.
-/

namespace MiniWeb.Loop

universe u v w

variable {D : Type u} {R : Type v} {A : Type w} {E : Type}

/-- A pass from a cursor and what else the loop keeps. -/
abbrev Pass (D : Type u) (R : Type v) := Nat × D → Option (Step (Nat × D) (Nat × R))

/-- What a pass makes of the result of a callee: it goes on with a value and leaves with an
error. -/
def afterCall (next : A → D) : Nat × Except E A → Step (Nat × D) (Nat × Except E R)
  | (idx, .error e) => .done (idx, .error e)
  | (idx, .ok a) => .next (idx, next a)

/-- Every pass that goes on has moved the cursor on, not beyond the last place. -/
def Advances (total : Nat) (pass : Pass D R) : Prop :=
  ∀ s s', s.1 ≤ total → pass s = some (.next s') → s.1 < s'.1 ∧ s'.1 ≤ total

/-- The call returns with the cursor moved on. -/
def Onward (total idx : Nat) (call : Option (Nat × R)) : Prop :=
  ∃ a, call = some a ∧ idx < a.1 ∧ a.1 ≤ total

/-- The call returns with the cursor where it was or moved on. -/
def Forward (total idx : Nat) (call : Option (Nat × R)) : Prop :=
  ∃ a, call = some a ∧ idx ≤ a.1 ∧ a.1 ≤ total

variable {total fuel idx idx' : Nat} {pass : Pass D R} {stop : Nat → Prop}
  {Spec : Nat × D → Nat × R → Prop} {s : Nat × D}

/-- The cursor has moved on, or it is at a place still where the loop may stop. -/
def Moved (stop : Nat → Prop) (idx idx' : Nat) : Prop := idx < idx' ∨ idx = idx' ∧ stop idx

theorem Moved.le (h : Moved stop idx idx') : idx ≤ idx' := by
  rcases h with hlt | ⟨rfl, -⟩
  · exact Nat.le_of_lt hlt
  · exact Nat.le_refl idx

theorem Moved.lt (h : Moved stop idx idx') (hstop : ¬stop idx) : idx < idx' := by
  rcases h with hlt | ⟨-, hat⟩
  · exact hlt
  · exact absurd hat hstop

/-- What a pass owes: to move the cursor or to leave where the loop may stop, and to carry over to
its own state what `Spec` says of the state it goes on with. -/
def Step.Owes (total : Nat) (stop : Nat → Prop) (Spec : Nat × D → Nat × R → Prop) (s : Nat × D) :
    Step (Nat × D) (Nat × R) → Prop
  | .next s' => s.1 < s'.1 ∧ s'.1 ≤ total ∧ ∀ a, Spec s' a → Spec s a
  | .done a => Moved stop s.1 a.1 ∧ a.1 ≤ total ∧ Spec s a

/-- Every pass returns and does what it owes. -/
def CursorLoop (total : Nat) (stop : Nat → Prop) (pass : Pass D R)
    (Spec : Nat × D → Nat × R → Prop) : Prop :=
  ∀ s, s.1 ≤ total → ∃ o, pass s = some o ∧ o.Owes total stop Spec s

theorem CursorLoop.advances (h : CursorLoop total stop pass Spec) : Advances total pass := by
  intro s s' hs hnext
  obtain ⟨o, ho, howes⟩ := h s hs
  rw [hnext] at ho
  cases ho
  exact ⟨howes.1, howes.2.1⟩

/-- **A cursor loop ends**, in at most one pass more than there are places left, and its result is
as specified. -/
theorem CursorLoop.ends (h : CursorLoop total stop pass Spec) (hs : s.1 ≤ total)
    (hfuel : total - s.1 < fuel) :
    ∃ a, runChecked pass fuel s = some a ∧ Moved stop s.1 a.1 ∧ a.1 ≤ total ∧ Spec s a := by
  induction fuel generalizing s with
  | zero => omega
  | succ fuel ih =>
    obtain ⟨o, ho, howes⟩ := h s hs
    rw [runChecked, ho, Option.bind_some]
    cases o with
    | next s' =>
      obtain ⟨hlt, hle, hspec⟩ := howes
      obtain ⟨a, hrun, hmoved, hto, ha⟩ := ih hle (by omega)
      exact ⟨a, hrun, Or.inl (Nat.lt_of_lt_of_le hlt hmoved.le), hto, hspec a ha⟩
    | done a =>
      obtain ⟨hmoved, hto, ha⟩ := howes
      exact ⟨a, rfl, hmoved, hto, ha⟩

end MiniWeb.Loop
