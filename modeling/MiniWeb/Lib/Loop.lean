import Mathlib.Data.List.Basic
import Mathlib.Tactic.Common

/-!
# Bounded loops

A loop is a step function: from a state it either goes on with the next state or leaves the
loop with a value (the loop condition failed, or the body returned). `Loop.run` takes the steps
under a bound on their number and answers `none` when the bound is reached first, so `none` is
"still running" and never a value.

Two rules carry every proof about a loop: `run_total` (an invariant and a decreasing measure
give a result within the bound) and `run_exit` (whatever the bound, a result comes from an exit in
a state where the invariant holds).

A pass may also check what it relies on and fail: `Loop.runChecked` is the run of such passes, and
`runChecked_total` says that under an invariant that meets the checks it is the unchecked run.
-/

namespace MiniWeb.Loop

universe u v

/-- One pass of a loop: go on with a state, or leave with a value. -/
inductive Step (σ : Type u) (α : Type v) where
  | next (s : σ)
  | done (a : α)

variable {σ : Type u} {α : Type v}

/-- Take steps until the loop is left; `none` when `fuel` passes did not suffice. -/
def run (step : σ → Step σ α) : Nat → σ → Option α
  | 0, _ => none
  | fuel + 1, s =>
    match step s with
    | .next s' => run step fuel s'
    | .done a => some a

/-- The loop is left after finitely many passes. -/
def Halts (step : σ → Step σ α) (s : σ) : Prop :=
  ∃ fuel, (run step fuel s).isSome

@[simp] theorem run_zero (step : σ → Step σ α) (s : σ) : run step 0 s = none := rfl

theorem run_succ_next {step : σ → Step σ α} {fuel : Nat} {s s' : σ} (h : step s = .next s') :
    run step (fuel + 1) s = run step fuel s' := by
  simp only [run, h]

theorem run_succ_done {step : σ → Step σ α} {fuel : Nat} {s : σ} {a : α} (h : step s = .done a) :
    run step (fuel + 1) s = some a := by
  simp only [run, h]

/-- What one pass from a state of measure `n` owes to an invariant indexed by the measure, and
what an exit owes to the caller. -/
def StepOK (Inv : Nat → σ → Prop) (Post : α → Prop) (n : Nat) : Step σ α → Prop
  | .next s' => ∃ m, m < n ∧ Inv m s'
  | .done a => Post a

/-- **Total correctness.** An invariant that every pass keeps while its measure falls bounds the
number of passes by the measure, and the value the loop is left with satisfies the exit
condition. -/
theorem run_total {step : σ → Step σ α} (Inv : Nat → σ → Prop) {Post : α → Prop}
    (hstep : ∀ n s, Inv n s → StepOK Inv Post n (step s)) :
    ∀ {fuel n : Nat} {s : σ}, Inv n s → n < fuel → ∃ a, run step fuel s = some a ∧ Post a := by
  intro fuel
  induction fuel with
  | zero => intro n s _ h; omega
  | succ fuel ih =>
    intro n s hs hn
    have hOK := hstep n s hs
    cases hst : step s with
    | next s' =>
      rw [hst] at hOK
      obtain ⟨m, hlt, hInv⟩ := hOK
      rw [run_succ_next hst]
      exact ih hInv (by omega)
    | done a =>
      rw [hst] at hOK
      exact ⟨a, run_succ_done hst, hOK⟩

/-- **Partial correctness.** A value the loop is left with comes from an exit in a state where
the invariant holds. -/
theorem run_exit {step : σ → Step σ α} (Inv : σ → Prop)
    (hstep : ∀ s s', Inv s → step s = .next s' → Inv s') :
    ∀ {fuel : Nat} {s : σ} {a : α}, Inv s → run step fuel s = some a →
      ∃ s', Inv s' ∧ step s' = .done a := by
  intro fuel
  induction fuel with
  | zero => intro s a _ h; cases h
  | succ fuel ih =>
    intro s a hs h
    cases hst : step s with
    | next s' =>
      rw [run_succ_next hst] at h
      exact ih (hstep s s' hs hst) h
    | done b =>
      rw [run_succ_done hst] at h
      cases h
      exact ⟨s, hs, hst⟩

/-! ## Passes that check -/

/-- The run of passes that may fail a check: `none` also when a check failed. -/
def runChecked (step : σ → Option (Step σ α)) : Nat → σ → Option α
  | 0, _ => none
  | fuel + 1, s =>
    (step s).bind fun
      | .next s' => runChecked step fuel s'
      | .done a => some a

/-- **Checks that never fail.** Where an invariant meets the checks of every pass and its measure
falls, the checked run under any bound above the measure ends with what the run ends with. -/
theorem runChecked_total {step : σ → Step σ α} {checked : σ → Option (Step σ α)}
    (Inv : Nat → σ → Prop) {Post : α → Prop}
    (hstep : ∀ n s, Inv n s → StepOK Inv Post n (step s))
    (hcheck : ∀ n s, Inv n s → checked s = some (step s)) :
    ∀ {bound fuel n : Nat} {s : σ}, Inv n s → n < bound → n < fuel →
      runChecked checked bound s = run step fuel s := by
  intro bound
  induction bound with
  | zero => intro fuel n s _ hb; omega
  | succ bound ih =>
    intro fuel n s hs hb hf
    obtain ⟨fuel, rfl⟩ : ∃ k, fuel = k + 1 := ⟨fuel - 1, by omega⟩
    have hOK := hstep n s hs
    rw [runChecked, hcheck n s hs, Option.bind_some]
    cases hst : step s with
    | next s' =>
      rw [hst] at hOK
      obtain ⟨m, hlt, hInv⟩ := hOK
      rw [run_succ_next hst]
      exact ih hInv (by omega) (by omega)
    | done a => rw [run_succ_done hst]

end MiniWeb.Loop
