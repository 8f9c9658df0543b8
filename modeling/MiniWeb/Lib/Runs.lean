import Mathlib.Data.List.Basic
import Mathlib.Tactic.Common

/-!
# Runs of a partial step function

A system takes an event in a state where the event is possible. `runs` takes a list of events
one after the other; `along` states a condition on every event and the state it is taken in.

`runs_rule` is the rule for invariants: what holds at the start and is kept by every event that
meets the condition holds at the end of every run that meets the condition.
-/

namespace MiniWeb.Runs

universe u v

variable {ε : Type u} {σ : Type v}

def runs (step : ε → σ → Option σ) : List ε → σ → Option σ
  | [], s => some s
  | e :: es, s => (step e s).bind (runs step es)

/-- The condition holds of each event in the state it is taken in. -/
def along (step : ε → σ → Option σ) (p : ε → σ → Bool) : List ε → σ → Bool
  | [], _ => true
  | e :: es, s => p e s && (step e s).all (along step p es)

variable {step : ε → σ → Option σ} {p : ε → σ → Bool} {s s' : σ} {es es' : List ε}

@[simp] theorem runs_nil : runs step [] s = some s := rfl

@[simp] theorem runs_cons {e : ε} : runs step (e :: es) s = (step e s).bind (runs step es) := rfl

theorem runs_append : runs step (es ++ es') s = (runs step es s).bind (runs step es') := by
  induction es generalizing s with
  | nil => rfl
  | cons e es ih =>
    rw [List.cons_append, runs_cons, runs_cons, Option.bind_assoc]
    exact congrArg _ (funext fun _ => ih)

/-- The invariant rule, for what the events of one run keep. -/
theorem runs_rule_mem {Inv : σ → Prop}
    (hstep : ∀ e ∈ es, ∀ s s', Inv s → p e s = true → step e s = some s' → Inv s')
    (hs : Inv s) (hp : along step p es s = true) (hrun : runs step es s = some s') : Inv s' := by
  induction es generalizing s with
  | nil =>
    cases hrun
    exact hs
  | cons e es ih =>
    obtain ⟨s₁, hs₁, hrest⟩ := Option.bind_eq_some_iff.mp hrun
    obtain ⟨he, hes⟩ := Bool.and_eq_true_iff.mp hp
    rw [hs₁] at hes
    exact ih (fun e' he' => hstep e' (List.mem_cons_of_mem e he'))
      (hstep e List.mem_cons_self s s₁ hs he hs₁) hes hrest

/-- **The invariant rule.** -/
theorem runs_rule {Inv : σ → Prop}
    (hstep : ∀ e s s', Inv s → p e s = true → step e s = some s' → Inv s')
    (hs : Inv s) (hp : along step p es s = true) (hrun : runs step es s = some s') : Inv s' :=
  runs_rule_mem (fun e _ => hstep e) hs hp hrun

theorem along_true : along step (fun _ _ => true) es s = true := by
  induction es generalizing s with
  | nil => rfl
  | cons e es ih =>
    rw [along, Bool.true_and]
    cases step e s with
    | none => rfl
    | some s' => exact ih

/-- The rule for events without a condition. -/
theorem runs_invariant {Inv : σ → Prop}
    (hstep : ∀ e s s', Inv s → step e s = some s' → Inv s')
    (hs : Inv s) (hrun : runs step es s = some s') : Inv s' :=
  runs_rule (fun e s s' h _ => hstep e s s' h) hs along_true hrun

theorem along_of_append (h : along step p (es ++ es') s = true) : along step p es s = true := by
  induction es generalizing s with
  | nil => rfl
  | cons e es ih =>
    rw [List.cons_append, along, Bool.and_eq_true_iff] at h
    rw [along, Bool.and_eq_true_iff]
    refine ⟨h.1, ?_⟩
    cases hstep : step e s with
    | none => rfl
    | some s' =>
      rw [hstep] at h
      exact ih h.2

/-- The condition along a run that is possible to its end, event by event. -/
theorem along_iff_splits (hrun : runs step es s = some s') :
    along step p es s = true ↔
      ∀ pre e post s₁ s₂, es = pre ++ e :: post → runs step pre s = some s₁ →
        step e s₁ = some s₂ → p e s₁ = true := by
  induction es generalizing s with
  | nil =>
    refine ⟨fun _ pre e post _ _ hsplit => ?_, fun _ => rfl⟩
    exact absurd hsplit.symm (List.append_ne_nil_of_right_ne_nil pre (List.cons_ne_nil e post))
  | cons e es ih =>
    obtain ⟨s₁, hs₁, hrest⟩ := Option.bind_eq_some_iff.mp hrun
    have htail : along step p (e :: es) s = true ↔ p e s = true ∧ along step p es s₁ = true := by
      rw [along, hs₁, Bool.and_eq_true]
      rfl
    rw [htail, ih hrest]
    constructor
    · rintro ⟨he, hes⟩ pre e' post t₁ t₂ hsplit hpre hstep
      cases pre with
      | nil =>
        cases hsplit
        cases hpre
        exact he
      | cons a pre =>
        cases hsplit
        rw [runs_cons, hs₁, Option.bind_some] at hpre
        exact hes pre e' post t₁ t₂ rfl hpre hstep
    · intro hall
      refine ⟨hall [] e es s s₁ rfl rfl hs₁, fun pre e' post t₁ t₂ hsplit hpre hstep => ?_⟩
      refine hall (e :: pre) e' post t₁ t₂ (congrArg (List.cons e) hsplit) ?_ hstep
      rw [runs_cons, hs₁, Option.bind_some, hpre]

/-- **The exactness rule.** Where an event that does not meet the condition is possible and breaks
what is wanted, a run whose events all meet the condition is the same as a run in which what is
wanted holds after every event. -/
theorem along_iff_prefixes (Inv : σ → Prop) {Good : σ → Prop}
    (hstep : ∀ e s s', Inv s → p e s = true → step e s = some s' → Inv s')
    (hgood : ∀ s, Inv s → Good s)
    (hbreak : ∀ e s, Inv s → p e s = false → ∃ s', step e s = some s' ∧ ¬Good s')
    (hs : Inv s) :
    (∀ pre s', pre <+: es → runs step pre s = some s' → Good s') ↔
      along step p es s = true := by
  constructor
  · intro hall
    induction es generalizing s with
    | nil => rfl
    | cons e es ih =>
      cases he : p e s with
      | false =>
        obtain ⟨s', hs', hbad⟩ := hbreak e s hs he
        have hone : runs step [e] s = some s' := by
          rw [runs_cons, hs', Option.bind_some, runs_nil]
        exact absurd (hall [e] s' (List.prefix_append [e] es) hone) hbad
      | true =>
        rw [along, he, Bool.true_and]
        cases hs₁ : step e s with
        | none => rfl
        | some s₁ =>
          apply ih (hstep e s s₁ hs he hs₁)
          intro pre s' hpre hrun
          apply hall (e :: pre) s' (List.cons_prefix_cons.mpr ⟨rfl, hpre⟩)
          rw [runs_cons, hs₁, Option.bind_some, hrun]
  · rintro hp pre s' ⟨rest, rfl⟩ hrun
    exact hgood s' (runs_rule hstep hs (along_of_append hp) hrun)

end MiniWeb.Runs
