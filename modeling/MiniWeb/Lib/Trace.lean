import MiniWeb.Lib.Runs

/-!
# Traces

An event of a system is made of events of one of its parts: none, one or several. `trace` lists the
events of the part along a run, and `runs_trace` is the rule for a system that does with the part
only what the part can do by itself: the part goes through the trace. `runs_simulation` is the rule
for two systems that are related state by state.

`met` lists the events of a run with the states they are taken in, and `runs_rule_met` is the
invariant rule for what a condition on these keeps.
-/

namespace MiniWeb.Runs

universe u v w x

variable {ε : Type u} {σ : Type v} {α : Type w} {τ : Type x}

/-- The events of the part along a run. -/
def trace (step : ε → σ → Option σ) (parts : ε → σ → List α) : List ε → σ → List α
  | [], _ => []
  | e :: es, s => parts e s ++ (step e s).elim [] (trace step parts es)

variable {step : ε → σ → Option σ} {parts : ε → σ → List α} {s s' : σ} {es : List ε}

@[simp] theorem trace_nil : trace step parts [] s = [] := rfl

theorem trace_cons_of_some {e : ε} (h : step e s = some s') :
    trace step parts (e :: es) s = parts e s ++ trace step parts es s' := by
  rw [trace, h, Option.elim_some]

theorem trace_append_of_some {es' : List ε} (h : runs step es s = some s') :
    trace step parts (es ++ es') s = trace step parts es s ++ trace step parts es' s' := by
  induction es generalizing s with
  | nil =>
    cases h
    rfl
  | cons e es ih =>
    obtain ⟨s₁, hs₁, hrest⟩ := Option.bind_eq_some_iff.mp h
    rw [List.cons_append, trace_cons_of_some hs₁, trace_cons_of_some hs₁, ih hrest,
      List.append_assoc]

/-- **The part of a run.** -/
theorem runs_trace (view : σ → τ) (act : α → τ → Option τ)
    (hstep : ∀ e s s', step e s = some s' → runs act (parts e s) (view s) = some (view s'))
    (hrun : runs step es s = some s') :
    runs act (trace step parts es s) (view s) = some (view s') := by
  induction es generalizing s with
  | nil =>
    cases hrun
    rfl
  | cons e es ih =>
    obtain ⟨s₁, hs₁, hrest⟩ := Option.bind_eq_some_iff.mp hrun
    rw [trace_cons_of_some hs₁, runs_append, hstep e s s₁ hs₁, Option.bind_some]
    exact ih hrest

/-- **Simulation.** Where each event of the one system is matched by events of the other, a run is
matched by a run. -/
theorem runs_simulation {act : α → τ → Option τ} (R : σ → τ → Prop) {t : τ}
    (hstep : ∀ e s s' t, R s t → step e s = some s' → ∃ as t', runs act as t = some t' ∧ R s' t')
    (hs : R s t) (hrun : runs step es s = some s') :
    ∃ as t', runs act as t = some t' ∧ R s' t' := by
  induction es generalizing s t with
  | nil =>
    cases hrun
    exact ⟨[], t, rfl, hs⟩
  | cons e es ih =>
    obtain ⟨s₁, hs₁, hrest⟩ := Option.bind_eq_some_iff.mp hrun
    obtain ⟨as, t₁, has, hR⟩ := hstep e s s₁ t hs hs₁
    obtain ⟨bs, t', hbs, hR'⟩ := ih hR hrest
    refine ⟨as ++ bs, t', ?_, hR'⟩
    rw [runs_append, has, Option.bind_some, hbs]

/-- As many parts as the events can have together. -/
theorem length_trace_le {n : Nat} (h : ∀ e s, (parts e s).length ≤ n) :
    (trace step parts es s).length ≤ n * es.length := by
  induction es generalizing s with
  | nil => exact Nat.zero_le _
  | cons e es ih =>
    rw [trace, List.length_append, List.length_cons, Nat.mul_succ, Nat.add_comm]
    refine Nat.add_le_add ?_ (h e s)
    cases step e s with
    | none => exact Nat.zero_le _
    | some s₁ => exact ih

/-! ## The events met -/

/-- The events of a run with the states they are taken in. -/
def met (step : ε → σ → Option σ) : List ε → σ → List (ε × σ) := trace step fun e s => [(e, s)]

/-- **The invariant rule** for a run whose events meet a condition. -/
theorem runs_rule_met (P : ε → σ → Prop) (Inv : σ → Prop)
    (hstep : ∀ e s s', Inv s → P e s → step e s = some s' → Inv s')
    (hs : Inv s) (hmet : ∀ e s₁, (e, s₁) ∈ met step es s → P e s₁)
    (hrun : runs step es s = some s') : Inv s' := by
  induction es generalizing s with
  | nil =>
    cases hrun
    exact hs
  | cons e es ih =>
    obtain ⟨s₁, hs₁, hrest⟩ := Option.bind_eq_some_iff.mp hrun
    have hcons : met step (e :: es) s = (e, s) :: met step es s₁ := trace_cons_of_some hs₁
    rw [hcons] at hmet
    exact ih (hstep e s s₁ hs (hmet e s List.mem_cons_self) hs₁)
      (fun e' s' h => hmet e' s' (List.mem_cons_of_mem _ h)) hrest

/-! ## Runs that end -/

/-- **The rule for runs that end.** Every event lowers the rank, so a run is no longer than the rank
it starts from. -/
theorem length_add_rank_le (Inv : σ → Prop) (rank : σ → Nat)
    (hstep : ∀ e s s', Inv s → step e s = some s' → Inv s' ∧ rank s' < rank s)
    (hs : Inv s) (hrun : runs step es s = some s') : es.length + rank s' ≤ rank s := by
  induction es generalizing s with
  | nil =>
    cases hrun
    exact Nat.le_of_eq (Nat.zero_add _)
  | cons e es ih =>
    obtain ⟨s₁, hs₁, hrest⟩ := Option.bind_eq_some_iff.mp hrun
    obtain ⟨hinv, hlt⟩ := hstep e s s₁ hs hs₁
    have := ih hinv hrest
    rw [List.length_cons]
    omega

end MiniWeb.Runs
