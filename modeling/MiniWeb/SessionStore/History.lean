import MiniWeb.SessionStore.Termination

/-!
# Runs of the session store

A run is recorded beside the table: the clock, the tokens issued, the sessions created and not
destroyed, and the tokens destroyed. A call may be made when time has not gone back and its token
is new.

No call changes a session in use except to put it out of use (`Weakens`), so the tokens in use
stay distinct issued tokens (`Tidy`).
-/

namespace MiniWeb.SessionStore

open Loop CStr

/-- The table and what has happened so far. -/
structure World where
  table : Table
  clock : Int
  issued : List CStr
  live : List Session
  closed : List CStr

/-- The start of a run: the table of `session_init`. -/
def World.start (clock : Int) : World := ⟨sessionInit, clock, [], [], []⟩

/-- The sessions not destroyed and not past their `expires_at`. -/
def World.liveAt (w : World) (now : Int) : List Session :=
  w.live.filter fun x => decide (now ≤ x.expiresAt)

def World.close (w : World) (sid : CStr) (t : Table) : World :=
  { w with
    table := t
    live := w.live.filter fun x => decide (x.sessionId ≠ sid)
    closed := if sid ∈ w.issued then sid :: w.closed else w.closed }

/-- The record of a created session. -/
def World.issue (w : World) (sid username role : CStr) (now : Int) (t : Table) : World :=
  { w with
    table := t
    clock := now
    issued := sid :: w.issued
    live := newSession sid username role now :: w.live }

/-- A call and its record. -/
def Call.step : Call → World → Option World
  | .create randomBytes username role sweep resweep now, w =>
    (sessionCreate randomBytes username role sweep resweep now w.table).map fun
      | (some sid, t) => w.issue sid username role now t
      | (none, t) => { w with table := t, clock := now }
  | .lookup sid now, w =>
    (sessionLookup sid now w.table).map fun (_, t) => { w with table := t, clock := now }
  | .destroy sid, w => (sessionDestroy sid w.table).map (w.close sid)
  | .cleanup now, w =>
    (sessionCleanupExpired now w.table).map fun t => { w with table := t, clock := now }

def runCalls : List Call → World → Option World
  | [], w => some w
  | call :: calls, w => (call.step w).bind (runCalls calls)

/-- Tokens are fresh and time does not go back. -/
def Call.allowed : Call → World → Bool
  | .create randomBytes _ _ sweep resweep now, w =>
    decide (hexEncode randomBytes.toList ∉ w.issued) &&
      decide (w.clock ≤ sweep ∧ sweep ≤ resweep ∧ resweep ≤ now)
  | .lookup _ now, w => decide (w.clock ≤ now)
  | .destroy _, _ => true
  | .cleanup now, w => decide (w.clock ≤ now)

/-- A condition on each call and the state before it holds along the run. -/
def along (p : Call → World → Bool) : List Call → World → Bool
  | [], _ => true
  | call :: calls, w => p call w && (call.step w).all (along p calls)

/-- **Runs.** What a call keeps under a condition holds at the end of a run that meets the
condition. -/
theorem runCalls_rule {p : Call → World → Bool} {Inv : World → Prop}
    (hstep : ∀ call w w', Inv w → p call w = true → call.step w = some w' → Inv w') :
    ∀ {calls : List Call} {w w' : World}, Inv w → along p calls w = true →
      runCalls calls w = some w' → Inv w' := by
  intro calls
  induction calls with
  | nil =>
    intro w w' hw _ hrun
    cases hrun
    exact hw
  | cons call calls ih =>
    intro w w' hw hp hrun
    obtain ⟨w₁, hw₁, hrest⟩ := Option.bind_eq_some_iff.mp hrun
    obtain ⟨hcall, hcalls⟩ := Bool.and_eq_true_iff.mp hp
    rw [hw₁] at hcalls
    exact ih (hstep call w w₁ hw hcall hw₁) hcalls hrest

/-! ## Sessions in use -/

/-- Every session in use in `t'` is in use in `t` and unchanged. -/
def Weakens (t t' : Table) : Prop :=
  ∀ i, (t'.sessions i).used = true → t'.sessions i = t.sessions i

/-- The ids in use are distinct issued tokens. -/
structure Tidy (issued : List CStr) (t : Table) : Prop where
  issued : ∀ i, (t.sessions i).used = true → (t.sessions i).sessionId ∈ issued
  distinct : ∀ i j, (t.sessions i).used = true → (t.sessions j).used = true →
    (t.sessions i).sessionId = (t.sessions j).sessionId → i = j

section

variable {t t' t'' : Table} {issued : List CStr} {sid : CStr} {now : Int}

theorem Weakens.refl (t : Table) : Weakens t t := fun _ _ => rfl

theorem Weakens.trans (h : Weakens t t') (h' : Weakens t' t'') : Weakens t t'' := by
  intro i hi
  have hi' := h' i hi
  rw [hi'] at hi
  exact hi'.trans (h i hi)

theorem weakens_unuse (t : Table) (i : Fin maxSessions) : Weakens t (t.unuse i) := by
  intro j hj
  by_cases hji : j = i
  · rw [hji, Table.unuse_sessions, Function.update_self] at hj
    cases hj
  · rw [Table.unuse_sessions, Function.update_of_ne hji]

theorem Weakens.tidy (h : Weakens t t') (ht : Tidy issued t) : Tidy issued t' := by
  constructor
  · intro i hi
    have hi' := h i hi
    rw [hi'] at hi ⊢
    exact ht.issued i hi
  · intro i j hi hj hij
    have hi' := h i hi
    have hj' := h j hj
    rw [hi'] at hi hij
    rw [hj'] at hj hij
    exact ht.distinct i j hi hj hij

theorem sessionDestroy_weakens (h : sessionDestroy sid t = some t') : Weakens t t' := by
  rcases sessionDestroy_cases h with ⟨k, -, rfl⟩ | ⟨k, i, -, rfl⟩
  · exact .refl _
  · exact weakens_unuse t i

theorem sessionLookup_weakens {r : Option (Fin maxSessions)}
    (h : sessionLookup sid now t = some (r, t')) : Weakens t t' := by
  rcases sessionLookup_cases h with
    ⟨-, rfl, -⟩ | ⟨k, i, -, ⟨-, -, rfl⟩ | ⟨-, -, hd⟩⟩
  · exact .refl _
  · exact .refl _
  · exact sessionDestroy_weakens hd

theorem cleanupAt_weakens {i : Fin maxSessions} (h : cleanupAt now i t = some t') :
    Weakens t t' := by
  rcases cleanupAt_cases h with ⟨-, rfl⟩ | ⟨-, ⟨k, -, rfl⟩ | ⟨k, j, -, rfl⟩⟩
  · exact .refl _
  · exact weakens_unuse t i
  · exact weakens_unuse (t.clear k) i

theorem cleanupFrom_weakens {is : List (Fin maxSessions)} (h : cleanupFrom now is t = some t') :
    Weakens t t' := by
  induction is generalizing t with
  | nil =>
    cases h
    exact .refl _
  | cons i is ih =>
    obtain ⟨t₁, ht₁, hrest⟩ := Option.bind_eq_some_iff.mp h
    exact (cleanupAt_weakens ht₁).trans (ih hrest)

theorem findFreeSlot_weakens {sweep resweep : Int} {slot : Option (Fin maxSessions)}
    (h : findFreeSlot sweep resweep t = some (slot, t')) : Weakens t t' := by
  obtain ⟨t₁, ht₁, -, ⟨rfl, -⟩ | ⟨-, ht'⟩⟩ := findFreeSlot_cases h
  · exact cleanupFrom_weakens ht₁
  · exact (cleanupFrom_weakens ht₁).trans (cleanupFrom_weakens ht')

theorem findFreeSlot_unused {sweep resweep : Int} {slot : Fin maxSessions}
    (h : findFreeSlot sweep resweep t = some (some slot, t')) :
    (t'.sessions slot).used = false := by
  obtain ⟨t₁, -, hslot, -⟩ := findFreeSlot_cases h
  exact firstUnused_some hslot.symm

/-- A new session with a new token. -/
theorem Tidy.fill (h : Tidy issued t) {x : Session} (hx : x.sessionId ∉ issued)
    (i : Fin maxSessions) : Tidy (x.sessionId :: issued) (t.fill i x) := by
  have hold : ∀ j, j ≠ i → (t.fill i x).sessions j = t.sessions j := by
    intro j hj
    rw [Table.fill_sessions, Function.update_of_ne hj]
  have hnew : (t.fill i x).sessions i = x := by
    rw [Table.fill_sessions, Function.update_self]
  constructor
  · intro j hj
    by_cases hji : j = i
    · rw [hji, hnew]
      exact List.mem_cons_self
    · rw [hold j hji] at hj ⊢
      exact List.mem_cons_of_mem _ (h.issued j hj)
  · intro j l hj hl hjl
    by_cases hji : j = i
    · by_cases hli : l = i
      · rw [hji, hli]
      · rw [hji, hnew, hold l hli] at hjl
        rw [hold l hli] at hl
        exact absurd (hjl ▸ h.issued l hl) hx
    · by_cases hli : l = i
      · rw [hli, hnew, hold j hji] at hjl
        rw [hold j hji] at hj
        exact absurd (hjl ▸ h.issued j hj) hx
      · rw [hold j hji, hold l hli] at hjl
        rw [hold j hji] at hj
        rw [hold l hli] at hl
        exact h.distinct j l hj hl hjl

end

end MiniWeb.SessionStore
