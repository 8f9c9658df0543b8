import MiniWeb.SessionStore.Liveness

/-!
# Destroyed sessions stay away

`session_destroy` does nothing when an empty slot lies before the entry of its session. The
session then stays in use, and a later insertion can fill that slot and make it reachable again.
As long as every destroyed session is reached, none is found later.
-/

namespace MiniWeb.SessionStore

open Loop CStr

/-! ## The condition on a call -/

/-- No slot before `e` on the way from `home` is empty. -/
def unbroken (t : Table) (home e : Fin sessionHashSize) : Bool :=
  (List.finRange sessionHashSize).all fun k =>
    !decide (dist home k < dist home e) || (t.hash k).isSome

/-- An entry of session `i` can be reached from its hash slot. -/
def reachable (t : Table) (i : Fin maxSessions) : Bool :=
  (List.finRange sessionHashSize).any fun e =>
    decide (t.hash e = some i) && unbroken t (hashId (t.sessions i).sessionId) e

/-- A session that is destroyed before it expires can be reached. -/
def Call.reaches : Call → World → Bool
  | .destroy sid, w =>
    (List.finRange maxSessions).all fun i =>
      !(w.table.holds sid i && decide (w.clock ≤ (w.table.sessions i).expiresAt)) ||
        reachable w.table i
  | _, _ => true

section

variable {t t' : Table} {issued : List CStr} {sid : CStr} {i : Fin maxSessions}

theorem Table.reachable_iff : reachable t i = true ↔
    ∃ e, t.hash e = some i ∧ Chained t.hash (hashId (t.sessions i).sessionId) e := by
  simp [reachable, unbroken, Chained, Option.isSome_iff_ne_none, or_iff_not_imp_left]

/-- A session that can be reached is put out of use. -/
theorem sessionDestroy_reachable (ht : Tidy issued t) (hi : t.holds sid i = true)
    (hreach : reachable t i = true) (hd : sessionDestroy sid t = some t') :
    (t'.sessions i).used = false := by
  obtain ⟨hused, hid⟩ := Table.holds_iff.mp hi
  obtain ⟨e, he, hchain⟩ := Table.reachable_iff.mp hreach
  rw [hid] at hchain
  obtain ⟨j, b, hprobe, -, hb, -⟩ := hchain.probe he hi
  obtain ⟨hbused, hbid⟩ := Table.holds_iff.mp hb
  rcases sessionDestroy_cases hd with ⟨k, hk, -⟩ | ⟨k, i', hk, rfl⟩
  · rw [findEntry, hprobe] at hk
    cases hk
  · rw [findEntry, hprobe] at hk
    cases hk
    have hbi : b = i := ht.distinct b i hbused hused (hbid.trans hid.symm)
    rw [Table.clear_sessions, Table.unuse_sessions, hbi, Function.update_self]

theorem Weakens.holds (h : Weakens t t') (hi : t'.holds sid i = true) :
    t.holds sid i = true ∧ t'.sessions i = t.sessions i := by
  have hsame := h i (Table.holds_iff.mp hi).1
  refine ⟨?_, hsame⟩
  rwa [Table.holds_iff, hsame, ← Table.holds_iff] at hi

end

/-! ## Runs -/

/-- What holds in every state of a run whose destroyed sessions were reached: a destroyed token
that is still in use has expired. -/
structure LoggedOut (w : World) : Prop where
  tidy : Tidy w.issued w.table
  issued : ∀ sid ∈ w.closed, sid ∈ w.issued
  gone : ∀ sid ∈ w.closed, ∀ i, w.table.holds sid i = true →
    (w.table.sessions i).expiresAt < w.clock

section

variable {w w' : World} {now : Int} {t : Table}

theorem loggedOut_start (clock : Int) : LoggedOut (World.start clock) := by
  refine ⟨(allFound_start clock).keeps.tidy, fun sid hsid => ?_, fun sid hsid => ?_⟩
  · cases hsid
  · cases hsid

/-- A call that only puts sessions out of use. -/
theorem LoggedOut.weaken (h : LoggedOut w) (ht : Weakens w.table t) (hnow : w.clock ≤ now) :
    LoggedOut { w with table := t, clock := now } := by
  refine ⟨ht.tidy h.tidy, h.issued, fun sid hsid i hi => ?_⟩
  obtain ⟨hold, hsame⟩ := ht.holds hi
  have := h.gone sid hsid i hold
  show (t.sessions i).expiresAt < now
  rw [hsame]
  omega

theorem LoggedOut.close {sid : CStr} (h : LoggedOut w)
    (hreach : (Call.destroy sid).reaches w = true) (hd : sessionDestroy sid w.table = some t) :
    LoggedOut (w.close sid t) := by
  have hweak := sessionDestroy_weakens hd
  have hnew : ∀ i, t.holds sid i = true → (t.sessions i).expiresAt < w.clock := by
    intro i hi
    obtain ⟨hold, hsame⟩ := hweak.holds hi
    by_contra hlate
    rw [hsame] at hlate
    have hall := List.all_eq_true.mp hreach i (List.mem_finRange i)
    have hre : reachable w.table i = true := by
      simpa [hold, show w.clock ≤ (w.table.sessions i).expiresAt by omega] using hall
    have hout := sessionDestroy_reachable h.tidy hold hre hd
    rw [(Table.holds_iff.mp hi).1] at hout
    cases hout
  have hold := h.weaken hweak (Int.le_refl w.clock)
  unfold World.close
  refine ⟨hold.tidy, fun sid' hmem => ?_, fun sid' hmem i hi => ?_⟩
  · split at hmem
    next hissued =>
      rcases List.mem_cons.mp hmem with rfl | hmem
      · exact hissued
      · exact h.issued sid' hmem
    next => exact h.issued sid' hmem
  · split at hmem
    next hissued =>
      rcases List.mem_cons.mp hmem with rfl | hmem
      · exact hnew i hi
      · exact hold.gone sid' hmem i hi
    next => exact hold.gone sid' hmem i hi

theorem LoggedOut.issue {slot : Fin maxSessions} {k : Fin sessionHashSize}
    {sid username role : CStr} (h : LoggedOut w) (hfresh : sid ∉ w.issued)
    (hcut : cut sessionIdLen sid = sid) (hnow : w.clock ≤ now) (ht : Weakens w.table t) :
    LoggedOut (w.issue sid username role now
      ((t.fill slot (newSession sid username role now)).link k slot)) := by
  have hold := h.weaken ht hnow
  have hid : (newSession sid username role now).sessionId = sid := hcut
  have htidy : Tidy (sid :: w.issued) (t.fill slot (newSession sid username role now)) := by
    have := hold.tidy.fill (x := newSession sid username role now) (by rwa [hid]) slot
    rwa [hid] at this
  have hlink : Weakens (t.fill slot (newSession sid username role now))
      ((t.fill slot (newSession sid username role now)).link k slot) := fun _ _ => rfl
  refine ⟨hlink.tidy htidy, fun sid' hmem => List.mem_cons_of_mem _ (h.issued sid' hmem),
    fun sid' hmem i hi => ?_⟩
  obtain ⟨hfill, -⟩ := hlink.holds hi
  by_cases hslot : i = slot
  · -- a new token has not been destroyed
    rw [Table.holds_iff, hslot, Table.fill_sessions, Function.update_self, hid] at hfill
    exact absurd (hfill.2 ▸ h.issued sid' hmem) hfresh
  · have hsame : (t.fill slot (newSession sid username role now)).sessions i = t.sessions i := by
      rw [Table.fill_sessions, Function.update_of_ne hslot]
    rw [Table.holds_iff, hsame, ← Table.holds_iff] at hfill
    have := hold.gone sid' hmem i hfill
    exact hsame ▸ this

theorem LoggedOut.step {call : Call} (h : LoggedOut w)
    (hcall : (call.allowed w && call.reaches w) = true) (hstep : call.step w = some w') :
    LoggedOut w' := by
  obtain ⟨hallowed, hreach⟩ := Bool.and_eq_true_iff.mp hcall
  unfold Call.step at hstep
  cases call with
  | lookup sid now =>
    obtain ⟨⟨r, t⟩, ht, rfl⟩ := Option.map_eq_some_iff.mp hstep
    exact h.weaken (sessionLookup_weakens ht) (of_decide_eq_true hallowed)
  | cleanup now =>
    obtain ⟨t, ht, rfl⟩ := Option.map_eq_some_iff.mp hstep
    exact h.weaken (cleanupFrom_weakens ht) (of_decide_eq_true hallowed)
  | destroy sid =>
    obtain ⟨t, ht, rfl⟩ := Option.map_eq_some_iff.mp hstep
    exact h.close hreach ht
  | create randomBytes username role sweep resweep now =>
    obtain ⟨⟨r, t⟩, ht, hw'⟩ := Option.map_eq_some_iff.mp hstep
    obtain ⟨hfresh, htimes⟩ := Bool.and_eq_true_iff.mp hallowed
    have hfresh := of_decide_eq_true hfresh
    obtain ⟨hsweep, hresweep, hnow⟩ := of_decide_eq_true htimes
    rcases sessionCreate_cases ht with ⟨hfull, rfl⟩ | ⟨slot, t₁, id, hfree, hins, rfl⟩
    · subst hw'
      exact h.weaken (findFreeSlot_weakens hfull) (by omega)
    · subst hw'
      obtain ⟨hid, hself, k, rfl⟩ := insertSession_token hins
      rw [← hid] at hfresh
      exact h.issue hfresh hself (by omega) (findFreeSlot_weakens hfree)

/-- **Logout is final.** In every state of a run whose calls of `session_destroy` reach the
sessions they destroy, no lookup of a destroyed token returns a session. -/
theorem runCalls_destroyed {calls : List Call} {clock : Int}
    (hcalls : along (fun call w => call.allowed w && call.reaches w) calls (World.start clock)
      = true)
    (hrun : runCalls calls (World.start clock) = some w) {sid : CStr} (hsid : sid ∈ w.closed)
    (hnow : w.clock ≤ now) (i : Fin maxSessions) (t : Table) :
    sessionLookup sid now w.table ≠ some (some i, t) := by
  have h : LoggedOut w :=
    runCalls_rule (fun _ _ _ hw hp hs => hw.step hp hs) (loggedOut_start clock) hcalls hrun
  intro hlookup
  rcases sessionLookup_cases hlookup with
    ⟨hr, -, -⟩ | ⟨k, j, hk, ⟨hexp, -, -⟩ | ⟨-, hr, -⟩⟩
  · cases hr
  · have := h.gone sid hsid j (findEntry_some hk).2
    omega
  · cases hr

end

/-- Three tokens of one hash slot: destroying the first leaves a hole before the second, so
destroying the second does nothing, and creating the third fills the hole. -/
theorem lookup_after_logout :
    ∃ w, runCalls [createWith 0, createWith 4, .destroy (tokenOf 0), .destroy (tokenOf 4),
        createWith 8] (World.start 0) = some w ∧
      along Call.allowed [createWith 0, createWith 4, .destroy (tokenOf 0),
        .destroy (tokenOf 4), createWith 8] (World.start 0) = true ∧
      tokenOf 4 ∈ w.closed ∧
        (sessionLookup (tokenOf 4) w.clock w.table).map Prod.fst = some (some 1) := by
  have hend : (runCalls [createWith 0, createWith 4, .destroy (tokenOf 0), .destroy (tokenOf 4),
      createWith 8] (World.start 0)).map (fun w => (decide (tokenOf 4 ∈ w.closed),
        (sessionLookup (tokenOf 4) w.clock w.table).map Prod.fst)) =
      some (true, some (some 1)) := by decide +kernel
  obtain ⟨w, hw, hpair⟩ := Option.map_eq_some_iff.mp hend
  obtain ⟨hclosed, hfound⟩ := Prod.mk.inj hpair
  exact ⟨w, hw, by decide +kernel, of_decide_eq_true hclosed, hfound⟩

/-- Destroyed in the other order, neither comes back. -/
theorem runCalls_destroyed_example :
    ∃ w, runCalls [createWith 0, createWith 4, .destroy (tokenOf 4), .destroy (tokenOf 0),
        createWith 8] (World.start 0) = some w ∧
      ∀ i t, sessionLookup (tokenOf 4) 10 w.table ≠ some (some i, t) := by
  have hend : (runCalls [createWith 0, createWith 4, .destroy (tokenOf 4), .destroy (tokenOf 0),
      createWith 8] (World.start 0)).map (fun w => (decide (tokenOf 4 ∈ w.closed), w.clock)) =
      some (true, 0) := by decide +kernel
  obtain ⟨w, hw, hpair⟩ := Option.map_eq_some_iff.mp hend
  obtain ⟨hclosed, hclock⟩ := Prod.mk.inj hpair
  have hnow : w.clock ≤ 10 := by omega
  exact ⟨w, hw, runCalls_destroyed (by decide +kernel) hw (of_decide_eq_true hclosed) hnow⟩

end MiniWeb.SessionStore
