import MiniWeb.SessionStore.Liveness

/-!
# Sessions are not mixed up

Holes, stale entries and several entries for one session can make a search miss a session, but
the comparison is made on the session itself. Every session in use is as some `session_create`
of the run made it (`Traced`), and so is every session a lookup returns.
-/

namespace MiniWeb.SessionStore

open Loop CStr

/-- A `session_create` that returned an id. -/
structure Creation where
  sid : CStr
  username : CStr
  role : CStr
  createdAt : Int

/-- The session it made. -/
def Creation.session (c : Creation) : Session :=
  ⟨c.sid, cut 64 c.username, cut 32 c.role, c.createdAt, c.createdAt + sessionTtl, true⟩

/-- The creation a call is, if it is one and returns an id. -/
def Call.creation : Call → World → Option Creation
  | .create randomBytes username role sweep resweep now, w =>
    (sessionCreate randomBytes username role sweep resweep now w.table).bind fun (sid, _) =>
      sid.map fun sid => ⟨sid, username, role, now⟩
  | .lookup _ _, _ => none
  | .destroy _, _ => none
  | .cleanup _, _ => none

/-- The creations of a run, in order. -/
def creations : List Call → World → List Creation
  | [], _ => []
  | call :: calls, w =>
    (call.creation w).toList ++ ((call.step w).map (creations calls)).getD []

/-- The creations so far have the tokens issued, and every session in use is one of theirs. -/
structure Traced (past : List Creation) (w : World) : Prop where
  issued : ∀ sid, sid ∈ w.issued ↔ ∃ c ∈ past, c.sid = sid
  distinct : (past.map Creation.sid).Nodup
  session : ∀ i, (w.table.sessions i).used = true → ∃ c ∈ past, w.table.sessions i = c.session

section

variable {past : List Creation} {w w' : World} {now : Int} {t : Table}

theorem traced_start (clock : Int) : Traced [] (World.start clock) := by
  refine ⟨fun sid => ?_, List.nodup_nil, fun i hi => ?_⟩
  · simp [World.start]
  · cases hi

/-- Calls that only put sessions out of use. -/
theorem Traced.weaken (h : Traced past w) (ht : Weakens w.table w'.table)
    (hissued : w'.issued = w.issued) : Traced past w' := by
  refine ⟨fun sid => ?_, h.distinct, fun i hi => ?_⟩
  · rw [hissued]
    exact h.issued sid
  · have hsame := ht i hi
    rw [hsame] at hi ⊢
    exact h.session i hi

/-- A new session in a slot. -/
theorem Traced.issue (h : Traced past w) {slot : Fin maxSessions} {k : Fin sessionHashSize}
    {sid username role : CStr} (hfresh : sid ∉ w.issued) (hcut : cut sessionIdLen sid = sid)
    (ht : Weakens w.table t) :
    Traced (past ++ [⟨sid, username, role, now⟩]) (w.issue sid username role now
      ((t.fill slot (newSession sid username role now)).link k slot)) := by
  have hnone : ∀ c ∈ past, c.sid ≠ sid := fun c hc hsid =>
    hfresh ((h.issued sid).mpr ⟨c, hc, hsid⟩)
  have hnew : newSession sid username role now = Creation.session ⟨sid, username, role, now⟩ := by
    rw [newSession, hcut]
    rfl
  refine ⟨fun sid' => ?_, ?_, fun i hi => ?_⟩
  · show sid' ∈ sid :: w.issued ↔ _
    rw [List.mem_cons, h.issued sid']
    constructor
    · rintro (rfl | ⟨c, hc, hsid⟩)
      · exact ⟨_, List.mem_append_right _ (List.mem_singleton_self _), rfl⟩
      · exact ⟨c, List.mem_append_left _ hc, hsid⟩
    · rintro ⟨c, hc, rfl⟩
      rcases List.mem_append.mp hc with hc | hc
      · exact .inr ⟨c, hc, rfl⟩
      · rw [List.mem_singleton.mp hc]
        exact .inl rfl
  · rw [List.map_append, List.map_singleton]
    apply h.distinct.append (List.nodup_singleton sid)
    intro a ha hsid
    obtain ⟨c, hc, rfl⟩ := List.mem_map.mp ha
    exact hnone c hc (List.mem_singleton.mp hsid)
  · by_cases hslot : i = slot
    · refine ⟨_, List.mem_append_right _ (List.mem_singleton_self _), ?_⟩
      show (t.fill slot (newSession sid username role now)).sessions i = _
      rw [hslot, Table.fill_sessions, Function.update_self, hnew]
    · have hsame : (t.fill slot (newSession sid username role now)).sessions i = t.sessions i := by
        rw [Table.fill_sessions, Function.update_of_ne hslot]
      have hused : (t.sessions i).used = true := hsame ▸ hi
      have hold := ht i hused
      rw [hold] at hused
      obtain ⟨c, hc, heq⟩ := h.session i hused
      exact ⟨c, List.mem_append_left _ hc, hsame.trans (hold.trans heq)⟩

theorem Traced.step {call : Call} (h : Traced past w) (hallowed : call.allowed w = true)
    (hstep : call.step w = some w') : Traced (past ++ (call.creation w).toList) w' := by
  unfold Call.step at hstep
  cases call with
  | lookup sid now =>
    obtain ⟨⟨r, t⟩, ht, rfl⟩ := Option.map_eq_some_iff.mp hstep
    rw [Call.creation, Option.toList_none, List.append_nil]
    exact h.weaken (sessionLookup_weakens ht) rfl
  | cleanup now =>
    obtain ⟨t, ht, rfl⟩ := Option.map_eq_some_iff.mp hstep
    rw [Call.creation, Option.toList_none, List.append_nil]
    exact h.weaken (cleanupFrom_weakens ht) rfl
  | destroy sid =>
    obtain ⟨t, ht, rfl⟩ := Option.map_eq_some_iff.mp hstep
    rw [Call.creation, Option.toList_none, List.append_nil]
    exact h.weaken (sessionDestroy_weakens ht) rfl
  | create randomBytes username role sweep resweep now =>
    obtain ⟨⟨r, t⟩, ht, hw'⟩ := Option.map_eq_some_iff.mp hstep
    obtain ⟨hfresh, -⟩ := Bool.and_eq_true_iff.mp hallowed
    have hfresh := of_decide_eq_true hfresh
    rw [Call.creation, ht, Option.bind_some]
    rcases sessionCreate_cases ht with ⟨hfull, rfl⟩ | ⟨slot, t₁, id, hfree, hins, rfl⟩
    · subst hw'
      have hsame : Traced past { w with table := t, clock := now } :=
        h.weaken (findFreeSlot_weakens hfull) rfl
      rwa [← List.append_nil past] at hsame
    · subst hw'
      obtain ⟨hid, hself, k, rfl⟩ := insertSession_token hins
      rw [← hid] at hfresh
      exact h.issue hfresh hself (findFreeSlot_weakens hfree)

theorem Traced.run {calls : List Call} (h : Traced past w)
    (hallowed : along Call.allowed calls w = true) (hrun : runCalls calls w = some w') :
    Traced (past ++ creations calls w) w' := by
  induction calls generalizing past w with
  | nil =>
    cases hrun
    rw [creations, List.append_nil]
    exact h
  | cons call calls ih =>
    obtain ⟨w₁, hw₁, hrest⟩ := Option.bind_eq_some_iff.mp hrun
    obtain ⟨hcall, hcalls⟩ := Bool.and_eq_true_iff.mp hallowed
    rw [hw₁] at hcalls
    rw [creations, hw₁, Option.map_some, Option.getD_some, ← List.append_assoc]
    exact ih (h.step hcall hw₁) hcalls hrest

/-- **Identity.** Whenever in a run with fresh tokens and a clock that does not go back a lookup
of `sid` returns a session, exactly one `session_create` of the run has returned `sid`, and the
session is the one it made: with that id, that name and role, and a lifetime that is not over. -/
theorem runCalls_identity {calls : List Call} {clock : Int}
    (hallowed : along Call.allowed calls (World.start clock) = true)
    (hrun : runCalls calls (World.start clock) = some w) {sid : CStr} {i : Fin maxSessions}
    (hlookup : sessionLookup sid now w.table = some (some i, t)) :
    ∃ c ∈ creations calls (World.start clock),
      (∀ c' ∈ creations calls (World.start clock), c'.sid = sid ↔ c' = c) ∧
        t.sessions i = c.session ∧ c.sid = sid ∧ now ≤ c.createdAt + sessionTtl := by
  have h : Traced (creations calls (World.start clock)) w :=
    (traced_start clock).run hallowed hrun
  rcases sessionLookup_cases hlookup with
    ⟨hr, -, -⟩ | ⟨k, j, hk, ⟨hexp, hr, rfl⟩ | ⟨-, hr, -⟩⟩
  · cases hr
  · obtain rfl := Option.some.inj hr
    obtain ⟨hused, hid⟩ := Table.holds_iff.mp (findEntry_some hk).2
    obtain ⟨c, hc, hsession⟩ := h.session i hused
    rw [hsession] at hexp hid
    have hsid : c.sid = sid := hid
    refine ⟨c, hc, fun c' hc' => ⟨fun hsid' => ?_, fun heq => heq ▸ hsid⟩, hsession, hsid, hexp⟩
    exact List.inj_on_of_nodup_map h.distinct hc' hc (hsid'.trans hsid.symm)
  · cases hr

end

/-- A session that is still found after another one was destroyed. -/
theorem runCalls_identity_example :
    ∃ w i t, runCalls [createWith 0, createWith 4, .destroy (tokenOf 4)] (World.start 0) = some w ∧
      sessionLookup (tokenOf 0) 10 w.table = some (some i, t) ∧
      ∃ c ∈ creations [createWith 0, createWith 4, .destroy (tokenOf 4)] (World.start 0),
        t.sessions i = c.session ∧ c.sid = tokenOf 0 := by
  obtain ⟨w, hrun⟩ := Option.isSome_iff_exists.mp (show (runCalls
    [createWith 0, createWith 4, .destroy (tokenOf 4)] (World.start 0)).isSome = true by
      decide +kernel)
  have hfound : ((runCalls [createWith 0, createWith 4, .destroy (tokenOf 4)]
      (World.start 0)).bind fun w => sessionLookup (tokenOf 0) 10 w.table).map Prod.fst =
        some (some 0) := by decide +kernel
  rw [hrun, Option.bind_some] at hfound
  obtain ⟨⟨r, t⟩, hlookup, rfl⟩ := Option.map_eq_some_iff.mp hfound
  obtain ⟨c, hc, -, hsession, hsid, -⟩ :=
    runCalls_identity (show along Call.allowed
      [createWith 0, createWith 4, .destroy (tokenOf 4)] (World.start 0) = true by decide +kernel)
      hrun hlookup
  exact ⟨w, 0, t, hrun, hlookup, c, hc, hsession, hsid⟩

end MiniWeb.SessionStore
