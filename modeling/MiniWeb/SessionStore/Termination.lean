import MiniWeb.SessionStore.Table
import Mathlib.Data.Fintype.EquivFin

/-!
# Termination of the session store

Every loop of the store ends in a state with an empty hash slot, and in a state without one the
search for an unknown id runs forever. A removal never fills a slot and `session_create` fills
one, so the loops of a run end exactly when the run starts from `session_init` and no
`session_create` takes the last empty slot.
-/

namespace MiniWeb.SessionStore

open Loop CStr

/-- A call of one of the four functions, with the random bytes and the times it reads. -/
inductive Call where
  | create (randomBytes : Vector UInt8 32) (username role : CStr) (sweep resweep now : Int)
  | lookup (sid : CStr) (now : Int)
  | destroy (sid : CStr)
  | cleanup (now : Int)

/-- The table a call leaves. -/
def Call.exec : Call → Table → Option Table
  | .create randomBytes username role sweep resweep now, t =>
    (sessionCreate randomBytes username role sweep resweep now t).map Prod.snd
  | .lookup sid now, t => (sessionLookup sid now t).map Prod.snd
  | .destroy sid, t => sessionDestroy sid t
  | .cleanup now, t => sessionCleanupExpired now t

/-- The modes of `main.c` that serve requests through `request_handler_process_http`. -/
inductive ServingMode where
  | fork
  | thread
  | pool
  | select
  | epoll
  | server
  | master

/-- The table a mode starts with: only master mode calls `session_init`. -/
def ServingMode.table : ServingMode → Table
  | .master => sessionInit
  | _ => .static

/-! ## What the property and its condition say -/

/-- The four loops end, for every id and every session. -/
structure LoopsEnd (t : Table) : Prop where
  create : ∀ sid, Halts (probeStep t.hash fun _ => false) (hashId sid)
  search : ∀ sid, Halts (probeStep t.hash (t.holds sid)) (hashId sid)
  sweep : ∀ i, Halts (probeStep t.hash fun idx => decide (idx = i))
    (hashId (t.sessions i).sessionId)

/-- The loops end in every state of the run, and the run goes through to its end. -/
def Terminates : List Call → Table → Prop
  | [], t => LoopsEnd t
  | call :: calls, t => LoopsEnd t ∧ ∃ t', call.exec t = some t' ∧ Terminates calls t'

/-- If the call comes to insert a session, two hash slots are empty. -/
def Call.HasRoom : Call → Table → Prop
  | .create _ _ _ sweep resweep _, t =>
    ∀ slot t', findFreeSlot sweep resweep t = some (some slot, t') →
      ∃ h k, h ≠ k ∧ t'.hash h = none ∧ t'.hash k = none
  | _, _ => True

def RoomInRun : List Call → Table → Prop
  | [], _ => True
  | call :: calls, t => call.HasRoom t ∧ ∀ t', call.exec t = some t' → RoomInRun calls t'

/-! ## Empty slots -/

def Free (t : Table) : Prop := ∃ h, t.hash h = none

/-- No slot is filled from `t` to `t'`. -/
def OnlyEmpties (t t' : Table) : Prop := ∀ h, t.hash h = none → t'.hash h = none

section

variable {t t' t'' : Table} {sid : CStr} {now : Int}

theorem OnlyEmpties.refl (t : Table) : OnlyEmpties t t := fun _ h => h

theorem OnlyEmpties.trans (h : OnlyEmpties t t') (h' : OnlyEmpties t' t'') : OnlyEmpties t t'' :=
  fun k hk => h' k (h k hk)

theorem OnlyEmpties.free (h : OnlyEmpties t t') : Free t → Free t' := by
  rintro ⟨k, hk⟩
  exact ⟨k, h k hk⟩

theorem onlyEmpties_unuse (t : Table) (i : Fin maxSessions) : OnlyEmpties t (t.unuse i) :=
  fun _ h => h

theorem onlyEmpties_clear (t : Table) (h : Fin sessionHashSize) : OnlyEmpties t (t.clear h) := by
  intro k hk
  rw [Table.clear_hash, Function.update_apply]
  split
  · rfl
  · exact hk

theorem findEmpty_of_free (h : Free t) (token : CStr) :
    ∃ k, findEmpty token t = some (k, none) ∧ t.hash k = none := by
  obtain ⟨k, hk⟩ := probe_of_free h (fun _ => false) (hashId token)
  have hnone : t.hash k = none := by
    by_contra hne
    obtain ⟨idx, hidx⟩ := Option.ne_none_iff_exists'.mp hne
    exact (probe_eq_some_iff.mp hk).2.1 ⟨idx, hidx, rfl⟩
  rw [hnone] at hk
  exact ⟨k, hk, hnone⟩

/-! ## Removals end -/

theorem sessionDestroy_total (h : Free t) (sid : CStr) :
    ∃ t', sessionDestroy sid t = some t' ∧ OnlyEmpties t t' := by
  obtain ⟨k, hk⟩ := probe_of_free h (t.holds sid) (hashId sid)
  unfold sessionDestroy findEntry
  rw [hk]
  cases t.hash k with
  | none => exact ⟨t, rfl, .refl t⟩
  | some idx => exact ⟨_, rfl, (onlyEmpties_unuse t idx).trans (onlyEmpties_clear _ k)⟩

theorem sessionLookup_total (h : Free t) (sid : CStr) (now : Int) :
    ∃ r t', sessionLookup sid now t = some (r, t') ∧ OnlyEmpties t t' := by
  by_cases hsid : sid = []
  · exact ⟨none, t, if_pos hsid, .refl t⟩
  · obtain ⟨k, hk⟩ := probe_of_free h (t.holds sid) (hashId sid)
    simp only [sessionLookup, if_neg hsid, findEntry, hk, Option.bind_some]
    cases t.hash k with
    | none => exact ⟨none, t, rfl, .refl t⟩
    | some idx =>
      by_cases hexp : now > (t.sessions idx).expiresAt
      · obtain ⟨t', ht', hempties⟩ := sessionDestroy_total h sid
        simp only [if_pos hexp, ht']
        exact ⟨none, t', rfl, hempties⟩
      · simp only [if_neg hexp]
        exact ⟨some idx, t, rfl, .refl t⟩

theorem cleanupAt_total (h : Free t) (now : Int) (i : Fin maxSessions) :
    ∃ t', cleanupAt now i t = some t' ∧ OnlyEmpties t t' := by
  by_cases hexp : expired now i t = true
  · obtain ⟨k, hk⟩ :=
      probe_of_free h (fun idx => decide (idx = i)) (hashId (t.sessions i).sessionId)
    simp only [cleanupAt, if_pos hexp, findIndex, hk, Option.map_some]
    cases t.hash k with
    | none => exact ⟨_, rfl, onlyEmpties_unuse t i⟩
    | some idx => exact ⟨_, rfl, (onlyEmpties_clear t k).trans (onlyEmpties_unuse _ i)⟩
  · exact ⟨t, if_neg hexp, .refl t⟩

theorem cleanupFrom_total (is : List (Fin maxSessions)) (h : Free t) (now : Int) :
    ∃ t', cleanupFrom now is t = some t' ∧ OnlyEmpties t t' := by
  induction is generalizing t with
  | nil => exact ⟨t, rfl, .refl t⟩
  | cons i is ih =>
    obtain ⟨t₁, ht₁, hempties₁⟩ := cleanupAt_total h now i
    obtain ⟨t₂, ht₂, hempties₂⟩ := ih (hempties₁.free h)
    refine ⟨t₂, ?_, hempties₁.trans hempties₂⟩
    rw [cleanupFrom, ht₁, Option.bind_some, ht₂]

theorem sessionCleanupExpired_total (h : Free t) (now : Int) :
    ∃ t', sessionCleanupExpired now t = some t' ∧ OnlyEmpties t t' :=
  cleanupFrom_total _ h now

theorem findFreeSlot_total (h : Free t) (sweep resweep : Int) :
    ∃ slot t', findFreeSlot sweep resweep t = some (slot, t') ∧ OnlyEmpties t t' := by
  obtain ⟨t₁, ht₁, hempties₁⟩ := sessionCleanupExpired_total h sweep
  unfold findFreeSlot
  rw [ht₁, Option.bind_some]
  cases firstUnused t₁ with
  | some slot => exact ⟨some slot, t₁, rfl, hempties₁⟩
  | none =>
    obtain ⟨t₂, ht₂, hempties₂⟩ := sessionCleanupExpired_total (hempties₁.free h) resweep
    refine ⟨firstUnused t₂, t₂, ?_, hempties₁.trans hempties₂⟩
    simp only [ht₂, Option.map_some]

/-! ## Insertion -/

/-- An insertion fills one empty slot. -/
theorem insertSession_fills (h : Free t) (slot : Fin maxSessions) (token username role : CStr)
    (now : Int) :
    ∃ k, t.hash k = none ∧ insertSession slot token username role now t =
      some (cut sessionIdLen token,
        (t.fill slot (newSession token username role now)).link k slot) := by
  have hfill : Free (t.fill slot (newSession token username role now)) := h
  obtain ⟨k, hk, hnone⟩ := findEmpty_of_free hfill token
  refine ⟨k, hnone, ?_⟩
  simp only [insertSession, hk, Option.map_some, Table.fill_sessions, Function.update_self]
  rfl

/-- Creating a session with no slot free in the array, or with two empty hash slots, leaves an
empty hash slot. -/
theorem Call.exec_total (h : Free t) {call : Call} (hroom : call.HasRoom t) :
    ∃ t', call.exec t = some t' ∧ Free t' := by
  cases call with
  | lookup sid now =>
    obtain ⟨r, t', ht', hempties⟩ := sessionLookup_total h sid now
    exact ⟨t', by rw [Call.exec, ht']; rfl, hempties.free h⟩
  | destroy sid =>
    obtain ⟨t', ht', hempties⟩ := sessionDestroy_total h sid
    exact ⟨t', ht', hempties.free h⟩
  | cleanup now =>
    obtain ⟨t', ht', hempties⟩ := sessionCleanupExpired_total h now
    exact ⟨t', ht', hempties.free h⟩
  | create randomBytes username role sweep resweep now =>
    obtain ⟨slot, t₁, ht₁, hempties⟩ := findFreeSlot_total h sweep resweep
    have hfree₁ := hempties.free h
    simp only [Call.exec, sessionCreate, ht₁, Option.bind_some]
    cases slot with
    | none => exact ⟨t₁, rfl, hfree₁⟩
    | some slot =>
      obtain ⟨k, -, ht₂⟩ := insertSession_fills hfree₁ slot
        (hexEncode randomBytes.toList) username role now
      obtain ⟨h₁, h₂, hne, hh₁, hh₂⟩ := hroom slot t₁ ht₁
      simp only [ht₂, Option.map_some]
      refine ⟨_, rfl, ?_⟩
      -- one of the two empty slots is not the one that is filled
      by_cases hk : h₁ = k
      · refine ⟨h₂, ?_⟩
        rw [Table.link_hash, Function.update_of_ne (fun h0 => hne (hk.trans h0.symm))]
        exact hh₂
      · refine ⟨h₁, ?_⟩
        rw [Table.link_hash, Function.update_of_ne hk]
        exact hh₁

/-- Conversely, an empty slot after the call means there was room. -/
theorem Call.hasRoom_of_free (h : Free t) {call : Call} (hexec : call.exec t = some t')
    (hfree' : Free t') : call.HasRoom t := by
  cases call with
  | lookup sid now => trivial
  | destroy sid => trivial
  | cleanup now => trivial
  | create randomBytes username role sweep resweep now =>
    intro slot t₁ ht₁
    obtain ⟨slot', t₁', ht₁', hempties⟩ := findFreeSlot_total h sweep resweep
    rw [ht₁] at ht₁'
    cases ht₁'
    obtain ⟨k, hk, ht₂⟩ := insertSession_fills (hempties.free h) slot
      (hexEncode randomBytes.toList) username role now
    simp only [Call.exec, sessionCreate, ht₁, Option.bind_some, ht₂, Option.map_some] at hexec
    cases hexec
    obtain ⟨k', hk'⟩ := hfree'
    rw [Table.link_hash] at hk'
    by_cases hkk : k' = k
    · rw [hkk, Function.update_self] at hk'
      cases hk'
    · rw [Function.update_of_ne hkk] at hk'
      exact ⟨k, k', fun h0 => hkk h0.symm, hk, hk'⟩

end

/-! ## The loops -/

/-- Some string is not the id of any session. -/
theorem exists_unknown (t : Table) : ∃ sid : CStr, ∀ i, t.holds sid i = false := by
  obtain ⟨sid, hsid⟩ :=
    Infinite.exists_notMem_finset (Finset.univ.image fun i => (t.sessions i).sessionId)
  refine ⟨sid, fun i => ?_⟩
  have hne : (t.sessions i).sessionId ≠ sid := by
    intro h0
    exact hsid (Finset.mem_image.mpr ⟨i, Finset.mem_univ i, h0⟩)
  simp [Table.holds, hne]

theorem loopsEnd_iff {t : Table} : LoopsEnd t ↔ Free t := by
  constructor
  · intro h
    obtain ⟨sid, hsid⟩ := exists_unknown t
    obtain ⟨k, hk⟩ := probe_halts_iff.mp (h.search sid)
    refine ⟨k, ?_⟩
    by_contra hne
    obtain ⟨idx, hidx⟩ := Option.ne_none_iff_exists'.mp hne
    exact hk ⟨idx, hidx, hsid idx⟩
  · rintro ⟨k, hk⟩
    have hstop : ∀ hit, ∃ j, ¬ Passes t.hash hit j := by
      refine fun hit => ⟨k, ?_⟩
      rintro ⟨idx, hidx, -⟩
      rw [hk] at hidx
      cases hidx
    exact ⟨fun _ => probe_halts_iff.mpr (hstop _), fun _ => probe_halts_iff.mpr (hstop _),
      fun _ => probe_halts_iff.mpr (hstop _)⟩

theorem terminates_iff {calls : List Call} {t : Table} (h : Free t) :
    Terminates calls t ↔ RoomInRun calls t := by
  induction calls generalizing t with
  | nil => exact ⟨fun _ => trivial, fun _ => loopsEnd_iff.mpr h⟩
  | cons call calls ih =>
    have hstart : ∀ {t'}, Terminates calls t' → Free t' := by
      intro t' ht'
      cases calls with
      | nil => exact loopsEnd_iff.mp ht'
      | cons call' calls => exact loopsEnd_iff.mp ht'.1
    constructor
    · rintro ⟨-, t', hexec, ht'⟩
      refine ⟨Call.hasRoom_of_free h hexec (hstart ht'), fun t'' hexec' => ?_⟩
      rw [hexec] at hexec'
      cases hexec'
      exact (ih (hstart ht')).mp ht'
    · rintro ⟨hroom, hrun⟩
      obtain ⟨t', hexec, hfree'⟩ := Call.exec_total h hroom
      exact ⟨loopsEnd_iff.mpr h, t', hexec, (ih hfree').mpr (hrun t' hexec)⟩

theorem not_free_static : ¬ Free Table.static := by
  rintro ⟨k, hk⟩
  cases hk

/-- **Termination.** The loops of a run end exactly when it starts in master mode and every
insertion finds two empty hash slots. -/
theorem run_terminates_iff (mode : ServingMode) (calls : List Call) :
    Terminates calls mode.table ↔ mode = .master ∧ RoomInRun calls mode.table := by
  have hstatic : ¬ Terminates calls Table.static := by
    intro h
    apply not_free_static
    cases calls with
    | nil => exact loopsEnd_iff.mp h
    | cons call calls => exact loopsEnd_iff.mp h.1
  cases mode
  case master =>
    have hfree : Free sessionInit := ⟨0, rfl⟩
    exact (terminates_iff hfree).trans ⟨fun h => ⟨rfl, h⟩, fun h => h.2⟩
  all_goals exact ⟨fun h => absurd h hstatic, fun h => by cases h.1⟩

/-- In epoll mode the first lookup of an id runs forever. -/
theorem epoll_lookup_hangs :
    ¬ Terminates [.lookup (ascii "x") 0] ServingMode.epoll.table ∧
      sessionLookup (ascii "x") 0 ServingMode.epoll.table = none := by
  constructor
  · intro h
    obtain ⟨k, hk⟩ := probe_halts_iff.mp (h.1.search (ascii "x"))
    exact hk ⟨0, rfl, rfl⟩
  · decide +kernel

end MiniWeb.SessionStore
