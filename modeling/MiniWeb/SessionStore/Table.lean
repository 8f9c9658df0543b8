import MiniWeb.Lib.CString
import MiniWeb.Lib.Probe

/-!
# The session store

Sessions live in `g_sessions`; `g_hash` maps hash slots to sessions, with `-1` for an empty slot.
A session is looked for from the slot `hash_id` gives, upwards to the first empty slot. Four
loops walk the table that way, and each is a probe; an operation whose loop does not end has no
result. A removal empties the entry's slot.

`time(NULL)` and the random bytes are arguments. The functions that get a `NULL` id do nothing;
the callers never pass one.
-/

namespace MiniWeb.SessionStore

open Loop CStr

def sessionIdLen : Nat := 65
abbrev sessionHashSize : Nat := 256
abbrev maxSessions : Nat := 1024
def sessionTtl : Int := 3600

instance neZero_sessionHashSize : NeZero sessionHashSize := ⟨by decide⟩

/-- `session_t`. -/
structure Session where
  sessionId : CStr
  username : CStr
  role : CStr
  createdAt : Int
  expiresAt : Int
  used : Bool
deriving DecidableEq, Repr

def Session.zero : Session := ⟨[], [], [], 0, 0, false⟩

/-- `g_sessions` and `g_hash`. -/
structure Table where
  sessions : Fin maxSessions → Session
  hash : Fin sessionHashSize → Option (Fin maxSessions)

/-- The table `session_init` leaves. -/
def sessionInit : Table := ⟨fun _ => .zero, fun _ => none⟩

/-- The table as static storage: every hash slot holds `0`, the index of the first session. -/
def Table.static : Table := ⟨fun _ => .zero, fun _ => some 0⟩

def hashId (s : CStr) : Fin sessionHashSize := Fin.ofNat sessionHashSize (djb2 s &&& 255).toNat

def hexDigit (n : UInt8) : UInt8 := if n < 10 then 48 + n else 87 + n

def hexEncode (bytes : List UInt8) : CStr :=
  bytes.flatMap fun (b : UInt8) => [hexDigit (b >>> 4), hexDigit (b &&& 15)]

namespace Table

variable (t : Table)

/-- `s->used && strcmp(s->session_id, session_id) == 0`. -/
def holds (sid : CStr) (idx : Fin maxSessions) : Bool :=
  (t.sessions idx).used && decide (strcmp (t.sessions idx).sessionId sid = .eq)

/-- `used = 0` for a session. -/
def unuse (idx : Fin maxSessions) : Table :=
  { t with sessions := Function.update t.sessions idx { t.sessions idx with used := false } }

/-- `g_hash[h] = -1`. -/
def clear (h : Fin sessionHashSize) : Table := { t with hash := Function.update t.hash h none }

/-- `g_sessions[idx] = s`. -/
def fill (idx : Fin maxSessions) (s : Session) : Table :=
  { t with sessions := Function.update t.sessions idx s }

/-- `g_hash[h] = idx`. -/
def link (h : Fin sessionHashSize) (idx : Fin maxSessions) : Table :=
  { t with hash := Function.update t.hash h (some idx) }

@[simp] theorem unuse_hash (idx : Fin maxSessions) : (t.unuse idx).hash = t.hash := rfl
@[simp] theorem unuse_sessions (idx : Fin maxSessions) : (t.unuse idx).sessions =
    Function.update t.sessions idx { t.sessions idx with used := false } := rfl
@[simp] theorem clear_hash (h : Fin sessionHashSize) :
    (t.clear h).hash = Function.update t.hash h none := rfl
@[simp] theorem clear_sessions (h : Fin sessionHashSize) :
    (t.clear h).sessions = t.sessions := rfl
@[simp] theorem fill_hash (idx : Fin maxSessions) (s : Session) : (t.fill idx s).hash = t.hash := rfl
@[simp] theorem fill_sessions (idx : Fin maxSessions) (s : Session) :
    (t.fill idx s).sessions = Function.update t.sessions idx s := rfl
@[simp] theorem link_hash (h : Fin sessionHashSize) (idx : Fin maxSessions) :
    (t.link h idx).hash = Function.update t.hash h (some idx) := rfl
@[simp] theorem link_sessions (h : Fin sessionHashSize) (idx : Fin maxSessions) :
    (t.link h idx).sessions = t.sessions := rfl

end Table

/-! ## The operations -/

/-- The loop of `session_lookup` and `session_destroy`. -/
def findEntry (sid : CStr) (t : Table) :
    Option (Fin sessionHashSize × Option (Fin maxSessions)) :=
  probe t.hash (t.holds sid) (hashId sid)

def sessionDestroy (sid : CStr) (t : Table) : Option Table :=
  (findEntry sid t).map fun
    | (h, some idx) => (t.unuse idx).clear h
    | (_, none) => t

def sessionLookup (sid : CStr) (now : Int) (t : Table) :
    Option (Option (Fin maxSessions) × Table) :=
  if sid = [] then some (none, t)
  else
    (findEntry sid t).bind fun
      | (_, some idx) =>
        if now > (t.sessions idx).expiresAt then
          (sessionDestroy sid t).map fun t => (none, t)
        else some (some idx, t)
      | (_, none) => some (none, t)

def expired (now : Int) (i : Fin maxSessions) (t : Table) : Bool :=
  (t.sessions i).used && decide (now > (t.sessions i).expiresAt)

/-- The loop that removes session `i` from the hash. -/
def findIndex (i : Fin maxSessions) (t : Table) :
    Option (Fin sessionHashSize × Option (Fin maxSessions)) :=
  probe t.hash (fun idx => decide (idx = i)) (hashId (t.sessions i).sessionId)

/-- One pass of the loop of `session_cleanup_expired`. -/
def cleanupAt (now : Int) (i : Fin maxSessions) (t : Table) : Option Table :=
  if expired now i t then
    (findIndex i t).map fun
      | (h, some _) => (t.clear h).unuse i
      | (_, none) => t.unuse i
  else some t

def cleanupFrom (now : Int) : List (Fin maxSessions) → Table → Option Table
  | [], t => some t
  | i :: is, t => (cleanupAt now i t).bind (cleanupFrom now is)

def sessionCleanupExpired (now : Int) (t : Table) : Option Table :=
  cleanupFrom now (List.finRange maxSessions) t

/-- The first session that is not in use. -/
def firstUnused (t : Table) : Option (Fin maxSessions) :=
  (List.finRange maxSessions).find? fun i => !(t.sessions i).used

/-- The start of `session_create`: clean up at time `sweep`, take a free session, and if there is
none clean up again at time `resweep` and take one then. -/
def findFreeSlot (sweep resweep : Int) (t : Table) : Option (Option (Fin maxSessions) × Table) :=
  (sessionCleanupExpired sweep t).bind fun t =>
    match firstUnused t with
    | some slot => some (some slot, t)
    | none => (sessionCleanupExpired resweep t).map fun t => (firstUnused t, t)

/-- The session `session_create` fills in. -/
def newSession (token username role : CStr) (now : Int) : Session :=
  ⟨cut sessionIdLen token, cut 64 username, cut 32 role, now, now + sessionTtl, true⟩

/-- The loop that looks for an empty slot. -/
def findEmpty (token : CStr) (t : Table) :
    Option (Fin sessionHashSize × Option (Fin maxSessions)) :=
  probe t.hash (fun _ => false) (hashId token)

/-- The rest of `session_create`, for a free session. -/
def insertSession (slot : Fin maxSessions) (token username role : CStr) (now : Int) (t : Table) :
    Option (CStr × Table) :=
  let t := t.fill slot (newSession token username role now)
  (findEmpty token t).map fun (h, _) => ((t.sessions slot).sessionId, t.link h slot)

/-- `session_create`, with the bytes read from `/dev/urandom` and the times of its two cleanups
and of `created_at`. -/
def sessionCreate (randomBytes : Vector UInt8 32) (username role : CStr)
    (sweep resweep now : Int) (t : Table) : Option (Option CStr × Table) :=
  (findFreeSlot sweep resweep t).bind fun
    | (none, t) => some (none, t)
    | (some slot, t) =>
      (insertSession slot (hexEncode randomBytes.toList) username role now t).map
        fun (sid, t) => (some sid, t)

/-! ## What a removal does -/

section

variable {t t' : Table} {sid : CStr} {now : Int} {i j : Fin maxSessions}
  {k : Fin sessionHashSize}

@[simp] theorem Table.holds_iff :
    t.holds sid i = true ↔ (t.sessions i).used = true ∧ (t.sessions i).sessionId = sid := by
  simp [holds]

theorem findEntry_some (h : findEntry sid t = some (k, some i)) :
    t.hash k = some i ∧ t.holds sid i = true := by
  obtain ⟨hr, hstop, -⟩ := probe_eq_some_iff.mp h
  refine ⟨hr.symm, ?_⟩
  by_contra hhit
  exact hstop ⟨i, hr.symm, Bool.eq_false_iff.mpr hhit⟩

theorem findIndex_some (h : findIndex i t = some (k, some j)) : t.hash k = some i := by
  obtain ⟨hr, hstop, -⟩ := probe_eq_some_iff.mp h
  rw [← hr]
  by_contra hne
  exact hstop ⟨j, hr.symm, by simpa using fun h0 => hne (congrArg some h0)⟩

/-- `session_destroy` finds the session and removes it, or changes nothing. -/
theorem sessionDestroy_cases (h : sessionDestroy sid t = some t') :
    (∃ k, findEntry sid t = some (k, none) ∧ t' = t) ∨
      ∃ k i, findEntry sid t = some (k, some i) ∧ t' = (t.unuse i).clear k := by
  obtain ⟨⟨k, r⟩, hk, rfl⟩ := Option.map_eq_some_iff.mp h
  cases r with
  | none => exact .inl ⟨k, hk, rfl⟩
  | some i => exact .inr ⟨k, i, hk, rfl⟩

/-- `session_lookup` changes the table only if it finds the session expired, and then as
`session_destroy` does. -/
theorem sessionLookup_cases {r : Option (Fin maxSessions)}
    (h : sessionLookup sid now t = some (r, t')) :
    (r = none ∧ t' = t ∧ (sid = [] ∨ ∃ k, findEntry sid t = some (k, none))) ∨
      ∃ k i, findEntry sid t = some (k, some i) ∧
        (now ≤ (t.sessions i).expiresAt ∧ r = some i ∧ t' = t ∨
          (t.sessions i).expiresAt < now ∧ r = none ∧ sessionDestroy sid t = some t') := by
  by_cases hsid : sid = []
  · rw [sessionLookup, if_pos hsid] at h
    cases h
    exact .inl ⟨rfl, rfl, .inl hsid⟩
  · rw [sessionLookup, if_neg hsid] at h
    obtain ⟨⟨k, e⟩, hk, hr⟩ := Option.bind_eq_some_iff.mp h
    cases e with
    | none =>
      cases hr
      exact .inl ⟨rfl, rfl, .inr ⟨k, hk⟩⟩
    | some i =>
      refine .inr ⟨k, i, hk, ?_⟩
      by_cases hexp : now > (t.sessions i).expiresAt
      · simp only [if_pos hexp] at hr
        obtain ⟨t'', ht'', hpair⟩ := Option.map_eq_some_iff.mp hr
        cases hpair
        exact .inr ⟨hexp, rfl, ht''⟩
      · simp only [if_neg hexp] at hr
        cases hr
        exact .inl ⟨by omega, rfl, rfl⟩

/-- One pass of the clean-up removes an expired session, from the hash if it is found there. -/
theorem cleanupAt_cases (h : cleanupAt now i t = some t') :
    (expired now i t = false ∧ t' = t) ∨ expired now i t = true ∧
      ((∃ k, findIndex i t = some (k, none) ∧ t' = t.unuse i) ∨
        ∃ k j, findIndex i t = some (k, some j) ∧ t' = (t.clear k).unuse i) := by
  by_cases hexp : expired now i t = true
  · rw [cleanupAt, if_pos hexp] at h
    obtain ⟨⟨k, r⟩, hk, rfl⟩ := Option.map_eq_some_iff.mp h
    refine .inr ⟨hexp, ?_⟩
    cases r with
    | none => exact .inl ⟨k, hk, rfl⟩
    | some j => exact .inr ⟨k, j, hk, rfl⟩
  · rw [cleanupAt, if_neg hexp] at h
    cases h
    exact .inl ⟨by simpa using hexp, rfl⟩

theorem firstUnused_some (h : firstUnused t = some i) : (t.sessions i).used = false := by
  simpa using List.find?_some h

/-- `session_create` cleans up and takes an unused session, or finds none. -/
theorem findFreeSlot_cases {sweep resweep : Int} {slot : Option (Fin maxSessions)}
    (h : findFreeSlot sweep resweep t = some (slot, t')) :
    ∃ t₁, sessionCleanupExpired sweep t = some t₁ ∧ slot = firstUnused t' ∧
      (t' = t₁ ∧ firstUnused t₁ ≠ none ∨
        firstUnused t₁ = none ∧ sessionCleanupExpired resweep t₁ = some t') := by
  obtain ⟨t₁, ht₁, hr⟩ := Option.bind_eq_some_iff.mp h
  refine ⟨t₁, ht₁, ?_⟩
  cases hfirst : firstUnused t₁ with
  | some s =>
    simp only [hfirst] at hr
    cases hr
    exact ⟨hfirst.symm, .inl ⟨rfl, Option.some_ne_none s⟩⟩
  | none =>
    simp only [hfirst] at hr
    obtain ⟨t₂, ht₂, hpair⟩ := Option.map_eq_some_iff.mp hr
    obtain ⟨hslot, ht'⟩ := Prod.mk.inj hpair
    rw [← ht', ← hslot]
    exact ⟨rfl, .inr ⟨rfl, ht₂⟩⟩

/-- An insertion fills the session and the empty slot its search ends at. -/
theorem insertSession_cases {slot : Fin maxSessions} {token username role id : CStr}
    (h : insertSession slot token username role now t = some (id, t')) :
    ∃ k r, findEmpty token (t.fill slot (newSession token username role now)) = some (k, r) ∧
      id = cut sessionIdLen token ∧
      t' = (t.fill slot (newSession token username role now)).link k slot := by
  obtain ⟨⟨k, r⟩, hk, hpair⟩ := Option.map_eq_some_iff.mp h
  obtain ⟨hid, ht'⟩ := Prod.mk.inj hpair
  refine ⟨k, r, hk, ?_, ht'.symm⟩
  rw [← hid, Table.fill_sessions, Function.update_self]
  rfl

theorem sessionCreate_cases {randomBytes : Vector UInt8 32} {username role : CStr}
    {sweep resweep : Int} {r : Option CStr}
    (h : sessionCreate randomBytes username role sweep resweep now t = some (r, t')) :
    (findFreeSlot sweep resweep t = some (none, t') ∧ r = none) ∨
      ∃ slot t₁ id, findFreeSlot sweep resweep t = some (some slot, t₁) ∧
        insertSession slot (hexEncode randomBytes.toList) username role now t₁ = some (id, t') ∧
        r = some id := by
  obtain ⟨⟨slot, t₁⟩, ht₁, hr⟩ := Option.bind_eq_some_iff.mp h
  cases slot with
  | none =>
    obtain ⟨hr, ht⟩ := Prod.mk.inj (Option.some.inj hr)
    exact .inl ⟨ht ▸ ht₁, hr.symm⟩
  | some slot =>
    obtain ⟨⟨id, t₂⟩, ht₂, hpair⟩ := Option.map_eq_some_iff.mp hr
    obtain ⟨hr, ht⟩ := Prod.mk.inj hpair
    exact .inr ⟨slot, t₁, id, ht₁, ht ▸ ht₂, hr.symm⟩

end

/-! ## Tokens -/

theorem length_hexEncode (bytes : List UInt8) : (hexEncode bytes).length = 2 * bytes.length := by
  induction bytes with
  | nil => rfl
  | cons b bytes ih =>
    unfold hexEncode at ih ⊢
    rw [List.flatMap_cons, List.length_append, ih, List.length_cons, List.length_cons,
      List.length_cons, List.length_nil]
    omega

/-- The token of a new session fits its field. -/
theorem cut_hexEncode (randomBytes : Vector UInt8 32) :
    cut sessionIdLen (hexEncode randomBytes.toList) = hexEncode randomBytes.toList := by
  apply List.take_of_length_le
  rw [length_hexEncode, Vector.length_toList]
  exact Nat.le_refl 64

/-- A new session is issued under its whole token. -/
theorem insertSession_token {t t' : Table} {now : Int} {slot : Fin maxSessions}
    {randomBytes : Vector UInt8 32} {username role id : CStr}
    (h : insertSession slot (hexEncode randomBytes.toList) username role now t = some (id, t')) :
    id = hexEncode randomBytes.toList ∧ cut sessionIdLen id = id ∧
      ∃ k, t' = (t.fill slot (newSession id username role now)).link k slot := by
  obtain ⟨k, r, -, hid, ht'⟩ := insertSession_cases h
  rw [cut_hexEncode] at hid
  refine ⟨hid, ?_, k, ?_⟩
  · rw [hid]
    exact cut_hexEncode randomBytes
  · rw [hid]
    exact ht'

theorem hexEncode_ne_nil (randomBytes : Vector UInt8 32) : hexEncode randomBytes.toList ≠ [] := by
  apply List.ne_nil_of_length_pos
  rw [length_hexEncode, Vector.length_toList]
  omega

end MiniWeb.SessionStore
