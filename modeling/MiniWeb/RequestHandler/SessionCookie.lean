import MiniWeb.Lib.CText
import MiniWeb.RequestHandler.Credentials

/-!
# The session cookie among other cookies

Three functions take the session id from the `Cookie` header with the same lines: `strstr` for
`session_id=` and a copy up to a `;` or a blank. The header is a list of cookies; the search stops
at the first of them that holds the text, in its name or in its value.
-/

namespace MiniWeb.RequestHandler

open Loop CStr SessionStore

/-! ## The three copies -/

/-- The session id that `request_handler_process_http` extracts. -/
def processHttpSid (cookie : CStr) : Option CStr :=
  if cookie ≠ [] then cookieSid cookie else none

/-- The session id that `handle_index` extracts. -/
def handleIndexSid (cookie : CStr) : Option CStr :=
  if cookie ≠ [] then cookieSid cookie else none

/-- The session id that `handle_logout` extracts. -/
def handleLogoutSid (cookie : CStr) : Option CStr := cookieSid cookie

theorem cookieSid_nil : cookieSid [] = none := by decide

theorem processHttpSid_eq (cookie : CStr) : processHttpSid cookie = cookieSid cookie := by
  unfold processHttpSid
  split
  case isTrue => rfl
  case isFalse h => rw [not_not.mp h, cookieSid_nil]

theorem handleIndexSid_eq (cookie : CStr) : handleIndexSid cookie = cookieSid cookie :=
  processHttpSid_eq cookie

/-- The dispatcher looks up the id extracted. -/
theorem cookieRole_processHttpSid (cookie : CStr) (now : Int) (sessions : Table) :
    cookieRole cookie now sessions =
      match processHttpSid cookie with
      | none => some (none, sessions)
      | some sid =>
        (sessionLookup sid now sessions).map fun (s, sessions) =>
          (s.map fun i => (sessions.sessions i).role, sessions) := by
  rw [processHttpSid_eq]
  by_cases h : cookie = []
  · simp [cookieRole, h, cookieSid_nil]
  · exact if_neg h

/-! ## Lists of cookies -/

def sessionKey : CStr := ascii "session_id"

/-- A pair of a `Cookie` header. -/
structure Cookie where
  name : CStr
  value : CStr
  nameOK : 61 ∉ name ∧ 59 ∉ name
  valueOK : 59 ∉ value ∧ 32 ∉ value
  short : value.length ≤ 64

/-- `name=value`. -/
def Cookie.text (p : Cookie) : CStr := p.name ++ 61 :: p.value

def Cookie.isSession (p : Cookie) : Bool := p.name = sessionKey

/-- The pairs, with `"; "` between them. -/
def cookieHeader : List Cookie → CStr
  | [] => []
  | [p] => p.text
  | p :: ps => p.text ++ 59 :: 32 :: cookieHeader ps

/-- What is taken for a session id in the pair: the value, if the name ends in `session_id`, or
what follows the first `session_id=` in the value. -/
def Cookie.taken (p : Cookie) : Option CStr :=
  if sessionKey <:+ p.name then some p.value
  else (strstr p.value (sessionKey ++ [61])).map (·.drop 11)

/-- What is wanted: the value of the only pair of the name, in each of the three copies, and
nothing if no pair has the name. -/
def SessionFound (ps : List Cookie) : Prop :=
  ∀ extract ∈ [processHttpSid, handleIndexSid, handleLogoutSid],
    (∀ p, ps.filter (·.isSession) = [p] → extract (cookieHeader ps) = some p.value) ∧
    (ps.filter (·.isSession) = [] → extract (cookieHeader ps) = none)

/-- Nothing else is taken for the session id: of the pairs in front of the session cookie none
ends its name in `session_id` or has `session_id=` in its value, unless the first that does gives
the same id; and without a session cookie there is no such pair at all. -/
def Unmistaken (ps : List Cookie) : Prop :=
  (∀ p, ps.filter (·.isSession) = [p] →
    ∀ sid ∈ (ps.takeWhile (¬ ·.isSession)).findSome? (·.taken), sid = p.value) ∧
  (ps.filter (·.isSession) = [] → ∀ p ∈ ps, p.taken = none)

/-! ## The search in a header -/

section

variable {p : Cookie} {ps : List Cookie} {s y : CStr}

theorem sessionKey_spec : 61 ∉ sessionKey ∧ 59 ∉ sessionKey ∧ 32 ∉ sessionKey ∧
    sessionKey.length = 10 := by decide

theorem sessionKey_eq : ascii "session_id=" = sessionKey ++ [61] := by decide

theorem notMem_key {c : UInt8} (hc : c ∉ sessionKey) (hne : c ≠ 61) :
    c ∉ sessionKey ++ [61] := by
  rw [List.mem_append, List.mem_singleton]
  rintro (h | h)
  · exact hc h
  · exact hne h

/-- The search in one pair. -/
theorem Cookie.strstr_text (p : Cookie) :
    (strstr p.text (sessionKey ++ [61])).map (·.drop 11) = p.taken := by
  obtain ⟨heq, -, -, hlen⟩ := sessionKey_spec
  rw [Cookie.text, strstr_key heq p.nameOK.1, Cookie.taken]
  split
  · rw [Option.map_some, List.drop_append, hlen, List.drop_of_length_le (by omega)]
    rfl
  · rfl

theorem Cookie.taken_of_strstr (p : Cookie) {t : CStr}
    (h : strstr p.text (sessionKey ++ [61]) = some t) : p.taken = some (t.drop 11) := by
  rw [← p.strstr_text, h]
  rfl

/-- What is taken from a pair is an end of its value. -/
theorem Cookie.taken_suffix (h : p.taken = some s) : s <:+ p.value := by
  unfold Cookie.taken at h
  split at h
  · rw [Option.some.inj h]
  · obtain ⟨t, ht, rfl⟩ := Option.map_eq_some_iff.mp h
    exact (List.drop_suffix 11 t).trans (strstr_spec (by simp) ht).1

/-- The copy of what is found stops behind the value. -/
theorem cut_taken (h : s <:+ p.value) (hy : ∀ c ∈ y.head?, c = 59) :
    cut sessionIdLen ((s ++ y).takeWhile fun c => c ≠ 59 ∧ c ≠ 32) = s := by
  have hs : ∀ c ∈ s, decide (c ≠ 59 ∧ c ≠ 32) = true := by
    intro c hc
    have hvalue := h.subset hc
    exact decide_eq_true
      ⟨fun h59 => p.valueOK.1 (h59 ▸ hvalue), fun h32 => p.valueOK.2 (h32 ▸ hvalue)⟩
  have hstop : (y.takeWhile fun c => decide (c ≠ 59 ∧ c ≠ 32)) = [] := by
    cases y with
    | nil => rfl
    | cons c y =>
      rw [hy c rfl]
      rfl
  rw [List.takeWhile_append_of_pos hs, hstop, List.append_nil]
  apply List.take_of_length_le
  exact Nat.le_trans h.length_le p.short

theorem cookieSid_pair (p : Cookie) : cookieSid p.text = p.taken := by
  unfold cookieSid
  rw [sessionKey_eq, ← p.strstr_text]
  cases hfound : strstr p.text (sessionKey ++ [61]) with
  | none => rfl
  | some t =>
    have htaken := p.taken_of_strstr hfound
    have hcut := cut_taken (y := []) (Cookie.taken_suffix htaken) nofun
    rw [List.append_nil] at hcut
    rw [Option.map_some, Option.map_some, hcut]

theorem cookieSid_cons (p : Cookie) (y : CStr) :
    cookieSid (p.text ++ 59 :: 32 :: y) = p.taken.or (cookieSid y) := by
  obtain ⟨-, h59, h32, -⟩ := sessionKey_spec
  have hne : sessionKey ++ [61] ≠ [] := by simp
  unfold cookieSid
  rw [sessionKey_eq, strstr_split hne (notMem_key h59 (by decide)),
    strstr_cons hne (notMem_key h32 (by decide)), ← p.strstr_text]
  cases hfound : strstr p.text (sessionKey ++ [61]) with
  | none => rfl
  | some t =>
    have htaken := p.taken_of_strstr hfound
    have hlen : 11 ≤ t.length := by
      have h := (strstr_spec hne hfound).2.length_le
      rw [List.length_append, sessionKey_spec.2.2.2] at h
      exact h
    have hcut := cut_taken (y := 59 :: 32 :: y) (Cookie.taken_suffix htaken) (by simp)
    simp only [Option.map_some, Option.some_or, List.drop_append_of_le_length hlen, hcut]

/-- **The search** finds the first pair that something is taken from. -/
theorem cookieSid_header (ps : List Cookie) :
    cookieSid (cookieHeader ps) = ps.findSome? (·.taken) := by
  induction ps using cookieHeader.induct with
  | case1 => exact cookieSid_nil
  | case2 p =>
    rw [cookieHeader, cookieSid_pair, List.findSome?_cons]
    cases p.taken <;> rfl
  | case3 p ps hps ih =>
    rw [cookieHeader, cookieSid_cons, ih, List.findSome?_cons]
    · cases p.taken <;> rfl
    · exact hps

theorem Cookie.taken_session (h : p.isSession = true) : p.taken = some p.value := by
  have hname : p.name = sessionKey := of_decide_eq_true h
  rw [Cookie.taken, if_pos (hname ▸ List.suffix_rfl)]

theorem extract_eq {extract : CStr → Option CStr}
    (h : extract ∈ [processHttpSid, handleIndexSid, handleLogoutSid]) (cookie : CStr) :
    extract cookie = cookieSid cookie := by
  simp only [List.mem_cons, List.not_mem_nil, or_false] at h
  rcases h with rfl | rfl | rfl
  · exact processHttpSid_eq cookie
  · exact handleIndexSid_eq cookie
  · rfl

/-- The pairs in front of the only session cookie decide. -/
theorem findSome?_taken (h : ps.filter (·.isSession) = [p]) :
    ps.findSome? (·.taken) =
      ((ps.takeWhile (¬ ·.isSession)).findSome? (·.taken)).or (some p.value) := by
  induction ps with
  | nil => cases h
  | cons q ps ih =>
    by_cases hq : q.isSession = true
    · rw [List.filter_cons_of_pos hq] at h
      obtain ⟨rfl, -⟩ := List.cons.inj h
      rw [List.findSome?_cons, Cookie.taken_session hq,
        List.takeWhile_cons_of_neg (by simpa using hq)]
      rfl
    · rw [List.filter_cons_of_neg hq] at h
      rw [List.findSome?_cons, List.takeWhile_cons_of_pos (by simpa using hq),
        List.findSome?_cons, ih h]
      cases q.taken <;> rfl

end

/-- **The session cookie is found by its name** exactly if nothing else is taken for it. -/
theorem sessionFound_iff (ps : List Cookie) : SessionFound ps ↔ Unmistaken ps := by
  constructor
  · intro h
    obtain ⟨hone, hnone⟩ := h handleLogoutSid (by simp)
    rw [handleLogoutSid, cookieSid_header] at hone hnone
    refine ⟨fun p hp sid hsid => ?_, fun hno p hp => ?_⟩
    · have hfound := hone p hp
      rw [findSome?_taken hp, Option.mem_def.mp hsid] at hfound
      exact Option.some.inj hfound
    · exact List.findSome?_eq_none_iff.mp (hnone hno) p hp
  · rintro ⟨hone, hnone⟩ extract hextract
    rw [extract_eq hextract, cookieSid_header]
    refine ⟨fun p hp => ?_, fun hno => List.findSome?_eq_none_iff.mpr (hnone hno)⟩
    rw [findSome?_taken hp]
    cases hfront : (ps.takeWhile (¬ ·.isSession)).findSome? (·.taken) with
    | none => rfl
    | some sid => rw [Option.some_or, hone p hp sid hfront]

/-- A cookie whose name ends in `session_id`, in front of the session cookie. -/
def decoyCookies : List Cookie :=
  [⟨ascii "old_session_id", ascii "1", by decide, by decide, by decide⟩,
    ⟨ascii "session_id", ascii "2", by decide, by decide, by decide⟩]

/-- The id of the other cookie is taken. -/
theorem decoy_taken :
    cookieHeader decoyCookies = ascii "old_session_id=1; session_id=2" ∧
      (decoyCookies.filter (·.isSession)).map (·.value) = [ascii "2"] ∧
      processHttpSid (cookieHeader decoyCookies) = some (ascii "1") ∧
      handleIndexSid (cookieHeader decoyCookies) = some (ascii "1") ∧
      handleLogoutSid (cookieHeader decoyCookies) = some (ascii "1") := by
  decide

end MiniWeb.RequestHandler
