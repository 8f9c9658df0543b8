import MiniWeb.RequestHandler.UrlCoding
import MiniWeb.SessionStore.Termination

/-!
# Login

`handle_login` takes the user name and the password from the body with `strstr` and a copy up to a
`&` or the end of its buffer of 64 bytes. Other forms decode their values; this one does not, so
what is looked up is the text of the encoding, and a key inside a value is taken for the field.
-/

namespace MiniWeb.RequestHandler

open Loop CStr SessionStore UserStore

def usernameKey : CStr := ascii "username="
def passwordKey : CStr := ascii "password="

/-- The field behind a key in the body, cut to its buffer; empty if the key is not there. -/
def loginField (body key : CStr) : CStr :=
  match strstr body key with
  | none => []
  | some s => cut 64 ((s.drop key.length).takeWhile (· ≠ 38))

/-- The answers of `handle_login`. -/
inductive LoginReply where
  /-- The login page. -/
  | page
  /-- 302 with a cookie for the session. -/
  | loggedIn (sid : CStr)
  /-- 401. -/
  | failed
  /-- 405. -/
  | notAllowed
deriving DecidableEq, Repr

/-- `handle_login`, with the random bytes and the times that `session_create` reads. -/
def handleLogin (creds : Credentials) (req : BodyRequest) (randomBytes : Vector UInt8 32)
    (sweep resweep now : Int) (t : Table) : Option (LoginReply × Table) :=
  if strcmp req.method (ascii "GET") = .eq then some (.page, t)
  else if strcmp req.method (ascii "POST") = .eq then
    let username := loginField req.body usernameKey
    let password := loginField req.body passwordKey
    (authLookup creds username password).bind fun
      | none => some (.failed, t)
      | some userRole =>
        (sessionCreate randomBytes username userRole sweep resweep now t).map fun
          | (some sid, t) => (.loggedIn sid, t)
          | (none, t) => (.failed, t)
  else some (.notAllowed, t)

/-! ## Bodies -/

/-- The body of a login form, with the fields in either order. -/
def loginBody (passwordFirst : Bool) (eu ep : CStr) : CStr :=
  if passwordFirst then passwordKey ++ ep ++ 38 :: (usernameKey ++ eu)
  else usernameKey ++ eu ++ 38 :: (passwordKey ++ ep)

/-- What follows a key inside a value. -/
def behindKey (key value : CStr) : Option CStr := (strstr value key).map (·.drop key.length)

/-- The user name as it is sent: 63 bytes of the encoding, or of what follows the key inside the
password in front of it. -/
def sentUsername (passwordFirst : Bool) (eu ep : CStr) : CStr :=
  cut 64 ((if passwordFirst then behindKey usernameKey ep else none).getD eu)

/-- The password as it is sent. -/
def sentPassword (passwordFirst : Bool) (eu ep : CStr) : CStr :=
  cut 64 ((if passwordFirst then none else behindKey passwordKey eu).getD ep)

section

variable {e e' x y s u : CStr} {key : CStr}

theorem UrlEncodes.notMem_amp (h : UrlEncodes true u e) : 38 ∉ e := by
  have hdigit : ∀ {c : UInt8}, isXDigit c = true → 38 ≠ c := fun hc =>
    Ne.symm (isXDigit_ne hc (by decide))
  induction h with
  | nil => exact List.not_mem_nil
  | literal _ hform _ ih => exact List.not_mem_cons_of_ne_of_not_mem (Ne.symm (hform rfl).2) ih
  | escape hhigh hlow _ ih => simp [hdigit hhigh, hdigit hlow, ih]
  | plus _ _ ih => exact List.not_mem_cons_of_ne_of_not_mem (by decide) ih

theorem takeWhile_amp (h : 38 ∉ x) : (x ++ 38 :: y).takeWhile (· ≠ 38) = x := by
  rw [List.takeWhile_append_of_pos, List.takeWhile_cons_of_neg (by simp), List.append_nil]
  exact fun c hc => decide_eq_true fun h38 => h (h38 ▸ hc)

theorem takeWhile_noAmp (h : 38 ∉ x) : x.takeWhile (· ≠ 38) = x :=
  List.takeWhile_eq_self_iff.mpr fun _ hc => decide_eq_true fun h38 => h (h38 ▸ hc)

/-- The field that the body starts with. -/
theorem loginField_first (he : 38 ∉ e) (hkey : key ≠ []) :
    loginField (key ++ e ++ 38 :: y) key = cut 64 e := by
  have hfound : strstr (key ++ e ++ 38 :: y) key = some (key ++ e ++ 38 :: y) := by
    obtain ⟨c, key, rfl⟩ := List.exists_cons_of_ne_nil hkey
    rw [List.append_assoc, List.cons_append, strstr, if_pos]
    exact List.isPrefixOf_iff_prefix.mpr (List.prefix_append (c :: key) _)
  rw [loginField, hfound]
  simp only
  rw [List.append_assoc, List.drop_left, takeWhile_amp he]

/-- The key of the other field ends in `=` and is no end of the key in front. -/
theorem strstr_behind {name name' : CStr} (hname : 61 ∉ name) (hname' : 61 ∉ name')
    (happart : ¬ name <:+ name') (y : CStr) :
    strstr (name' ++ [61] ++ y) (name ++ [61]) = strstr y (name ++ [61]) := by
  rw [List.append_assoc, List.singleton_append, strstr_key hname hname', if_neg happart]

/-- The field that comes second: a key inside the first value is met before it. -/
theorem loginField_second {name name' : CStr} (hname : 61 ∉ name) (hname' : 61 ∉ name')
    (happart : ¬ name <:+ name') (hamp : 38 ∉ name) (he : 38 ∉ e) (he' : 38 ∉ e') :
    loginField (name' ++ [61] ++ e' ++ 38 :: (name ++ [61] ++ e)) (name ++ [61]) =
      cut 64 ((behindKey (name ++ [61]) e').getD e) := by
  have hne : name ++ [61] ≠ [] := by simp
  have hamp' : 38 ∉ name ++ [61] := by simp [hamp]
  have hself : strstr (name ++ [61] ++ e) (name ++ [61]) = some (name ++ [61] ++ e) := by
    rw [List.append_assoc, List.singleton_append, strstr_key hname hname, if_pos List.suffix_rfl]
  rw [loginField, List.append_assoc, strstr_behind hname hname' happart, strstr_split hne hamp',
    hself, behindKey]
  cases hfound : strstr e' (name ++ [61]) with
  | none =>
    simp only [Option.map_none, Option.none_or, Option.getD_none]
    rw [List.drop_left, takeWhile_noAmp he]
  | some s =>
    obtain ⟨hsuffix, hprefix⟩ := strstr_spec hne hfound
    have hdrop : 38 ∉ s.drop (name ++ [61]).length :=
      fun h => he' (hsuffix.subset (List.mem_of_mem_drop h))
    simp only [Option.map_some, Option.some_or, Option.getD_some]
    rw [List.drop_append_of_le_length hprefix.length_le, takeWhile_amp hdrop]

end

theorem keys_spec : usernameKey = ascii "username" ++ [61] ∧
    passwordKey = ascii "password" ++ [61] ∧ 61 ∉ ascii "username" ∧ 61 ∉ ascii "password" ∧
    38 ∉ ascii "username" ∧ 38 ∉ ascii "password" ∧ ¬ ascii "username" <:+ ascii "password" ∧
    ¬ ascii "password" <:+ ascii "username" := by decide

/-- The fields that the handler takes from a body. -/
theorem loginField_body (passwordFirst : Bool) {eu ep : CStr} (heu : 38 ∉ eu) (hep : 38 ∉ ep) :
    loginField (loginBody passwordFirst eu ep) usernameKey = sentUsername passwordFirst eu ep ∧
      loginField (loginBody passwordFirst eu ep) passwordKey
        = sentPassword passwordFirst eu ep := by
  obtain ⟨hu, hp, hueq, hpeq, huamp, hpamp, hup, hpu⟩ := keys_spec
  have hune : usernameKey ≠ [] := by decide
  have hpne : passwordKey ≠ [] := by decide
  cases passwordFirst with
  | true =>
    refine ⟨?_, loginField_first hep hpne⟩
    rw [sentUsername, loginBody, hu, hp]
    exact loginField_second hueq hpeq hup huamp heu hep
  | false =>
    refine ⟨loginField_first heu hune, ?_⟩
    rw [sentPassword, loginBody, hu, hp]
    exact loginField_second hpeq hueq hpu hpamp hep heu

/-! ## The session created -/

/-- The role that `auth_lookup` returns, if it returns one. -/
def roleOf (creds : Credentials) (username password : CStr) : Option CStr :=
  (authLookup creds username password).join

/-- `session_create` finds a session that is not in use and, for its id, an empty hash slot. -/
def HasPlace (sweep resweep : Int) (t : Table) : Prop :=
  ∃ slot t₁, findFreeSlot sweep resweep t = some (some slot, t₁) ∧ Free t₁

/-- The request logs `username` in: the session that is taken now belongs to that user and has
that role. -/
def CreatesSession (creds : Credentials) (req : BodyRequest) (randomBytes : Vector UInt8 32)
    (sweep resweep now : Int) (t : Table) (username role : CStr) : Prop :=
  ∃ sid t' slot t₁, handleLogin creds req randomBytes sweep resweep now t
      = some (.loggedIn sid, t') ∧
    findFreeSlot sweep resweep t = some (some slot, t₁) ∧
    t'.sessions slot = ⟨sid, username, role, now, now + sessionTtl, true⟩

/-- The roles fit `char role[32]`. -/
def RolesFit (creds : Credentials) : Prop := ∀ a ∈ creds.authUsers, a.role.length < 32

instance (creds : Credentials) : Decidable (RolesFit creds) :=
  inferInstanceAs (Decidable (∀ a ∈ creds.authUsers, a.role.length < 32))

section

variable {creds : Credentials} {req : BodyRequest} {randomBytes : Vector UInt8 32}
  {sweep resweep now : Int} {t t' : Table} {username password role sid : CStr}

theorem roleOf_some : roleOf creds username password = some role ↔
    authLookup creds username password = some (some role) := by
  rw [roleOf, Option.join_eq_some_iff]

theorem RolesFit.length_lt (h : RolesFit creds)
    (hrole : roleOf creds username password = some role) : role.length < 32 := by
  rcases authLookup_some (roleOf_some.mp hrole) with ⟨a, ha, -, -, rfl⟩ | ⟨_, -, -, rfl⟩
  · exact h a ha
  · decide

/-- `session_create` fills the session it finds. -/
theorem sessionCreate_fills
    (h : sessionCreate randomBytes username role sweep resweep now t = some (some sid, t')) :
    ∃ slot t₁, findFreeSlot sweep resweep t = some (some slot, t₁) ∧ Free t₁ ∧
      sid = hexEncode randomBytes.toList ∧
      t'.sessions slot = newSession (hexEncode randomBytes.toList) username role now := by
  rcases sessionCreate_cases h with ⟨-, hnone⟩ | ⟨slot, t₁, id, ht₁, hinsert, hid⟩
  · cases hnone
  obtain ⟨k, r, hk, hcut, rfl⟩ := insertSession_cases hinsert
  refine ⟨slot, t₁, ht₁, ?_, ?_, ?_⟩
  · refine ⟨k, ?_⟩
    by_contra hne
    obtain ⟨idx, hidx⟩ := Option.ne_none_iff_exists'.mp hne
    exact (probe_eq_some_iff.mp hk).2.1 ⟨idx, hidx, rfl⟩
  · rw [Option.some.inj hid, hcut, cut_hexEncode]
  · rw [Table.link_sessions, Table.fill_sessions, Function.update_self]

theorem sessionCreate_of_place (randomBytes : Vector UInt8 32) (username role : CStr) (now : Int)
    {slot : Fin maxSessions} {t₁ : Table}
    (ht₁ : findFreeSlot sweep resweep t = some (some slot, t₁)) (hfree : Free t₁) :
    ∃ t', sessionCreate randomBytes username role sweep resweep now t
        = some (some (hexEncode randomBytes.toList), t') ∧
      t'.sessions slot = newSession (hexEncode randomBytes.toList) username role now := by
  obtain ⟨k, -, hinsert⟩ := insertSession_fills hfree slot (hexEncode randomBytes.toList) username
    role now
  rw [cut_hexEncode] at hinsert
  refine ⟨(t₁.fill slot (newSession (hexEncode randomBytes.toList) username role now)).link k slot,
    ?_, ?_⟩
  · simp only [sessionCreate, ht₁, Option.bind_some, hinsert, Option.map_some]
  · rw [Table.link_sessions, Table.fill_sessions, Function.update_self]

theorem length_loginField (body key : CStr) : (loginField body key).length < 64 := by
  unfold loginField
  split
  · simp
  · exact Nat.lt_succ_of_le (List.length_take_le _ _)

/-- The session of a user whose name and role fit their fields. -/
theorem newSession_fits (hname : username.length < 64) (hrole : role.length < 32) :
    newSession (hexEncode randomBytes.toList) username role now
      = ⟨hexEncode randomBytes.toList, username, role, now, now + sessionTtl, true⟩ := by
  rw [newSession, cut_hexEncode, cut_of_lt hname, cut_of_lt hrole]

/-- What a login does with the fields it takes. -/
theorem handleLogin_post (hpost : req.method = ascii "POST") :
    handleLogin creds req randomBytes sweep resweep now t =
      (authLookup creds (loginField req.body usernameKey) (loginField req.body passwordKey)).bind
        fun
          | none => some (.failed, t)
          | some userRole =>
            (sessionCreate randomBytes (loginField req.body usernameKey) userRole sweep resweep now
              t).map fun
                | (some sid, t) => (.loggedIn sid, t)
                | (none, t) => (.failed, t) := by
  have hget : ascii "POST" ≠ ascii "GET" := by decide
  rw [handleLogin, hpost, if_neg (strcmp_eq_iff.not.mpr hget), if_pos (strcmp_eq_iff.mpr rfl)]

/-- A session is created for the user name that is sent. -/
theorem createsSession_iff (hfit : RolesFit creds) (hpost : req.method = ascii "POST") :
    CreatesSession creds req randomBytes sweep resweep now t username role ↔
      HasPlace sweep resweep t ∧ loginField req.body usernameKey = username ∧
        roleOf creds username (loginField req.body passwordKey) = some role := by
  have hname := length_loginField req.body usernameKey
  constructor
  · rintro ⟨sid, t', slot, t₁, hlogin, hslot, hsession⟩
    rw [handleLogin_post hpost] at hlogin
    obtain ⟨found, hfound, hrest⟩ := Option.bind_eq_some_iff.mp hlogin
    cases found with
    | none => cases hrest
    | some userRole =>
      obtain ⟨⟨created, t''⟩, hcreate, hpair⟩ := Option.map_eq_some_iff.mp hrest
      cases created with
      | none => cases hpair
      | some sid' =>
        cases hpair
        obtain ⟨slot', t₁', hslot', hfree, -, hnew⟩ := sessionCreate_fills hcreate
        rw [hslot] at hslot'
        cases hslot'
        have hrole : roleOf creds (loginField req.body usernameKey)
            (loginField req.body passwordKey) = some userRole := roleOf_some.mpr hfound
        rw [hsession, newSession_fits hname (hfit.length_lt hrole)] at hnew
        injection hnew with _ hu hr
        rw [hu, hr]
        exact ⟨⟨slot, t₁, hslot, hfree⟩, rfl, hrole⟩
  · rintro ⟨⟨slot, t₁, hslot, hfree⟩, rfl, hrole⟩
    obtain ⟨t', hcreate, hnew⟩ := sessionCreate_of_place randomBytes
      (loginField req.body usernameKey) role now hslot hfree
    refine ⟨hexEncode randomBytes.toList, t', slot, t₁, ?_, hslot, ?_⟩
    · rw [handleLogin_post hpost, roleOf_some.mp hrole]
      simp only [Option.bind_some, hcreate, Option.map_some]
    · rw [hnew, newSession_fits hname (hfit.length_lt hrole)]

end

/-! ## The right credentials -/

/-- What is wanted of a login: a session for the user, with the role of the account, if there is
such an account, and none for that user otherwise. -/
def AcceptsRight (creds : Credentials) (req : BodyRequest) (randomBytes : Vector UInt8 32)
    (sweep resweep now : Int) (t : Table) (u p : CStr) : Prop :=
  ∀ r, CreatesSession creds req randomBytes sweep resweep now t u r ↔
    authLookup creds u p = some (some r)

/-- The fields as they are sent do for the user what the decoded ones would do. For an account
there is a place in the table, the user name is sent as it is, and the password as it is sent is
one of that user and role; and if there is no such account, then there is no place, or another
user name is sent, or the password as it is sent is none of that user. -/
def SentAsMeant (creds : Credentials) (passwordFirst : Bool) (u p eu ep : CStr)
    (sweep resweep : Int) (t : Table) : Prop :=
  (∀ r, roleOf creds u p = some r → HasPlace sweep resweep t ∧
    sentUsername passwordFirst eu ep = u ∧
    roleOf creds u (sentPassword passwordFirst eu ep) = some r) ∧
  (roleOf creds u p = none → HasPlace sweep resweep t → sentUsername passwordFirst eu ep = u →
    roleOf creds u (sentPassword passwordFirst eu ep) = none)

/-- **Login accepts the right credentials** exactly if the fields as they are sent do what the
decoded ones would do. -/
theorem login_accepts_iff (creds : Credentials) (hfit : RolesFit creds) (passwordFirst : Bool)
    {u p eu ep : CStr} (hu : UrlEncodes true u eu) (hp : UrlEncodes true p ep) (req : BodyRequest)
    (hpost : req.method = ascii "POST") (hbody : req.body = loginBody passwordFirst eu ep)
    (randomBytes : Vector UInt8 32) (sweep resweep now : Int) (t : Table) :
    AcceptsRight creds req randomBytes sweep resweep now t u p ↔
      SentAsMeant creds passwordFirst u p eu ep sweep resweep t := by
  obtain ⟨huser, hpass⟩ := loginField_body passwordFirst hu.notMem_amp hp.notMem_amp
  unfold AcceptsRight SentAsMeant
  simp only [createsSession_iff hfit hpost, hbody, huser, hpass, ← roleOf_some]
  constructor
  · intro h
    refine ⟨fun r hr => (h r).mpr hr, fun hnone hplace hname => ?_⟩
    cases hsent : roleOf creds u (sentPassword passwordFirst eu ep) with
    | none => rfl
    | some r =>
      rw [(h r).mp ⟨hplace, hname, hsent⟩] at hnone
      cases hnone
  · rintro ⟨hsome, hnone⟩ r
    refine ⟨fun ⟨hplace, hname, hsent⟩ => ?_, hsome r⟩
    cases hrole : roleOf creds u p with
    | none =>
      rw [hnone hrole hplace hname] at hsent
      cases hsent
    | some r' =>
      rw [(hsome r' hrole).2.2] at hsent
      exact hsent

/-- Fields that need no escape and hold no key are sent as they are meant. -/
theorem sentAsMeant_plain {creds : Credentials} {passwordFirst : Bool} {u p : CStr}
    {sweep resweep : Int} {t : Table} (hplace : HasPlace sweep resweep t) (hu : u.length < 64)
    (hp : p.length < 64) (hukey : behindKey passwordKey u = none)
    (hpkey : behindKey usernameKey p = none) :
    SentAsMeant creds passwordFirst u p u p sweep resweep t := by
  have hname : sentUsername passwordFirst u p = u := by
    unfold sentUsername
    rw [hpkey, ite_self, Option.getD_none]
    exact cut_of_lt hu
  have hpass : sentPassword passwordFirst u p = p := by
    unfold sentPassword
    rw [hukey, ite_self, Option.getD_none]
    exact cut_of_lt hp
  refine ⟨fun r hr => ⟨hplace, hname, ?_⟩, fun hnone _ _ => ?_⟩
  · rw [hpass, hr]
  · rw [hpass, hnone]

theorem hasPlace_init (sweep resweep : Int) : HasPlace sweep resweep sessionInit := by
  have hidle : ∀ now is, cleanupFrom now is sessionInit = some sessionInit := by
    intro now is
    induction is with
    | nil => rfl
    | cons i is ih => exact ih
  have hfirst : firstUnused sessionInit ≠ none := by
    intro hnone
    have hused := List.find?_eq_none.mp hnone 0 (List.mem_finRange 0)
    exact hused rfl
  obtain ⟨slot, hslot⟩ := Option.ne_none_iff_exists'.mp hfirst
  refine ⟨slot, sessionInit, ?_, 0, rfl⟩
  simp only [findFreeSlot, sessionCleanupExpired, hidle, Option.bind_some, hslot]

theorem loginPath_fits : (ascii "/login").length < 256 := by decide

/-- `POST /login` with a body. -/
def postLogin (body : CStr) : BodyRequest :=
  ⟨⟨ascii "POST", ascii "/login", [], []⟩, body, loginPath_fits⟩

/-- One account. -/
def oneAccount (username password : CStr) : Credentials :=
  ⟨[⟨username, password, ascii "user"⟩], none⟩

/-- A value without special characters encodes itself. -/
theorem urlEncodes_self {s : CStr} (h : ∀ c ∈ s, c ≠ 37 ∧ c ≠ 43 ∧ c ≠ 38) :
    UrlEncodes true s s := by
  induction s with
  | nil => exact .nil
  | cons c s ih =>
    obtain ⟨hpercent, hform⟩ := h c List.mem_cons_self
    exact .literal hpercent (fun _ => hform) (ih fun c hc => h c (List.mem_cons_of_mem _ hc))

/-- Nothing in these credentials is escaped. -/
theorem login_accepts_plain :
    CreatesSession (oneAccount (ascii "bob") (ascii "pw1"))
      (postLogin (ascii "password=pw1&username=bob")) (Vector.replicate 32 7) 0 0 0 sessionInit
      (ascii "bob") (ascii "user") := by
  have h := login_accepts_iff (oneAccount (ascii "bob") (ascii "pw1")) (by decide) true
    (urlEncodes_self (s := ascii "bob") (by decide))
    (urlEncodes_self (s := ascii "pw1") (by decide))
    (postLogin (ascii "password=pw1&username=bob")) rfl (by decide) (Vector.replicate 32 7) 0 0 0
    sessionInit
  have hplain : SentAsMeant (oneAccount (ascii "bob") (ascii "pw1")) true (ascii "bob")
      (ascii "pw1") (ascii "bob") (ascii "pw1") 0 0 sessionInit :=
    sentAsMeant_plain (hasPlace_init 0 0) (by decide) (by decide) (by decide) (by decide)
  exact (h.mpr hplain (ascii "user")).mpr (by decide)

/-- The password `a b` is sent as `a+b` and looked up as it is sent. -/
theorem escaped_login_fails :
    authLookup (oneAccount (ascii "bob") (ascii "a b")) (ascii "bob") (ascii "a b")
        = some (some (ascii "user")) ∧
      (UrlEncodes true (ascii "bob") (ascii "bob") ∧ UrlEncodes true (ascii "a b") (ascii "a+b")) ∧
      handleLogin (oneAccount (ascii "bob") (ascii "a b"))
          (postLogin (ascii "username=bob&password=a+b")) (Vector.replicate 32 7) 0 0 0 sessionInit
        = some (.failed, sessionInit) := by
  have hblank : UrlEncodes true (ascii "a b") (ascii "a+b") :=
    .literal (by decide) (by decide) (.plus rfl (urlEncodes_self (s := [98]) (by decide)))
  refine ⟨by decide, ⟨urlEncodes_self (by decide), hblank⟩, ?_⟩
  have hnone : authLookup (oneAccount (ascii "bob") (ascii "a b"))
      (loginField (ascii "username=bob&password=a+b") usernameKey)
      (loginField (ascii "username=bob&password=a+b") passwordKey) = some none := by decide
  rw [handleLogin_post rfl]
  simp only [postLogin, hnone, Option.bind_some]

end MiniWeb.RequestHandler
