import MiniWeb.RequestHandler.Base64Decoder
import MiniWeb.RequestHandler.Site

/-!
# The file of the users

`auth_load_file` reads a line `username:password:role` for each user; a comment, an empty line and a
line with fewer than two colons are skipped, and at most 64 users are kept. A client sends the name
and the password in Base64. What a route decides then is a matter of the first line of the file with
that name and password, and of the user store if there is none.
-/

namespace MiniWeb.RequestHandler

open Loop CStr Base64 SessionStore UserStore Routing

/-! ## Loading -/

/-- `MAX_AUTH_USERS`. -/
def maxAuthUsers : Nat := 64

/-- The user of a line; the fields are cut to their arrays. -/
def authEntry (line : CStr) : Option AuthUser :=
  if line = [] ∨ line.head? = some 35 then none
  else
    (splitColon line).bind fun (username, rest) =>
      (splitColon rest).map fun (password, role) =>
        ⟨cut 64 username, cut 64 password, cut 32 role⟩

/-- The line in the buffer, without its end. -/
def authLine (buf : List UInt8) : CStr :=
  ((ofBuffer buf).takeWhile (· ≠ 13)).takeWhile (· ≠ 10)

/-- The loop of `auth_load_file`. -/
def authLines : List (List UInt8) → List AuthUser → List AuthUser
  | [], users => users
  | buf :: rest, users =>
    if users.length < maxAuthUsers then
      match authEntry (authLine buf) with
      | some u => authLines rest (users ++ [u])
      | none => authLines rest users
    else users

/-- `auth_load_file`: a file that cannot be opened leaves the users as they are. -/
def authLoadFile (file : Option (List UInt8)) (users : List AuthUser) : Int × List AuthUser :=
  match file with
  | none => (-1, users)
  | some text => (0, authLines (fgets 256 text) [])

/-- The users that a file names first. -/
def fileUsers (text : List UInt8) : List AuthUser :=
  ((fgets 256 text).filterMap fun buf => authEntry (authLine buf)).take maxAuthUsers

/-- The loop goes on with the users that there is room for. -/
theorem authLines_eq (bufs : List (List UInt8)) {users : List AuthUser}
    (h : users.length ≤ maxAuthUsers) : authLines bufs users =
      (users ++ bufs.filterMap fun buf => authEntry (authLine buf)).take maxAuthUsers := by
  induction bufs generalizing users with
  | nil => rw [authLines, List.filterMap_nil, List.append_nil, List.take_of_length_le h]
  | cons buf bufs ih =>
    rw [authLines, List.filterMap_cons]
    split
    case isTrue hroom =>
      cases hu : authEntry (authLine buf) with
      | none => exact ih h
      | some u =>
        simp only
        rw [ih (by rw [List.length_append]; exact hroom), List.append_assoc, List.singleton_append]
    case isFalse hfull =>
      have hlen : users.length = maxAuthUsers := Nat.le_antisymm h (Nat.le_of_not_lt hfull)
      rw [← hlen, List.take_left]

/-- **Loading.** The users of the file are loaded in their order, 64 at most. -/
theorem authLoadFile_eq (text : List UInt8) (old : List AuthUser) :
    authLoadFile (some text) old = (0, fileUsers text) :=
  congrArg (Prod.mk 0) (authLines_eq (fgets 256 text) (Nat.zero_le _))

/-! ## Files -/

/-- A text within a line. -/
def InLine (s : CStr) : Prop := 0 ∉ s ∧ 10 ∉ s ∧ 13 ∉ s

instance (s : CStr) : Decidable (InLine s) := inferInstanceAs (Decidable (_ ∧ _))

/-- A user as a file can name one. -/
structure FileUser extends AuthUser where
  usernameOK : InLine username ∧ 58 ∉ username ∧ username.head? ≠ some 35 ∧ username.length < 64
  passwordOK : InLine password ∧ 58 ∉ password ∧ password.length < 64
  roleOK : InLine role ∧ role.length < 32

def FileUser.text (u : FileUser) : CStr := u.username ++ 58 :: (u.password ++ 58 :: u.role)

/-- A line that names nobody. -/
def NamesNobody (text : CStr) : Prop :=
  InLine text ∧ text.length < 253 ∧ (text = [] ∨ text.head? = some 35 ∨ text.count 58 < 2)

instance (text : CStr) : Decidable (NamesNobody text) := inferInstanceAs (Decidable (_ ∧ _))

/-- A line of a file, with an end of either kind. -/
inductive FileLine where
  | user (u : FileUser) (cr : Bool)
  | other (text : CStr) (h : NamesNobody text) (cr : Bool)

def lineEnd (cr : Bool) : CStr := if cr then [13] else []

def FileLine.text : FileLine → CStr
  | .user u cr => u.text ++ lineEnd cr
  | .other text _ cr => text ++ lineEnd cr

def FileLine.user? : FileLine → Option AuthUser
  | .user u _ => some u.toAuthUser
  | .other _ _ _ => none

/-- The users that are named first. -/
def listedUsers (lines : List FileLine) : List AuthUser :=
  (lines.filterMap FileLine.user?).take maxAuthUsers

/-! ## Lines -/

section

variable {x y line : CStr} {u : FileUser}

theorem splitColon_append (h : 58 ∉ x) : splitColon (x ++ 58 :: y) = some (x, y) := by
  have hx : ∀ c ∈ x, decide (c ≠ 58) = true := fun c hc => decide_eq_true fun h58 => h (h58 ▸ hc)
  rw [splitColon, List.dropWhile_append_of_pos hx, List.takeWhile_append_of_pos hx,
    List.dropWhile_cons_of_neg (by simp), List.takeWhile_cons_of_neg (by simp), List.append_nil]

theorem splitColon_none (h : 58 ∉ x) : splitColon x = none := by
  have hx : ∀ c ∈ x, decide (c ≠ 58) = true := fun c hc => decide_eq_true fun h58 => h (h58 ▸ hc)
  rw [splitColon, List.dropWhile_eq_nil_iff.mpr hx]

/-- A line has a colon in it or is split by none. -/
theorem splitColon_count (h : x.count 58 < 2) {username rest : CStr}
    (hsplit : splitColon x = some (username, rest)) : 58 ∉ rest := by
  by_cases hmem : 58 ∈ x
  · obtain ⟨x₁, x₂, rfl, hx₁⟩ := List.eq_append_cons_of_mem hmem
    rw [splitColon_append hx₁] at hsplit
    cases hsplit
    rw [List.count_append, List.count_cons_self] at h
    exact List.count_eq_zero.mp (by omega)
  · rw [splitColon_none hmem] at hsplit
    cases hsplit

theorem authEntry_nobody (h : NamesNobody line) : authEntry line = none := by
  obtain ⟨-, -, hnil | hcomment | hcount⟩ := h
  · exact if_pos (.inl hnil)
  · exact if_pos (.inr hcomment)
  · rw [authEntry]
    split
    · rfl
    · cases hsplit : splitColon line with
      | none => rfl
      | some p =>
        rw [Option.bind_some]
        simp only [splitColon_none (splitColon_count hcount hsplit)]
        rfl

theorem authEntry_user (u : FileUser) : authEntry u.text = some u.toAuthUser := by
  obtain ⟨-, hname, hhash, hnameLen⟩ := u.usernameOK
  obtain ⟨-, hpassword, hpasswordLen⟩ := u.passwordOK
  have hfirst : ¬(u.text = [] ∨ u.text.head? = some 35) := by
    rw [FileUser.text]
    cases hu : u.username with
    | nil => simp
    | cons c s =>
      rw [hu] at hhash
      simpa using hhash
  rw [authEntry, if_neg hfirst, FileUser.text, splitColon_append hname, Option.bind_some]
  simp only [splitColon_append hpassword, Option.map_some]
  rw [cut_of_lt hnameLen, cut_of_lt hpasswordLen, cut_of_lt u.roleOK.2]

/-- The end of a line is cut off. -/
theorem authLine_end (h : InLine line) (cr : Bool) : authLine (line ++ lineEnd cr ++ [10]) = line := by
  obtain ⟨h0, h10, h13⟩ := h
  have hkeep : ∀ d : UInt8, d ∉ line → ∀ c ∈ line, decide (c ≠ d) = true :=
    fun d hd c hc => decide_eq_true fun hcd => hd (hcd ▸ hc)
  have hnul : 0 ∉ line ++ lineEnd cr ++ [10] := by
    cases cr <;> simp [lineEnd, h0]
  rw [authLine, ofBuffer_of_notMem hnul, List.append_assoc,
    List.takeWhile_append_of_pos (hkeep 13 h13), List.takeWhile_append_of_pos (hkeep 10 h10)]
  cases cr <;> simp [lineEnd]

theorem FileUser.inLine (u : FileUser) : InLine u.text := by
  obtain ⟨⟨h0, h10, h13⟩, -⟩ := u.usernameOK
  obtain ⟨⟨h0', h10', h13'⟩, -⟩ := u.passwordOK
  obtain ⟨⟨h0'', h10'', h13''⟩, -⟩ := u.roleOK
  refine ⟨?_, ?_, ?_⟩ <;> simp [FileUser.text, *]

/-- A line fits the buffer of 256 bytes. -/
theorem FileLine.fits (l : FileLine) : 10 ∉ l.text ∧ l.text.length + 2 ≤ 256 := by
  have hend : ∀ cr, 10 ∉ lineEnd cr ∧ (lineEnd cr).length ≤ 1 := by decide
  cases l with
  | user u cr =>
    have hlen : u.text.length ≤ 63 + 1 + 63 + 1 + 31 := by
      have h₁ := u.usernameOK.2.2.2
      have h₂ := u.passwordOK.2.2
      have h₃ := u.roleOK.2
      simp only [FileUser.text, List.length_append, List.length_cons]
      omega
    have hcr := (hend cr).2
    refine ⟨fun h => ?_, ?_⟩
    · exact (List.mem_append.mp h).elim u.inLine.2.1 (hend cr).1
    · rw [FileLine.text, List.length_append]
      omega
  | other text h cr =>
    have hcr := (hend cr).2
    have hlen := h.2.1
    refine ⟨fun hmem => ?_, ?_⟩
    · exact (List.mem_append.mp hmem).elim h.1.2.1 (hend cr).1
    · rw [FileLine.text, List.length_append]
      omega

theorem authEntry_line (l : FileLine) : authEntry (authLine (l.text ++ [10])) = l.user? := by
  cases l with
  | user u cr => rw [FileLine.text, authLine_end u.inLine, authEntry_user, FileLine.user?]
  | other text h cr => rw [FileLine.text, authLine_end h.1, authEntry_nobody h, FileLine.user?]

/-- A file that is written line by line names the users of its lines. -/
theorem fileUsers_lines (lines : List FileLine) :
    fileUsers (unlines (lines.map FileLine.text)) = listedUsers lines := by
  have hfits : ∀ l ∈ lines.map FileLine.text, 10 ∉ l ∧ l.length + 2 ≤ 256 := by
    intro l hl
    obtain ⟨l, -, rfl⟩ := List.mem_map.mp hl
    exact l.fits
  have hlines : fgets 256 (unlines (lines.map FileLine.text) ++ []) = _ := fgets_unlines hfits
  rw [List.append_nil, List.map_map, show fgets 256 [] = [] from rfl, List.append_nil] at hlines
  rw [fileUsers, hlines, List.filterMap_map, listedUsers]
  exact congrArg (List.take maxAuthUsers) (List.filterMap_congr fun l _ => authEntry_line l)

end

/-! ## What a route decides -/

/-- A client's header for a name and a password, in whatever case the scheme is. -/
def BasicHeader (header name password : CStr) : Prop :=
  ∃ scheme src, header = scheme ++ src ∧ scheme.map toLower = ascii "basic " ∧
    stripBlanks src = encode (name ++ 58 :: password)

/-- A name and a password as a client can send them. -/
def Sendable (name password : CStr) : Prop :=
  0 ∉ name ∧ 58 ∉ name ∧ 0 ∉ password ∧ name.length + password.length < 255

/-- The decision on a request with that role. -/
def admission (e : RouteEntry) (captured role : CStr) : Decision :=
  if authRoleMatches role e.requiredRole then callHandler e captured else .forbidden

/-- The decision on a request with a name and a password that nobody has. -/
def rejection (e : RouteEntry) : Decision :=
  .unauthorized (if e.authRealm = [] then ascii "Restricted" else e.authRealm)

section

variable {header name password : CStr}

theorem basicUser_header (h : BasicHeader header name password) (hsend : Sendable name password) :
    basicUser header = some (some (name, password)) := by
  obtain ⟨scheme, src, rfl, hscheme, hsrc⟩ := h
  obtain ⟨hname, hcolon, hpassword, hlen⟩ := hsend
  have hbasic : isBasic (scheme ++ src) = true := by
    rw [isBasic, startsWith, List.map_append, hscheme]
    exact List.isPrefixOf_iff_prefix.mpr (List.prefix_append _ _)
  have hsix : scheme.length = 6 := by
    rw [← List.length_map (f := toLower), hscheme]
    rfl
  have hfits : (name ++ 58 :: password).take (256 - 1) = name ++ 58 :: password := by
    apply List.take_of_length_le
    rw [List.length_append, List.length_cons]
    omega
  have hnul : 0 ∉ name ++ 58 :: password := by simp [hname, hpassword]
  rw [basicUser, if_pos hbasic, List.drop_left' hsix, base64Decode_encode hsrc, hfits,
    Option.map_some, ofBuffer_of_notMem hnul, splitColon_append hcolon]

/-- The header of a client is not empty. -/
theorem BasicHeader.ne_nil (h : BasicHeader header name password) : header ≠ [] := by
  obtain ⟨scheme, src, rfl, hscheme, -⟩ := h
  intro hnil
  rw [(List.append_eq_nil_iff.mp hnil).1] at hscheme
  exact absurd hscheme (by decide)

end

/-- **From the file to the decision.** A request without a session for a route that requires a role,
with the Base64 of a name and a password, is decided by the role in the first line of the file with
that name and password, and by the user store if no line has them. -/
theorem decided_by_file (text : List UInt8) (old : List AuthUser) {store : Option Shm}
    {rt : RouteTable} {req : Request} {now : Int} {sessions sessions' : Table} {r : FindResult}
    {e : RouteEntry} {name password : CStr}
    (hfind : routeTableFind rt req.method req.path = some r) (h405 : r.is405 = false)
    (hentry : r.entry = some e) (hrole : e.requiredRole ≠ [])
    (hsession : cookieRole req.cookie now sessions = some (none, sessions'))
    (hheader : BasicHeader req.authorization name password) (hsend : Sendable name password) :
    requestHandlerProcessHttp rt ⟨(authLoadFile (some text) old).2, store⟩ req now sessions =
      match (fileUsers text).find? fun u => u.username = name ∧ u.password = password with
      | some u => some (admission e r.captured u.role, sessions')
      | none =>
        match store with
        | none => some (rejection e, sessions')
        | some shm => (userStoreAuth shm name password).map fun ok =>
          (if ok then admission e r.captured (ascii "user") else rejection e, sessions') := by
  have hrejection : checkRole e req r.captured .noRole = rejection e := if_pos hheader.ne_nil
  have hpred : (fun u : AuthUser => decide (strcmp u.username name = .eq) &&
      decide (strcmp u.password password = .eq)) =
        fun u => decide (u.username = name ∧ u.password = password) := by
    funext u
    simp
  rw [authLoadFile_eq, requestHandlerProcessHttp, hfind, Option.bind_some, h405, hentry,
    if_neg Bool.false_ne_true]
  simp only [if_pos hrole]
  rw [authGate, hsession, Option.bind_some]
  simp only [basicRole, basicUser_header hheader hsend, authLookup, hpred]
  cases (fileUsers text).find? fun u => decide (u.username = name ∧ u.password = password) with
  | some u => rfl
  | none =>
    cases store with
    | none => simp only [Option.map_some, hrejection]
    | some shm =>
      simp only [Option.map_map]
      congr 1
      funext ok
      cases ok with
      | false => exact congrArg (·, sessions') hrejection
      | true => rfl

def rootLine : FileLine :=
  .user ⟨⟨ascii "root", ascii "secret", ascii "admin"⟩, by decide, by decide, by decide⟩ true

/-- A comment and the line of the administrator. -/
def rootLines : List FileLine := [.other (ascii "# users") (by decide) false, rootLine]

example : unlines (rootLines.map FileLine.text) =
    ascii "# users\nroot:secret:admin\r\n" := by decide

/-- The administrator of the file is admitted. -/
theorem decided_by_file_root :
    requestHandlerProcessHttp addTable
        ⟨(authLoadFile (some (unlines (rootLines.map FileLine.text))) []).2, none⟩
        postBob.req.bodyRequest.toRequest 0 sessionInit =
      some (.invoke addRoute.entry [], sessionInit) := by
  have hfind : routeTableFind addTable postBob.req.bodyRequest.method postBob.req.bodyRequest.path =
      some ⟨some addRoute.entry, [], false, []⟩ := by decide +kernel
  have hsession : cookieRole postBob.req.bodyRequest.cookie 0 sessionInit =
      some (none, sessionInit) := rfl
  refine (decided_by_file _ [] hfind rfl rfl (by decide) hsession
    ⟨ascii "Basic ", ascii "cm9vdDpzZWNyZXQ=", by decide, by decide, by decide⟩
    (show Sendable (ascii "root") (ascii "secret") by unfold Sendable; decide)).trans ?_
  have hlisted : (listedUsers rootLines).find? (fun u => u.username = ascii "root" ∧
      u.password = ascii "secret") = some ⟨ascii "root", ascii "secret", ascii "admin"⟩ := by decide
  rw [fileUsers_lines, hlisted]
  exact congrArg (fun d => some (d, sessionInit)) (by decide)

end MiniWeb.RequestHandler
