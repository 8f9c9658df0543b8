import MiniWeb.SessionStore.Table
import MiniWeb.UserStore.Store

/-!
# Credentials of a request

A request carries a session id in its `Cookie` header or a user name and password in its
`Authorization` header. The first is looked up in the session store, the second among the users
of the `auth_user_file` and then in the user store.
-/

namespace MiniWeb.RequestHandler

open Loop CStr SessionStore UserStore

/-- What the dispatcher reads of `request_t`. -/
structure Request where
  method : CStr
  path : CStr
  authorization : CStr
  cookie : CStr
deriving DecidableEq, Repr

/-! ## The session cookie -/

/-- The session id after `session_id=`, up to a `;` or a blank, cut to its buffer. -/
def cookieSid (cookie : CStr) : Option CStr :=
  (strstr cookie (ascii "session_id=")).map fun s =>
    cut sessionIdLen ((s.drop 11).takeWhile fun c => c ≠ 59 ∧ c ≠ 32)

/-- The role of the session in the cookie, `none` if there is none, and the session store after
the lookup. -/
def cookieRole (cookie : CStr) (now : Int) (sessions : Table) : Option (Option CStr × Table) :=
  if cookie = [] then some (none, sessions)
  else
    match cookieSid cookie with
    | none => some (none, sessions)
    | some sid =>
      (sessionLookup sid now sessions).map fun (s, sessions) =>
        (s.map fun i => (sessions.sessions i).role, sessions)

/-! ## Base64 -/

/-- `base64_table` with the test for a valid character. -/
def base64Value (c : UInt8) : Option UInt8 :=
  if 65 ≤ c ∧ c ≤ 90 then some (c - 65)
  else if 97 ≤ c ∧ c ≤ 122 then some (c - 71)
  else if 48 ≤ c ∧ c ≤ 57 then some (c + 4)
  else if c = 43 then some 62
  else if c = 47 then some 63
  else none

/-- `if (j < dst_size - 1) dst[j++] = c`. -/
def putByte (dstSize : Nat) (dst : List UInt8) (c : UInt8) : List UInt8 :=
  if dst.length < dstSize - 1 then dst ++ [c] else dst

/-- The loop of `base64_decode`: what is left in `buf`, and `dst`; `none` for an invalid
character. -/
def base64Loop (dstSize : Nat) :
    CStr → List UInt8 → List UInt8 → Option (List UInt8 × List UInt8)
  | [], buf, dst => some (buf, dst)
  | c :: src, buf, dst =>
    if dstSize - 1 ≤ dst.length then some (buf, dst)
    else if c = 32 ∨ c = 9 ∨ c = 13 ∨ c = 10 then base64Loop dstSize src buf dst
    else if c = 61 then some (buf, dst)
    else
      match base64Value c with
      | none => none
      | some v =>
        match buf with
        | [b₀, b₁, b₂] =>
          let dst := dst ++ [b₀ <<< 2 ||| b₁ >>> 4]
          let dst := putByte dstSize dst (b₁ <<< 4 ||| b₂ >>> 2)
          let dst := putByte dstSize dst (b₂ <<< 6 ||| v)
          base64Loop dstSize src [] dst
        | buf => base64Loop dstSize src (buf ++ [v]) dst

/-- `base64_decode`: the bytes written, `none` for `-1`. -/
def base64Decode (src : CStr) (dstSize : Nat) : Option (List UInt8) :=
  (base64Loop dstSize src [] []).map fun
    | (b₀ :: b₁ :: rest, dst) =>
      let dst := dst ++ [b₀ <<< 2 ||| b₁ >>> 4]
      match rest with
      | b₂ :: _ => putByte dstSize dst (b₁ <<< 4 ||| b₂ >>> 2)
      | [] => dst
    | (_, dst) => dst

/-! ## Basic authentication -/

/-- `auth_user_t`. -/
structure AuthUser where
  username : CStr
  password : CStr
  role : CStr
deriving DecidableEq, Repr

/-- `g_auth_users` and the user store, if it is mapped. -/
structure Credentials where
  authUsers : List AuthUser
  store : Option Shm

/-- `auth_lookup`. -/
def authLookup (creds : Credentials) (username password : CStr) : Option (Option CStr) :=
  let found := creds.authUsers.find? fun u =>
    decide (strcmp u.username username = .eq) && decide (strcmp u.password password = .eq)
  match found with
  | some u => some (some u.role)
  | none =>
    match creds.store with
    | none => some none
    | some shm =>
      (userStoreAuth shm username password).map fun ok => if ok then some (ascii "user") else none

def toLower (c : UInt8) : UInt8 := if 65 ≤ c ∧ c ≤ 90 then c + 32 else c

/-- `strncasecmp(header, "Basic ", 6) == 0`. -/
def isBasic (header : CStr) : Bool :=
  startsWith (header.map toLower) (ascii "basic ")

/-- The decoded header at its first colon; `none` when there is no colon. -/
def splitColon (decoded : CStr) : Option (CStr × CStr) :=
  match decoded.dropWhile (· ≠ 58) with
  | [] => none
  | _ :: password => some (decoded.takeWhile (· ≠ 58), password)

/-- The user name and password in the header: `none` for invalid Base64, `some none` when there
are none. -/
def basicUser (header : CStr) : Option (Option (CStr × CStr)) :=
  if isBasic header then (base64Decode (header.drop 6) 256).map fun dst => splitColon (ofBuffer dst)
  else some none

/-- `auth_role_matches`, for a role that is not `NULL`. -/
def authRoleMatches (userRole requiredRole : CStr) : Bool :=
  if requiredRole = [] then true
  else if strcmp userRole (ascii "admin") = .eq then true
  else decide (strcmp userRole requiredRole = .eq)

end MiniWeb.RequestHandler
