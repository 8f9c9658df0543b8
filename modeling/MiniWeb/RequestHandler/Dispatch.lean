import MiniWeb.Routing.Find
import MiniWeb.RequestHandler.Credentials

/-!
# Dispatch and access control

`request_handler_process_http` finds the route of a request, checks the credentials if the route
requires a role, and calls the route's handler. The model gives what is decided; the texts of the
answers are left out, and what a handler answers is not part of it.
-/

namespace MiniWeb.RequestHandler

open Loop CStr SessionStore UserStore Routing

/-- What `request_handler_process_http` decides. -/
inductive Decision where
  /-- 405 with the methods of its Allow header. -/
  | methodNotAllowed (allow : CStr)
  /-- 400: the Authorization header is not Base64. -/
  | badRequest
  /-- 401 with the realm of its WWW-Authenticate header. -/
  | unauthorized (realm : CStr)
  /-- 302 to the login page. -/
  | redirectToLogin
  /-- 403. -/
  | forbidden
  /-- The handler of the entry is called with the rest of the path. -/
  | invoke (entry : RouteEntry) (captured : CStr)
  /-- 404. -/
  | notFound
deriving DecidableEq, Repr

/-- `route_table_get_handler_fn(type) != NULL`: every type but `HANDLER_NONE` has a handler. -/
def hasHandler (type : HandlerType) : Bool := decide (type ≠ .none)

/-- The call of the handler at the end. -/
def callHandler (e : RouteEntry) (captured : CStr) : Decision :=
  if hasHandler e.handler then .invoke e captured else .notFound

/-- The role of the Authorization header is looked up if the cookie gave none. -/
inductive RoleResult where
  | badBase64
  | noRole
  | role (r : CStr)
deriving DecidableEq, Repr

def basicRole (header : CStr) (creds : Credentials) : Option RoleResult :=
  match basicUser header with
  | none => some .badBase64
  | some none => some .noRole
  | some (some (username, password)) =>
    (authLookup creds username password).map fun
      | some r => .role r
      | none => .noRole

/-- The decision on a route that requires a role, from the role of the request. -/
def checkRole (e : RouteEntry) (req : Request) (captured : CStr) : RoleResult → Decision
  | .badBase64 => .badRequest
  | .noRole =>
    if req.authorization ≠ [] then
      .unauthorized (if e.authRealm = [] then ascii "Restricted" else e.authRealm)
    else .redirectToLogin
  | .role r => if authRoleMatches r e.requiredRole then callHandler e captured else .forbidden

/-- The check of a route that requires a role. -/
def authGate (e : RouteEntry) (req : Request) (captured : CStr) (creds : Credentials) (now : Int)
    (sessions : Table) : Option (Decision × Table) :=
  (cookieRole req.cookie now sessions).bind fun
    | (some r, sessions) => some (checkRole e req captured (.role r), sessions)
    | (none, sessions) =>
      (basicRole req.authorization creds).map fun r => (checkRole e req captured r, sessions)

/-- `request_handler_process_http` on the route table in force. -/
def requestHandlerProcessHttp (rt : RouteTable) (creds : Credentials) (req : Request) (now : Int)
    (sessions : Table) : Option (Decision × Table) :=
  (routeTableFind rt req.method req.path).bind fun result =>
    if result.is405 then
      some (.methodNotAllowed (if result.allow = [] then ascii "GET" else result.allow), sessions)
    else
      match result.entry with
      | none => some (.notFound, sessions)
      | some e =>
        if e.requiredRole ≠ [] then authGate e req result.captured creds now sessions
        else some (callHandler e result.captured, sessions)

/-! ## What access control is for -/

/-- By `route_table.h` only an empty realm makes a route public. -/
def Protected (e : RouteEntry) : Prop := e.authRealm ≠ [] ∨ e.requiredRole ≠ []

/-- The cookie holds the id of a session in use that has not expired. -/
def LiveCookie (req : Request) (now : Int) (sessions : Table) (r : CStr) : Prop :=
  ∃ sid i, cookieSid req.cookie = some sid ∧ sessions.holds sid i = true ∧
    now ≤ (sessions.sessions i).expiresAt ∧ (sessions.sessions i).role = r

/-- A user of the `auth_user_file` with that role, or one of the user store with role `user`. -/
def HasRole (creds : Credentials) (username password r : CStr) : Prop :=
  (∃ u ∈ creds.authUsers, u.username = username ∧ u.password = password ∧ u.role = r) ∨
    ∃ shm, creds.store = some shm ∧ userStoreAuth shm username password = some true ∧
      r = ascii "user"

/-- The Authorization header holds the name and password of a user with that role. -/
def BasicCredentials (req : Request) (creds : Credentials) (r : CStr) : Prop :=
  ∃ username password, basicUser req.authorization = some (some (username, password)) ∧
    HasRole creds username password r

/-- The credentials of the request resolve to a role. -/
def Resolves (creds : Credentials) (req : Request) (now : Int) (sessions : Table) (r : CStr) :
    Prop :=
  LiveCookie req now sessions r ∨ BasicCredentials req creds r

/-- A protected handler is called only if the credentials resolve to a role that is allowed. -/
def Guarded (rt : RouteTable) (creds : Credentials) (req : Request) (now : Int)
    (sessions : Table) : Prop :=
  ∀ e captured sessions',
    requestHandlerProcessHttp rt creds req now sessions = some (.invoke e captured, sessions') →
    Protected e →
      ∃ r, Resolves creds req now sessions r ∧ authRoleMatches r e.requiredRole = true

/-- The route that is matched requires a role, or is public, or has no handler, or the
credentials resolve to some role. -/
def GateApplies (rt : RouteTable) (creds : Credentials) (req : Request) (now : Int)
    (sessions : Table) : Prop :=
  ∀ result e, routeTableFind rt req.method req.path = some result → result.is405 = false →
    result.entry = some e →
      e.requiredRole ≠ [] ∨ e.authRealm = [] ∨ hasHandler e.handler = false ∨
        ∃ r, Resolves creds req now sessions r

/-! ## The gate -/

section

variable {rt : RouteTable} {creds : Credentials} {req : Request} {now : Int}
  {sessions sessions' : Table} {e : RouteEntry} {captured : CStr} {r : CStr}

theorem cookieRole_some (h : cookieRole req.cookie now sessions = some (some r, sessions')) :
    LiveCookie req now sessions r := by
  by_cases hnil : req.cookie = []
  · rw [cookieRole, if_pos hnil] at h
    cases h
  · rw [cookieRole, if_neg hnil] at h
    cases hsid : cookieSid req.cookie with
    | none =>
      rw [hsid] at h
      cases h
    | some sid =>
      rw [hsid] at h
      obtain ⟨⟨s, t⟩, hlookup, hpair⟩ := Option.map_eq_some_iff.mp h
      obtain ⟨hrole, rfl⟩ := Prod.mk.inj hpair
      rcases sessionLookup_cases hlookup with
        ⟨rfl, -, -⟩ | ⟨k, i, hk, ⟨hnow, rfl, rfl⟩ | ⟨-, rfl, -⟩⟩
      · cases hrole
      · cases hrole
        exact ⟨sid, i, hsid, (findEntry_some hk).2, hnow, rfl⟩
      · cases hrole

theorem authLookup_some {username password : CStr}
    (h : authLookup creds username password = some (some r)) :
    HasRole creds username password r := by
  unfold authLookup at h
  cases hfind : creds.authUsers.find? fun u =>
      decide (strcmp u.username username = .eq) && decide (strcmp u.password password = .eq) with
  | some u =>
    simp only [hfind] at h
    cases h
    have hu := List.find?_some hfind
    rw [Bool.and_eq_true, decide_eq_true_eq, decide_eq_true_eq, strcmp_eq_iff,
      strcmp_eq_iff] at hu
    exact .inl ⟨u, List.mem_of_find?_eq_some hfind, hu.1, hu.2, rfl⟩
  | none =>
    simp only [hfind] at h
    cases hstore : creds.store with
    | none =>
      simp only [hstore] at h
      cases h
    | some shm =>
      simp only [hstore] at h
      obtain ⟨ok, hok, hr⟩ := Option.map_eq_some_iff.mp h
      cases ok with
      | false => cases hr
      | true =>
        cases hr
        exact .inr ⟨shm, hstore, hok, rfl⟩

theorem basicRole_some (h : basicRole req.authorization creds = some (.role r)) :
    BasicCredentials req creds r := by
  unfold basicRole at h
  cases huser : basicUser req.authorization with
  | none =>
    simp only [huser] at h
    cases h
  | some user =>
    cases user with
    | none =>
      simp only [huser] at h
      cases h
    | some user =>
      obtain ⟨username, password⟩ := user
      simp only [huser] at h
      obtain ⟨found, hfound, hr⟩ := Option.map_eq_some_iff.mp h
      cases found with
      | none => cases hr
      | some r' =>
        cases hr
        exact ⟨username, password, huser, authLookup_some hfound⟩

theorem checkRole_invoke {result : RoleResult} {e' : RouteEntry} {captured' : CStr}
    (h : checkRole e req captured result = .invoke e' captured') :
    ∃ r, result = .role r ∧ authRoleMatches r e.requiredRole = true ∧ e' = e := by
  cases result with
  | badBase64 => cases h
  | noRole =>
    rw [checkRole] at h
    split at h
    · cases h
    · cases h
  | role r =>
    rw [checkRole] at h
    split at h
    next hrole =>
      rw [callHandler] at h
      split at h
      · cases h
        exact ⟨r, rfl, hrole, rfl⟩
      · cases h
    next => cases h

/-- Behind the gate a handler is called only for an allowed role. -/
theorem authGate_invoke {e' : RouteEntry} {captured' : CStr}
    (h : authGate e req captured creds now sessions = some (.invoke e' captured', sessions')) :
    e' = e ∧ ∃ r, Resolves creds req now sessions r ∧ authRoleMatches r e.requiredRole = true := by
  obtain ⟨⟨role, t⟩, hcookie, hrest⟩ := Option.bind_eq_some_iff.mp h
  cases role with
  | some r =>
    obtain ⟨hcheck, -⟩ := Prod.mk.inj (Option.some.inj hrest)
    obtain ⟨r', hr', hmatches, rfl⟩ := checkRole_invoke hcheck
    cases hr'
    exact ⟨rfl, r, .inl (cookieRole_some hcookie), hmatches⟩
  | none =>
    obtain ⟨result, hbasic, hpair⟩ := Option.map_eq_some_iff.mp hrest
    obtain ⟨hcheck, -⟩ := Prod.mk.inj hpair
    obtain ⟨r', rfl, hmatches, rfl⟩ := checkRole_invoke hcheck
    exact ⟨rfl, r', .inr (basicRole_some hbasic), hmatches⟩

/-- **Access control.** For every route table, session store, credential store and request, a
protected handler is called only for an allowed role, exactly if the gate applies to the route. -/
theorem guarded_iff (rt : RouteTable) (creds : Credentials) (req : Request) (now : Int)
    (sessions : Table) :
    Guarded rt creds req now sessions ↔ GateApplies rt creds req now sessions := by
  constructor
  · intro h result e hfind h405 hentry
    by_cases hrole : e.requiredRole = []
    · by_cases hhandler : hasHandler e.handler = true
      · by_cases hrealm : e.authRealm = []
        · exact .inr (.inl hrealm)
        · have hcall : requestHandlerProcessHttp rt creds req now sessions =
              some (.invoke e result.captured, sessions) := by
            simp [requestHandlerProcessHttp, hfind, h405, hentry, hrole, callHandler, hhandler]
          obtain ⟨r, hr, -⟩ := h e result.captured sessions hcall (.inl hrealm)
          exact .inr (.inr (.inr ⟨r, hr⟩))
      · exact .inr (.inr (.inl (Bool.eq_false_iff.mpr hhandler)))
    · exact .inl hrole
  · intro h e captured sessions' hcall hprotected
    obtain ⟨result, hfind, hrest⟩ := Option.bind_eq_some_iff.mp hcall
    cases h405 : result.is405 with
    | true =>
      rw [h405, if_pos rfl] at hrest
      cases hrest
    | false =>
      rw [h405, if_neg Bool.false_ne_true] at hrest
      cases hentry : result.entry with
      | none =>
        simp only [hentry] at hrest
        cases hrest
      | some e₀ =>
        simp only [hentry] at hrest
        by_cases hrole : e₀.requiredRole = []
        · rw [if_neg (fun hne => hne hrole)] at hrest
          obtain ⟨hinvoke, -⟩ := Prod.mk.inj (Option.some.inj hrest)
          rw [callHandler] at hinvoke
          split at hinvoke
          next hhandler =>
            cases hinvoke
            have hrealm : e.authRealm ≠ [] := hprotected.resolve_right fun hne => hne hrole
            rcases h result e hfind h405 hentry with hne | hnil | hno | ⟨r, hr⟩
            · exact absurd hrole hne
            · exact absurd hnil hrealm
            · rw [hhandler] at hno
              cases hno
            · exact ⟨r, hr, by rw [authRoleMatches, if_pos hrole]⟩
          next => cases hinvoke
        · rw [if_pos hrole] at hrest
          obtain ⟨rfl, r, hr, hmatches⟩ := authGate_invoke hrest
          exact ⟨r, hr, hmatches⟩

end

/-- A route with a realm and no role is served to a request without credentials. -/
theorem realm_without_role_served :
    ∃ rt, addRoutes [⟨ascii "GET", ascii "/users", .matchExact, .userList, ascii "Admin Area", []⟩]
        routeTableInit = some rt ∧
      ¬ Guarded rt ⟨[], none⟩ ⟨ascii "GET", ascii "/users", [], []⟩ 0 sessionInit := by
  refine ⟨_, (Option.some_get (by decide +kernel)).symm, fun h => ?_⟩
  have hdecision : (requestHandlerProcessHttp ((addRoutes [⟨ascii "GET", ascii "/users",
      .matchExact, .userList, ascii "Admin Area", []⟩] routeTableInit).get (by decide +kernel))
      ⟨[], none⟩ ⟨ascii "GET", ascii "/users", [], []⟩ 0 sessionInit).map Prod.fst =
        some (.invoke ⟨ascii "/users", .matchExact, ascii "GET", .userList,
          ascii "Admin Area", []⟩ []) := by decide +kernel
  obtain ⟨⟨decision, sessions⟩, hcall, rfl⟩ := Option.map_eq_some_iff.mp hdecision
  have hcookie : cookieSid [] = none := by decide +kernel
  have hbasic : basicUser [] = some none := by decide +kernel
  obtain ⟨r, ⟨sid, i, hsid, -⟩ | ⟨username, password, huser, -⟩, -⟩ :=
    h _ _ _ hcall (.inl (by decide +kernel))
  · rw [hcookie] at hsid
    cases hsid
  · rw [hbasic] at huser
    cases huser

end MiniWeb.RequestHandler
