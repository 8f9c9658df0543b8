import MiniWeb.SessionStore.History
import MiniWeb.RequestHandler.CapturedName
import MiniWeb.RequestHandler.Site

/-!
# Who changes users

A route that requires a role calls its handler for a request whose cookie or whose Authorization
header gives that role. A cookie gives the role of a session, and a session is created for a login.
So in a process whose routes for changes all require a role, users are changed only after some
request has carried the name and the password of a user with such a role.
-/

namespace MiniWeb.RequestHandler

open Loop CStr Runs SessionStore UserStore Routing FrontEnd

/-- The handlers that change users. -/
def changesUsers (handler : HandlerType) : Bool := handler ∈ [.userAdd, .userDelete, .deleteForm]

/-- Every route that changes users requires a role. -/
def ChangesGuarded (rt : RouteTable) : Prop :=
  ∀ e ∈ rt.exact ++ rt.prefixes, changesUsers e.handler = true → e.requiredRole ≠ []

/-- A route that changes users admits the role. -/
def MayChange (rt : RouteTable) (r : CStr) : Prop :=
  ∃ e ∈ rt.exact ++ rt.prefixes, changesUsers e.handler = true ∧
    authRoleMatches r e.requiredRole = true

/-- The request carries the name and the password of a user with that role, in its Authorization
header or in the fields of the login form. -/
def Visit.Presents (v : Visit) (site : Site) (r : CStr) : Prop :=
  BasicCredentials v.req.bodyRequest.toRequest (site.credentials v.env) r ∨
    ∃ role, HasRole (site.credentials v.env) (loginField v.req.body usernameKey)
      (loginField v.req.body passwordKey) role ∧ cut 32 role = r

/-- No session in use has a role with which users can be changed. -/
def NoRights (rt : RouteTable) (t : Table) : Prop :=
  ∀ i, (t.sessions i).used = true → ¬MayChange rt (t.sessions i).role

section

variable {rt : RouteTable} {size : Nat} {v : Visit} {site site' : Site} {t t' : Table}
  {e : RouteEntry} {captured : CStr} {d : Decision}

theorem handlerUpdates_eq_nil {handler : HandlerType} (h : changesUsers handler = false)
    (req : HttpRequest) (captured : CStr) : handlerUpdates handler req captured = [] := by
  cases handler
  case userAdd => cases h
  case userDelete => cases h
  case deleteForm => cases h
  all_goals rfl

/-! ## Sessions -/

theorem noRights_sessionInit : NoRights rt sessionInit := fun _ h => by cases h

theorem NoRights.weakens (h : NoRights rt t) (hweakens : Weakens t t') : NoRights rt t' := by
  intro i hi
  have hsame := hweakens i hi
  rw [hsame] at hi ⊢
  exact h i hi

/-- A new session brings only the role it is created with. -/
theorem NoRights.create {randomBytes : Vector UInt8 32} {username role : CStr}
    {sweep resweep now : Int} {sid : Option CStr} (h : NoRights rt t)
    (hrole : ¬MayChange rt (cut 32 role))
    (hcreate : sessionCreate randomBytes username role sweep resweep now t = some (sid, t')) :
    NoRights rt t' := by
  rcases sessionCreate_cases hcreate with ⟨hslot, -⟩ | ⟨slot, t₁, id, hslot, hinsert, -⟩
  · exact h.weakens (findFreeSlot_weakens hslot)
  obtain ⟨k, r, -, -, rfl⟩ := insertSession_cases hinsert
  intro i hi
  rw [Table.link_sessions, Table.fill_sessions] at hi ⊢
  by_cases hislot : i = slot
  · rw [hislot, Function.update_self]
    exact hrole
  · rw [Function.update_of_ne hislot] at hi ⊢
    exact h.weakens (findFreeSlot_weakens hslot) i hi

/-- A call that creates no session with a role of its own. -/
theorem NoRights.call {call : Call} (h : NoRights rt t) (hexec : call.exec t = some t')
    (hcreate : ∀ b u r s s' n, call = .create b u r s s' n → ¬MayChange rt (cut 32 r)) :
    NoRights rt t' := by
  cases call with
  | create randomBytes username role sweep resweep now =>
    rw [Call.exec] at hexec
    obtain ⟨⟨sid, t₁⟩, hcreated, rfl⟩ := Option.map_eq_some_iff.mp hexec
    exact h.create (hcreate randomBytes username role sweep resweep now rfl) hcreated
  | lookup sid now =>
    rw [Call.exec] at hexec
    obtain ⟨⟨r, t₁⟩, hlookup, rfl⟩ := Option.map_eq_some_iff.mp hexec
    exact h.weakens (sessionLookup_weakens hlookup)
  | destroy sid => exact h.weakens (sessionDestroy_weakens hexec)
  | cleanup now => exact h.weakens (cleanupFrom_weakens hexec)

theorem not_create_mem_lookupCalls {cookie : CStr} {now : Int} {b : Vector UInt8 32}
    {u r : CStr} {s s' n : Int} : .create b u r s s' n ∉ lookupCalls cookie now := by
  rw [lookupCalls]
  cases cookieSid cookie with
  | none => exact List.not_mem_nil
  | some sid => simp

/-- A session is created for the name and the password in the fields of a login form. -/
theorem create_mem_loginCalls {env : Surroundings} {creds : Credentials} {req : BodyRequest}
    {b : Vector UInt8 32} {u r : CStr} {s s' n : Int}
    (h : .create b u r s s' n ∈ loginCalls env creds req) :
    HasRole creds (loginField req.body usernameKey) (loginField req.body passwordKey) r := by
  rw [loginCalls] at h
  split at h
  · exact absurd h List.not_mem_nil
  · simp only at h
    cases hrole : roleOf creds (loginField req.body usernameKey)
        (loginField req.body passwordKey) with
    | none =>
      rw [hrole] at h
      exact absurd h List.not_mem_nil
    | some role =>
      rw [hrole, Option.elim_some, List.mem_singleton] at h
      cases h
      exact authLookup_some (roleOf_some.mp hrole)

theorem create_mem_handlerCalls {env : Surroundings} {handler : HandlerType} {req : HttpRequest}
    {b : Vector UInt8 32} {u r : CStr} {s s' n : Int}
    (h : .create b u r s s' n ∈ handlerCalls env handler req site) :
    HasRole (site.credentials env) (loginField req.body usernameKey)
      (loginField req.body passwordKey) r := by
  cases handler
  case index => exact absurd h not_create_mem_lookupCalls
  case login => exact create_mem_loginCalls h
  case logout =>
    rw [handlerCalls] at h
    cases hsid : cookieSid req.cookie with
    | none =>
      rw [hsid] at h
      exact absurd h List.not_mem_nil
    | some sid =>
      rw [hsid] at h
      exact absurd (List.mem_singleton.mp h) Call.noConfusion
  all_goals exact absurd h List.not_mem_nil

theorem Visit.create_mem_calls {b : Vector UInt8 32} {u r : CStr} {s s' n : Int}
    (h : .create b u r s s' n ∈ v.calls rt size site) : v.Presents site (cut 32 r) := by
  rcases List.mem_append.mp h with hgate | hcall
  · rw [gateCalls] at hgate
    split at hgate
    · exact absurd hgate List.not_mem_nil
    · cases hroute : v.route rt with
      | none =>
        rw [hroute] at hgate
        exact absurd hgate List.not_mem_nil
      | some e =>
        rw [hroute, Option.elim_some] at hgate
        split at hgate
        · exact absurd hgate not_create_mem_lookupCalls
        · exact absurd hgate List.not_mem_nil
  · cases hinvoked : v.invoked rt size site with
    | none =>
      rw [hinvoked] at hcall
      exact absurd hcall List.not_mem_nil
    | some p =>
      rw [hinvoked] at hcall
      exact .inr ⟨r, create_mem_handlerCalls hcall, rfl⟩

/-- The sessions behind a request that carries no such role. -/
theorem NoRights.serve (h : NoRights rt site.sessions)
    (hpresents : ∀ r, v.Presents site r → ¬MayChange rt r)
    (hserve : v.serve rt size site = some site') : NoRights rt site'.sessions :=
  runs_rule_mem (p := fun _ _ => true) (fun _ hcall _ _ ht _ hexec =>
    ht.call hexec fun _ _ _ _ _ _ hc =>
      hpresents _ (Visit.create_mem_calls (hc ▸ hcall))) h along_true (Visit.serve_calls hserve)

/-! ## Routes -/

theorem Visit.decided_of_invoked (h : v.invoked rt size site = some (e, captured)) :
    ∃ t, decided v.env rt v.req site = some (.invoke e captured, t) := by
  rw [invoked] at h
  split at h
  · cases h
  · split at h
    case h_1 e' captured' t hdecided =>
      cases h
      exact ⟨t, hdecided⟩
    · cases h

theorem mem_of_find {method path : CStr} {result : FindResult} (ht : Built rt)
    (hlen : path.length < 256) (hfind : routeTableFind rt method path = some result)
    (hentry : result.entry = some e) : e ∈ rt.exact ++ rt.prefixes := by
  rcases (find_sound ht hlen hfind hentry).2.2 with ⟨he, -, -⟩ | ⟨-, earlier, later, heq, -⟩
  · exact List.mem_append_left _ he
  · exact List.mem_append_right _ (heq ▸ List.mem_append_right _ List.mem_cons_self)

/-- The handler of a route that requires a role is called for a request with a role that the route
admits. -/
theorem Visit.invoked_resolves (ht : Built rt) (h : v.invoked rt size site = some (e, captured)) :
    e ∈ rt.exact ++ rt.prefixes ∧ (e.requiredRole ≠ [] → ∃ r,
      Resolves (site.credentials v.env) v.req.bodyRequest.toRequest v.env.authTime site.sessions r ∧
        authRoleMatches r e.requiredRole = true) := by
  obtain ⟨t, hdecided⟩ := decided_of_invoked h
  obtain ⟨result, hfind, hentry, -⟩ := invoke_found hdecided
  refine ⟨mem_of_find ht v.req.pathFits hfind hentry, fun hrole => ?_⟩
  have h405 := (find_sound ht v.req.pathFits hfind hentry).1
  rw [decided, requestHandlerProcessHttp, hfind, Option.bind_some, h405, hentry,
    if_neg Bool.false_ne_true] at hdecided
  simp only [if_pos hrole] at hdecided
  exact (authGate_invoke hdecided).2

/-- A request that carries no role with which users can be changed, where no session has such a
role, changes no users. -/
theorem Visit.updates_eq_nil (ht : Built rt) (hguarded : ChangesGuarded rt)
    (hsessions : NoRights rt site.sessions)
    (hpresents : ∀ r, v.Presents site r → ¬MayChange rt r) : v.updates rt size site = [] := by
  rw [updates]
  cases hinvoked : v.invoked rt size site with
  | none => rfl
  | some p =>
    obtain ⟨e, captured⟩ := p
    obtain ⟨he, hresolves⟩ := invoked_resolves ht hinvoked
    refine handlerUpdates_eq_nil (Bool.eq_false_iff.mpr fun hchanges => ?_) _ _
    obtain ⟨r, ⟨sid, i, -, hholds, -, rfl⟩ | hbasic, hmatches⟩ :=
      hresolves (hguarded e he hchanges)
    · exact hsessions i (Table.holds_iff.mp hholds).1 ⟨e, he, hchanges, hmatches⟩
    · exact hpresents r (.inl hbasic) ⟨e, he, hchanges, hmatches⟩

end

/-- **Who changes users.** In a process whose routes for changes all require a role, and which
starts without a session that has such a role, users are changed by a run of requests only if one
of the requests carries the name and the password of a user with such a role. -/
theorem users_changed {rt : RouteTable} {size : Nat} {visits : List Visit} {site site' : Site}
    (ht : Built rt) (hguarded : ChangesGuarded rt) (hsessions : NoRights rt site.sessions)
    (hrun : runs (Visit.serve rt size) visits site = some site')
    (hchanged : site'.store ≠ site.store) :
    ∃ v s, (v, s) ∈ met (Visit.serve rt size) visits site ∧ ∃ r, v.Presents s r ∧ MayChange rt r := by
  by_contra hnone
  push Not at hnone
  have hkept : site'.store = site.store ∧ NoRights rt site'.sessions :=
    runs_rule_met (fun v s => ∀ r, v.Presents s r → ¬MayChange rt r)
      (fun s => s.store = site.store ∧ NoRights rt s.sessions)
      (fun v s s' hs hpresents hserve => by
        refine ⟨?_, hs.2.serve hpresents hserve⟩
        have hupdates := Visit.serve_updates hserve
        rw [Visit.updates_eq_nil ht hguarded hs.2 hpresents] at hupdates
        exact (Option.some.inj hupdates).symm.trans hs.1)
      ⟨rfl, hsessions⟩ hnone hrun
  exact hchanged hkept.1

theorem built_addTable : Built addTable where
  count := Nat.zero_le _
  filled := Filled.empty _
  exactType _ he := nomatch he
  prefixType e he := by
    rw [List.mem_singleton.mp he]
    rfl

theorem changesGuarded_addTable : ChangesGuarded addTable := by
  intro e he _
  rw [List.mem_singleton.mp he]
  decide

/-- The administrator's request changes the users. -/
theorem users_changed_postBob : ∃ site',
    runs (Visit.serve addTable 4096) [postBob] freshSite = some site' ∧
      ∃ v s, (v, s) ∈ met (Visit.serve addTable 4096) [postBob] freshSite ∧
        ∃ r, v.Presents s r ∧ MayChange addTable r := by
  have hsize : (runs (Visit.serve addTable 4096) [postBob] freshSite).map
      (fun site => site.store.shm.header.size) = some 1 := by decide +kernel
  obtain ⟨site', hrun, hsize'⟩ := Option.map_eq_some_iff.mp hsize
  refine ⟨site', hrun, users_changed built_addTable changesGuarded_addTable noRights_sessionInit
    hrun fun hsame => ?_⟩
  rw [hsame] at hsize'
  exact absurd hsize' (by decide)

end MiniWeb.RequestHandler
