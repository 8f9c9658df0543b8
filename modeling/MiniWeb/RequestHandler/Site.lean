import MiniWeb.Lib.Trace
import MiniWeb.UserStore.Census
import MiniWeb.RequestHandler.DeleteForm
import MiniWeb.RequestHandler.Overflow

/-!
# A process that serves requests

All requests go through `request_handler_process_http`, which looks up sessions and calls a handler;
a handler adds or deletes at most one user. So what a process does to the user store and to the
sessions while it serves any requests is a run of the operations of these two, and what holds of
their runs holds of the process.

The second part is about access control over such runs: users are changed only by requests whose
credentials resolve to a role that a route for it admits.
-/

namespace MiniWeb.RequestHandler

open Loop CStr Runs SessionStore UserStore RedBlack Routing FrontEnd

/-- A request with what it finds when it is served. -/
structure Visit where
  env : Surroundings
  req : HttpRequest

/-- The process serves the request. -/
def Visit.serve (rt : RouteTable) (size : Nat) (v : Visit) (site : Site) : Option Site :=
  (processHttp v.env rt v.req size site).map Prod.snd

/-! ## The parts of a request -/

/-- The deletion of a name, unless there is none. -/
def deletions (name : CStr) : List Op := if name = [] then [] else [.delete name]

/-- What a handler does to the user store. -/
def handlerUpdates (handler : HandlerType) (req : HttpRequest) (captured : CStr) : List Op :=
  match handler with
  | .userAdd => if req.body = [] then [] else [.add req.body]
  | .userDelete => deletions (urlDecodePath captured)
  | .deleteForm => (formValue req.body).elim [] fun value => deletions (nameBuf value)
  | _ => []

/-- The lookup of the session id in a cookie, if it has one. -/
def lookupCalls (cookie : CStr) (now : Int) : List Call :=
  (cookieSid cookie).elim [] fun sid => [.lookup sid now]

/-- The session that a login with a known name and password creates. -/
def loginCalls (env : Surroundings) (creds : Credentials) (req : BodyRequest) : List Call :=
  if strcmp req.method (ascii "GET") = .eq ∨ strcmp req.method (ascii "POST") ≠ .eq then []
  else
    let username := loginField req.body usernameKey
    (roleOf creds username (loginField req.body passwordKey)).elim [] fun role =>
      [.create env.randomBytes username role env.sweepTime env.resweepTime env.loginTime]

/-- What a handler does to the sessions. -/
def handlerCalls (env : Surroundings) (handler : HandlerType) (req : HttpRequest)
    (site : Site) : List Call :=
  match handler with
  | .index => lookupCalls req.cookie env.indexTime
  | .login => loginCalls env (site.credentials env) req.bodyRequest
  | .logout => (cookieSid req.cookie).elim [] fun sid => [.destroy sid]
  | _ => []

section

variable (rt : RouteTable) (size : Nat) (v : Visit) (site : Site)

/-- The entry whose handler is called, with the rest of the path. -/
def Visit.invoked : Option (RouteEntry × CStr) :=
  if size = 0 then none
  else
    match decided v.env rt v.req site with
    | some (.invoke e captured, _) => some (e, captured)
    | _ => none

/-- What the request does to the user store. -/
def Visit.updates : List Op :=
  (v.invoked rt size site).elim [] fun (e, captured) => handlerUpdates e.handler v.req captured

/-- The route of the request. -/
def Visit.route : Option RouteEntry :=
  (routeTableFind rt v.req.method v.req.path).bind fun result =>
    if result.is405 then none else result.entry

/-- The lookup of the check of a route that requires a role. -/
def Visit.gateCalls : List Call :=
  if size = 0 then []
  else
    (v.route rt).elim [] fun e =>
      if e.requiredRole ≠ [] then lookupCalls v.req.cookie v.env.authTime else []

/-- What the request does to the sessions. -/
def Visit.calls : List Call :=
  v.gateCalls rt size ++
    (v.invoked rt size site).elim [] fun (e, _) => handlerCalls v.env e.handler v.req site

end

/-! ## What a handler does to the store -/

section

variable {env : Surroundings} {handler : HandlerType} {req : HttpRequest} {captured : CStr}
  {size : Nat} {site site' : Site} {answer : Answer} {s s' : Store} {o : Outcome}

theorem runOps_one (op : Op) : runOps [op] s = op.exec s := by
  cases h : op.exec s <;> simp [runOps, h]

theorem addUser_updates {body : CStr} (h : addUser body s = some (o, s')) :
    runOps (if body = [] then [] else [.add body]) s = some s' := by
  unfold addUser at h
  split at h
  case isTrue hbody =>
    cases h
    rw [if_pos hbody]
    rfl
  case isFalse hbody =>
    obtain ⟨⟨ret, s₁⟩, hadd, hpair⟩ := Option.map_eq_some_iff.mp h
    cases hpair
    rw [if_neg hbody, runOps_one, Op.exec, hadd]
    rfl

theorem deleteUser_updates {name : CStr} (h : deleteUser name s = some (o, s')) :
    runOps (deletions name) s = some s' := by
  unfold deleteUser at h
  unfold deletions
  split at h
  case isTrue hname =>
    cases h
    rw [if_pos hname]
    rfl
  case isFalse hname =>
    obtain ⟨⟨ret, s₁⟩, hdelete, hpair⟩ := Option.map_eq_some_iff.mp h
    cases hpair
    rw [if_neg hname, runOps_one, Op.exec, hdelete]
    rfl

theorem reportUser_store {name : CStr} {found : Option Off}
    (h : reportUser name s found = some (o, s')) : s' = s := by
  obtain ⟨user, -, hpair⟩ := Option.map_eq_some_iff.mp h
  exact (Prod.mk.inj hpair).2.symm

/-- A handler that decodes a name goes on with it, or writes to a literal. -/
theorem withName_cases {handle : CStr → Option (Outcome × Store)}
    (h : withName captured s handle = some (o, s')) :
    captured = [] ∧ s' = s ∨ handle (urlDecodePath captured) = some (o, s') := by
  unfold withName at h
  split at h
  case isTrue hnil =>
    cases h
    exact .inl ⟨hnil, rfl⟩
  case isFalse => exact .inr h

theorem findUser_store (h : findUser captured s = some (o, s')) : s' = s := by
  rcases withName_cases h with ⟨-, rfl⟩ | h
  · rfl
  · split at h
    · cases h
      rfl
    · exact reportUser_store h

theorem deletions_urlDecodePath_nil : deletions (urlDecodePath []) = [] := by decide

theorem compareUser_store {console : Console} {verbose : Bool}
    (h : compareUser console verbose captured s = some (o, s')) : s' = s := by
  rcases withName_cases h with ⟨-, rfl⟩ | h
  · rfl
  · obtain ⟨body, -, hpair⟩ := Option.map_eq_some_iff.mp h
    exact (Prod.mk.inj hpair).2.symm

theorem callHandlerFn_updates {console : Console}
    (h : callHandlerFn console handler req.bodyRequest captured s = some (o, s'))
    (hform : handler ≠ .deleteForm) :
    runOps (handlerUpdates handler req captured) s = some s' := by
  have hkeeps : s' = s → handlerUpdates handler req captured = [] →
      runOps (handlerUpdates handler req captured) s = some s' := by
    rintro rfl hnone
    rw [hnone]
    rfl
  cases handler
  case userAdd => exact addUser_updates h
  case userDelete =>
    have h : handleUserDelete captured s = some (o, s') := h
    rcases withName_cases h with ⟨rfl, rfl⟩ | h
    · exact hkeeps rfl deletions_urlDecodePath_nil
    · exact deleteUser_updates h
  case deleteForm => exact absurd rfl hform
  case userByName => exact hkeeps (findUser_store h) rfl
  case userSimpleFind => exact hkeeps (findUser_store h) rfl
  case userFindIndex =>
    have h : handleUserFindIndex captured s = some (o, s') := h
    rcases withName_cases h with ⟨-, rfl⟩ | h
    · exact hkeeps rfl rfl
    · exact hkeeps (reportUser_store h) rfl
  case userCompare => exact hkeeps (compareUser_store h) rfl
  case userCompareVerbose => exact hkeeps (compareUser_store h) rfl
  all_goals
    cases h
    exact hkeeps rfl rfl

theorem handleDeleteForm_updates (h : handleDeleteForm req.bodyRequest s = some (o, s')) :
    runOps (handlerUpdates .deleteForm req captured) s = some s' := by
  cases hvalue : formValue req.body with
  | none =>
    rw [handleDeleteForm_none hvalue] at h
    cases h
    rw [handlerUpdates, hvalue]
    rfl
  | some value =>
    rw [handleDeleteForm_some hvalue] at h
    rw [handlerUpdates, hvalue]
    exact deleteUser_updates h

/-- What a handler reports leaves the sessions alone. -/
theorem reported_site {r : Option (Outcome × Store)}
    (h : reported env site r = some (answer, site')) :
    ∃ o, r = some (o, site'.store) ∧ site'.sessions = site.sessions := by
  obtain ⟨⟨o, s⟩, hr, hanswer⟩ := Option.bind_eq_some_iff.mp h
  obtain ⟨a, -, hpair⟩ := Option.map_eq_some_iff.mp hanswer
  cases hpair
  exact ⟨o, hr, rfl⟩

theorem handleIndex_store (h : handleIndex env req size site = some (answer, site')) :
    site'.store = site.store := by
  obtain ⟨⟨username, t⟩, -, hrest⟩ := Option.bind_eq_some_iff.mp h
  simp only at hrest
  split at hrest
  · cases hrest
    rfl
  · cases hrest
    rfl
  · cases hrest
    rfl
  · obtain ⟨real, -, hpair⟩ := Option.map_eq_some_iff.mp hrest
    cases hpair
    rfl

/-- **A handler and the store.** -/
theorem serve_updates (h : serve env handler req captured size site = some (answer, site')) :
    runOps (handlerUpdates handler req captured) site.store = some site'.store := by
  have hkeeps : site'.store = site.store → handlerUpdates handler req captured = [] →
      runOps (handlerUpdates handler req captured) site.store = some site'.store := by
    intro hstore hnone
    rw [hnone, hstore]
    rfl
  have hreported : ∀ o, callHandlerFn env.console handler req.bodyRequest captured site.store =
      some (o, site'.store) → handler ≠ .deleteForm →
      runOps (handlerUpdates handler req captured) site.store = some site'.store :=
    fun _ => callHandlerFn_updates
  cases handler
  case help =>
    cases h
    exact hkeeps rfl rfl
  case sleep =>
    cases h
    exact hkeeps rfl rfl
  case blog =>
    cases h
    exact hkeeps rfl rfl
  case static =>
    cases h
    exact hkeeps rfl rfl
  case index => exact hkeeps (handleIndex_store h) rfl
  case search =>
    obtain ⟨r, -, hpair⟩ := Option.map_eq_some_iff.mp h
    cases hpair
    exact hkeeps rfl rfl
  case login =>
    obtain ⟨r, -, hpair⟩ := Option.map_eq_some_iff.mp h
    cases hpair
    exact hkeeps rfl rfl
  case logout =>
    obtain ⟨r, -, hpair⟩ := Option.map_eq_some_iff.mp h
    cases hpair
    exact hkeeps rfl rfl
  case deleteForm =>
    obtain ⟨o, ho, -⟩ := reported_site h
    exact handleDeleteForm_updates ho
  all_goals
    obtain ⟨o, ho, -⟩ := reported_site h
    exact hreported o ho (by decide)

end

/-! ## What a request does to the sessions -/

section

variable {env : Surroundings} {handler : HandlerType} {req : HttpRequest} {captured : CStr}
  {size : Nat} {site site' : Site} {answer : Answer} {t t' : Table} {cookie : CStr} {now : Int}

theorem exec_one (call : Call) : runs Call.exec [call] t = call.exec t := by
  cases h : call.exec t <;> simp [h]

theorem lookupCalls_some {sid : CStr} (h : cookieSid cookie = some sid) :
    runs Call.exec (lookupCalls cookie now) t = (sessionLookup sid now t).map Prod.snd := by
  rw [lookupCalls, h, Option.elim_some, exec_one, Call.exec]

theorem lookupCalls_none (h : cookieSid cookie = none) :
    runs Call.exec (lookupCalls cookie now) t = some t := by
  rw [lookupCalls, h]
  rfl

theorem cookieRole_calls {r : Option CStr} (h : cookieRole cookie now t = some (r, t')) :
    runs Call.exec (lookupCalls cookie now) t = some t' := by
  rw [cookieRole_processHttpSid, processHttpSid_eq] at h
  cases hsid : cookieSid cookie with
  | none =>
    rw [hsid] at h
    cases h
    exact lookupCalls_none hsid
  | some sid =>
    rw [hsid] at h
    obtain ⟨⟨s, t₁⟩, hlookup, hpair⟩ := Option.map_eq_some_iff.mp h
    cases hpair
    rw [lookupCalls_some hsid, hlookup]
    rfl

theorem sessionUsername_calls {u : Option CStr}
    (h : sessionUsername env cookie t = some (u, t')) :
    runs Call.exec (lookupCalls cookie env.indexTime) t = some t' := by
  rw [sessionUsername, handleIndexSid_eq] at h
  cases hsid : cookieSid cookie with
  | none =>
    rw [hsid] at h
    cases h
    exact lookupCalls_none hsid
  | some sid =>
    rw [hsid] at h
    obtain ⟨⟨s, t₁⟩, hlookup, hpair⟩ := Option.map_eq_some_iff.mp h
    cases hpair
    rw [lookupCalls_some hsid, hlookup]
    rfl

theorem handleIndex_sessions (h : handleIndex env req size site = some (answer, site')) :
    ∃ u, sessionUsername env req.cookie site.sessions = some (u, site'.sessions) := by
  obtain ⟨⟨u, t⟩, hu, hrest⟩ := Option.bind_eq_some_iff.mp h
  simp only at hrest
  refine ⟨u, hu.trans ?_⟩
  split at hrest
  · cases hrest
    rfl
  · cases hrest
    rfl
  · cases hrest
    rfl
  · obtain ⟨real, -, hpair⟩ := Option.map_eq_some_iff.mp hrest
    cases hpair
    rfl

theorem handleLogin_calls {creds : Credentials} {req : BodyRequest} {r : LoginReply}
    (h : handleLogin creds req env.randomBytes env.sweepTime env.resweepTime env.loginTime t =
      some (r, t')) :
    runs Call.exec (loginCalls env creds req) t = some t' := by
  by_cases hget : strcmp req.method (ascii "GET") = .eq
  · rw [handleLogin, if_pos hget] at h
    cases h
    rw [loginCalls, if_pos (.inl hget)]
    rfl
  by_cases hpost : strcmp req.method (ascii "POST") = .eq
  · rw [handleLogin, if_neg hget, if_pos hpost] at h
    rw [loginCalls, if_neg (not_or_intro hget (not_not_intro hpost))]
    obtain ⟨role, hrole, hrest⟩ := Option.bind_eq_some_iff.mp h
    simp only [roleOf, hrole]
    cases role with
    | none =>
      cases hrest
      rfl
    | some role =>
      obtain ⟨⟨sid, t₁⟩, hcreate, hpair⟩ := Option.map_eq_some_iff.mp hrest
      have ht₁ : t₁ = t' := by
        cases sid <;> exact (Prod.mk.inj hpair).2
      rw [Option.join_some, Option.elim_some, exec_one, Call.exec, hcreate, ← ht₁]
      rfl
  · rw [handleLogin, if_neg hget, if_neg hpost] at h
    cases h
    rw [loginCalls, if_pos (.inr hpost)]
    rfl

theorem handleLogout_calls (h : handleLogout cookie t = some t') :
    runs Call.exec ((cookieSid cookie).elim [] fun sid => [.destroy sid]) t = some t' := by
  rw [handleLogout, handleLogoutSid] at h
  cases hsid : cookieSid cookie with
  | none =>
    rw [hsid] at h
    exact h
  | some sid =>
    rw [hsid] at h
    rw [Option.elim_some, exec_one]
    exact h

/-- **A handler and the sessions.** -/
theorem serve_calls (h : serve env handler req captured size site = some (answer, site')) :
    runs Call.exec (handlerCalls env handler req site) site.sessions = some site'.sessions := by
  have hreported : ∀ {r : Option (Outcome × Store)}, reported env site r = some (answer, site') →
      runs Call.exec [] site.sessions = some site'.sessions := by
    intro r hr
    obtain ⟨o, -, hsessions⟩ := reported_site hr
    rw [hsessions]
    rfl
  cases handler
  case index =>
    obtain ⟨u, hu⟩ := handleIndex_sessions h
    exact sessionUsername_calls hu
  case login =>
    obtain ⟨⟨r, t'⟩, hlogin, hpair⟩ := Option.map_eq_some_iff.mp h
    cases hpair
    exact handleLogin_calls hlogin
  case logout =>
    obtain ⟨t', hlogout, hpair⟩ := Option.map_eq_some_iff.mp h
    cases hpair
    exact handleLogout_calls hlogout
  case search =>
    obtain ⟨r, -, hpair⟩ := Option.map_eq_some_iff.mp h
    cases hpair
    rfl
  case help => cases h; rfl
  case sleep => cases h; rfl
  case blog => cases h; rfl
  case static => cases h; rfl
  all_goals exact hreported h

end

/-! ## A request -/

section

variable {rt : RouteTable} {size : Nat} {v : Visit} {site site' : Site} {d : Decision} {t : Table}
  {e : RouteEntry} {captured : CStr}

theorem authGate_cookieRole {req : Request} {creds : Credentials} {now : Int} {sessions : Table}
    (h : authGate e req captured creds now sessions = some (d, t)) :
    ∃ r, cookieRole req.cookie now sessions = some (r, t) := by
  obtain ⟨⟨r, t'⟩, hrole, hrest⟩ := Option.bind_eq_some_iff.mp h
  cases r with
  | some r =>
    cases hrest
    exact ⟨some r, hrole⟩
  | none =>
    obtain ⟨basic, -, hpair⟩ := Option.map_eq_some_iff.mp hrest
    cases hpair
    exact ⟨none, hrole⟩

/-- The sessions behind the check of the route. -/
theorem decided_calls (hsize : 0 < size) (h : decided v.env rt v.req site = some (d, t)) :
    runs Call.exec (v.gateCalls rt size) site.sessions = some t := by
  rw [Visit.gateCalls, if_neg (Nat.ne_of_gt hsize)]
  obtain ⟨⟨entry, captured, is405, allow⟩, hfind, hrest⟩ := Option.bind_eq_some_iff.mp h
  have hfind : routeTableFind rt v.req.method v.req.path =
    some ⟨entry, captured, is405, allow⟩ := hfind
  rw [Visit.route, hfind, Option.bind_some]
  cases is405 with
  | true =>
    cases hrest
    rfl
  | false =>
    cases entry with
    | none =>
      cases hrest
      rfl
    | some e =>
      simp only [Bool.false_eq_true, if_false, Option.elim_some] at hrest ⊢
      split at hrest
      case isTrue hrole =>
        obtain ⟨r, hr⟩ := authGate_cookieRole hrest
        rw [if_pos hrole]
        exact cookieRole_calls hr
      case isFalse hrole =>
        cases hrest
        rw [if_neg hrole]
        rfl

/-- A handler is called, or none is. -/
theorem Visit.serve_cases (hsize : 0 < size) (h : v.serve rt size site = some site') :
    ∃ d t, decided v.env rt v.req site = some (d, t) ∧
      ((∃ e captured answer, d = .invoke e captured ∧
          RequestHandler.serve v.env e.handler v.req captured size { site with sessions := t } =
            some (answer, site')) ∨
        (∀ e captured, d ≠ .invoke e captured) ∧ site' = { site with sessions := t }) := by
  obtain ⟨⟨r, site₁⟩, hprocess, rfl⟩ := Option.map_eq_some_iff.mp h
  rw [processHttp_pos hsize] at hprocess
  obtain ⟨⟨d, t⟩, hd, hrest⟩ := Option.bind_eq_some_iff.mp hprocess
  refine ⟨d, t, hd, ?_⟩
  cases d with
  | invoke e captured =>
    obtain ⟨⟨answer, site₂⟩, hserve, hpair⟩ := Option.map_eq_some_iff.mp hrest
    cases hpair
    exact .inl ⟨e, captured, answer, rfl, hserve⟩
  | _ =>
    cases hrest
    exact .inr ⟨fun _ _ => Decision.noConfusion, rfl⟩

theorem Visit.serve_zero (h : v.serve rt 0 site = some site') : site' = site := by
  cases h
  rfl

theorem Visit.invoked_zero : v.invoked rt 0 site = none := rfl

theorem Visit.invoked_invoke (hsize : 0 < size)
    (h : decided v.env rt v.req site = some (.invoke e captured, t)) :
    v.invoked rt size site = some (e, captured) := by
  rw [Visit.invoked, if_neg (Nat.ne_of_gt hsize), h]

theorem Visit.invoked_none (h : decided v.env rt v.req site = some (d, t))
    (hd : ∀ e captured, d ≠ .invoke e captured) : v.invoked rt size site = none := by
  rw [Visit.invoked, h]
  cases d with
  | invoke e captured => exact absurd rfl (hd e captured)
  | _ => exact ite_self _

/-- What a request does to the store. -/
theorem Visit.serve_updates (h : v.serve rt size site = some site') :
    runOps (v.updates rt size site) site.store = some site'.store := by
  rcases Nat.eq_zero_or_pos size with rfl | hsize
  · rw [Visit.updates, invoked_zero, serve_zero h]
    rfl
  obtain ⟨d, t, hd, ⟨e, captured, answer, rfl, hserve⟩ | ⟨hnone, rfl⟩⟩ := serve_cases hsize h
  · rw [Visit.updates, invoked_invoke hsize hd]
    have hupdates := RequestHandler.serve_updates hserve
    exact hupdates
  · rw [Visit.updates, invoked_none hd hnone]
    rfl

/-- What a request does to the sessions. -/
theorem Visit.serve_calls (h : v.serve rt size site = some site') :
    runs Call.exec (v.calls rt size site) site.sessions = some site'.sessions := by
  rcases Nat.eq_zero_or_pos size with rfl | hsize
  · rw [Visit.calls, invoked_zero, serve_zero h]
    rfl
  obtain ⟨d, t, hd, hcases⟩ := serve_cases hsize h
  rw [Visit.calls, runs_append, decided_calls hsize hd, Option.bind_some]
  rcases hcases with ⟨e, captured, answer, rfl, hserve⟩ | ⟨hnone, rfl⟩
  · rw [invoked_invoke hsize hd]
    exact RequestHandler.serve_calls hserve
  · rw [invoked_none hd hnone]
    rfl

end

/-! ## Any number of requests -/

theorem runOps_eq_runs (ops : List Op) (s : Store) : runOps ops s = runs Op.exec ops s := by
  induction ops generalizing s with
  | nil => rfl
  | cons op ops ih =>
    rw [runOps, runs_cons]
    exact congrArg _ (funext ih)

theorem length_handlerUpdates_le (handler : HandlerType) (req : HttpRequest) (captured : CStr) :
    (handlerUpdates handler req captured).length ≤ 1 := by
  have hdelete : ∀ name, (deletions name).length ≤ 1 := by
    intro name
    unfold deletions
    split <;> simp
  cases handler
  case userAdd =>
    rw [handlerUpdates]
    split <;> simp
  case userDelete => exact hdelete _
  case deleteForm =>
    rw [handlerUpdates]
    cases formValue req.body with
    | none => exact Nat.zero_le 1
    | some value => exact hdelete _
  all_goals exact Nat.zero_le 1

theorem Visit.length_updates_le (rt : RouteTable) (size : Nat) (v : Visit) (site : Site) :
    (v.updates rt size site).length ≤ 1 := by
  unfold Visit.updates
  cases v.invoked rt size site with
  | none => exact Nat.zero_le 1
  | some p => exact length_handlerUpdates_le _ _ _

/-- **Serving refines the two stores.** Whatever requests a process serves, it takes its user store
through one run of additions and deletions, of at most one for each request, and its sessions
through one run of the calls of the session store. The index of the users stays sound. -/
theorem serving_refines {rt : RouteTable} {size : Nat} {visits : List Visit} {site site' : Site}
    (hrun : runs (Visit.serve rt size) visits site = some site') :
    runOps (trace (Visit.serve rt size) (Visit.updates rt size) visits site) site.store =
        some site'.store ∧
      runs Call.exec (trace (Visit.serve rt size) (Visit.calls rt size) visits site)
        site.sessions = some site'.sessions ∧
      (trace (Visit.serve rt size) (Visit.updates rt size) visits site).length ≤ visits.length ∧
      ∀ X L, Sound site.store X L → ∃ X' L', Sound site'.store X' L' := by
  have hstore := runs_trace Site.store Op.exec
    (fun _ _ _ h => (runOps_eq_runs _ _).symm.trans (Visit.serve_updates h)) hrun
  have hsessions := runs_trace Site.sessions Call.exec
    (fun _ _ _ h => Visit.serve_calls h) hrun
  rw [← runOps_eq_runs] at hstore
  refine ⟨hstore, hsessions, ?_, fun X L hsound => ?_⟩
  · exact (length_trace_le (Visit.length_updates_le rt size)).trans (Nat.one_mul _).le
  · obtain ⟨s, X', L', hs, hsound'⟩ := hsound.run _
    exact ⟨X', L', Option.some.inj (hs.symm.trans hstore) ▸ hsound'⟩

/-! ## An administrator -/

def addRoute : Route :=
  ⟨ascii "POST", ascii "/users", .matchPrefix, .userAdd, ascii "Users", ascii "admin"⟩

/-- The table with the one route. -/
def addTable : RouteTable := ⟨[], [addRoute.entry], fun _ => none⟩

theorem postPath_fits : (ascii "/users").length < 256 := by decide

/-- The user `root` adds a user; the header is the Base64 of `root:secret`. -/
def postBob : Visit where
  env := { blogSurroundings with authUsers := [⟨ascii "root", ascii "secret", ascii "admin"⟩] }
  req :=
    { method := ascii "POST"
      path := ascii "/users"
      body := ascii "bob,1,2000"
      keepAlive := true
      contentType := []
      contentLengthHdr := 10
      authorization := ascii "Basic cm9vdDpzZWNyZXQ="
      cookie := []
      pathFits := postPath_fits }

/-- A process before its first request. -/
def freshSite : Site := ⟨userStoreShmInit, sessionInit⟩

/-- A user is added twice; the second time the store stays. -/
theorem serving_refines_postBob : ∃ site',
    runs (Visit.serve addTable 4096) [postBob, postBob] freshSite = some site' ∧
      site'.store.shm.header.size = 1 ∧
      runOps (trace (Visit.serve addTable 4096) (Visit.updates addTable 4096) [postBob, postBob]
        freshSite) userStoreShmInit = some site'.store ∧
      ∃ X L, Sound site'.store X L := by
  have hsize : (runs (Visit.serve addTable 4096) [postBob, postBob] freshSite).map
      (fun site => site.store.shm.header.size) = some 1 := by decide +kernel
  obtain ⟨site', hrun, hsize'⟩ := Option.map_eq_some_iff.mp hsize
  obtain ⟨hstore, -, -, hsound⟩ := serving_refines hrun
  exact ⟨site', hrun, hsize', hstore, hsound .nil [] sound_init⟩

end MiniWeb.RequestHandler
