import MiniWeb.SessionStore.Liveness
import MiniWeb.RequestHandler.AuthFile

/-!
# From the login to later requests

A login answers with a cookie, and the browser sends the cookie with every request from then on.
Whatever other requests the process serves in between, the session is found for each of them until
it expires, and the routes decide by the role that the user had at the login. This is so as long as
nobody logs the session out and no removal of another session cuts it off.
-/

namespace MiniWeb.RequestHandler

open Loop CStr Runs SessionStore UserStore Routing FrontEnd

/-- The request logs a user with that role in, and the cookie of its answer has the id. -/
structure Visit.LogsIn (rt : RouteTable) (size : Nat) (v : Visit) (site : Site) (sid role : CStr) :
    Prop where
  answered : ∃ e captured, e.handler = .login ∧
    Serves v.env rt v.req size site e captured (loginAnswer v.env (.loggedIn sid))
  role : roleOf (site.credentials v.env) (loginField v.req.body usernameKey)
    (loginField v.req.body passwordKey) = some role

/-- The session that such a request creates. -/
def Visit.session (v : Visit) (sid role : CStr) : Session :=
  newSession sid (loginField v.req.body usernameKey) role v.env.loginTime

/-! ## Calls and their record -/

section

variable {calls calls' : List Call} {w w' : World} {p : Call → World → Bool}

theorem Call.step_table (call : Call) (w : World) :
    (call.step w).map World.table = call.exec w.table := by
  cases call with
  | create randomBytes username role sweep resweep now =>
    rw [Call.step, Call.exec, Option.map_map]
    congr 1
    funext r
    obtain ⟨sid, t⟩ := r
    cases sid <;> rfl
  | lookup sid now =>
    rw [Call.step, Call.exec, Option.map_map]
    rfl
  | destroy sid =>
    rw [Call.step, Call.exec, Option.map_map]
    exact Option.map_id'
  | cleanup now =>
    rw [Call.step, Call.exec, Option.map_map]
    exact Option.map_id'

/-- Every run of calls is recorded. -/
theorem runCalls_table {t : Table} (h : runs Call.exec calls w.table = some t) :
    ∃ w', runCalls calls w = some w' ∧ w'.table = t := by
  induction calls generalizing w with
  | nil =>
    cases h
    exact ⟨w, rfl, rfl⟩
  | cons call calls ih =>
    obtain ⟨t₁, ht₁, hrest⟩ := Option.bind_eq_some_iff.mp h
    rw [← Call.step_table] at ht₁
    obtain ⟨w₁, hw₁, rfl⟩ := Option.map_eq_some_iff.mp ht₁
    obtain ⟨w', hw', ht⟩ := ih hrest
    exact ⟨w', by rw [runCalls, hw₁]; exact hw', ht⟩

theorem runCalls_exec (h : runCalls calls w = some w') :
    runs Call.exec calls w.table = some w'.table := by
  induction calls generalizing w with
  | nil =>
    cases h
    rfl
  | cons call calls ih =>
    obtain ⟨w₁, hw₁, hrest⟩ := Option.bind_eq_some_iff.mp h
    rw [runs_cons, ← Call.step_table, hw₁]
    exact ih hrest

theorem runCalls_append (h : runCalls (calls ++ calls') w = some w') :
    ∃ w₁, runCalls calls w = some w₁ ∧ runCalls calls' w₁ = some w' := by
  induction calls generalizing w with
  | nil => exact ⟨w, rfl, h⟩
  | cons call calls ih =>
    obtain ⟨w₁, hw₁, hrest⟩ := Option.bind_eq_some_iff.mp h
    obtain ⟨w₂, hw₂, hw'⟩ := ih hrest
    exact ⟨w₂, by rw [runCalls, hw₁]; exact hw₂, hw'⟩

/-- The condition holds along the first calls, and of the next one in the state they leave. -/
theorem along_snoc {call : Call} (h : SessionStore.along p (calls ++ [call]) w = true)
    (hrun : runCalls calls w = some w') :
    SessionStore.along p calls w = true ∧ p call w' = true := by
  induction calls generalizing w with
  | nil =>
    cases hrun
    exact ⟨rfl, (Bool.and_eq_true_iff.mp h).1⟩
  | cons c calls ih =>
    obtain ⟨w₁, hw₁, hrest⟩ := Option.bind_eq_some_iff.mp hrun
    rw [List.cons_append, SessionStore.along, hw₁, Bool.and_eq_true_iff] at h
    rw [SessionStore.along, hw₁, Bool.and_eq_true_iff]
    obtain ⟨hcalls, hcall⟩ := ih h.2 hrest
    exact ⟨⟨h.1, hcalls⟩, hcall⟩

/-- A session is live until it is destroyed. -/
theorem live_of_not_destroyed {x : Session} (hx : x ∈ w.live)
    (hkept : .destroy x.sessionId ∉ calls) (hrun : runCalls calls w = some w') : x ∈ w'.live := by
  induction calls generalizing w with
  | nil =>
    cases hrun
    exact hx
  | cons call calls ih =>
    obtain ⟨w₁, hw₁, hrest⟩ := Option.bind_eq_some_iff.mp hrun
    rw [List.mem_cons, not_or] at hkept
    refine ih ?_ hkept.2 hrest
    cases call with
    | create randomBytes username role sweep resweep now =>
      rw [Call.step] at hw₁
      obtain ⟨⟨sid, t⟩, -, rfl⟩ := Option.map_eq_some_iff.mp hw₁
      cases sid with
      | none => exact hx
      | some sid => exact List.mem_cons_of_mem _ hx
    | lookup sid now =>
      rw [Call.step] at hw₁
      obtain ⟨⟨r, t⟩, -, rfl⟩ := Option.map_eq_some_iff.mp hw₁
      exact hx
    | destroy sid =>
      obtain ⟨t, -, rfl⟩ := Option.map_eq_some_iff.mp hw₁
      exact List.mem_filter.mpr ⟨hx, decide_eq_true fun heq => hkept.1 (heq ▸ rfl)⟩
    | cleanup now =>
      rw [Call.step] at hw₁
      obtain ⟨t, -, rfl⟩ := Option.map_eq_some_iff.mp hw₁
      exact hx

end

/-! ## The login -/

section

variable {rt : RouteTable} {size : Nat} {v : Visit} {site : Site} {sid role : CStr}

theorem loginAnswer_loggedIn {env : Surroundings} {r : LoginReply}
    (h : loginAnswer env r = loginAnswer env (.loggedIn sid)) : r = .loggedIn sid := by
  cases r with
  | page => cases h
  | failed => cases h
  | notAllowed => cases h
  | loggedIn sid' =>
    simp only [loginAnswer, Answer.printed.injEq, Written.mk.injEq, List.cons.injEq,
      List.append_cancel_right_eq, List.append_cancel_left_eq, true_and, and_true] at h
    rw [h]

/-- What a login does that answers with a cookie. -/
theorem handleLogin_loggedIn {env : Surroundings} {creds : Credentials} {req : BodyRequest}
    {t t' : Table}
    (h : handleLogin creds req env.randomBytes env.sweepTime env.resweepTime env.loginTime t =
      some (.loggedIn sid, t'))
    (hrole : roleOf creds (loginField req.body usernameKey) (loginField req.body passwordKey) =
      some role) :
    loginCalls env creds req = [.create env.randomBytes (loginField req.body usernameKey) role
        env.sweepTime env.resweepTime env.loginTime] ∧
      sessionCreate env.randomBytes (loginField req.body usernameKey) role env.sweepTime
        env.resweepTime env.loginTime t = some (some sid, t') := by
  by_cases hget : strcmp req.method (ascii "GET") = .eq
  · rw [handleLogin, if_pos hget] at h
    cases h
  by_cases hpost : strcmp req.method (ascii "POST") = .eq
  · rw [handleLogin, if_neg hget, if_pos hpost] at h
    rw [loginCalls, if_neg (not_or_intro hget (not_not_intro hpost))]
    simp only [roleOf_some.mp hrole, Option.bind_some] at h
    refine ⟨by simp only [hrole, Option.elim_some], ?_⟩
    obtain ⟨⟨created, t₁⟩, hcreate, hpair⟩ := Option.map_eq_some_iff.mp h
    cases created with
    | none => cases hpair
    | some created =>
      cases hpair
      exact hcreate
  · rw [handleLogin, if_neg hget, if_neg hpost] at h
    cases h

/-- The calls of a request that logs a user in. -/
theorem Visit.LogsIn.calls (h : v.LogsIn rt size site sid role) :
    ∃ t t', runs Call.exec (v.gateCalls rt size) site.sessions = some t ∧
      v.calls rt size site = v.gateCalls rt size ++
        [.create v.env.randomBytes (loginField v.req.body usernameKey) role v.env.sweepTime
          v.env.resweepTime v.env.loginTime] ∧
      sessionCreate v.env.randomBytes (loginField v.req.body usernameKey) role v.env.sweepTime
        v.env.resweepTime v.env.loginTime t = some (some sid, t') := by
  obtain ⟨e, captured, he, hsize, t, site', hdecided, hserve⟩ := h.answered
  rw [he] at hserve
  obtain ⟨⟨r, t'⟩, hlogin, hpair⟩ := Option.map_eq_some_iff.mp hserve
  cases loginAnswer_loggedIn (Prod.mk.inj hpair).1
  obtain ⟨hcalls, hcreate⟩ := handleLogin_loggedIn hlogin h.role
  refine ⟨t, t', decided_calls hsize hdecided, ?_, hcreate⟩
  rw [Visit.calls, Visit.invoked_invoke hsize hdecided, Option.elim_some]
  simp only [he]
  exact congrArg _ hcalls

/-- The session of a login is live behind the request. -/
theorem Visit.LogsIn.live (h : v.LogsIn rt size site sid role) {w w' : World}
    (hw : w.table = site.sessions) (hrun : runCalls (v.calls rt size site) w = some w') :
    v.session sid role ∈ w'.live ∧ (v.session sid role).sessionId = sid := by
  obtain ⟨t, t', hgate, hcalls, hcreate⟩ := h.calls
  rw [hcalls] at hrun
  obtain ⟨w₁, hw₁, hlast⟩ := runCalls_append hrun
  have ht : w₁.table = t := by
    have hexec := runCalls_exec hw₁
    rw [hw, hgate] at hexec
    exact (Option.some.inj hexec).symm
  obtain ⟨-, -, -, -, hsid, -⟩ := sessionCreate_fills hcreate
  rw [runCalls, Call.step, ht, hcreate] at hlast
  cases hlast
  refine ⟨List.mem_cons_self, ?_⟩
  rw [hsid]
  exact cut_hexEncode v.env.randomBytes

end

/-! ## Later requests -/

/-- The route of a request whose session is found decides by the role of the session. -/
theorem decided_by_session {rt : RouteTable} {u : Visit} {site : Site} {sid : CStr}
    {i : Fin maxSessions} {r : FindResult} {e : RouteEntry}
    (hcookie : cookieSid u.req.cookie = some sid)
    (hlookup : sessionLookup sid u.env.authTime site.sessions = some (some i, site.sessions))
    (hfind : routeTableFind rt u.req.method u.req.path = some r) (h405 : r.is405 = false)
    (hentry : r.entry = some e) (hrole : e.requiredRole ≠ []) :
    decided u.env rt u.req site =
      some (admission e r.captured (site.sessions.sessions i).role, site.sessions) := by
  have hcookieRole : cookieRole u.req.bodyRequest.cookie u.env.authTime site.sessions =
      some (some (site.sessions.sessions i).role, site.sessions) := by
    rw [cookieRole_processHttpSid, processHttpSid_eq]
    simp only [show cookieSid u.req.bodyRequest.cookie = some sid from hcookie, hlookup]
    rfl
  have hfind : routeTableFind rt u.req.bodyRequest.method u.req.bodyRequest.path = some r := hfind
  rw [decided, requestHandlerProcessHttp, hfind, Option.bind_some, h405, hentry,
    if_neg Bool.false_ne_true]
  simp only [if_pos hrole]
  rw [authGate, hcookieRole]
  rfl

/-- **A login admits.** A process serves any requests, one of which logs a user in, and more
requests, of which none logs the session out. A request with the cookie, until the session expires,
is decided by the role that the user had: the handler is called if the route admits the role, and it
is forbidden otherwise. As everywhere, the calls to the session store are made with fresh tokens and
a clock that does not go back, and remove no entry from before the entry of a live session. -/
theorem login_admits {rt : RouteTable} {size : Nat} {before after : List Visit} {v u : Visit}
    {store : Store} {site₁ site₂ site : Site} {clock : Int} {sid role : CStr}
    (hbefore : runs (Visit.serve rt size) before ⟨store, sessionInit⟩ = some site₁)
    (hlogin : v.LogsIn rt size site₁ sid role) (hserve : v.serve rt size site₁ = some site₂)
    (hafter : runs (Visit.serve rt size) after site₂ = some site)
    (hkept : .destroy sid ∉ trace (Visit.serve rt size) (Visit.calls rt size) after site₂)
    (hcalls : SessionStore.along (fun call w => call.allowed w && call.spares w)
      (trace (Visit.serve rt size) (Visit.calls rt size) (before ++ v :: after)
        ⟨store, sessionInit⟩ ++ [.lookup sid u.env.authTime]) (World.start clock) = true)
    (hnow : u.env.authTime ≤ v.env.loginTime + sessionTtl)
    (hcookie : cookieSid u.req.cookie = some sid) {r : FindResult} {e : RouteEntry}
    (hfind : routeTableFind rt u.req.method u.req.path = some r) (h405 : r.is405 = false)
    (hentry : r.entry = some e) (hrole : e.requiredRole ≠ []) :
    decided u.env rt u.req site = some (admission e r.captured (cut 32 role), site.sessions) := by
  have hsessions : ∀ {vs : List Visit} {s s' : Site}, runs (Visit.serve rt size) vs s = some s' →
      runs Call.exec (trace (Visit.serve rt size) (Visit.calls rt size) vs s) s.sessions =
        some s'.sessions :=
    fun hrun => runs_trace Site.sessions Call.exec (fun _ _ _ h => Visit.serve_calls h) hrun
  have hall : runs (Visit.serve rt size) (before ++ v :: after) ⟨store, sessionInit⟩ = some site := by
    rw [runs_append, hbefore, Option.bind_some, runs_cons, hserve]
    exact hafter
  have htrace : trace (Visit.serve rt size) (Visit.calls rt size) (before ++ v :: after)
      ⟨store, sessionInit⟩ = _ := trace_append_of_some hbefore
  rw [trace_cons_of_some hserve] at htrace
  obtain ⟨w, hw, htable⟩ := runCalls_table (w := World.start clock) (hsessions hall)
  obtain ⟨hcalls, hlookup⟩ := along_snoc hcalls hw
  -- the record of the run, cut before and behind the login
  rw [htrace] at hw
  obtain ⟨w₁, hw₁, hrest⟩ := runCalls_append hw
  obtain ⟨w₂, hw₂, hw₃⟩ := runCalls_append hrest
  have htable₁ : w₁.table = site₁.sessions :=
    Option.some.inj ((runCalls_exec hw₁).symm.trans (hsessions hbefore))
  obtain ⟨hlive, hid⟩ := hlogin.live htable₁ hw₂
  have hlive : v.session sid role ∈ w.live :=
    live_of_not_destroyed hlive (by rw [hid]; exact hkept) hw₃
  have hclock : w.clock ≤ u.env.authTime :=
    of_decide_eq_true (Bool.and_eq_true_iff.mp hlookup).1
  obtain ⟨i, hfound, hsession⟩ := runCalls_lookup hcalls (htrace ▸ hw) hlive hclock hnow
  rw [hid, htable] at hfound
  rw [htable] at hsession
  rw [decided_by_session hcookie hfound hfind h405 hentry hrole, hsession]
  rfl

/-! ## The administrator logs in -/

def loginRoute : Route := ⟨ascii "POST", ascii "/login", .matchPrefix, .login, [], []⟩

/-- The table with the login and the route of the administrator. -/
def loginTable : RouteTable := ⟨[], [loginRoute.entry, addRoute.entry], fun _ => none⟩

def rootLogsIn : Visit where
  env := postBob.env
  req :=
    { postBob.req with
      path := ascii "/login"
      body := ascii "username=root&password=secret"
      contentLengthHdr := 29
      authorization := []
      pathFits := by decide }

/-- The token of random bytes that are zero. -/
def rootSid : CStr := hexEncode (List.replicate 32 0)

/-- The cookie takes the place of the password, an hour later. -/
def bobByCookie : Visit where
  env := { postBob.env with authTime := 3600 }
  req :=
    { postBob.req with
      authorization := []
      cookie := ascii "session_id=" ++ rootSid
      pathFits := by decide }

/-- What the handler of the login answers. -/
theorem serve_login {env : Surroundings} {req : HttpRequest} {captured : CStr} {size : Nat}
    {site : Site} {r : LoginReply} {t : Table}
    (h : handleLogin (site.credentials env) req.bodyRequest env.randomBytes env.sweepTime
      env.resweepTime env.loginTime site.sessions = some (r, t)) :
    serve env .login req captured size site =
      some (loginAnswer env r, { site with sessions := t }) := by
  rw [serve, h]
  rfl

theorem rootLogsIn_logsIn :
    rootLogsIn.LogsIn loginTable 4096 freshSite rootSid (ascii "admin") where
  answered := by
    have hdecided : (decided rootLogsIn.env loginTable rootLogsIn.req freshSite).map Prod.fst =
        some (.invoke loginRoute.entry []) := by decide +kernel
    obtain ⟨⟨d, t⟩, hd, rfl⟩ := Option.map_eq_some_iff.mp hdecided
    have hlogin : ((decided rootLogsIn.env loginTable rootLogsIn.req freshSite).bind fun d =>
        (handleLogin (freshSite.credentials rootLogsIn.env) rootLogsIn.req.bodyRequest
          rootLogsIn.env.randomBytes rootLogsIn.env.sweepTime rootLogsIn.env.resweepTime
          rootLogsIn.env.loginTime d.2).map Prod.fst) = some (.loggedIn rootSid) := by
      decide +kernel
    rw [hd, Option.bind_some] at hlogin
    obtain ⟨⟨reply, t'⟩, hreply, hsid⟩ := Option.map_eq_some_iff.mp hlogin
    have hserve : serve rootLogsIn.env .login rootLogsIn.req [] 4096
        { freshSite with sessions := t } = some (loginAnswer rootLogsIn.env reply, _) :=
      serve_login hreply
    rw [show reply = _ from hsid] at hserve
    exact ⟨loginRoute.entry, [], rfl, by decide, t, _, hd, hserve⟩
  role := by decide +kernel

/-- With the cookie of the login the administrator is admitted. -/
theorem login_admits_root : ∃ site,
    runs (Visit.serve loginTable 4096) [rootLogsIn] freshSite = some site ∧
      decided bobByCookie.env loginTable bobByCookie.req site =
        some (.invoke addRoute.entry [], site.sessions) := by
  obtain ⟨site, hserve⟩ : ∃ site, rootLogsIn.serve loginTable 4096 freshSite = some site :=
    Option.isSome_iff_exists.mp (by decide +kernel)
  have hfind : routeTableFind loginTable bobByCookie.req.method bobByCookie.req.path =
      some ⟨some addRoute.entry, [], false, []⟩ := by decide +kernel
  have hbefore : runs (Visit.serve loginTable 4096) [] ⟨userStoreShmInit, sessionInit⟩ =
      some freshSite := rfl
  have hcalls : SessionStore.along (fun call w => call.allowed w && call.spares w)
      (trace (Visit.serve loginTable 4096) (Visit.calls loginTable 4096) ([] ++ [rootLogsIn])
        ⟨userStoreShmInit, sessionInit⟩ ++ [.lookup rootSid bobByCookie.env.authTime])
      (World.start 0) = true := by decide +kernel
  have hcookie : cookieSid bobByCookie.req.cookie = some rootSid := by decide +kernel
  have hadmits := login_admits hbefore rootLogsIn_logsIn hserve (runs_nil (s := site))
    List.not_mem_nil hcalls (by decide) hcookie hfind rfl rfl (by decide)
  refine ⟨site, by rw [runs_cons, hserve]; rfl, hadmits.trans ?_⟩
  exact congrArg (fun d => some (d, site.sessions)) (by decide)

end MiniWeb.RequestHandler
