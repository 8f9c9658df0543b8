import MiniWeb.UserStore.Frame
import MiniWeb.UserStore.Listing
import MiniWeb.RequestHandler.Access

/-!
# Every request is answered

A handler loops over the users and over the hash table of the sessions. While the store is sound and
a hash slot is empty all these loops end, and two kinds of handler have no answer: one that decodes a
name where nothing was captured writes to a literal, and one that prints a comparison the pipe does
not hold waits for ever. A request leaves the process in such a state again unless a login takes the
last empty hash slot.
-/

namespace MiniWeb.RequestHandler

open Loop CStr Runs SessionStore UserStore RedBlack Routing FrontEnd

/-- The store is sound and a hash slot of the sessions is empty. -/
structure Healthy (site : Site) : Prop where
  sound : ∃ X L, Sound site.store X L
  free : Free site.sessions

/-- A handler that decodes a captured name is called where nothing was captured. -/
def Visit.WritesLiteral (rt : RouteTable) (size : Nat) (v : Visit) (site : Site) : Prop :=
  ∃ e, v.invoked rt size site = some (e, []) ∧ decodesName e.handler = true

/-- The handlers that print a comparison, and whether they print its steps. -/
def comparison : HandlerType → Option Bool
  | .userCompare => some false
  | .userCompareVerbose => some true
  | _ => none

/-- A handler waits at the pipe into which it prints its comparison. -/
def HandlerWaits (env : Surroundings) (handler : HandlerType) (captured : CStr) (s : Store) : Prop :=
  ∃ verbose, comparison handler = some verbose ∧ captured ≠ [] ∧
    env.console.Blocks (env.console.comparison (urlDecodePath captured) verbose s)

/-- A handler that is called waits for ever. -/
def Visit.Blocks (rt : RouteTable) (size : Nat) (v : Visit) (site : Site) : Prop :=
  ∃ e captured, v.invoked rt size site = some (e, captured) ∧
    HandlerWaits v.env e.handler captured site.store

/-- A login of the request finds two empty hash slots. -/
def Visit.HasRoom (rt : RouteTable) (size : Nat) (v : Visit) (site : Site) : Prop :=
  0 < size → ∀ e captured t, decided v.env rt v.req site = some (.invoke e captured, t) →
    ∀ call ∈ handlerCalls v.env e.handler v.req site, call.HasRoom t

/-- All requests are answered, and the process is healthy before and after each of them. -/
def Answered (rt : RouteTable) (size : Nat) : List Visit → Site → Prop
  | [], site => Healthy site
  | v :: vs, site =>
    Healthy site ∧ ∃ site', v.serve rt size site = some site' ∧ Answered rt size vs site'

/-! ## Loops over the users -/

section

variable {s : Store} {X : ColorTree Off} {L : List Off}

theorem userStoreAuth_returns (h : StoreOK s X L) (mobile password : CStr) :
    ∃ ok, userStoreAuth s.shm mobile password = some ok := by
  have hrun := run_chain (userStoreAuthStep s.shm.lists mobile password) (fun _ a => a)
    (fun a => (s.shm.lists a).used ∧ (s.shm.lists a).data.mobile = mobile ∧
      (s.shm.lists a).data.password = password) (fun _ _ => true) false
    (fun _ => by simp [userStoreAuthStep])
    (fun _ x hx hh => by rw [userStoreAuthStep, if_neg hx, if_pos hh])
    (fun _ x hx hh => by rw [userStoreAuthStep, if_neg hx, if_neg hh])
    0 h.chain h.records_lt_pool
  rw [userStoreAuth, h.head]
  rcases hrun with ⟨-, hrun⟩ | ⟨-, -, -, -, -, -, hrun⟩
  · exact ⟨false, hrun⟩
  · exact ⟨true, hrun⟩

theorem userStoreLookupName_returns (h : StoreOK s X L) (loginId : CStr) :
    ∃ name, userStoreLookupName s.shm loginId = some name := by
  have hrun := run_chain (userStoreLookupNameStep s.shm.lists loginId) (fun _ a => a)
    (fun a => (s.shm.lists a).used ∧ (strcmp (s.shm.lists a).data.mobile loginId = .eq ∨
      strcmp (s.shm.lists a).data.name loginId = .eq))
    (fun _ a => some (s.shm.lists a).data.name) none
    (fun _ => by simp [userStoreLookupNameStep])
    (fun _ x hx hh => by rw [userStoreLookupNameStep, if_neg hx, if_pos hh])
    (fun _ x hx hh => by rw [userStoreLookupNameStep, if_neg hx, if_neg hh])
    0 h.chain h.records_lt_pool
  rw [userStoreLookupName, h.head]
  rcases hrun with ⟨-, hrun⟩ | ⟨-, a, -, -, -, -, hrun⟩
  · exact ⟨none, hrun⟩
  · exact ⟨some (s.shm.lists a).data.name, hrun⟩

theorem userListBody_returns (h : StoreOK s X L) (env : Surroundings) :
    ∃ body, userListBody env s = some body := by
  obtain ⟨page, hwalk, -, -⟩ := h.walk bstFormatNode (bodyMax - 1) []
  rw [userListBody, bstFormatUsers, hwalk]
  exact ⟨_, rfl⟩

theorem handleSearch_returns (h : StoreOK s X L) (req : FrontEnd.Request) :
    ∃ r, handleSearch req s = some r := by
  have husers : ∀ criteria, ∃ r, searchUsers criteria s = some r := by
    intro criteria
    rw [searchUsers]
    split
    · exact ⟨_, rfl⟩
    · rw [userStoreSearch]
      split
      · exact ⟨_, rfl⟩
      · simp only
        split
        · exact ⟨_, rfl⟩
        · obtain ⟨page, hwalk, -, -⟩ := h.walk (searchInorder criteria) (2 * 1024 * 1024)
            (searchHeader (criteriaSummary criteria))
          rw [hwalk]
          exact ⟨_, rfl⟩
  rw [handleSearch]
  repeat' split
  case h_2 criteria hcriteria => exact husers criteria
  all_goals exact ⟨_, rfl⟩

theorem authLookup_returns (h : StoreOK s X L) (authUsers : List AuthUser)
    (username password : CStr) :
    ∃ role, authLookup ⟨authUsers, some s.shm⟩ username password = some role := by
  obtain ⟨ok, hok⟩ := userStoreAuth_returns h username password
  rw [authLookup]
  simp only
  split
  · exact ⟨_, rfl⟩
  · simp only [hok]
    exact ⟨_, rfl⟩

end

/-! ## Handlers -/

section

variable {env : Surroundings} {handler : HandlerType} {req : HttpRequest} {captured : CStr}
  {size : Nat} {site : Site} {X : ColorTree Off} {L : List Off}

theorem outcomeAnswer_returns (s : Store) {o : Outcome} (ho : o.Reported) :
    ∃ answer, outcomeAnswer env s o = some answer := by
  cases o with
  | listed => exact ho.elim
  | failed => exact ho.elim
  | internalServerError => exact ho.elim
  | notServed => exact ho.elim
  | refused decision => exact ho.elim
  | served handler captured => exact ho.elim
  | undefined => exact ho.elim
  | _ => exact ⟨_, rfl⟩

theorem reported_returns {r : Option (Outcome × Store)}
    (h : ∃ o s', r = some (o, s') ∧ o.Reported) :
    ∃ answer site', reported env site r = some (answer, site') := by
  obtain ⟨o, s', rfl, ho⟩ := h
  obtain ⟨answer, hanswer⟩ : ∃ answer, outcomeAnswer env s' o = some answer :=
    outcomeAnswer_returns s' ho
  simp only [reported, Option.bind_some, hanswer]
  exact ⟨_, _, rfl⟩

/-- A comparison is answered unless its handler waits. -/
theorem compareUser_returns {verbose : Bool} (hcaptured : captured ≠ [])
    (hheld : ¬env.console.Blocks
      (env.console.comparison (urlDecodePath captured) verbose site.store)) :
    ∃ answer site', reported env site (compareUser env.console verbose captured site.store) =
      some (answer, site') := by
  obtain ⟨body, hbody⟩ : ∃ body, captureStdout env.console
      (env.console.comparison (urlDecodePath captured) verbose site.store) bodyMax = some body :=
    Option.ne_none_iff_exists'.mp (mt captureStdout_eq_none_iff.mp hheld)
  rw [compareUser, withName_of_ne hcaptured, compareReply, hbody]
  cases body with
  | none => exact ⟨_, _, rfl⟩
  | some text => exact ⟨_, _, rfl⟩

theorem compareUser_waits {s : Store} {verbose : Bool} (hcaptured : captured ≠ [])
    (h : env.console.Blocks (env.console.comparison (urlDecodePath captured) verbose s)) :
    compareUser env.console verbose captured s = none := by
  rw [compareUser, withName_of_ne hcaptured, compareReply, captureStdout_eq_none_iff.mpr h]
  rfl

theorem sessionUsername_returns {t : Table} (h : Free t) (cookie : CStr) :
    ∃ u t', sessionUsername env cookie t = some (u, t') := by
  rw [sessionUsername]
  split
  · exact ⟨_, _, rfl⟩
  · obtain ⟨r, t', hlookup, -⟩ := sessionLookup_total h ‹CStr› env.indexTime
    rw [hlookup]
    exact ⟨_, _, rfl⟩

theorem handleIndex_returns (h : StoreOK site.store X L) (hfree : Free site.sessions) :
    ∃ answer site', handleIndex env req size site = some (answer, site') := by
  obtain ⟨u, t', hu⟩ : ∃ u t', sessionUsername env req.cookie site.sessions = some (u, t') :=
    sessionUsername_returns hfree req.cookie
  rw [handleIndex, hu, Option.bind_some]
  simp only
  split
  · exact ⟨_, _, rfl⟩
  · exact ⟨_, _, rfl⟩
  · exact ⟨_, _, rfl⟩
  · obtain ⟨name, hname⟩ := userStoreLookupName_returns h ‹CStr›
    rw [hname]
    exact ⟨_, _, rfl⟩

theorem sessionCreate_returns {t : Table} (h : Free t) (randomBytes : Vector UInt8 32)
    (username role : CStr) (sweep resweep now : Int) :
    ∃ sid t', sessionCreate randomBytes username role sweep resweep now t = some (sid, t') := by
  obtain ⟨slot, t₁, ht₁, hempties⟩ := findFreeSlot_total h sweep resweep
  rw [sessionCreate, ht₁, Option.bind_some]
  cases slot with
  | none => exact ⟨_, _, rfl⟩
  | some slot =>
    obtain ⟨k, -, hinsert⟩ := insertSession_fills (hempties.free h) slot
      (hexEncode randomBytes.toList) username role now
    simp only [hinsert]
    exact ⟨_, _, rfl⟩

theorem handleLogin_returns (h : StoreOK site.store X L) {t : Table} (hfree : Free t)
    (env : Surroundings) (breq : BodyRequest) :
    ∃ r t', handleLogin (site.credentials env) breq env.randomBytes env.sweepTime env.resweepTime
      env.loginTime t = some (r, t') := by
  rw [handleLogin]
  split
  · exact ⟨_, _, rfl⟩
  split
  · obtain ⟨role, hrole⟩ := authLookup_returns h env.authUsers
      (loginField breq.body usernameKey) (loginField breq.body passwordKey)
    rw [Site.credentials]
    simp only [hrole, Option.bind_some]
    cases role with
    | none => exact ⟨_, _, rfl⟩
    | some role =>
      obtain ⟨sid, t', hcreate⟩ := sessionCreate_returns hfree env.randomBytes
        (loginField breq.body usernameKey) role env.sweepTime env.resweepTime env.loginTime
      simp only [hcreate, Option.map_some]
      cases sid <;> exact ⟨_, _, rfl⟩
  · exact ⟨_, _, rfl⟩

/-- **A handler answers** unless it writes to the literal or waits. -/
theorem serve_returns (h : StoreOK site.store X L) (hfree : Free site.sessions)
    (hhandler : handler ≠ .none) (hname : decodesName handler = true → captured ≠ [])
    (hwaits : ¬HandlerWaits env handler captured site.store) :
    ∃ answer site', serve env handler req captured size site = some (answer, site') := by
  cases handler
  case none => exact absurd rfl hhandler
  case hello => exact reported_returns ⟨_, _, rfl, trivial⟩
  case userList =>
    obtain ⟨body, hbody⟩ := userListBody_returns h env
    simp only [serve, callHandlerFn, reported, Option.bind_some, outcomeAnswer, hbody]
    exact ⟨_, _, rfl⟩
  case userByName => exact reported_returns (findUser_returns h (hname rfl))
  case userSimpleFind => exact reported_returns (findUser_returns h (hname rfl))
  case userFindIndex =>
    exact reported_returns (withName_returns (hname rfl) fun name =>
      reportUser_returns (userStoreFindIndex_returns h name))
  case userCompare =>
    exact compareUser_returns (hname rfl) fun hblocks => hwaits ⟨false, rfl, hname rfl, hblocks⟩
  case userCompareVerbose =>
    exact compareUser_returns (hname rfl) fun hblocks => hwaits ⟨true, rfl, hname rfl, hblocks⟩
  case userAdd => exact reported_returns (addUser_returns h _)
  case userDelete =>
    exact reported_returns (withName_returns (hname rfl) (deleteUser_returns h))
  case deleteForm =>
    refine reported_returns ?_
    cases hvalue : formValue req.body with
    | none =>
      rw [handleDeleteForm_none hvalue]
      exact ⟨_, _, rfl, trivial⟩
    | some value =>
      rw [handleDeleteForm_some hvalue]
      exact deleteUser_returns h _
  case index => exact handleIndex_returns h hfree
  case search =>
    obtain ⟨r, hr⟩ := handleSearch_returns h req.toRequest
    exact ⟨_, _, by rw [serve, hr]; rfl⟩
  case login =>
    obtain ⟨r, t', hlogin⟩ := handleLogin_returns h hfree env req.bodyRequest
    exact ⟨_, _, by rw [serve, hlogin]; rfl⟩
  case logout =>
    have hlogout : ∃ t', handleLogout req.cookie site.sessions = some t' := by
      rw [handleLogout]
      split
      · exact ⟨_, rfl⟩
      · obtain ⟨t', ht', -⟩ := sessionDestroy_total hfree ‹CStr›
        exact ⟨t', ht'⟩
    obtain ⟨t', ht'⟩ := hlogout
    exact ⟨_, _, by rw [serve, ht']; rfl⟩
  all_goals exact ⟨_, _, rfl⟩

/-- The handlers that write to the literal have no answer. -/
theorem serve_literal (hname : decodesName handler = true) :
    serve env handler req [] size site = none := by
  cases handler
  case userFindIndex => rfl
  case userCompareVerbose => rfl
  case userCompare => rfl
  case userByName => rfl
  case userSimpleFind => rfl
  case userDelete => rfl
  all_goals cases hname

/-- A handler that waits has no answer. -/
theorem serve_waits (h : HandlerWaits env handler captured site.store) :
    serve env handler req captured size site = none := by
  obtain ⟨verbose, hhandler, hne, hblocks⟩ := h
  have hreported : reported env site (compareUser env.console verbose captured site.store) =
      none := by
    rw [compareUser_waits hne hblocks]
    rfl
  cases handler
  case userCompare =>
    cases hhandler
    exact hreported
  case userCompareVerbose =>
    cases hhandler
    exact hreported
  all_goals cases hhandler

end

/-! ## Requests -/

section

variable {rt : RouteTable} {size : Nat} {v : Visit} {site site' : Site} {d : Decision} {t : Table}
  {e : RouteEntry} {captured : CStr} {X : ColorTree Off} {L : List Off}

theorem callHandler_handler {e' : RouteEntry} {captured' : CStr}
    (h : callHandler e captured = .invoke e' captured') : e'.handler ≠ .none := by
  rw [callHandler] at h
  split at h
  case isTrue hhandler =>
    cases h
    exact of_decide_eq_true hhandler
  case isFalse => cases h

theorem checkRole_handler {req : Request} {result : RoleResult} {e' : RouteEntry}
    {captured' : CStr} (h : checkRole e req captured result = .invoke e' captured') :
    e'.handler ≠ .none := by
  cases result with
  | badBase64 => cases h
  | noRole =>
    rw [checkRole] at h
    split at h
    · cases h
    · cases h
  | role r =>
    rw [checkRole] at h
    split at h
    · exact callHandler_handler h
    · cases h

/-- A handler that is called exists. -/
theorem decided_handler (h : decided v.env rt v.req site = some (.invoke e captured, t)) :
    e.handler ≠ .none := by
  obtain ⟨result, -, hrest⟩ := Option.bind_eq_some_iff.mp h
  split at hrest
  · cases hrest
  cases hentry : result.entry with
  | none =>
    rw [hentry] at hrest
    cases hrest
  | some a =>
    rw [hentry] at hrest
    simp only at hrest
    split at hrest
    · obtain ⟨⟨r, t₁⟩, -, hcheck⟩ := Option.bind_eq_some_iff.mp hrest
      cases r with
      | some r => exact checkRole_handler (Prod.mk.inj (Option.some.inj hcheck)).1
      | none =>
        obtain ⟨basic, -, hpair⟩ := Option.map_eq_some_iff.mp hcheck
        exact checkRole_handler (Prod.mk.inj hpair).1
    · exact callHandler_handler (Prod.mk.inj (Option.some.inj hrest)).1

theorem cookieRole_returns (h : Free t) (cookie : CStr) (now : Int) :
    ∃ r t', cookieRole cookie now t = some (r, t') ∧ OnlyEmpties t t' := by
  rw [cookieRole_processHttpSid]
  split
  · exact ⟨_, _, rfl, .refl t⟩
  · obtain ⟨r, t', hlookup, hempties⟩ := sessionLookup_total h ‹CStr› now
    rw [hlookup]
    exact ⟨_, _, rfl, hempties⟩

theorem basicRole_returns (h : StoreOK site.store X L) (header : CStr) (env : Surroundings) :
    ∃ r, basicRole header (site.credentials env) = some r := by
  rw [basicRole]
  split
  case h_1 => exact ⟨_, rfl⟩
  case h_2 => exact ⟨_, rfl⟩
  case h_3 username password _ =>
    obtain ⟨role, hrole⟩ := authLookup_returns h env.authUsers username password
    rw [Site.credentials, hrole]
    exact ⟨_, rfl⟩

/-- A request is decided, and no hash slot is filled for it. -/
theorem decided_returns (hb : Built rt) (h : StoreOK site.store X L) (hfree : Free site.sessions) :
    ∃ d t, decided v.env rt v.req site = some (d, t) ∧ OnlyEmpties site.sessions t := by
  obtain ⟨result, hfind⟩ := Routing.find_returns hb v.req.bodyRequest.method
    v.req.bodyRequest.path
  rw [decided, requestHandlerProcessHttp, hfind, Option.bind_some]
  split
  · exact ⟨_, _, rfl, .refl _⟩
  split
  · exact ⟨_, _, rfl, .refl _⟩
  split
  · obtain ⟨r, t, hcookie, hempties⟩ := cookieRole_returns hfree v.req.bodyRequest.cookie
      v.env.authTime
    obtain ⟨basic, hbasic⟩ := basicRole_returns h v.req.bodyRequest.authorization v.env
    rw [authGate, hcookie, Option.bind_some]
    cases r with
    | some r => exact ⟨_, _, rfl, hempties⟩
    | none =>
      simp only [hbasic]
      exact ⟨_, _, rfl, hempties⟩
  · exact ⟨_, _, rfl, .refl _⟩

/-- **One request** of a healthy process has an answer unless a handler writes to the literal or
waits. -/
theorem Healthy.serve_none_iff (h : Healthy site) (hb : Built rt) :
    v.serve rt size site = none ↔ v.WritesLiteral rt size site ∨ v.Blocks rt size site := by
  obtain ⟨X, L, hsound⟩ := h.sound
  rcases Nat.eq_zero_or_pos size with rfl | hsize
  · refine iff_of_false (fun hnone => by cases hnone) ?_
    rintro (⟨e, hinvoked, -⟩ | ⟨e, captured, hinvoked, -⟩) <;> cases hinvoked
  obtain ⟨d, t, hd, hempties⟩ := decided_returns (v := v) hb hsound.toStoreOK h.free
  rw [Visit.serve, processHttp_pos hsize, hd, Option.bind_some, Option.map_eq_none_iff]
  cases d with
  | invoke e captured =>
    have hinvoked := Visit.invoked_invoke hsize hd
    simp only [Option.map_eq_none_iff]
    constructor
    · intro hnone
      by_contra hneither
      rw [not_or] at hneither
      obtain ⟨hliteral, hblocks⟩ := hneither
      obtain ⟨answer, site', hserve⟩ : ∃ answer site', serve v.env e.handler v.req captured size
          { site with sessions := t } = some (answer, site') :=
        serve_returns hsound.toStoreOK (hempties.free h.free) (decided_handler hd)
          (fun hname hnil => hliteral ⟨e, hnil ▸ hinvoked, hname⟩)
          fun hwaits => hblocks ⟨e, captured, hinvoked, hwaits⟩
      rw [hserve] at hnone
      cases hnone
    · rintro (⟨e', hinvoked', hname⟩ | ⟨e', captured', hinvoked', hwaits⟩)
      · cases hinvoked.symm.trans hinvoked'
        exact serve_literal hname
      · cases hinvoked.symm.trans hinvoked'
        exact serve_waits hwaits
  | _ =>
    refine iff_of_false (fun hnone => by cases hnone) ?_
    rw [Visit.WritesLiteral, Visit.Blocks,
      Visit.invoked_none hd fun _ _ => Decision.noConfusion]
    rintro (⟨e, hinvoked, -⟩ | ⟨e, captured, hinvoked, -⟩) <;> cases hinvoked

theorem length_handlerCalls_le (env : Surroundings) (handler : HandlerType) (req : HttpRequest)
    (site : Site) : (handlerCalls env handler req site).length ≤ 1 := by
  cases handler
  case index =>
    rw [handlerCalls, lookupCalls]
    cases cookieSid req.cookie <;> simp
  case login =>
    rw [handlerCalls, loginCalls]
    split
    · exact Nat.zero_le 1
    · simp only
      cases roleOf _ _ _ <;> simp
  case logout =>
    rw [handlerCalls]
    cases cookieSid req.cookie <;> simp
  all_goals exact Nat.zero_le 1

/-- At most one call leaves an empty hash slot exactly if it finds room. -/
theorem free_iff_hasRoom {calls : List Call} {t' : Table} (hlen : calls.length ≤ 1) (h : Free t)
    (hrun : runs Call.exec calls t = some t') : Free t' ↔ ∀ call ∈ calls, call.HasRoom t := by
  match calls, hlen with
  | [], _ =>
    cases hrun
    exact ⟨fun _ call hcall => absurd hcall List.not_mem_nil, fun _ => h⟩
  | [call], _ =>
    rw [exec_one] at hrun
    rw [List.forall_mem_singleton]
    refine ⟨Call.hasRoom_of_free h hrun, fun hroom => ?_⟩
    obtain ⟨t₁, ht₁, hfree⟩ := Call.exec_total h hroom
    exact Option.some.inj (ht₁.symm.trans hrun) ▸ hfree

/-- **The sessions behind one request** have an empty hash slot exactly if its login had room. -/
theorem Healthy.serve_iff (h : Healthy site) (hb : Built rt)
    (hserve : v.serve rt size site = some site') :
    Healthy site' ↔ v.HasRoom rt size site := by
  obtain ⟨X, L, hsound⟩ := h.sound
  have hsound' : ∃ X' L', Sound site'.store X' L' := by
    obtain ⟨s, X', L', hs, hs'⟩ := hsound.run (v.updates rt size site)
    exact ⟨X', L', Option.some.inj (hs.symm.trans (Visit.serve_updates hserve)) ▸ hs'⟩
  suffices hfree : Free site'.sessions ↔ v.HasRoom rt size site from
    ⟨fun h' => hfree.mp h'.free, fun hroom => ⟨hsound', hfree.mpr hroom⟩⟩
  rcases Nat.eq_zero_or_pos size with rfl | hsize
  · rw [Visit.serve_zero hserve]
    exact ⟨fun _ h0 => absurd h0 (Nat.lt_irrefl 0), fun _ => h.free⟩
  obtain ⟨d₁, t₁, hd₁, hempties⟩ := decided_returns (v := v) hb hsound.toStoreOK h.free
  obtain ⟨d, t, hd, hcases⟩ := Visit.serve_cases hsize hserve
  cases hd.symm.trans hd₁
  rcases hcases with ⟨e, captured, answer, rfl, hanswer⟩ | ⟨hnone, rfl⟩
  · rw [free_iff_hasRoom (length_handlerCalls_le v.env e.handler v.req site)
      (hempties.free h.free) (serve_calls hanswer)]
    constructor
    · intro hroom _ e' captured' t' hd'
      cases hd.symm.trans hd'
      exact hroom
    · exact fun hroom => hroom hsize e captured _ hd
  · refine ⟨fun _ _ e captured t' hd' => ?_, fun _ => hempties.free h.free⟩
    cases hd.symm.trans hd'
    exact absurd rfl (hnone e captured)

end

/-- **Every request is answered** and leaves the process healthy, in every run of requests that
starts so, exactly if no handler of the run writes to the literal or waits at a full pipe, and every
login finds room for its session. -/
theorem requestsAnswered_iff {rt : RouteTable} {size : Nat} {visits : List Visit} {site : Site}
    (hb : Built rt) (h : Healthy site) :
    Answered rt size visits site ↔ ∀ v s, (v, s) ∈ met (Visit.serve rt size) visits site →
      ¬v.WritesLiteral rt size s ∧ ¬v.Blocks rt size s ∧ v.HasRoom rt size s := by
  induction visits generalizing site with
  | nil => exact ⟨fun _ v s hmem => absurd hmem List.not_mem_nil, fun _ => h⟩
  | cons v vs ih =>
    rw [Answered]
    cases hserve : v.serve rt size site with
    | none =>
      refine ⟨fun ⟨_, s, hs, _⟩ => (nomatch hs), fun hall => ?_⟩
      obtain ⟨hliteral, hblocks, -⟩ := hall v site (List.mem_append_left _ List.mem_cons_self)
      exact (((h.serve_none_iff hb).mp hserve).elim hliteral hblocks).elim
    | some site' =>
      have hcons : met (Visit.serve rt size) (v :: vs) site =
          (v, site) :: met (Visit.serve rt size) vs site' := trace_cons_of_some hserve
      have hneither : ¬(v.WritesLiteral rt size site ∨ v.Blocks rt size site) := fun hw =>
        nomatch hserve.symm.trans ((h.serve_none_iff hb).mpr hw)
      obtain ⟨hliteral, hblocks⟩ := not_or.mp hneither
      rw [hcons]
      constructor
      · rintro ⟨-, s, hs, hrest⟩ v' s' hmem
        cases hs
        have h' : Healthy site' := by
          cases vs with
          | nil => exact hrest
          | cons _ _ => exact hrest.1
        rcases List.mem_cons.mp hmem with heq | hmem
        · cases heq
          exact ⟨hliteral, hblocks, (h.serve_iff hb hserve).mp h'⟩
        · exact (ih h').mp hrest v' s' hmem
      · intro hall
        have h' := (h.serve_iff hb hserve).mpr (hall v site List.mem_cons_self).2.2
        exact ⟨h, site', rfl, (ih h').mpr fun v' s' hmem => hall v' s' (List.mem_cons_of_mem _ hmem)⟩

theorem healthy_freshSite : Healthy freshSite := ⟨⟨.nil, [], sound_init⟩, 0, rfl⟩

/-- The administrator's request is answered. -/
theorem requestsAnswered_postBob : Answered addTable 4096 [postBob] freshSite := by
  refine (requestsAnswered_iff built_addTable healthy_freshSite).mpr fun v s hmem => ?_
  have hdecided : (decided postBob.env addTable postBob.req freshSite).map Prod.fst =
      some (.invoke addRoute.entry []) := by decide +kernel
  obtain ⟨⟨d, t⟩, hd, rfl⟩ := Option.map_eq_some_iff.mp hdecided
  have hserve : ∃ site', postBob.serve addTable 4096 freshSite = some site' :=
    Option.isSome_iff_exists.mp (by decide +kernel)
  obtain ⟨site', hserve⟩ := hserve
  rw [met, trace_cons_of_some hserve, trace_nil] at hmem
  cases List.mem_singleton.mp hmem
  refine ⟨fun ⟨e, hinvoked, hname⟩ => ?_, fun ⟨e, captured, hinvoked, hwaits⟩ => ?_,
    fun _ e captured t' hd' => ?_⟩
  · cases (Visit.invoked_invoke (by decide) hd).symm.trans hinvoked
    cases hname
  · cases (Visit.invoked_invoke (by decide) hd).symm.trans hinvoked
    obtain ⟨verbose, hcompares, -⟩ := hwaits
    cases hcompares
  · cases hd.symm.trans hd'
    exact fun call hcall => absurd hcall List.not_mem_nil

end MiniWeb.RequestHandler
