import MiniWeb.Lib.Runs
import MiniWeb.SessionStore.Logout
import MiniWeb.RequestHandler.Credentials

/-!
# Sessions in several workers

In master mode `session_init` runs before the workers are forked, and each worker has its own copy
of `g_sessions` and `g_hash` from then on. A login makes a session in the worker that serves it, a
logout destroys one there, and a request to a protected route looks its cookie up there. So a
session is known to the other workers only if no request with its cookie comes to them.
-/

namespace MiniWeb.RequestHandler

open Runs CStr SessionStore

/-- The requests that use sessions. -/
inductive SessionRequest where
  /-- `POST /login` with a right name and password: `session_create`. -/
  | login (randomBytes : Vector UInt8 32) (username role : CStr) (sweep resweep now : Int)
  /-- `/logout`: `session_destroy`. -/
  | logout (cookie : CStr)
  /-- A request to a protected route: `session_lookup`. -/
  | guarded (cookie : CStr) (now : Int)

namespace SessionRequest

/-- The call the request makes, if its cookie has a session id. -/
def call : SessionRequest → Option Call
  | .login randomBytes username role sweep resweep now =>
    some (.create randomBytes username role sweep resweep now)
  | .logout cookie => (cookieSid cookie).map .destroy
  | .guarded cookie now => (cookieSid cookie).map fun sid => .lookup sid now

/-- The session id in the cookie. -/
def sid : SessionRequest → Option CStr
  | .login .. => none
  | .logout cookie => cookieSid cookie
  | .guarded cookie _ => cookieSid cookie

end SessionRequest

/-- The workers, each with its sessions and their history, and the ids that a logout served by
any worker has named after they were issued. -/
structure Workers (n : Nat) where
  worker : Fin n → World
  loggedOut : List CStr

namespace Workers

variable {n : Nat}

/-- Just after the workers are forked. -/
def fork (clock : Int) : Workers n := ⟨fun _ => World.start clock, []⟩

/-- Has some worker issued the id? -/
def issued (m : Workers n) (sid : CStr) : Bool := decide (∃ k, sid ∈ (m.worker k).issued)

def logOut (m : Workers n) : SessionRequest → List CStr
  | .logout cookie =>
    match cookieSid cookie with
    | some sid => if m.issued sid then sid :: m.loggedOut else m.loggedOut
    | none => m.loggedOut
  | _ => m.loggedOut

/-- Worker `k` serves the request. -/
def serve (step : Fin n × SessionRequest) (m : Workers n) : Option (Workers n) :=
  match step.2.call with
  | none => some m
  | some call =>
    (call.step (m.worker step.1)).map fun w =>
      ⟨Function.update m.worker step.1 w, m.logOut step.2⟩

/-- No worker has issued the token of a login. -/
def freshToken (m : Workers n) : SessionRequest → Bool
  | .login randomBytes .. => !m.issued (hexEncode randomBytes.toList)
  | _ => true

/-- Tokens are fresh and no worker's time goes back. -/
def allowed (step : Fin n × SessionRequest) (m : Workers n) : Bool :=
  m.freshToken step.2 && step.2.call.all fun call => call.allowed (m.worker step.1)

/-- The session id in the request's cookie was not issued by another worker. -/
def pinned (step : Fin n × SessionRequest) (m : Workers n) : Bool :=
  step.2.sid.all fun sid => decide (∀ k, sid ∈ (m.worker k).issued → k = step.1)

/-- The call cuts off no live session of the worker, and a session it destroys is reached. -/
def sound (step : Fin n × SessionRequest) (m : Workers n) : Bool :=
  step.2.call.all fun call => call.spares (m.worker step.1) && call.reaches (m.worker step.1)

/-- The request is allowed, comes to the worker that knows its session, and does no harm to
other sessions there. -/
def harmless (step : Fin n × SessionRequest) (m : Workers n) : Bool :=
  allowed step m && pinned step m && sound step m

/-- A request with the cookie of a session that is neither logged out nor expired is taken for one
of its user, and a request with the cookie of a session that has been logged out is not, whichever
worker of `serves` serves it. -/
def SharesSessions (m : Workers n) (serves : Fin n → SessionRequest → Prop) : Prop :=
  ∀ j cookie sid now, cookieSid cookie = some sid → (m.worker j).clock ≤ now →
    (∀ k, ∀ x ∈ (m.worker k).live, x.sessionId = sid → sid ∉ m.loggedOut → now ≤ x.expiresAt →
      serves j (.guarded cookie now) →
        ∃ t, cookieRole cookie now (m.worker j).table = some (some x.role, t)) ∧
    (sid ∈ m.loggedOut → ∀ r t, cookieRole cookie now (m.worker j).table ≠ some (some r, t))

/-! ## The invariant -/

/-- Each worker finds its live sessions and has really lost the destroyed ones, and an id belongs
to one worker. -/
structure Coherent (m : Workers n) : Prop where
  found : ∀ k, AllFound (m.worker k)
  gone : ∀ k, LoggedOut (m.worker k)
  apart : ∀ j k sid, sid ∈ (m.worker j).issued → sid ∈ (m.worker k).issued → j = k
  closed : ∀ sid ∈ m.loggedOut, ∃ k, sid ∈ (m.worker k).closed

section

variable {m m' : Workers n} {k : Fin n}

theorem issued_iff {sid : CStr} : m.issued sid = true ↔ ∃ k, sid ∈ (m.worker k).issued := by
  simp [issued]

theorem coherent_fork (clock : Int) : Coherent (fork clock : Workers n) := by
  refine ⟨fun _ => allFound_start clock, fun _ => loggedOut_start clock, fun j k sid hj => ?_,
    fun sid hsid => ?_⟩
  · cases hj
  · cases hsid

/-- What a call adds to the ids a worker has issued. -/
theorem step_issued {call : Call} {w w' : World} (h : call.step w = some w') :
    ∀ sid ∈ w'.issued, sid ∈ w.issued ∨ ∃ randomBytes username role sweep resweep now,
      call = .create randomBytes username role sweep resweep now ∧
        sid = hexEncode randomBytes.toList := by
  intro sid hsid
  unfold Call.step at h
  cases call with
  | lookup sid' now =>
    obtain ⟨⟨r, t⟩, -, rfl⟩ := Option.map_eq_some_iff.mp h
    exact .inl hsid
  | cleanup now =>
    obtain ⟨t, -, rfl⟩ := Option.map_eq_some_iff.mp h
    exact .inl hsid
  | destroy sid' =>
    obtain ⟨t, -, rfl⟩ := Option.map_eq_some_iff.mp h
    exact .inl hsid
  | create randomBytes username role sweep resweep now =>
    obtain ⟨⟨r, t⟩, ht, hw'⟩ := Option.map_eq_some_iff.mp h
    rcases sessionCreate_cases ht with ⟨-, rfl⟩ | ⟨slot, t₁, id, -, hins, rfl⟩
    · subst hw'
      exact .inl hsid
    · subst hw'
      obtain ⟨hid, -⟩ := insertSession_token hins
      rcases List.mem_cons.mp hsid with rfl | hsid
      · exact .inr ⟨randomBytes, username, role, sweep, resweep, now, rfl, hid⟩
      · exact .inl hsid

/-- Closed ids stay closed. -/
theorem step_closed {call : Call} {w w' : World} (h : call.step w = some w') {sid : CStr}
    (hsid : sid ∈ w.closed) : sid ∈ w'.closed := by
  unfold Call.step at h
  cases call with
  | lookup sid' now =>
    obtain ⟨⟨r, t⟩, -, rfl⟩ := Option.map_eq_some_iff.mp h
    exact hsid
  | cleanup now =>
    obtain ⟨t, -, rfl⟩ := Option.map_eq_some_iff.mp h
    exact hsid
  | destroy sid' =>
    obtain ⟨t, -, rfl⟩ := Option.map_eq_some_iff.mp h
    unfold World.close
    split
    · exact List.mem_cons_of_mem _ hsid
    · exact hsid
  | create randomBytes username role sweep resweep now =>
    obtain ⟨⟨r, t⟩, ht, hw'⟩ := Option.map_eq_some_iff.mp h
    cases r with
    | none =>
      subst hw'
      exact hsid
    | some id =>
      subst hw'
      exact hsid

/-- A logout of an id the worker has issued is recorded by it. -/
theorem step_destroy_closed {w w' : World} {sid : CStr}
    (h : (Call.destroy sid).step w = some w') (hsid : sid ∈ w.issued) : sid ∈ w'.closed := by
  obtain ⟨t, -, rfl⟩ := Option.map_eq_some_iff.mp h
  unfold World.close
  rw [if_pos hsid]
  exact List.mem_cons_self

theorem call_eq_create {r : SessionRequest} {randomBytes : Vector UInt8 32}
    {username role : CStr} {sweep resweep now : Int}
    (h : r.call = some (.create randomBytes username role sweep resweep now)) :
    r = .login randomBytes username role sweep resweep now := by
  cases r with
  | login =>
    cases h
    rfl
  | logout cookie =>
    obtain ⟨sid, -, hcall⟩ := Option.map_eq_some_iff.mp h
    cases hcall
  | guarded cookie now =>
    obtain ⟨sid, -, hcall⟩ := Option.map_eq_some_iff.mp h
    cases hcall

theorem mem_logOut {r : SessionRequest} {sid : CStr} (h : sid ∈ m.logOut r) :
    sid ∈ m.loggedOut ∨
      ∃ cookie, r = .logout cookie ∧ cookieSid cookie = some sid ∧ m.issued sid = true := by
  cases r with
  | login => exact .inl h
  | guarded => exact .inl h
  | logout cookie =>
    unfold logOut at h
    cases hcookie : cookieSid cookie with
    | none =>
      simp only [hcookie] at h
      exact .inl h
    | some sid' =>
      simp only [hcookie] at h
      split at h
      next hissued =>
        rcases List.mem_cons.mp h with rfl | h
        · exact .inr ⟨cookie, rfl, hcookie, hissued⟩
        · exact .inl h
      next => exact .inl h

theorem Coherent.serve (h : Coherent m) {step : Fin n × SessionRequest}
    (hp : harmless step m = true) (hs : serve step m = some m') : Coherent m' := by
  obtain ⟨k, r⟩ := step
  obtain ⟨hap, hsound⟩ := Bool.and_eq_true_iff.mp hp
  obtain ⟨hallowed, hpinned⟩ := Bool.and_eq_true_iff.mp hap
  obtain ⟨hfresh, hcallowed⟩ := Bool.and_eq_true_iff.mp hallowed
  unfold Workers.serve at hs
  unfold Workers.sound at hsound
  cases hcall : r.call with
  | none =>
    simp only [hcall] at hs
    cases hs
    exact h
  | some call =>
    simp only [hcall, Option.all_some] at hs hcallowed hsound
    obtain ⟨hspares, hreaches⟩ := Bool.and_eq_true_iff.mp hsound
    obtain ⟨w, hw, rfl⟩ := Option.map_eq_some_iff.mp hs
    have hfound : AllFound w :=
      (h.found k).step (Bool.and_eq_true_iff.mpr ⟨hcallowed, hspares⟩) hw
    have hgone : LoggedOut w :=
      (h.gone k).step (Bool.and_eq_true_iff.mpr ⟨hcallowed, hreaches⟩) hw
    refine ⟨fun j => ?_, fun j => ?_, ?_, fun sid hsid => ?_⟩
    · by_cases hj : j = k
      · subst hj
        simpa using hfound
      · simpa [Function.update_of_ne hj] using h.found j
    · by_cases hj : j = k
      · subst hj
        simpa using hgone
      · simpa [Function.update_of_ne hj] using h.gone j
    · intro j l sid hj hl
      have hnew : ∀ i, sid ∈ (Function.update m.worker k w i).issued →
          sid ∈ (m.worker i).issued ∨ i = k ∧ m.issued sid = false := by
        intro i hi
        by_cases hik : i = k
        · subst hik
          rw [Function.update_self] at hi
          rcases step_issued hw sid hi with
            hold | ⟨randomBytes, username, role, sweep, resweep, now, rfl, rfl⟩
          · exact .inl hold
          · rw [call_eq_create hcall] at hfresh
            exact .inr ⟨rfl, by simpa [freshToken] using hfresh⟩
        · rw [Function.update_of_ne hik] at hi
          exact .inl hi
      rcases hnew j hj with hjold | ⟨hjk, hnone⟩
      · rcases hnew l hl with hlold | ⟨-, hnone⟩
        · exact h.apart j l sid hjold hlold
        · rw [issued_iff.mpr ⟨j, hjold⟩] at hnone
          cases hnone
      · rcases hnew l hl with hlold | ⟨hlk, -⟩
        · rw [issued_iff.mpr ⟨l, hlold⟩] at hnone
          cases hnone
        · rw [hjk, hlk]
    · have hold : sid ∈ m.loggedOut → ∃ l, sid ∈ (Function.update m.worker k w l).closed := by
        intro hsid
        obtain ⟨l, hl⟩ := h.closed sid hsid
        refine ⟨l, ?_⟩
        by_cases hlk : l = k
        · subst hlk
          rw [Function.update_self]
          exact step_closed hw hl
        · rw [Function.update_of_ne hlk]
          exact hl
      rcases mem_logOut hsid with hsid | ⟨cookie, rfl, hcookie, hissued⟩
      · exact hold hsid
      · -- the logout came to the worker that issued the id
        obtain ⟨l, hl⟩ := issued_iff.mp hissued
        simp only [pinned, SessionRequest.sid, hcookie, Option.all_some,
          decide_eq_true_eq] at hpinned
        obtain rfl := hpinned l hl
        rw [SessionRequest.call, hcookie] at hcall
        cases hcall
        refine ⟨l, ?_⟩
        show sid ∈ (Function.update m.worker l w l).closed
        rw [Function.update_self]
        exact step_destroy_closed hw hl

/-! ## What a request with a cookie gets -/

theorem cookieRole_eq {cookie sid : CStr} {now : Int} {t : Table}
    (h : cookieSid cookie = some sid) : cookieRole cookie now t =
      (sessionLookup sid now t).map fun (s, t) => (s.map fun i => (t.sessions i).role, t) := by
  have hne : cookie ≠ [] := by
    rintro rfl
    have hnil : cookieSid [] = none := by decide
    rw [hnil] at h
    cases h
  rw [cookieRole, if_neg hne, h]

/-- A worker knows its own live sessions. -/
theorem Coherent.accepts (h : Coherent m) {cookie : CStr} {now : Int} {x : Session}
    (hcookie : cookieSid cookie = some x.sessionId) (hx : x ∈ (m.worker k).live)
    (hnow : (m.worker k).clock ≤ now) (hexp : now ≤ x.expiresAt) :
    ∃ t, cookieRole cookie now (m.worker k).table = some (some x.role, t) := by
  have hk := h.found k
  have hfound : Found (m.worker k).table x :=
    (hk.later hnow).found x (World.mem_liveAt.mpr ⟨hx, hexp⟩)
  obtain ⟨i, hlookup, hi⟩ :=
    sessionLookup_found hfound (hk.nonempty _ (hk.issued x hx)) hexp
  refine ⟨(m.worker k).table, ?_⟩
  rw [cookieRole_eq hcookie, hlookup]
  simp [hi]

/-- No worker knows a session that has been logged out. -/
theorem Coherent.rejects (h : Coherent m) {cookie sid : CStr} {now : Int}
    (hcookie : cookieSid cookie = some sid) (hsid : sid ∈ m.loggedOut)
    (hnow : (m.worker k).clock ≤ now) (r : CStr) (t : Table) :
    cookieRole cookie now (m.worker k).table ≠ some (some r, t) := by
  intro hrole
  rw [cookieRole_eq hcookie] at hrole
  obtain ⟨⟨s, t'⟩, hlookup, hpair⟩ := Option.map_eq_some_iff.mp hrole
  rcases sessionLookup_cases hlookup with
    ⟨rfl, -, -⟩ | ⟨e, i, he, ⟨hexp, -, -⟩ | ⟨-, rfl, -⟩⟩
  · cases hpair
  · have hholds := (findEntry_some he).2
    obtain ⟨hused, hid⟩ := Table.holds_iff.mp hholds
    obtain ⟨l, hl⟩ := h.closed sid hsid
    have hissued : sid ∈ (m.worker k).issued := hid ▸ (h.gone k).tidy.issued i hused
    obtain rfl := h.apart l k sid ((h.gone l).issued sid hl) hissued
    have := (h.gone l).gone sid hl i hholds
    omega
  · cases hpair

end

/-- **Sessions across workers.** In every run in which each request with the id of a session comes
to the worker that issued it, and no call does harm to other sessions of its worker, a request
that comes to the worker that issued the id is taken for one of the user until the session is
logged out or expires, and after a logout no worker takes it so. -/
theorem runs_sharesSessions {clock : Int} {steps : List (Fin n × SessionRequest)} {m : Workers n}
    (hsteps : Runs.along serve harmless steps (fork clock) = true)
    (hrun : runs serve steps (fork clock) = some m) :
    m.SharesSessions fun j r => pinned (j, r) m = true := by
  have h : Coherent m :=
    runs_rule (fun _ _ _ hm hp hs => hm.serve hp hs) (coherent_fork clock) hsteps hrun
  intro j cookie sid now hcookie hnow
  refine ⟨fun k x hx hid _ hexp hpinned => ?_, fun hsid => h.rejects hcookie hsid hnow⟩
  have hpin : ∀ l, sid ∈ (m.worker l).issued → l = j := by
    simpa [pinned, SessionRequest.sid, hcookie] using hpinned
  obtain rfl := hpin k (hid ▸ (h.found k).issued x hx)
  exact h.accepts (hid ▸ hcookie) hx hnow hexp

/-! ## Two workers -/

def sidCookie (sid : CStr) : CStr := ascii "session_id=" ++ sid

def aliceLogin : SessionRequest := .login (oneByte 0) (ascii "alice") (ascii "user") 0 0 0

def aliceCookie : CStr := sidCookie (tokenOf 0)

/-- Two workers after alice has logged in at worker 0. -/
def afterLogin : Workers 2 := (serve (0, aliceLogin) (fork 0)).get (by decide +kernel)

/-- Worker 1 does not know the session worker 0 has issued; and a logout at worker 1 leaves it in
force at worker 0. -/
theorem login_unknown_elsewhere :
    Runs.along serve allowed [(0, aliceLogin)] (fork 0 : Workers 2) = true ∧
      runs serve [(0, aliceLogin)] (fork 0) = some afterLogin ∧
      ¬ afterLogin.SharesSessions (fun _ _ => True) ∧
      (runs serve [(0, aliceLogin), (1, .logout aliceCookie)] (fork 0 : Workers 2)).any
        (fun m => decide (tokenOf 0 ∈ m.loggedOut) &&
          decide ((cookieRole aliceCookie 0 (m.worker 0).table).map Prod.fst =
            some (some (ascii "user")))) = true := by
  have hrun : serve (0, aliceLogin) (fork 0) = some afterLogin := (Option.some_get _).symm
  refine ⟨by decide +kernel, by rw [runs_cons, hrun]; rfl, fun h => ?_, by decide +kernel⟩
  obtain ⟨haccept, -⟩ := h 1 aliceCookie (tokenOf 0) 0 (by decide +kernel) (by decide +kernel)
  obtain ⟨t, ht⟩ := haccept 0 (newSession (tokenOf 0) (ascii "alice") (ascii "user") 0)
    (by decide +kernel) (by decide +kernel) (by decide +kernel) (by decide +kernel) trivial
  have hnone : (cookieRole aliceCookie 0 (afterLogin.worker 1).table).map Prod.fst = some none := by
    decide +kernel
  rw [ht] at hnone
  cases hnone

/-- The worker that issued the session serves its user, until the logout. -/
theorem runs_sharesSessions_example :
    runs serve [(0, aliceLogin)] (fork 0) = some afterLogin ∧
      ∃ t, cookieRole aliceCookie 10 (afterLogin.worker 0).table =
        some (some (ascii "user"), t) := by
  have hrun : runs serve [(0, aliceLogin)] (fork 0) = some afterLogin := by
    have hserve : serve (0, aliceLogin) (fork 0) = some afterLogin := (Option.some_get _).symm
    rw [runs_cons, hserve]
    rfl
  obtain ⟨haccept, -⟩ := runs_sharesSessions (by decide +kernel) hrun 0 aliceCookie (tokenOf 0) 10
    (by decide +kernel) (by decide +kernel)
  exact ⟨hrun, haccept 0 (newSession (tokenOf 0) (ascii "alice") (ascii "user") 0)
    (by decide +kernel) (by decide +kernel) (by decide +kernel) (by decide +kernel)
    (by decide +kernel)⟩

end Workers

end MiniWeb.RequestHandler
