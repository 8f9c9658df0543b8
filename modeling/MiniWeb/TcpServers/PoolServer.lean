import MiniWeb.TcpServers.Listener
import MiniWeb.ThreadPool.Custody

/-!
# The server with a thread pool (`tcp_pool_server.c`)

The main thread of `tcp_pool_server_run` accepts connections and gives their descriptors to the
pool; a worker handles a connection and closes the descriptor. All threads share one table of
descriptors, and `accept` answers with any number that is free at the time, also with one that a
worker has just closed. The pool is that of `ThreadPool.Teardown`, whose owner is the main thread.

SIGINT may be delivered to any thread; it makes `accept` fail only when the main thread gets it. A
worker's call of `request_handler_handle_connection`, the `close` after it and the update of the
statistics are one step: no other thread has the descriptor, and nobody reads the statistics before
the workers are joined.
-/

namespace MiniWeb.TcpServers.PoolServer

open Runs Descriptors ThreadPool

def corePoolSize : Int := 2
def maxPoolSize : Int := 8
def queueCapacity : Int := 128

/-- What `thread_pool_create` starts with. -/
def newPool : Pool :=
  (threadPoolCreate corePoolSize maxPoolSize queueCapacity).get (by decide +kernel)

/-- Where the main thread is. -/
inductive Place where
  | setup
  /-- In `thread_pool_create`. -/
  | creating
  /-- The pool could not be created. -/
  | createFailed
  /-- Before `while (!g_shutdown)`. -/
  | testing
  /-- Behind the test, and not yet in `accept`. -/
  | calling
  | accepting
  /-- `accept` was interrupted and is about to fail. -/
  | interrupted
  /-- Before `errno == EINTR`. -/
  | failed (eintr : Bool)
  /-- Before the second test of `g_shutdown`. -/
  | retesting
  /-- Before `thread_pool_add_task(pool, conn_fd)`. -/
  | accepted
  /-- In `thread_pool_add_task`, waiting for room. -/
  | adding
  /-- In `thread_pool_add_task`, in `spawn_worker`. -/
  | spawning
  /-- `thread_pool_add_task` has returned 0. -/
  | enqueued
  /-- It has returned -1. -/
  | rejected
  /-- Behind the loop, before `close(listen_fd)`. -/
  | closing
  /-- Before `thread_pool_shutdown`. -/
  | shutting
  /-- Before `thread_pool_destroy`. -/
  | stopping
  /-- In `thread_pool_destroy`. -/
  | destroying
  | returned (zero : Bool)
deriving DecidableEq, Repr

/-- The server, with the number of connections accepted and the files the workers have handled as
connections, each with whether the handling succeeded. -/
structure Server where
  place : Place
  shutdown : Bool
  listenFd : Nat
  connFd : Nat
  files : Table File
  clientsServed : Nat
  pool : Teardown.State
  totalProcessed : Nat
  totalErrors : Nat
  /-- What `thread_pool_destroy` has stored in `processed` and `errors`. -/
  summary : Option (Nat × Nat)
  accepted : Nat
  handled : List (File × Bool)

/-- `tcp_pool_server_run` is called. -/
def Server.start : Server where
  place := .setup
  shutdown := false
  listenFd := 0
  connFd := 0
  files := []
  clientsServed := 0
  pool := Teardown.State.start newPool
  totalProcessed := 0
  totalErrors := 0
  summary := none
  accepted := 0
  handled := []

inductive Event where
  | setup (calls : SetupCalls)
  /-- The memory for the pool is not there. -/
  | noPool
  /-- The main thread's next step in `thread_pool_create`, and in the `thread_pool_destroy` there. -/
  | create (e : Teardown.Event)
  /-- The main thread's next step, where it asks nothing of the system or the pool. -/
  | advance
  /-- `accept` answers with a descriptor. -/
  | accept (fd : Nat)
  /-- `accept` fails, and no signal has interrupted it. -/
  | acceptFails
  /-- SIGINT is delivered, to the main thread or to a worker. -/
  | sigint (main : Bool)
  | addTask
  | wakeAdd
  /-- A step of the `spawn_worker` in `thread_pool_add_task`. -/
  | spawn (ok : Bool)
  | shutdown
  | destroy
  /-- The main thread's next step in `thread_pool_destroy`. -/
  | join (e : Teardown.Event)
  /-- A worker's step in the pool. -/
  | work (e : Teardown.Event)
  /-- A worker has handled its connection, closed it and updated the statistics. -/
  | handle (w : Nat) (ok : Bool)

namespace Server

variable (s : Server)

/-- The next step of the main thread's own flow. -/
def advance : Option Server :=
  match s.place with
  | .createFailed =>
    some { s with files := s.files.close s.listenFd, place := .returned false }
  | .testing => some { s with place := if s.shutdown then .closing else .calling }
  | .calling => some { s with place := .accepting }
  | .interrupted => some { s with place := .failed true }
  | .failed eintr => some { s with place := if eintr then .retesting else .closing }
  | .retesting => some { s with place := if s.shutdown then .closing else .testing }
  | .enqueued => some { s with clientsServed := s.clientsServed + 1, place := .testing }
  | .rejected => some { s with files := s.files.close s.connFd, place := .closing }
  | .closing => some { s with files := s.files.close s.listenFd, place := .shutting }
  | _ => none

/-- After a critical section of `thread_pool_add_task`. -/
def added (r : Pool.Added) : Place :=
  match r with
  | .wait => .adding
  | .rejected => .rejected
  | .queued _ shouldSpawn => if shouldSpawn then .spawning else .enqueued

/-- Where the main thread is after a step in `thread_pool_create`. -/
def created (pool : Teardown.State) : Place :=
  match pool.owner with
  | .serving => .testing
  | .freed => .createFailed
  | _ => .creating

/-- Where it is after a step in `thread_pool_destroy`. The statistics are read before the pool is
freed. -/
def destroyed (pool : Teardown.State) : Server :=
  match pool.owner with
  | .freed =>
    { s with
      pool := pool
      place := .returned true
      summary := some (s.totalProcessed, s.totalErrors) }
  | _ => { s with pool := pool }

/-- Worker `w`, with this descriptor, is through with its request. -/
def handle (pool : Teardown.State) (fd : Nat) (ok : Bool) : Server :=
  { s with
    files := s.files.close fd
    pool := pool
    totalProcessed := s.totalProcessed + 1
    totalErrors := s.totalErrors + if ok then 0 else 1
    handled := s.handled ++ ((s.files.lookup fd).map fun f => (f, ok)).toList }

def step : Event → Server → Option Server
  | .setup calls, s =>
    if s.place = .setup then
      match calls.listenFd with
      | (files, some fd) => some { s with files := files, listenFd := fd, place := .creating }
      | (files, none) => some { s with files := files, place := .returned false }
    else none
  | .noPool, s =>
    match s.place, s.pool.owner with
    | .creating, .creating _ .start =>
      if s.pool.threads = [] then some { s with place := .createFailed } else none
    | _, _ => none
  | .create e, s =>
    match s.place, e with
    | .creating, .spawn _ | .creating, .look | .creating, .join | .creating, .free =>
      (Teardown.State.ownerStep e s.pool).map fun pool =>
        { s with pool := pool, place := created pool }
    | _, _ => none
  | .advance, s => s.advance
  | .accept fd, s =>
    if s.place = .accepting ∧ fd ∉ s.files.fds then
      some { s with
        files := (fd, .client s.accepted) :: s.files
        connFd := fd
        place := .accepted
        accepted := s.accepted + 1 }
    else none
  | .acceptFails, s => if s.place = .accepting then some { s with place := .failed false } else none
  | .sigint main, s =>
    some { s with
      shutdown := true
      place := if main ∧ s.place = .accepting then .interrupted else s.place }
  | .addTask, s =>
    if s.place = .accepted then
      (Teardown.State.ownerStep (.addTask s.connFd) s.pool).map fun pool =>
        { s with pool := pool, place := added (s.pool.pool.addTask s.connFd) }
    else none
  | .wakeAdd, s =>
    if s.place = .adding then
      (Teardown.State.ownerStep .wakeOwner s.pool).map fun pool =>
        { s with pool := pool, place := added (s.pool.pool.awaitRoom s.connFd) }
    else none
  | .spawn ok, s =>
    if s.place = .spawning then
      (Teardown.State.ownerStep (.spawn ok) s.pool).map fun pool =>
        { s with
          pool := pool
          place := match pool.owner with
            | .serving => .enqueued
            | _ => .spawning }
    else none
  | .shutdown, s =>
    if s.place = .shutting then
      (Teardown.State.ownerStep .shutdown s.pool).map fun pool =>
        { s with pool := pool, place := .stopping }
    else none
  | .destroy, s =>
    if s.place = .stopping then
      (Teardown.State.ownerStep .destroy s.pool).map fun pool =>
        { s with pool := pool, place := .destroying }
    else none
  | .join e, s =>
    match s.place, e with
    | .destroying, .look | .destroying, .join | .destroying, .free =>
      (Teardown.State.ownerStep e s.pool).map s.destroyed
    | _, _ => none
  | .work e, s =>
    match e with
    | .record _ => none
    | _ => (Teardown.State.workerStep e s.pool).map fun pool => { s with pool := pool }
  | .handle w ok, s =>
    match s.pool.threads[w]? with
    | some ⟨_, _, .handling clientFd⟩ =>
      (Teardown.State.workerStep (.record w) s.pool).map fun pool =>
        s.handle pool clientFd.toNat ok
    | _ => none

end Server

/-! ## What holds at each place -/

def Place.listens : Place → Bool
  | .setup | .shutting | .stopping | .destroying | .returned _ => false
  | _ => true

/-- The main thread has the connection in its hand. -/
def Place.hasConn : Place → Bool
  | .accepted | .adding | .rejected => true
  | _ => false

/-- The connection that `clients_served` does not count yet. -/
def Place.uncounted : Place → Nat
  | .accepted | .adding | .spawning | .enqueued => 1
  | _ => 0

/-- The descriptors that are not in the pool's custody. -/
def Server.mainFds (s : Server) : List Nat :=
  (if s.place.hasConn then [s.connFd] else []) ++ if s.place.listens then [s.listenFd] else []

/-- The files that have been opened. -/
def Server.opened (s : Server) : List File :=
  (if s.place.listens then [.listening] else []) ++ (List.range s.accepted).map File.client

/-- What holds in every state of a run. -/
structure Kept (s : Server) : Prop where
  life : ∃ es, runs Teardown.State.step es (Teardown.State.start newPool) = some s.pool
  fresh : s.place = .setup → s.files = []
  waiting : s.place = .adding → s.pool.owner = .adding s.connFd
  queued : s.place ≠ .rejected
  held : Held s.files (s.mainFds ++ s.pool.custody.map Int.toNat)
  listening : s.place.listens = true → (s.listenFd, .listening) ∈ s.files
  ledger : (s.files.map Prod.snd ++ s.handled.map Prod.fst).Perm s.opened
  served : s.clientsServed + s.place.uncounted = s.accepted
  processed : s.totalProcessed = s.handled.length
  errors : s.totalErrors = s.handled.countP fun h => !h.2
  summary : ∀ p ∈ s.summary, s.place = .returned true ∧ s.files = [] ∧
    p = (s.totalProcessed, s.totalErrors)

section

variable {s s' : Server}

theorem newPool_create :
    threadPoolCreate corePoolSize maxPoolSize queueCapacity = some newPool :=
  (Option.some_get _).symm

theorem kept_start : Kept .start where
  life := ⟨[], rfl⟩
  fresh _ := rfl
  waiting h := by cases h
  queued h := by cases h
  held := held_nil
  listening h := by cases h
  ledger := List.Perm.nil
  served := rfl
  processed := rfl
  errors := rfl
  summary _ h := by cases h

/-! ## The life of the pool -/

theorem Kept.ring (h : Kept s) : s.pool.pool.queue.Wf s.pool.pool.capacity := by
  obtain ⟨es, hrun⟩ := h.life
  exact Teardown.run_ring newPool_create hrun

theorem step_of_owner {e : Teardown.Event} {t t' : Teardown.State}
    (h : Teardown.State.ownerStep e t = some t') : Teardown.State.step e t = some t' := by
  rw [Teardown.State.step, h]
  rfl

theorem step_of_worker {e : Teardown.Event} {t t' : Teardown.State}
    (h : Teardown.State.workerStep e t = some t') : Teardown.State.step e t = some t' := by
  have hnone : Teardown.State.ownerStep e t = none := by
    cases e with
    | lock w => rfl
    | wake w timedOut => rfl
    | count w => rfl
    | unlock w => rfl
    | read w => rfl
    | record w => rfl
    | _ => cases h
  rw [Teardown.State.step, hnone, Option.none_or, h]

theorem Kept.live (h : Kept s) {e : Teardown.Event} {pool : Teardown.State}
    (hstep : Teardown.State.step e s.pool = some pool) :
    ∃ es, runs Teardown.State.step es (Teardown.State.start newPool) = some pool := by
  obtain ⟨es, hrun⟩ := h.life
  refine ⟨es ++ [e], ?_⟩
  rw [runs_append, hrun, Option.bind_some, runs_cons, hstep]
  rfl

theorem Kept.unshut (h : Kept s) : s.pool.Unshut := by
  obtain ⟨es, hrun⟩ := h.life
  exact Teardown.run_unshut (by decide +kernel) hrun

/-! ## Steps that pass no descriptor on -/

/-- The two places say the same of the main thread's descriptors. -/
structure Place.Like (p q : Place) : Prop where
  listens : p.listens = q.listens
  hasConn : p.hasConn = q.hasConn
  uncounted : p.uncounted = q.uncounted

theorem Kept.mainFds_congr {p : Place} {pool : Teardown.State} {shutdown : Bool}
    (hp : p.Like s.place) :
    ({ s with place := p, shutdown := shutdown, pool := pool } : Server).mainFds = s.mainFds ∧
      ({ s with place := p, shutdown := shutdown, pool := pool } : Server).opened = s.opened := by
  unfold Server.mainFds Server.opened
  simp only [hp.listens, hp.hasConn, and_self]

/-- The main thread goes on, the pool makes a step, and the descriptors stay where they are. -/
theorem Kept.moved (h : Kept s) {pool : Teardown.State}
    (hlife : ∃ es, runs Teardown.State.step es (Teardown.State.start newPool) = some pool)
    (hcustody : pool.custody.Perm s.pool.custody) {p : Place} (hp : p.Like s.place)
    (hadding : p = .adding → pool.owner = .adding s.connFd) (hqueued : p ≠ .rejected)
    (hsetup : p = .setup → s.place = .setup)
    (hend : s.place = .returned true → p = .returned true) (shutdown : Bool) :
    Kept { s with place := p, shutdown := shutdown, pool := pool } where
  life := hlife
  fresh hp := h.fresh (hsetup hp)
  waiting := hadding
  queued := hqueued
  held := by
    rw [(Kept.mainFds_congr hp).1]
    exact h.held.congr ((hcustody.symm.map _).append_left _)
  listening hl := h.listening (hp.listens ▸ hl)
  ledger := by
    rw [(Kept.mainFds_congr hp).2]
    exact h.ledger
  served := by
    show s.clientsServed + p.uncounted = s.accepted
    rw [hp.uncounted]
    exact h.served
  processed := h.processed
  errors := h.errors
  summary q hq := by
    obtain ⟨hplace, hfiles, hpair⟩ := h.summary q hq
    exact ⟨hend hplace, hfiles, hpair⟩

/-- A place in the middle of the main thread's flow, where it waits for no room. -/
def Place.Plain (p : Place) : Prop := p ≠ .setup ∧ p ≠ .adding ∧ p ≠ .rejected

theorem Kept.goto (h : Kept s) {p : Place} (hp : p.Like s.place) (hplain : p.Plain)
    (hend : s.place ≠ .returned true) : Kept { s with place := p } :=
  h.moved h.life (List.Perm.refl _) hp (fun h => absurd h hplain.2.1) hplain.2.2
    (fun h => absurd h hplain.1) (fun h => absurd h hend) s.shutdown

/-! ## Closing and handing over -/

/-- The listening socket is closed. -/
theorem Kept.close_listen (h : Kept s) (hlistens : s.place.listens = true)
    (hconn : s.place.hasConn = false) (huncounted : s.place.uncounted = 0) {p : Place}
    (hp : p = .returned false ∨ p = .shutting) :
    Kept { s with files := s.files.close s.listenFd, place := p } := by
  have hmain : s.mainFds = [s.listenFd] := by
    unfold Server.mainFds
    rw [hconn, hlistens]
    rfl
  have hheld := h.held
  rw [hmain] at hheld
  have hlisten := h.listening hlistens
  obtain ⟨f, hf, hperm⟩ := hheld.lookup
  obtain rfl : .listening = f := Option.some.inj ((h.held.lookup_of_mem hlisten).symm.trans hf)
  have hopened : s.opened = .listening :: (List.range s.accepted).map File.client := by
    unfold Server.opened
    rw [hlistens]
    rfl
  have hledger := h.ledger
  rw [hopened] at hledger
  have hafter : ∀ p : Place, (p = .returned false ∨ p = .shutting) →
      p.listens = false ∧ p.hasConn = false ∧ p.uncounted = 0 ∧ p.Plain := by
    rintro p (rfl | rfl) <;> exact ⟨rfl, rfl, rfl, nofun, nofun, nofun⟩
  obtain ⟨hl, hc, hu, hsetup, hadding, hrejected⟩ := hafter p hp
  constructor
  · exact h.life
  · exact fun h => absurd h hsetup
  · exact fun h => absurd h hadding
  · exact hrejected
  · have hnone :
        ({ s with files := s.files.close s.listenFd, place := p } : Server).mainFds = [] := by
      unfold Server.mainFds
      simp only [hl, hc]
      rfl
    rw [hnone]
    exact hheld.close
  · intro hl'
    rw [show ({ s with files := s.files.close s.listenFd, place := p } : Server).place = p from rfl,
      hl] at hl'
    cases hl'
  · have hnone : ({ s with files := s.files.close s.listenFd, place := p } : Server).opened =
        (List.range s.accepted).map File.client := by
      unfold Server.opened
      simp only [hl]
      rfl
    rw [hnone]
    exact (List.Perm.cons_inv ((hperm.append_right _).symm.trans hledger))
  · have hserved := h.served
    rw [huncounted] at hserved
    show s.clientsServed + p.uncounted = s.accepted
    rw [hu, hserved]
  · exact h.processed
  · exact h.errors
  · intro q hq
    obtain ⟨hplace, -, -⟩ := h.summary q hq
    rw [hplace] at hlistens
    cases hlistens

theorem Kept.accept (h : Kept s) {fd : Nat} (hplace : s.place = .accepting)
    (hfd : fd ∉ s.files.fds) :
    Kept { s with
      files := (fd, .client s.accepted) :: s.files
      connFd := fd
      place := .accepted
      accepted := s.accepted + 1 } := by
  have hmain : s.mainFds = [s.listenFd] := by
    unfold Server.mainFds
    rw [hplace]
    rfl
  have hheld := h.held
  have hledger := h.ledger
  have hserved := h.served
  rw [hmain] at hheld
  rw [hplace] at hserved
  constructor
  · exact h.life
  · exact nofun
  · exact nofun
  · exact nofun
  · exact hheld.open hfd
  · exact fun _ => List.mem_cons_of_mem _ (h.listening (hplace ▸ rfl))
  · have hopened : ∀ t : Server, t.place.listens = true →
        t.opened = .listening :: (List.range t.accepted).map File.client := by
      intro t ht
      unfold Server.opened
      rw [ht]
      rfl
    rw [hopened s (hplace ▸ rfl)] at hledger
    rw [hopened _ rfl]
    show (File.client s.accepted :: (s.files.map Prod.snd ++ _)).Perm
      (_ :: (List.range (s.accepted + 1)).map File.client)
    rw [List.range_succ, List.map_append]
    refine (hledger.cons _).trans ?_
    exact (List.Perm.swap _ _ _).trans ((List.perm_append_singleton _ _).symm.cons _)
  · exact congrArg (· + 1) hserved
  · exact h.processed
  · exact h.errors
  · intro q hq
    obtain ⟨hreturned, -, -⟩ := h.summary q hq
    rw [hplace] at hreturned
    cases hreturned
/-- A critical section of `thread_pool_add_task`: when the descriptor is enqueued it passes from the
main thread into the pool's custody. -/
theorem Kept.added (h : Kept s) (hplace : s.place = .accepted ∨ s.place = .adding)
    {e : Teardown.Event} {r : Pool.Added}
    (hstep : Teardown.State.ownerStep e s.pool = some (s.pool.added s.connFd r))
    (hqueued : ∀ pool shouldSpawn, r = .queued pool shouldSpawn →
      s.pool.pool.awaitRoom s.connFd = .queued pool shouldSpawn)
    (hrejected : r = .rejected → s.pool.pool.shutdown = true)
    (huses : s.pool.owner.uses = true) :
    Kept { s with pool := s.pool.added s.connFd r, place := Server.added r } := by
  have hlife := h.live (step_of_owner hstep)
  have hlike : (.adding : Place).Like s.place := by
    rcases hplace with hplace | hplace <;> rw [hplace] <;> exact ⟨rfl, rfl, rfl⟩
  have hlive : s.place ≠ .returned true := by
    rcases hplace with hplace | hplace <;> rw [hplace] <;> nofun
  have hcustody := Teardown.custody_added h.ring fun pool shouldSpawn hr =>
    Pool.awaitRoom_queued (hqueued pool shouldSpawn hr)
  cases r with
  | wait => exact h.moved hlife hcustody hlike (fun _ => rfl) nofun nofun (fun h => absurd h hlive) _
  | rejected =>
    have hfalse := h.unshut huses
    rw [hrejected rfl] at hfalse
    cases hfalse
  | queued pool shouldSpawn =>
    have hafter : (Server.added (.queued pool shouldSpawn)).listens = true ∧
        (Server.added (.queued pool shouldSpawn)).hasConn = false ∧
        (Server.added (.queued pool shouldSpawn)).uncounted = 1 ∧
        (Server.added (.queued pool shouldSpawn)).Plain := by
      cases shouldSpawn <;> exact ⟨rfl, rfl, rfl, nofun, nofun, nofun⟩
    obtain ⟨hl, hc, hu, hsetup, hadding, hrej⟩ := hafter
    constructor
    · exact hlife
    · exact fun h => absurd h hsetup
    · exact fun h => absurd h hadding
    · exact hrej
    · have hbefore : s.mainFds = [s.connFd, s.listenFd] := by
        unfold Server.mainFds
        rw [← hlike.hasConn, ← hlike.listens]
        rfl
      have hheld := h.held
      rw [hbefore] at hheld
      have hmain : ∀ t : Server, t.place = Server.added (.queued pool shouldSpawn) →
          t.mainFds = [t.listenFd] := by
        intro t ht
        unfold Server.mainFds
        rw [ht, hl, hc]
        rfl
      rw [hmain _ rfl]
      refine hheld.congr ?_
      refine List.Perm.trans ?_ ((hcustody.symm.map Int.toNat).append_left [s.listenFd])
      exact List.Perm.swap _ _ _
    · exact fun _ => h.listening (hlike.listens ▸ rfl)
    · have hopened : ({ s with
          pool := s.pool.added s.connFd (.queued pool shouldSpawn)
          place := Server.added (.queued pool shouldSpawn) } : Server).opened = s.opened := by
        unfold Server.opened
        simp only [hl, ← hlike.listens]
        rfl
      rw [hopened]
      exact h.ledger
    · show s.clientsServed + (Server.added (.queued pool shouldSpawn)).uncounted = s.accepted
      rw [hu, ← h.served, ← hlike.uncounted]
      rfl
    · exact h.processed
    · exact h.errors
    · intro q hq
      obtain ⟨hreturned, -, -⟩ := h.summary q hq
      exact absurd hreturned hlive

/-- **A worker is through with its request.** The descriptor it had is that of a connection no one
has handled, and no other thread has it. -/
theorem Kept.handle (h : Kept s) {w : Nat} {pool : Teardown.State} {x : Teardown.Thread}
    {clientFd : Int} (hx : s.pool.threads[w]? = some x) (hstage : x.stage = .handling clientFd)
    (hstep : Teardown.State.workerStep (.record w) s.pool = some pool) (ok : Bool) :
    Kept (s.handle pool clientFd.toNat ok) := by
  obtain ⟨y, fd, hy, hfd, hcustody⟩ := Teardown.custody_record hstep
  obtain rfl : x = y := Option.some.inj (hx.symm.trans hy)
  obtain rfl : clientFd = fd := by
    rw [hstage] at hfd
    exact Teardown.Stage.handling.inj hfd
  have hheld : Held s.files (clientFd.toNat :: (s.mainFds ++ pool.custody.map Int.toNat)) :=
    h.held.congr (((hcustody.map Int.toNat).append_left _).trans List.perm_middle)
  obtain ⟨f, hlookup, hperm⟩ := hheld.lookup
  have hhandled : (s.handle pool clientFd.toNat ok).handled = s.handled ++ [(f, ok)] := by
    unfold Server.handle
    simp only [hlookup, Option.map_some, Option.toList_some]
  constructor
  · exact h.live (step_of_worker hstep)
  · intro hsetup
    show s.files.close clientFd.toNat = []
    rw [h.fresh hsetup, Table.close_nil]
  · intro hadding
    rw [show (s.handle pool clientFd.toNat ok).pool = pool from rfl,
      Teardown.workerStep_owner hstep]
    exact h.waiting hadding
  · exact h.queued
  · exact hheld.close
  · intro hlistens
    have hlisten := h.listening hlistens
    refine Table.mem_close hlisten fun heq => ?_
    have hmem : s.listenFd ∈ s.mainFds := by
      unfold Server.mainFds
      rw [show s.place.listens = true from hlistens]
      exact List.mem_append_right _ List.mem_cons_self
    have hnodup := (List.nodup_cons.mp hheld.nodup_held).1
    exact hnodup (heq ▸ List.mem_append_left _ hmem)
  · rw [hhandled, List.map_append]
    refine List.Perm.trans ?_ h.ledger
    show ((s.files.close clientFd.toNat).map Prod.snd ++ (_ ++ [f])).Perm _
    rw [← List.append_assoc]
    exact (List.perm_append_singleton f _).trans (hperm.symm.append_right _)
  · exact h.served
  · rw [hhandled, List.length_append]
    exact congrArg (· + 1) h.processed
  · rw [hhandled, List.countP_append]
    show s.totalErrors + _ = _
    rw [h.errors]
    cases ok <;> rfl
  · intro q hq
    obtain ⟨-, hfiles, -⟩ := h.summary q hq
    rw [hfiles] at hlookup
    cases hlookup

/-! ## The end -/

/-- Only `.free` frees the pool, behind the last slot. -/
theorem freed_of_step {e : Teardown.Event} {t t' : Teardown.State}
    (hstep : Teardown.State.ownerStep e t = some t')
    (he : e = .look ∨ e = .join ∨ e = .free) (hfreed : t'.owner = .freed) :
    ∃ i, t.owner = .destroying i ∧ t.pool.maxSize ≤ i := by
  unfold Teardown.State.ownerStep at hstep
  rcases he with rfl | rfl | rfl
  · simp only at hstep
    split at hstep
    · split at hstep
      · cases hstep
      · cases hstep
        simp only at hfreed
        split at hfreed <;> cases hfreed
    · cases hstep
  · simp only at hstep
    split at hstep
    · split at hstep
      · cases hstep
        cases hfreed
      · cases hstep
    · cases hstep
  · simp only at hstep
    split at hstep
    next i howner =>
      split at hstep
      next hi => exact ⟨i, howner, hi⟩
      next => cases hstep
    next => cases hstep

/-- A step in `thread_pool_destroy`. When it is the last, the pool has no descriptor, so all are
closed. -/
theorem Kept.destroyed (h : Kept s) (hplace : s.place = .destroying) {e : Teardown.Event}
    {pool : Teardown.State} (he : e = .look ∨ e = .join ∨ e = .free)
    (hstep : Teardown.State.ownerStep e s.pool = some pool) : Kept (s.destroyed pool) := by
  have hlife := h.live (step_of_owner hstep)
  have hcustody : pool.custody = s.pool.custody := by
    refine Teardown.custody_owner hstep (fun fd => ?_) ?_ <;>
      rcases he with rfl | rfl | rfl <;> nofun
  have hlive : s.place ≠ .returned true := by
    rw [hplace]
    nofun
  unfold Server.destroyed
  split
  next howner =>
    obtain ⟨i, hlast, hi⟩ := freed_of_step hstep he howner
    obtain ⟨es, hrun⟩ := h.life
    have hnone : s.pool.custody = [] :=
      Teardown.run_returned newPool_create hrun (Teardown.run_idle hrun hlast hi)
    have hmoved := h.moved hlife (List.Perm.of_eq hcustody) (p := .returned true)
      (hplace ▸ ⟨rfl, rfl, rfl⟩) nofun nofun nofun (fun _ => rfl) s.shutdown
    refine ⟨hmoved.life, hmoved.fresh, hmoved.waiting, hmoved.queued, hmoved.held, hmoved.listening,
      hmoved.ledger, hmoved.served, hmoved.processed, hmoved.errors, fun q hq => ?_⟩
    refine ⟨rfl, ?_, (Option.some.inj hq).symm⟩
    have hheld := h.held
    have hmain : s.mainFds = [] := by
      unfold Server.mainFds
      rw [hplace]
      rfl
    rw [hmain, hnone] at hheld
    exact List.map_eq_nil_iff.mp (List.Perm.eq_nil hheld.perm)
  next =>
    have hmoved := h.moved hlife (List.Perm.of_eq hcustody) (p := s.place) ⟨rfl, rfl, rfl⟩
      (fun hadding => by rw [hplace] at hadding; cases hadding) h.queued id id s.shutdown
    exact hmoved

/-! ## One step -/

theorem Kept.advance (h : Kept s) (hstep : s.advance = some s') : Kept s' := by
  unfold Server.advance at hstep
  split at hstep
  next hplace =>
    cases hstep
    exact h.close_listen (hplace ▸ rfl) (hplace ▸ rfl) (hplace ▸ rfl) (Or.inl rfl)
  next hplace =>
    cases hstep
    split <;> exact h.goto (hplace ▸ ⟨rfl, rfl, rfl⟩) ⟨nofun, nofun, nofun⟩ (hplace ▸ nofun)
  next hplace =>
    cases hstep
    exact h.goto (hplace ▸ ⟨rfl, rfl, rfl⟩) ⟨nofun, nofun, nofun⟩ (hplace ▸ nofun)
  next hplace =>
    cases hstep
    exact h.goto (hplace ▸ ⟨rfl, rfl, rfl⟩) ⟨nofun, nofun, nofun⟩ (hplace ▸ nofun)
  next eintr hplace =>
    cases hstep
    split <;> exact h.goto (hplace ▸ ⟨rfl, rfl, rfl⟩) ⟨nofun, nofun, nofun⟩ (hplace ▸ nofun)
  next hplace =>
    cases hstep
    split <;> exact h.goto (hplace ▸ ⟨rfl, rfl, rfl⟩) ⟨nofun, nofun, nofun⟩ (hplace ▸ nofun)
  next hplace =>
    cases hstep
    have hheld := h.held
    have hledger := h.ledger
    have hserved := h.served
    unfold Server.mainFds at hheld
    unfold Server.opened at hledger
    rw [hplace] at hheld hledger hserved
    refine ⟨h.life, nofun, nofun, nofun, hheld, fun _ => h.listening (hplace ▸ rfl), hledger, hserved,
      h.processed, h.errors, fun q hq => ?_⟩
    obtain ⟨hreturned, -, -⟩ := h.summary q hq
    rw [hplace] at hreturned
    cases hreturned
  next hplace => exact absurd hplace h.queued
  next hplace =>
    cases hstep
    exact h.close_listen (hplace ▸ rfl) (hplace ▸ rfl) (hplace ▸ rfl) (Or.inr rfl)
  next => cases hstep

/-- A step of the main thread in the pool, but for the critical sections of
`thread_pool_add_task`. -/
theorem Kept.inPool (h : Kept s) {e : Teardown.Event} {pool : Teardown.State}
    (hstep : Teardown.State.ownerStep e s.pool = some pool) (hadd : ∀ fd, e ≠ .addTask fd)
    (hwake : e ≠ .wakeOwner) {p : Place} (hp : p.Like s.place) (hplain : p.Plain)
    (hend : s.place ≠ .returned true) : Kept { s with pool := pool, place := p } :=
  h.moved (h.live (step_of_owner hstep)) (List.Perm.of_eq (Teardown.custody_owner hstep hadd hwake))
    hp (fun h => absurd h hplain.2.1) hplain.2.2 (fun h => absurd h hplain.1)
    (fun h => absurd h hend) s.shutdown

theorem created_like (pool : Teardown.State) :
    (Server.created pool).Like .creating ∧ (Server.created pool).Plain := by
  unfold Server.created
  split <;> exact ⟨⟨rfl, rfl, rfl⟩, nofun, nofun, nofun⟩

theorem Kept.create (h : Kept s) (hplace : s.place = .creating) {e : Teardown.Event}
    {pool : Teardown.State} (hstep : Teardown.State.ownerStep e s.pool = some pool)
    (hadd : ∀ fd, e ≠ .addTask fd) (hwake : e ≠ .wakeOwner) :
    Kept { s with pool := pool, place := Server.created pool } := by
  obtain ⟨hlike, hplain⟩ := created_like pool
  exact h.inPool hstep hadd hwake (hplace ▸ hlike) hplain (hplace ▸ nofun)

theorem awaitRoom_rejected {pool : Pool} {clientFd : Int}
    (h : pool.awaitRoom clientFd = .rejected) : pool.shutdown = true := by
  unfold Pool.awaitRoom at h
  split at h
  · cases h
  · split at h
    next hshut => exact hshut
    next => cases h

theorem addTask_rejected {pool : Pool} {clientFd : Int}
    (h : pool.addTask clientFd = .rejected) : pool.shutdown = true := by
  unfold Pool.addTask at h
  split at h
  next hshut => exact hshut
  next => exact awaitRoom_rejected h

/-- The pool has no descriptor before the set-up. -/
theorem Kept.setup (h : Kept s) (hplace : s.place = .setup) {calls : SetupCalls}
    (hstep : Server.step (.setup calls) s = some s') : Kept s' := by
  have hheld := h.held
  have hledger := h.ledger
  have hserved := h.served
  unfold Server.mainFds at hheld
  unfold Server.opened at hledger
  rw [h.fresh hplace, hplace] at hheld
  rw [h.fresh hplace, hplace] at hledger
  rw [hplace] at hserved
  have hnone : s.pool.custody.map Int.toNat = [] := (List.Perm.nil_eq hheld.perm).symm
  have hsummary : ∀ q ∈ s.summary, False := by
    intro q hq
    obtain ⟨hreturned, -, -⟩ := h.summary q hq
    rw [hplace] at hreturned
    cases hreturned
  simp only [Server.step, if_pos hplace] at hstep
  rcases listenFd_eq calls with hcalls | ⟨fd, hcalls⟩
  · rw [hcalls] at hstep
    cases hstep
    exact ⟨h.life, nofun, nofun, nofun, hheld, nofun, hledger, hserved, h.processed, h.errors,
      fun q hq => (hsummary q hq).elim⟩
  · rw [hcalls] at hstep
    cases hstep
    refine ⟨h.life, nofun, nofun, nofun, ?_, fun _ => List.mem_cons_self, hledger.cons _, hserved,
      h.processed, h.errors, fun q hq => (hsummary q hq).elim⟩
    show Held [(fd, File.listening)] ([fd] ++ s.pool.custody.map Int.toNat)
    rw [hnone]
    exact held_nil.open List.not_mem_nil

theorem Kept.step (h : Kept s) {e : Event} (hstep : Server.step e s = some s') : Kept s' := by
  cases e with
  | setup calls =>
    by_cases hplace : s.place = .setup
    · exact h.setup hplace hstep
    · simp only [Server.step, if_neg hplace] at hstep
      cases hstep
  | noPool =>
    simp only [Server.step] at hstep
    split at hstep
    next hplace howner =>
      split at hstep <;> cases hstep
      exact h.goto (hplace ▸ ⟨rfl, rfl, rfl⟩) ⟨by simp, by simp, by simp⟩ (by simp [hplace])
    next => cases hstep
  | create e =>
    simp only [Server.step] at hstep
    split at hstep
    next hplace =>
      obtain ⟨pool, hpool, rfl⟩ := Option.map_eq_some_iff.mp hstep
      exact h.create hplace hpool (by simp) (by simp)
    next hplace =>
      obtain ⟨pool, hpool, rfl⟩ := Option.map_eq_some_iff.mp hstep
      exact h.create hplace hpool (by simp) (by simp)
    next hplace =>
      obtain ⟨pool, hpool, rfl⟩ := Option.map_eq_some_iff.mp hstep
      exact h.create hplace hpool (by simp) (by simp)
    next hplace =>
      obtain ⟨pool, hpool, rfl⟩ := Option.map_eq_some_iff.mp hstep
      exact h.create hplace hpool (by simp) (by simp)
    next => cases hstep
  | advance => exact h.advance hstep
  | accept fd =>
    simp only [Server.step] at hstep
    split at hstep
    next hcond =>
      cases hstep
      exact h.accept hcond.1 hcond.2
    next => cases hstep
  | acceptFails =>
    simp only [Server.step] at hstep
    split at hstep
    next hplace =>
      cases hstep
      exact h.goto (hplace ▸ ⟨rfl, rfl, rfl⟩) ⟨by simp, by simp, by simp⟩ (by simp [hplace])
    next => cases hstep
  | sigint main =>
    simp only [Server.step] at hstep
    cases hstep
    split
    next hcond =>
      have hlike : (.interrupted : Place).Like s.place := by
        rw [hcond.2]
        exact ⟨rfl, rfl, rfl⟩
      exact h.moved h.life (List.Perm.refl _) hlike (by simp) (by simp) (by simp)
        (by simp [hcond.2]) true
    next => exact h.moved h.life (List.Perm.refl _) ⟨rfl, rfl, rfl⟩ h.waiting h.queued id id true
  | addTask =>
    simp only [Server.step] at hstep
    split at hstep
    next hplace =>
      obtain ⟨pool, hpool, rfl⟩ := Option.map_eq_some_iff.mp hstep
      have hown := hpool
      simp only [Teardown.State.ownerStep] at hown
      split at hown
      next howner hmutex =>
        cases hown
        exact h.added (Or.inl hplace) hpool (fun _ _ hr => Pool.addTask_queued hr)
          addTask_rejected (by rw [howner]; rfl)
      next => cases hown
    next => cases hstep
  | wakeAdd =>
    simp only [Server.step] at hstep
    split at hstep
    next hplace =>
      obtain ⟨pool, hpool, rfl⟩ := Option.map_eq_some_iff.mp hstep
      have hown := hpool
      simp only [Teardown.State.ownerStep, h.waiting hplace] at hown
      split at hown
      next fd hfd hmutex =>
        cases hfd
        cases hown
        exact h.added (Or.inr hplace) hpool (fun _ _ hr => hr) awaitRoom_rejected
          (by rw [h.waiting hplace]; rfl)
      next => cases hown
    next => cases hstep
  | spawn ok =>
    simp only [Server.step] at hstep
    split at hstep
    next hplace =>
      obtain ⟨pool, hpool, rfl⟩ := Option.map_eq_some_iff.mp hstep
      split <;> exact h.inPool hpool (by simp) (by simp) (hplace ▸ ⟨rfl, rfl, rfl⟩)
        ⟨by simp, by simp, by simp⟩ (by simp [hplace])
    next => cases hstep
  | shutdown =>
    simp only [Server.step] at hstep
    split at hstep
    next hplace =>
      obtain ⟨pool, hpool, rfl⟩ := Option.map_eq_some_iff.mp hstep
      exact h.inPool hpool (by simp) (by simp) (hplace ▸ ⟨rfl, rfl, rfl⟩) ⟨by simp, by simp, by simp⟩
        (by simp [hplace])
    next => cases hstep
  | destroy =>
    simp only [Server.step] at hstep
    split at hstep
    next hplace =>
      obtain ⟨pool, hpool, rfl⟩ := Option.map_eq_some_iff.mp hstep
      exact h.inPool hpool (by simp) (by simp) (hplace ▸ ⟨rfl, rfl, rfl⟩) ⟨by simp, by simp, by simp⟩
        (by simp [hplace])
    next => cases hstep
  | join e =>
    simp only [Server.step] at hstep
    split at hstep
    next hplace =>
      obtain ⟨pool, hpool, rfl⟩ := Option.map_eq_some_iff.mp hstep
      exact h.destroyed hplace (Or.inl rfl) hpool
    next hplace =>
      obtain ⟨pool, hpool, rfl⟩ := Option.map_eq_some_iff.mp hstep
      exact h.destroyed hplace (Or.inr (Or.inl rfl)) hpool
    next hplace =>
      obtain ⟨pool, hpool, rfl⟩ := Option.map_eq_some_iff.mp hstep
      exact h.destroyed hplace (Or.inr (Or.inr rfl)) hpool
    next => cases hstep
  | work e =>
    simp only [Server.step] at hstep
    split at hstep
    · cases hstep
    next hrecord =>
      obtain ⟨pool, hpool, rfl⟩ := Option.map_eq_some_iff.mp hstep
      exact h.moved (h.live (step_of_worker hpool))
        (Teardown.custody_worker h.ring hpool fun w hw => hrecord w hw) ⟨rfl, rfl, rfl⟩
        (fun hadding => (Teardown.workerStep_owner hpool).trans (h.waiting hadding)) h.queued id id
        s.shutdown
  | handle w ok =>
    simp only [Server.step] at hstep
    split at hstep
    next hx =>
      obtain ⟨pool, hpool, rfl⟩ := Option.map_eq_some_iff.mp hstep
      exact h.handle hx rfl hpool ok
    next => cases hstep

theorem run_kept {events : List Event} (hrun : runs Server.step events .start = some s) : Kept s :=
  runs_invariant (fun _ _ _ h hstep => Kept.step h hstep) kept_start hrun

theorem opened_nodup (s : Server) : s.opened.Nodup := by
  have hclients : ((List.range s.accepted).map File.client).Nodup :=
    List.Nodup.map (fun _ _ h => File.client.inj h) List.nodup_range
  unfold Server.opened
  split
  · refine List.nodup_cons.mpr ⟨fun hmem => ?_, hclients⟩
    obtain ⟨k, -, hk⟩ := List.mem_map.mp hmem
    cases hk
  · exact hclients

/-- A file handled is a connection: the listening socket is still in the table. -/
theorem Kept.handled_client (h : Kept s) {f : File} (hf : f ∈ s.handled.map Prod.fst) :
    ∃ k < s.accepted, f = .client k := by
  have hmem : f ∈ s.opened := h.ledger.mem_iff.mp (List.mem_append_right _ hf)
  unfold Server.opened at hmem
  rcases List.mem_append.mp hmem with hlisten | hclient
  · split at hlisten
    next hlistens =>
      rw [List.mem_singleton] at hlisten
      have hopen : f ∈ s.files.map Prod.snd :=
        List.mem_map.mpr ⟨_, h.listening hlistens, hlisten.symm⟩
      have hnodup := h.ledger.nodup_iff.mpr (opened_nodup s)
      exact absurd hf (List.disjoint_of_nodup_append hnodup hopen)
    next => exact absurd hlisten List.not_mem_nil
  · obtain ⟨k, hk, hclient⟩ := List.mem_map.mp hclient
    exact ⟨k, List.mem_range.mp hk, hclient.symm⟩

/-- What `tcp_pool_server_run` reports when it has destroyed the pool. -/
structure Reported (s : Server) (processed errors : Nat) : Prop where
  files : s.files = []
  handled : (s.handled.map Prod.fst).Perm ((List.range s.accepted).map File.client)
  processed : processed = s.clientsServed
  served : s.clientsServed = s.accepted
  errors : errors = s.handled.countP fun h => !h.2

theorem Kept.reported (h : Kept s) {processed errors : Nat}
    (hsummary : s.summary = some (processed, errors)) : Reported s processed errors := by
  obtain ⟨hplace, hfiles, hpair⟩ := h.summary _ hsummary
  obtain ⟨rfl, rfl⟩ := Prod.mk.inj hpair
  have hserved := h.served
  have hledger := h.ledger
  unfold Server.opened at hledger
  rw [hplace] at hserved
  rw [hfiles, hplace] at hledger
  have hlength := hledger.length_eq
  refine ⟨hfiles, hledger, ?_, hserved, h.errors⟩
  rw [h.processed, show s.clientsServed = s.accepted from hserved]
  simpa [Place.listens] using hlength

end

/-- **Every connection is handled once.** In every interleaving of the main thread and the workers,
also when `accept` hands out again a number that a worker has just closed: each open descriptor is in
one place, with the main thread, in the queue or with one worker; no connection is handled twice and
nothing else is handled; and when the server reports, all descriptors are closed, all connections
accepted have been handled, and the numbers reported say so. -/
theorem run_handled {events : List Event} {s : Server}
    (hrun : runs Server.step events .start = some s) :
    Held s.files (s.mainFds ++ s.pool.custody.map Int.toNat) ∧
      (s.handled.map Prod.fst).Nodup ∧
      (∀ f ∈ s.handled.map Prod.fst, ∃ k < s.accepted, f = .client k) ∧
      ∀ processed errors, s.summary = some (processed, errors) → Reported s processed errors := by
  have hkept := run_kept hrun
  have hnodup := hkept.ledger.nodup_iff.mpr (opened_nodup s)
  exact ⟨hkept.held, List.Nodup.of_append_right hnodup, fun _ hf => hkept.handled_client hf,
    fun _ _ hsummary => hkept.reported hsummary⟩

/-- A worker goes through the section in which it leaves. -/
def leaves (w : Nat) : List Event := [.work (.lock w), .work (.count w), .work (.unlock w)]

/-- Two connections with one number, since the worker has closed the first before `accept` answers
with the second; then SIGINT. -/
def twoClients : List Event :=
  [.setup ⟨some 3, true, true, true, true⟩, .create (.spawn true), .create (.spawn true),
    .create (.spawn true), .create (.spawn true), .advance, .advance, .accept 4, .addTask,
    .spawn true, .spawn true, .advance, .work (.lock 2), .handle 2 true, .advance, .advance,
    .accept 4, .addTask, .spawn false, .spawn false, .advance, .work (.lock 0), .advance, .advance,
    .sigint true, .advance, .advance, .advance, .advance, .shutdown, .handle 0 false] ++
    leaves 0 ++ leaves 1 ++ leaves 2 ++ .destroy :: List.replicate 8 (.join .look) ++ [.join .free]

theorem run_handled_twoClients :
    ∃ s, runs Server.step twoClients .start = some s ∧ s.summary = some (2, 1) ∧
      Reported s 2 1 ∧ s.handled = [(.client 0, true), (.client 1, false)] := by
  have hsome : (runs Server.step twoClients .start).any (fun s =>
      decide (s.summary = some (2, 1) ∧ s.handled = [(.client 0, true), (.client 1, false)])) =
      true := by decide +kernel
  obtain ⟨s, hrun, hs⟩ := (Option.any_eq_true _ _).mp hsome
  obtain ⟨hsummary, hhandled⟩ := of_decide_eq_true hs
  exact ⟨s, hrun, hsummary, (run_handled hrun).2.2.2 2 1 hsummary, hhandled⟩

end MiniWeb.TcpServers.PoolServer
