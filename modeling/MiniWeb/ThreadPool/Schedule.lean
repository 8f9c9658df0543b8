import MiniWeb.Lib.Runs
import MiniWeb.ThreadPool.Pool

/-!
# Schedules of the thread pool

The pool with everything that runs on it: `thread_pool_create` spawning the core workers, any
number of calls of `thread_pool_add_task`, and the workers. An event lets one of them run through
its next critical section; every list of events is an interleaving. Whether a thread can be
created, and how a wait ends, is part of the event.

Beside the state stand the descriptors accepted, each with its call, and the descriptors
dequeued, each with its worker, in the order in which this happened.
-/

namespace MiniWeb.ThreadPool

/-- How far a `spawn_worker` is: before its first section, or with a slot. -/
inductive Spawning where
  | start
  | reserved (slot : Nat)

/-- A call of `thread_pool_add_task`, after its first section. -/
inductive Call where
  | waiting (clientFd : Int)
  | spawning (s : Spawning)
  | returned (zero : Bool)

inductive WorkerState where
  | running
  | waiting
  | handling (clientFd : Int)
  | exited
deriving DecidableEq, Repr

/-- A thread in `worker_thread_func`. -/
structure Worker where
  slot : Nat
  isCore : Bool
  state : WorkerState

/-- How far `thread_pool_create` is; `left` core workers are still to be spawned. -/
inductive Creation where
  | spawning (left : Nat) (s : Spawning)
  | returned
  | failed

structure System where
  pool : Pool
  creation : Creation
  calls : Nat → Option Call
  workers : List Worker
  accepted : List (Nat × Int)
  dequeued : List (Nat × Int)

/-- `thread_pool_create` before it spawns the core workers. -/
def System.start (pool : Pool) : System :=
  ⟨pool, .spawning pool.coreSize .start, fun _ => none, [], [], []⟩

inductive Event where
  /-- `thread_pool_create` goes on; `ok` tells whether a thread can be created. -/
  | spawnCore (ok : Bool)
  /-- `thread_pool_add_task(pool, clientFd)` is called. -/
  | call (c : Nat) (clientFd : Int)
  /-- A call that waits for room wakes up. -/
  | wakeCall (c : Nat)
  /-- A call goes on in `spawn_worker`. -/
  | spawnExtra (c : Nat) (ok : Bool)
  /-- A worker begins a pass of its loop. -/
  | work (w : Nat)
  /-- A waiting worker wakes up. -/
  | wake (w : Nat) (timedOut : Bool)
  /-- A worker has handled its request. -/
  | finish (w : Nat)
  /-- `thread_pool_shutdown(pool)` is called. -/
  | shutdown

namespace System

variable (s : System)

def setCall (c : Nat) (call : Call) : System :=
  { s with calls := Function.update s.calls c (some call) }

def setWorker (w : Nat) (state : WorkerState) : System :=
  { s with workers := s.workers.modify w fun x => { x with state := state } }

/-- One step of `spawn_worker`: the slot is taken, or the thread is created, or its slot is given
back. The answer is how far it is now, or whether it succeeded. -/
def spawnWorker (isCore ok : Bool) : Spawning → (Spawning ⊕ Bool) × System
  | .start =>
    match s.pool.reserve with
    | none => (.inr false, s)
    | some (slot, pool) => (.inl (.reserved slot), { s with pool := pool })
  | .reserved slot =>
    if ok then (.inr true, { s with workers := s.workers ++ [⟨slot, isCore, .running⟩] })
    else (.inr false, { s with pool := s.pool.release slot })

/-- One step of the loop of `thread_pool_create`. -/
def spawnCore (ok : Bool) (left : Nat) (sp : Spawning) : System :=
  match s.spawnWorker true ok sp with
  | (.inl sp, s) => { s with creation := .spawning left sp }
  | (.inr true, s) =>
    { s with creation := if left = 1 then .returned else .spawning (left - 1) .start }
  | (.inr false, s) =>
    { s with pool := { s.pool with shutdown := true }, creation := .failed }

/-- One step of the `spawn_worker` at the end of `thread_pool_add_task`, whose result is
ignored. -/
def spawnExtra (c : Nat) (ok : Bool) (sp : Spawning) : System :=
  match s.spawnWorker false ok sp with
  | (.inl sp, s) => s.setCall c (.spawning sp)
  | (.inr _, s) => s.setCall c (.returned true)

/-- After a critical section of `thread_pool_add_task`. -/
def added (c : Nat) (clientFd : Int) : Pool.Added → System
  | .wait => s.setCall c (.waiting clientFd)
  | .rejected => s.setCall c (.returned false)
  | .queued pool shouldSpawn =>
    { s with pool := pool, accepted := s.accepted ++ [(c, clientFd)] }.setCall c
      (if shouldSpawn then .spawning .start else .returned true)

/-- After a critical section of worker `w`. -/
def taken (w : Nat) : Pool.Taken → System
  | .wait => s.setWorker w .waiting
  | .exit pool => { s with pool := pool }.setWorker w .exited
  | .task clientFd pool =>
    { s with pool := pool, dequeued := s.dequeued ++ [(w, clientFd)] }.setWorker w
      (.handling clientFd)

/-- The pool is used only after `thread_pool_create` has returned it. -/
def step : Event → System → Option System
  | .spawnCore ok, s =>
    match s.creation with
    | .spawning left sp => some (s.spawnCore ok left sp)
    | _ => none
  | .call c clientFd, s =>
    match s.creation, s.calls c with
    | .returned, none => some (s.added c clientFd (s.pool.addTask clientFd))
    | _, _ => none
  | .wakeCall c, s =>
    match s.calls c with
    | some (.waiting clientFd) => some (s.added c clientFd (s.pool.awaitRoom clientFd))
    | _ => none
  | .spawnExtra c ok, s =>
    match s.calls c with
    | some (.spawning sp) => some (s.spawnExtra c ok sp)
    | _ => none
  | .work w, s =>
    match s.workers[w]? with
    | some ⟨slot, _, .running⟩ => some (s.taken w (s.pool.nextTask slot))
    | _ => none
  | .wake w timedOut, s =>
    match s.workers[w]? with
    | some ⟨slot, isCore, .waiting⟩ => some (s.taken w (s.pool.afterWait slot isCore timedOut))
    | _ => none
  | .finish w, s =>
    match s.workers[w]? with
    | some ⟨_, _, .handling _⟩ => some (s.setWorker w .running)
    | _ => none
  | .shutdown, s =>
    match s.creation with
    | .returned => some { s with pool := { s.pool with shutdown := true } }
    | _ => none

/-! ## What a step can be -/

/-- What a worker's critical section can end in: it leaves only when the queue is empty, and a core
worker only at shutdown; it takes the front of the queue. -/
structure Section (x : Worker) (r : Pool.Taken) : Prop where
  exit : ∀ pool, r = .exit pool → s.pool.queue.count = 0 ∧
    (x.isCore = true → s.pool.shutdown = true) ∧ pool = s.pool.release x.slot
  task : ∀ clientFd pool, r = .task clientFd pool → s.pool.queue.count ≠ 0 ∧
    clientFd = s.pool.queue.front ∧
      pool = { s.pool with queue := s.pool.queue.pop s.pool.capacity }

/-- The states one step leads to. -/
inductive Next : System → Prop where
  | spawnCore {ok : Bool} {left : Nat} {sp : Spawning} (hcreation : s.creation = .spawning left sp) :
    Next (s.spawnCore ok left sp)
  | call {c : Nat} {clientFd : Int} (hreturned : s.creation = .returned)
    (hc : s.calls c = none) : Next (s.added c clientFd (s.pool.addTask clientFd))
  | wakeCall {c : Nat} {clientFd : Int} (hc : s.calls c = some (.waiting clientFd)) :
    Next (s.added c clientFd (s.pool.awaitRoom clientFd))
  | spawnExtra {c : Nat} {ok : Bool} {sp : Spawning} (hc : s.calls c = some (.spawning sp)) :
    Next (s.spawnExtra c ok sp)
  | work {w : Nat} {x : Worker} {r : Pool.Taken} (hx : s.workers[w]? = some x)
    (hlive : x.state ≠ .exited) (hr : s.Section x r) : Next (s.taken w r)
  | finish {w : Nat} {x : Worker} (hx : s.workers[w]? = some x) (hlive : x.state ≠ .exited) :
    Next (s.setWorker w .running)
  | shutdown (hreturned : s.creation = .returned) :
    Next { s with pool := { s.pool with shutdown := true } }

variable {s} {s' : System}

theorem section_nextTask (x : Worker) : s.Section x (s.pool.nextTask x.slot) := by
  constructor
  · intro pool hr
    obtain ⟨hzero, hshut, hpool⟩ := Pool.nextTask_exit hr
    exact ⟨hzero, fun _ => hshut, hpool⟩
  · intro clientFd pool hr
    exact Pool.nextTask_task hr

theorem section_afterWait (x : Worker) (timedOut : Bool) :
    s.Section x (s.pool.afterWait x.slot x.isCore timedOut) := by
  constructor
  · intro pool hr
    exact Pool.afterWait_exit hr
  · intro clientFd pool hr
    exact Pool.nextTask_task (Pool.afterWait_task hr)

theorem step_next {e : Event} (hstep : step e s = some s') : s.Next s' := by
  unfold step at hstep
  cases e with
  | spawnCore ok =>
    simp only at hstep
    split at hstep
    next left sp hcreation =>
      cases hstep
      exact .spawnCore hcreation
    next => cases hstep
  | call c clientFd =>
    simp only at hstep
    split at hstep
    next hreturned hc =>
      cases hstep
      exact .call hreturned hc
    next => cases hstep
  | wakeCall c =>
    simp only at hstep
    split at hstep
    next clientFd hc =>
      cases hstep
      exact .wakeCall hc
    next => cases hstep
  | spawnExtra c ok =>
    simp only at hstep
    split at hstep
    next sp hc =>
      cases hstep
      exact .spawnExtra hc
    next => cases hstep
  | work w =>
    simp only at hstep
    split at hstep
    next slot isCore hx =>
      cases hstep
      exact .work hx (by intro h; cases h) (section_nextTask ⟨slot, isCore, .running⟩)
    next => cases hstep
  | wake w timedOut =>
    simp only at hstep
    split at hstep
    next slot isCore hx =>
      cases hstep
      exact .work hx (by intro h; cases h) (section_afterWait ⟨slot, isCore, .waiting⟩ timedOut)
    next => cases hstep
  | finish w =>
    simp only at hstep
    split at hstep
    next hx =>
      cases hstep
      exact .finish hx (by intro h; cases h)
    next => cases hstep
  | shutdown =>
    simp only at hstep
    split at hstep
    next hreturned =>
      cases hstep
      exact .shutdown hreturned
    next => cases hstep

end System

end MiniWeb.ThreadPool
