import MiniWeb.Lib.Ring

/-!
# The thread pool

`thread_pool_t` and its critical sections, one function for each stretch of code that runs under
`pool->mutex`: the check a worker makes before it waits, leaves or takes a task, the two checks of
`thread_pool_add_task`, and the two halves of `spawn_worker`.

A wait on a condition variable may end at any time, so a signal needs no state of its own; only
whether a timed wait ran out is told to the worker. The statistics, which have a mutex of their
own, and the log lines are left out.
-/

namespace MiniWeb.ThreadPool

def maxPoolWorkers : Nat := 64

/-- `thread_pool_t`; `tasks`, `head`, `tail` and `count` are the ring. -/
structure Pool where
  queue : Ring Int
  capacity : Nat
  workerActive : Nat → Bool
  numWorkers : Int
  coreSize : Nat
  maxSize : Nat
  shutdown : Bool

namespace Pool

variable (pool : Pool)

/-! ## A worker -/

/-- `worker_active[slot] = 0; num_workers--`. -/
def release (slot : Nat) : Pool :=
  { pool with
    workerActive := Function.update pool.workerActive slot false
    numWorkers := pool.numWorkers - 1 }

/-- What a worker's critical section ends in. -/
inductive Taken where
  | wait
  | exit (pool : Pool)
  | task (clientFd : Int) (pool : Pool)

/-- The condition of the inner loop, the exit condition and the dequeue. -/
def nextTask (slot : Nat) : Taken :=
  if pool.queue.count = 0 ∧ pool.shutdown = false then .wait
  else if pool.shutdown = true ∧ pool.queue.count = 0 then .exit (pool.release slot)
  else .task pool.queue.front { pool with queue := pool.queue.pop pool.capacity }

/-- A worker's wait has ended. An extra worker whose wait ran out leaves if there is still
nothing to do. -/
def afterWait (slot : Nat) (isCore timedOut : Bool) : Taken :=
  if isCore = false ∧ timedOut = true ∧ pool.queue.count = 0 ∧ pool.shutdown = false then
    .exit (pool.release slot)
  else pool.nextTask slot

/-! ## `thread_pool_add_task` -/

/-- What a critical section of `thread_pool_add_task` ends in. -/
inductive Added where
  | wait
  | rejected
  | queued (pool : Pool) (shouldSpawn : Bool)

/-- The loop that waits for room, the check after it, and the enqueue. -/
def awaitRoom (clientFd : Int) : Added :=
  if pool.capacity ≤ pool.queue.count ∧ pool.shutdown = false then .wait
  else if pool.shutdown then .rejected
  else
    let pool := { pool with queue := pool.queue.push pool.capacity clientFd }
    .queued pool (decide (0 < pool.queue.count ∧ pool.numWorkers < pool.maxSize))

/-- The section from its start. -/
def addTask (clientFd : Int) : Added :=
  if pool.shutdown then .rejected else pool.awaitRoom clientFd

/-! ## `spawn_worker` -/

/-- The first inactive slot is taken; `none` when all are active. -/
def reserve : Option (Nat × Pool) :=
  ((List.range pool.maxSize).find? fun slot => !pool.workerActive slot).map fun slot =>
    (slot,
      { pool with
        workerActive := Function.update pool.workerActive slot true
        numWorkers := pool.numWorkers + 1 })

end Pool

/-- `thread_pool_create` up to the spawning of the core workers. -/
def threadPoolCreate (coreSize maxSize queueCapacity : Int) : Option Pool :=
  if coreSize < 1 ∨ maxSize < coreSize ∨ queueCapacity < 1 then none
  else
    let maxSize := if maxSize > maxPoolWorkers then (maxPoolWorkers : Int) else maxSize
    some ⟨⟨fun _ => 0, 0, 0, 0⟩, queueCapacity.toNat, fun _ => false, 0, coreSize.toNat,
      maxSize.toNat, false⟩

/-! ## The critical sections by cases -/

namespace Pool

variable {pool pool' : Pool} {slot : Nat} {clientFd : Int} {isCore timedOut : Bool}

/-- A worker leaves only when the queue is empty, and a core worker only at shutdown. -/
theorem nextTask_exit (h : pool.nextTask slot = .exit pool') :
    pool.queue.count = 0 ∧ pool.shutdown = true ∧ pool' = pool.release slot := by
  unfold nextTask at h
  split at h
  · cases h
  · split at h
    next hexit =>
      cases h
      exact ⟨hexit.2, hexit.1, rfl⟩
    · cases h

theorem nextTask_task (h : pool.nextTask slot = .task clientFd pool') :
    pool.queue.count ≠ 0 ∧ clientFd = pool.queue.front ∧
      pool' = { pool with queue := pool.queue.pop pool.capacity } := by
  unfold nextTask at h
  split at h
  · cases h
  next hwait =>
    split at h
    · cases h
    next hexit =>
      cases h
      refine ⟨fun hzero => ?_, rfl, rfl⟩
      cases hs : pool.shutdown with
      | false => exact hwait ⟨hzero, hs⟩
      | true => exact hexit ⟨hs, hzero⟩

theorem afterWait_exit (h : pool.afterWait slot isCore timedOut = .exit pool') :
    pool.queue.count = 0 ∧ (isCore = true → pool.shutdown = true) ∧ pool' = pool.release slot := by
  unfold afterWait at h
  split at h
  next hidle =>
    cases h
    obtain ⟨hcore, -, hzero, -⟩ := hidle
    refine ⟨hzero, fun htrue => ?_, rfl⟩
    rw [hcore] at htrue
    cases htrue
  next =>
    obtain ⟨hzero, hshut, hpool⟩ := nextTask_exit h
    exact ⟨hzero, fun _ => hshut, hpool⟩

theorem afterWait_task (h : pool.afterWait slot isCore timedOut = .task clientFd pool') :
    pool.nextTask slot = .task clientFd pool' := by
  unfold afterWait at h
  split at h
  · cases h
  · exact h

theorem awaitRoom_queued {shouldSpawn : Bool}
    (h : pool.awaitRoom clientFd = .queued pool' shouldSpawn) :
    pool.queue.count < pool.capacity ∧ pool.shutdown = false ∧
      pool' = { pool with queue := pool.queue.push pool.capacity clientFd } := by
  unfold awaitRoom at h
  split at h
  · cases h
  next hwait =>
    split at h
    · cases h
    next hshut =>
      cases h
      have hshut : pool.shutdown = false := Bool.eq_false_iff.mpr hshut
      refine ⟨?_, hshut, rfl⟩
      by_contra hfull
      exact hwait ⟨Nat.le_of_not_lt hfull, hshut⟩

theorem addTask_queued {shouldSpawn : Bool}
    (h : pool.addTask clientFd = .queued pool' shouldSpawn) :
    pool.awaitRoom clientFd = .queued pool' shouldSpawn := by
  unfold addTask at h
  split at h
  · cases h
  · exact h

/-- The spawning sections leave the queue and the flag alone. -/
theorem reserve_eq (h : pool.reserve = some (slot, pool')) :
    pool'.queue = pool.queue ∧ pool'.capacity = pool.capacity ∧
      pool'.shutdown = pool.shutdown := by
  obtain ⟨s, -, hpair⟩ := Option.map_eq_some_iff.mp h
  obtain ⟨-, rfl⟩ := Prod.mk.inj hpair
  exact ⟨rfl, rfl, rfl⟩

end Pool

end MiniWeb.ThreadPool
