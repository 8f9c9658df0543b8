import MiniWeb.ThreadPool.Bookkeeping

/-!
# The end of the thread pool

The pool from `thread_pool_create` to `thread_pool_destroy`, with one owner that calls the
functions in order. Here a worker that leaves is followed write by write, because
`thread_pool_destroy` reads `worker_active` without the mutex: the flag of the slot is cleared, the
worker counted off, the mutex released, and after an idle timeout `num_workers` is read once more
for the log line. All other critical sections are those of `Pool`.

Every access of a worker to the pool is recorded, with whether the pool was freed by then.
-/

namespace MiniWeb.ThreadPool.Teardown

open Runs

/-- Where a worker stands between two accesses. -/
inductive Stage where
  | entering
  | waiting
  | handling (clientFd : Int)
  | cleared (idle : Bool)
  | counted (idle : Bool)
  | unlocked
  | exited
deriving DecidableEq, Repr

structure Thread where
  slot : Nat
  isCore : Bool
  stage : Stage

inductive Owner where
  | creating (left : Nat) (sp : Spawning)
  | serving
  /-- In `thread_pool_add_task`, waiting for room. -/
  | adding (clientFd : Int)
  | spawning (sp : Spawning)
  | stopped
  /-- In `thread_pool_destroy`, before slot `i` is looked at. -/
  | destroying (i : Nat)
  | joining (i : Nat)
  | freed

def Owner.isFreed : Owner → Bool
  | .freed => true
  | _ => false

structure State where
  pool : Pool
  /-- `pool->workers`: the thread created last for each slot. -/
  workers : Nat → Option Nat
  /-- The worker that holds `pool->mutex` between two steps. -/
  mutex : Option Nat
  owner : Owner
  threads : List Thread
  uses : List (Nat × Bool)
  /-- The descriptors put into the queue. -/
  accepted : List Int
  /-- The descriptors taken from it. -/
  dequeued : List Int

def State.start (pool : Pool) : State :=
  ⟨pool, fun _ => none, none, .creating pool.coreSize .start, [], [], [], []⟩

inductive Event where
  /-- The owner goes on in `spawn_worker`; `ok` tells whether a thread can be created. -/
  | spawn (ok : Bool)
  | addTask (clientFd : Int)
  | wakeOwner
  | shutdown
  | destroy
  /-- `thread_pool_destroy` reads the flag of the next slot. -/
  | look
  | join
  | free
  /-- A worker takes the mutex and goes on in its loop. -/
  | lock (w : Nat)
  | wake (w : Nat) (timedOut : Bool)
  /-- `num_workers--` -/
  | count (w : Nat)
  | unlock (w : Nat)
  /-- `num_workers` is read for the log line of an idle timeout. -/
  | read (w : Nat)
  /-- The statistics are updated after a request. -/
  | record (w : Nat)

namespace State

variable (s : State)

/-- Worker `w` accesses the pool and goes on to `stage`. -/
def access (w : Nat) (stage : Stage) : State :=
  { s with
    threads := s.threads.modify w fun x => { x with stage := stage }
    uses := s.uses ++ [(w, s.owner.isFreed)] }

/-- A worker's critical section. When it leaves, only the flag is cleared at first, and the mutex
is kept. -/
def taken (w slot : Nat) : Pool.Taken → State
  | .wait => s.access w .waiting
  | .exit _ =>
    { s with
      pool := { s.pool with workerActive := Function.update s.pool.workerActive slot false }
      mutex := some w }.access w (.cleared !s.pool.shutdown)
  | .task clientFd pool =>
    { s with pool := pool, dequeued := s.dequeued ++ [clientFd] }.access w (.handling clientFd)

/-- One step of `spawn_worker`: how far it is then, or whether it succeeded. -/
def spawnWorker (isCore ok : Bool) : Spawning → Option ((Spawning ⊕ Bool) × State)
  | .start =>
    if s.mutex.isSome then none
    else match s.pool.reserve with
      | none => some (.inr false, s)
      | some (slot, pool) => some (.inl (.reserved slot), { s with pool := pool })
  | .reserved slot =>
    if ok then
      some (.inr true,
        { s with
          workers := Function.update s.workers slot (some s.threads.length)
          threads := s.threads ++ [⟨slot, isCore, .entering⟩] })
    else if s.mutex.isSome then none
    else some (.inr false, { s with pool := s.pool.release slot })

/-- The loop of `thread_pool_create`, which destroys the pool when a worker cannot be spawned. -/
def created (left : Nat) : Spawning ⊕ Bool → State
  | .inl sp => { s with owner := .creating left sp }
  | .inr true => { s with owner := if left = 1 then .serving else .creating (left - 1) .start }
  | .inr false => { s with pool := { s.pool with shutdown := true }, owner := .destroying 0 }

/-- `thread_pool_add_task` ignores the result of `spawn_worker`. -/
def spawned : Spawning ⊕ Bool → State
  | .inl sp => { s with owner := .spawning sp }
  | .inr _ => { s with owner := .serving }

/-- After a critical section of `thread_pool_add_task`. -/
def added (clientFd : Int) : Pool.Added → State
  | .wait => { s with owner := .adding clientFd }
  | .rejected => { s with owner := .serving }
  | .queued pool shouldSpawn =>
    { s with
      pool := pool
      accepted := s.accepted ++ [clientFd]
      owner := if shouldSpawn then .spawning .start else .serving }

def ownerStep : Event → State → Option State
  | .spawn ok, s =>
    match s.owner with
    | .creating left sp => (s.spawnWorker true ok sp).map fun r => r.2.created left r.1
    | .spawning sp => (s.spawnWorker false ok sp).map fun r => r.2.spawned r.1
    | _ => none
  | .addTask clientFd, s =>
    match s.owner, s.mutex with
    | .serving, none => some (s.added clientFd (s.pool.addTask clientFd))
    | _, _ => none
  | .wakeOwner, s =>
    match s.owner, s.mutex with
    | .adding clientFd, none => some (s.added clientFd (s.pool.awaitRoom clientFd))
    | _, _ => none
  | .shutdown, s =>
    match s.owner, s.mutex with
    | .serving, none => some { s with pool := { s.pool with shutdown := true }, owner := .stopped }
    | _, _ => none
  | .destroy, s =>
    match s.owner with
    | .stopped => some { s with owner := .destroying 0 }
    | _ => none
  | .look, s =>
    match s.owner with
    | .destroying i =>
      if s.pool.maxSize ≤ i then none
      else some { s with
        owner := if s.pool.workerActive i then .joining i else .destroying (i + 1) }
    | _ => none
  | .join, s =>
    match s.owner with
    | .joining i =>
      match (s.workers i).bind fun w => s.threads[w]? with
      | some ⟨_, _, .exited⟩ => some { s with owner := .destroying (i + 1) }
      | _ => none
    | _ => none
  | .free, s =>
    match s.owner with
    | .destroying i => if s.pool.maxSize ≤ i then some { s with owner := .freed } else none
    | _ => none
  | _, _ => none

def workerStep : Event → State → Option State
  | .lock w, s =>
    match s.threads[w]?, s.mutex with
    | some ⟨slot, _, .entering⟩, none => some (s.taken w slot (s.pool.nextTask slot))
    | _, _ => none
  | .wake w timedOut, s =>
    match s.threads[w]?, s.mutex with
    | some ⟨slot, isCore, .waiting⟩, none =>
      some (s.taken w slot (s.pool.afterWait slot isCore timedOut))
    | _, _ => none
  | .count w, s =>
    match s.threads[w]? with
    | some ⟨_, _, .cleared idle⟩ =>
      some ({ s with pool := { s.pool with numWorkers := s.pool.numWorkers - 1 } }.access w
        (.counted idle))
    | _ => none
  | .unlock w, s =>
    match s.threads[w]? with
    | some ⟨_, _, .counted idle⟩ =>
      some ({ s with mutex := none }.access w (if idle then .unlocked else .exited))
    | _ => none
  | .read w, s =>
    match s.threads[w]? with
    | some ⟨_, _, .unlocked⟩ => some (s.access w .exited)
    | _ => none
  | .record w, s =>
    match s.threads[w]? with
    | some ⟨_, _, .handling _⟩ => some (s.access w .entering)
    | _ => none
  | _, _ => none

def step (e : Event) (s : State) : Option State := (ownerStep e s).or (workerStep e s)

end State

/-- In the loop; the flag of the slot is set. -/
def Stage.working : Stage → Bool
  | .entering => true
  | .waiting => true
  | .handling _ => true
  | _ => false

/-- The flag is cleared and there are accesses to come. -/
def Stage.leaving : Stage → Bool
  | .cleared _ => true
  | .counted _ => true
  | .unlocked => true
  | _ => false

/-- `thread_pool_destroy` does not free the pool while a worker is leaving. -/
def Event.timely : Event → State → Bool
  | .free, s => s.threads.all fun x => !x.stage.leaving
  | _, _ => true

/-! ## The invariant -/

/-- The slot that the owner has taken for a worker to come. -/
def Owner.reserved : Owner → Option Nat
  | .creating _ sp => sp.slot
  | .spawning sp => sp.slot
  | _ => none

/-- The slots below are done with in `thread_pool_destroy`. -/
def Owner.passed : Owner → Nat
  | .destroying i => i
  | .joining i => i
  | _ => 0

/-- A working thread is the one that `pool->workers` has for its slot, so `thread_pool_destroy`
cannot pass it. -/
structure Kept (s : State) : Prop where
  slotted : ∀ (w : Nat) (x : Thread), s.threads[w]? = some x → x.stage.working = true →
    x.slot < s.pool.maxSize ∧ s.pool.workerActive x.slot = true ∧ s.workers x.slot = some w
  reserved : ∀ slot, s.owner.reserved = some slot → slot < s.pool.maxSize ∧
    s.pool.workerActive slot = true ∧
    ∀ (w : Nat) (x : Thread), s.threads[w]? = some x → x.stage.working = true → x.slot ≠ slot
  passed : ∀ (w : Nat) (x : Thread), s.threads[w]? = some x → x.stage.working = true →
    s.owner.passed ≤ x.slot
  freed : s.owner.isFreed = true →
    ∀ (w : Nat) (x : Thread), s.threads[w]? = some x → x.stage = .exited
  used : ∀ u ∈ s.uses, u.2 = false

variable {s s' : State}

theorem kept_start (pool : Pool) : Kept (State.start pool) where
  slotted w x hx := by cases hx
  reserved slot h := by cases h
  passed w x hx := by cases hx
  freed h := by cases h
  used u hu := by cases hu

theorem not_freed (h : Kept s) {w : Nat} {x : Thread} (hx : s.threads[w]? = some x)
    (hlive : x.stage ≠ .exited) : s.owner.isFreed = false := by
  cases hfreed : s.owner.isFreed with
  | false => rfl
  | true => exact absurd (h.freed hfreed w x hx) hlive

/-! ## Steps of a worker -/

/-- What a worker's step may change: its own stage, and the flag of its slot when it stops
working. -/
structure Moved (s : State) (w : Nat) (x : Thread) (stage : Stage) (s' : State) : Prop where
  threads : s'.threads = s.threads.modify w fun x => { x with stage := stage }
  workers : s'.workers = s.workers
  owner : s'.owner = s.owner
  maxSize : s'.pool.maxSize = s.pool.maxSize
  uses : s'.uses = s.uses ++ [(w, s.owner.isFreed)]
  working : stage.working = true → x.stage.working = true
  active : ∀ slot, s'.pool.workerActive slot = s.pool.workerActive slot ∨
    slot = x.slot ∧ x.stage.working = true ∧ stage.working = false

theorem Kept.moved (h : Kept s) {w : Nat} {x : Thread} {stage : Stage}
    (hx : s.threads[w]? = some x) (hlive : x.stage ≠ .exited) (hmoved : Moved s w x stage s') :
    Kept s' := by
  -- a thread that works after the step worked before it, in the same slot
  have hback : ∀ (v : Nat) (y : Thread), s'.threads[v]? = some y → y.stage.working = true →
      (v = w → stage.working = true) ∧
        ∃ y₀, s.threads[v]? = some y₀ ∧ y₀.stage.working = true ∧ y.slot = y₀.slot := by
    intro v y hy hworking
    rw [hmoved.threads] at hy
    by_cases hvw : w = v
    · subst hvw
      rw [List.getElem?_modify_eq, hx, Option.map_eq_map, Option.map_some,
        Option.some.injEq] at hy
      subst hy
      exact ⟨fun _ => hworking, x, hx, hmoved.working hworking, rfl⟩
    · rw [List.getElem?_modify_ne _ _ hvw] at hy
      exact ⟨fun hv => absurd hv.symm hvw, y, hy, hworking, rfl⟩
  have hflag : ∀ (v : Nat) (y : Thread), s'.threads[v]? = some y → y.stage.working = true →
      s'.pool.workerActive y.slot = true := by
    intro v y hy hworking
    obtain ⟨hself, y₀, hy₀, hworking₀, hslot⟩ := hback v y hy hworking
    obtain ⟨-, hactive, hthread⟩ := h.slotted v y₀ hy₀ hworking₀
    rw [hslot]
    obtain heq | ⟨hsame, hxworking, hstage⟩ := hmoved.active y₀.slot
    · rw [heq, hactive]
    · obtain ⟨-, -, hxthread⟩ := h.slotted w x hx hxworking
      rw [hsame, hxthread, Option.some.injEq] at hthread
      rw [hself hthread.symm] at hstage
      cases hstage
  constructor
  · intro v y hy hworking
    obtain ⟨-, y₀, hy₀, hworking₀, hslot⟩ := hback v y hy hworking
    obtain ⟨hlt, -, hthread⟩ := h.slotted v y₀ hy₀ hworking₀
    refine ⟨?_, hflag v y hy hworking, ?_⟩
    · rw [hslot, hmoved.maxSize]
      exact hlt
    · rw [hslot, hmoved.workers]
      exact hthread
  · intro slot hslot
    rw [hmoved.owner] at hslot
    obtain ⟨hlt, hactive, hfree⟩ := h.reserved slot hslot
    refine ⟨hmoved.maxSize ▸ hlt, ?_, ?_⟩
    · obtain heq | ⟨hsame, hxworking, -⟩ := hmoved.active slot
      · rw [heq, hactive]
      · exact absurd hsame.symm (hfree w x hx hxworking)
    · intro v y hy hworking
      obtain ⟨-, y₀, hy₀, hworking₀, hslot₀⟩ := hback v y hy hworking
      rw [hslot₀]
      exact hfree v y₀ hy₀ hworking₀
  · intro v y hy hworking
    obtain ⟨-, y₀, hy₀, hworking₀, hslot⟩ := hback v y hy hworking
    rw [hmoved.owner, hslot]
    exact h.passed v y₀ hy₀ hworking₀
  · intro hfreed
    rw [hmoved.owner, not_freed h hx hlive] at hfreed
    cases hfreed
  · intro u hu
    rw [hmoved.uses, List.mem_append, List.mem_singleton] at hu
    obtain hu | rfl := hu
    · exact h.used u hu
    · exact not_freed h hx hlive

theorem moved_access {w : Nat} {x : Thread} {stage : Stage}
    (hworking : stage.working = true → x.stage.working = true) {pool : Pool} {mutex : Option Nat}
    {dequeued : List Int} (hmaxSize : pool.maxSize = s.pool.maxSize)
    (hactive : ∀ slot, pool.workerActive slot = s.pool.workerActive slot ∨
      slot = x.slot ∧ x.stage.working = true ∧ stage.working = false) :
    Moved s w x stage
      ({ s with pool := pool, mutex := mutex, dequeued := dequeued }.access w stage) where
  threads := rfl
  workers := rfl
  owner := rfl
  maxSize := hmaxSize
  uses := rfl
  working := hworking
  active := hactive

/-- The critical section of a working thread. -/
theorem Kept.taken (h : Kept s) {w : Nat} {x : Thread} (hx : s.threads[w]? = some x)
    (hworking : x.stage.working = true) {r : Pool.Taken}
    (htask : ∀ clientFd pool, r = .task clientFd pool →
      pool.maxSize = s.pool.maxSize ∧ pool.workerActive = s.pool.workerActive) :
    Kept (s.taken w x.slot r) := by
  have hlive : x.stage ≠ .exited := by
    intro hexited
    rw [hexited] at hworking
    cases hworking
  cases r with
  | wait => exact h.moved hx hlive (moved_access (fun _ => hworking) rfl fun _ => Or.inl rfl)
  | exit pool =>
    refine h.moved hx hlive (moved_access (fun h => by cases h) rfl ?_)
    intro slot
    by_cases hslot : slot = x.slot
    · exact Or.inr ⟨hslot, hworking, rfl⟩
    · exact Or.inl (Function.update_of_ne hslot _ _)
  | task clientFd pool =>
    obtain ⟨hmaxSize, hactive⟩ := htask clientFd pool rfl
    exact h.moved hx hlive
      (moved_access (fun _ => hworking) hmaxSize fun _ => Or.inl (by rw [hactive]))

theorem Kept.workerStep (h : Kept s) {e : Event} (hstep : State.workerStep e s = some s') :
    Kept s' := by
  have hdequeue : ∀ (slot : Nat) (clientFd : Int) (pool : Pool),
      s.pool.nextTask slot = .task clientFd pool →
      pool.maxSize = s.pool.maxSize ∧ pool.workerActive = s.pool.workerActive := by
    intro slot clientFd pool hr
    obtain ⟨-, -, rfl⟩ := Pool.nextTask_task hr
    exact ⟨rfl, rfl⟩
  unfold State.workerStep at hstep
  cases e with
  | lock w =>
    simp only at hstep
    split at hstep
    next slot isCore hx _ =>
      cases hstep
      exact h.taken hx rfl (hdequeue slot)
    next => cases hstep
  | wake w timedOut =>
    simp only at hstep
    split at hstep
    next slot isCore hx _ =>
      cases hstep
      exact h.taken hx rfl fun clientFd pool hr => hdequeue slot _ _ (Pool.afterWait_task hr)
    next => cases hstep
  | count w =>
    simp only at hstep
    split at hstep
    next slot isCore idle hx =>
      cases hstep
      exact h.moved hx (by intro h; cases h)
        (moved_access (fun h => by cases h) rfl fun _ => Or.inl rfl)
    next => cases hstep
  | unlock w =>
    simp only at hstep
    split at hstep
    next slot isCore idle hx =>
      cases hstep
      refine h.moved hx (by intro h; cases h) (moved_access ?_ rfl fun _ => Or.inl rfl)
      intro hworking
      cases idle <;> cases hworking
    next => cases hstep
  | read w =>
    simp only at hstep
    split at hstep
    next slot isCore hx =>
      cases hstep
      exact h.moved hx (by intro h; cases h)
        (moved_access (fun h => by cases h) rfl fun _ => Or.inl rfl)
    next => cases hstep
  | record w =>
    simp only at hstep
    split at hstep
    next slot isCore clientFd hx =>
      cases hstep
      exact h.moved hx (by intro h; cases h)
        (moved_access (fun _ => rfl) rfl fun _ => Or.inl rfl)
    next => cases hstep
  | _ => cases hstep

/-! ## Steps of the owner -/

/-- A step of the owner that creates no thread and clears no flag of a working one. -/
theorem Kept.owned (h : Kept s) (hthreads : s'.threads = s.threads)
    (hworkers : s'.workers = s.workers) (hmaxSize : s'.pool.maxSize = s.pool.maxSize)
    (huses : s'.uses = s.uses) (hfreed : s'.owner.isFreed = false)
    (hactive : ∀ slot, s'.pool.workerActive slot = s.pool.workerActive slot ∨
      s'.pool.workerActive slot = true ∨ s.owner.reserved = some slot ∧ s'.owner.reserved = none)
    (hreserved : ∀ slot, s'.owner.reserved = some slot → slot < s.pool.maxSize ∧
      s'.pool.workerActive slot = true ∧
      (s.owner.reserved = some slot ∨ s.pool.workerActive slot = false))
    (hpassed : ∀ (w : Nat) (x : Thread), s.threads[w]? = some x → x.stage.working = true →
      s'.owner.passed ≤ x.slot) : Kept s' where
  slotted w x hx hworking := by
    rw [hthreads] at hx
    obtain ⟨hlt, hset, hthread⟩ := h.slotted w x hx hworking
    refine ⟨hmaxSize ▸ hlt, ?_, hworkers ▸ hthread⟩
    obtain heq | htrue | ⟨hslot, -⟩ := hactive x.slot
    · rw [heq, hset]
    · exact htrue
    · exact absurd rfl ((h.reserved x.slot hslot).2.2 w x hx hworking)
  reserved slot hslot := by
    obtain ⟨hlt, hset, hfree⟩ := hreserved slot hslot
    refine ⟨hmaxSize ▸ hlt, hset, ?_⟩
    intro w x hx hworking
    rw [hthreads] at hx
    obtain hbefore | hclear := hfree
    · exact (h.reserved slot hbefore).2.2 w x hx hworking
    · intro heq
      obtain ⟨-, hset, -⟩ := h.slotted w x hx hworking
      rw [heq, hclear] at hset
      cases hset
  passed w x hx hworking := by
    rw [hthreads] at hx
    exact hpassed w x hx hworking
  freed hs := by
    rw [hfreed] at hs
    cases hs
  used u hu := by
    rw [huses] at hu
    exact h.used u hu

/-- The owner creates the thread for the slot it has taken. -/
theorem Kept.thread (h : Kept s) {slot : Nat} {isCore : Bool}
    (hslot : s.owner.reserved = some slot) (hpool : s'.pool.workerActive = s.pool.workerActive)
    (hmaxSize : s'.pool.maxSize = s.pool.maxSize)
    (hworkers : s'.workers = Function.update s.workers slot (some s.threads.length))
    (hthreads : s'.threads = s.threads ++ [⟨slot, isCore, .entering⟩])
    (huses : s'.uses = s.uses) (hfreed : s'.owner.isFreed = false)
    (hreserved : s'.owner.reserved = none) (hpassed : s'.owner.passed = 0) : Kept s' := by
  obtain ⟨hlt, hset, hfree⟩ := h.reserved slot hslot
  -- an old thread, or the new one
  have hcases : ∀ (w : Nat) (x : Thread), s'.threads[w]? = some x →
      s.threads[w]? = some x ∨ w = s.threads.length ∧ x.slot = slot := by
    intro w x hx
    rw [hthreads, List.getElem?_append] at hx
    by_cases hw : w < s.threads.length
    · rw [if_pos hw] at hx
      exact Or.inl hx
    · rw [if_neg hw, List.getElem?_singleton] at hx
      by_cases hzero : w - s.threads.length = 0
      · rw [if_pos hzero, Option.some.injEq] at hx
        exact Or.inr ⟨by omega, by rw [← hx]⟩
      · rw [if_neg hzero] at hx
        cases hx
  constructor
  · intro w x hx hworking
    rw [hmaxSize, hpool, hworkers]
    obtain hx | ⟨rfl, rfl⟩ := hcases w x hx
    · obtain ⟨hlt, hset, hthread⟩ := h.slotted w x hx hworking
      exact ⟨hlt, hset, by rw [Function.update_of_ne (hfree w x hx hworking), hthread]⟩
    · exact ⟨hlt, hset, Function.update_self ..⟩
  · intro slot' hslot'
    rw [hreserved] at hslot'
    cases hslot'
  · intro w x _ _
    rw [hpassed]
    exact Nat.zero_le _
  · intro hs
    rw [hfreed] at hs
    cases hs
  · intro u hu
    rw [huses] at hu
    exact h.used u hu

/-- One step of `spawn_worker`; `o` is where the owner is after it. -/
theorem Kept.spawnWorker (h : Kept s) {isCore ok : Bool} {sp : Spawning}
    (hsp : s.owner.reserved = sp.slot) {r : Spawning ⊕ Bool} {s₁ : State}
    (hrun : s.spawnWorker isCore ok sp = some (r, s₁)) {o : Owner} {shutdown : Bool}
    (ho : o.reserved = slotAfter r) (hpassed : o.passed = 0) (hfreed : o.isFreed = false) :
    Kept { s₁ with pool := { s₁.pool with shutdown := shutdown }, owner := o } := by
  have hzero : ∀ (w : Nat) (x : Thread), s.threads[w]? = some x → x.stage.working = true →
      o.passed ≤ x.slot := by
    intro w x _ _
    rw [hpassed]
    exact Nat.zero_le _
  unfold State.spawnWorker at hrun
  cases sp with
  | start =>
    simp only at hrun
    split at hrun
    · cases hrun
    · split at hrun
      next =>
        cases hrun
        refine h.owned rfl rfl rfl rfl hfreed (fun _ => Or.inl rfl) ?_ hzero
        intro slot hslot
        rw [ho] at hslot
        cases hslot
      next slot pool hreserve =>
        cases hrun
        obtain ⟨hlt, hclear, rfl⟩ := reserve_spec hreserve
        refine h.owned rfl rfl rfl rfl hfreed ?_ ?_ hzero
        · intro slot'
          by_cases heq : slot' = slot
          · rw [heq]
            exact Or.inr (Or.inl (Function.update_self ..))
          · exact Or.inl (Function.update_of_ne heq _ _)
        · intro slot' hslot'
          rw [ho] at hslot'
          cases hslot'
          exact ⟨hlt, Function.update_self .., Or.inr hclear⟩
  | reserved slot =>
    simp only at hrun
    split at hrun
    · cases hrun
      exact h.thread hsp rfl rfl rfl rfl rfl hfreed ho hpassed
    · split at hrun
      · cases hrun
      · cases hrun
        refine h.owned rfl rfl rfl rfl hfreed ?_ ?_ hzero
        · intro slot'
          by_cases heq : slot' = slot
          · rw [heq]
            exact Or.inr (Or.inr ⟨hsp, ho⟩)
          · exact Or.inl (Function.update_of_ne heq _ _)
        · intro slot' hslot'
          rw [ho] at hslot'
          cases hslot'

/-- Outside `spawn_worker` and `thread_pool_destroy` only the queue and the flag of shutdown
change. -/
theorem Kept.idle (h : Kept s) {pool : Pool} {accepted : List Int} {o : Owner}
    (hactive : pool.workerActive = s.pool.workerActive) (hmaxSize : pool.maxSize = s.pool.maxSize)
    (ho : o.reserved = none) (hpassed : o.passed = 0) (hfreed : o.isFreed = false) :
    Kept { s with pool := pool, accepted := accepted, owner := o } := by
  refine h.owned rfl rfl hmaxSize rfl hfreed ?_ ?_ ?_
  · intro slot
    exact Or.inl (by rw [hactive])
  · intro slot hslot
    rw [ho] at hslot
    cases hslot
  · intro w x _ _
    rw [hpassed]
    exact Nat.zero_le _

theorem Kept.added (h : Kept s) {clientFd : Int} {r : Pool.Added}
    (hqueued : ∀ pool shouldSpawn, r = .queued pool shouldSpawn →
      pool.workerActive = s.pool.workerActive ∧ pool.maxSize = s.pool.maxSize) :
    Kept (s.added clientFd r) := by
  cases r with
  | wait => exact h.idle rfl rfl rfl rfl rfl
  | rejected => exact h.idle rfl rfl rfl rfl rfl
  | queued pool shouldSpawn =>
    obtain ⟨hactive, hmaxSize⟩ := hqueued pool shouldSpawn rfl
    cases shouldSpawn <;> exact h.idle hactive hmaxSize rfl rfl rfl

/-- `thread_pool_destroy` goes on to slot `i`, or waits for its thread. -/
theorem Kept.destroying (h : Kept s) {o : Owner} (ho : o.reserved = none)
    (hfreed : o.isFreed = false)
    (hpassed : ∀ (w : Nat) (x : Thread), s.threads[w]? = some x → x.stage.working = true →
      o.passed ≤ x.slot) : Kept { s with owner := o } := by
  refine h.owned rfl rfl rfl rfl hfreed (fun _ => Or.inl rfl) ?_ hpassed
  intro slot hslot
  rw [ho] at hslot
  cases hslot

theorem Kept.ownerStep (h : Kept s) {e : Event} (htimely : e.timely s = true)
    (hstep : State.ownerStep e s = some s') : Kept s' := by
  unfold State.ownerStep at hstep
  cases e with
  | spawn ok =>
    simp only at hstep
    split at hstep
    next left sp howner =>
      obtain ⟨⟨r, s₁⟩, hrun, rfl⟩ := Option.map_eq_some_iff.mp hstep
      have hsp : s.owner.reserved = sp.slot := by
        rw [howner]
        rfl
      cases r with
      | inl sp' => exact h.spawnWorker hsp hrun rfl rfl rfl
      | inr succeeded =>
        cases succeeded with
        | false => exact h.spawnWorker hsp hrun rfl rfl rfl
        | true =>
          show Kept { s₁ with owner := if left = 1 then _ else _ }
          by_cases hleft : left = 1
          · rw [if_pos hleft]
            exact h.spawnWorker hsp hrun rfl rfl rfl
          · rw [if_neg hleft]
            exact h.spawnWorker hsp hrun rfl rfl rfl
    next sp howner =>
      obtain ⟨⟨r, s₁⟩, hrun, rfl⟩ := Option.map_eq_some_iff.mp hstep
      have hsp : s.owner.reserved = sp.slot := by
        rw [howner]
        rfl
      cases r <;> exact h.spawnWorker hsp hrun rfl rfl rfl
    next => cases hstep
  | addTask clientFd =>
    simp only at hstep
    split at hstep
    next =>
      cases hstep
      apply h.added
      intro pool shouldSpawn hr
      obtain ⟨-, -, rfl⟩ := Pool.awaitRoom_queued (Pool.addTask_queued hr)
      exact ⟨rfl, rfl⟩
    next => cases hstep
  | wakeOwner =>
    simp only at hstep
    split at hstep
    next =>
      cases hstep
      apply h.added
      intro pool shouldSpawn hr
      obtain ⟨-, -, rfl⟩ := Pool.awaitRoom_queued hr
      exact ⟨rfl, rfl⟩
    next => cases hstep
  | shutdown =>
    simp only at hstep
    split at hstep
    next =>
      cases hstep
      exact h.idle rfl rfl rfl rfl rfl
    next => cases hstep
  | destroy =>
    simp only at hstep
    split at hstep
    next =>
      cases hstep
      exact h.destroying rfl rfl fun _ _ _ _ => Nat.zero_le _
    next => cases hstep
  | look =>
    simp only at hstep
    split at hstep
    next i howner =>
      have hpassed := h.passed
      rw [howner] at hpassed
      split at hstep
      · cases hstep
      · cases hstep
        by_cases hactive : s.pool.workerActive i = true
        · rw [if_pos hactive]
          exact h.destroying rfl rfl hpassed
        · rw [if_neg hactive]
          apply h.destroying rfl rfl
          intro w x hx hworking
          -- the thread's own flag is set
          have hne : x.slot ≠ i := by
            rintro rfl
            exact hactive (h.slotted w x hx hworking).2.1
          have hle : i ≤ x.slot := hpassed w x hx hworking
          show i + 1 ≤ x.slot
          omega
    next => cases hstep
  | join =>
    simp only at hstep
    split at hstep
    next i howner =>
      split at hstep
      next slot isCore hjoined =>
        cases hstep
        apply h.destroying rfl rfl
        intro w x hx hworking
        obtain ⟨v, hv, hexited⟩ := Option.bind_eq_some_iff.mp hjoined
        have hle := h.passed w x hx hworking
        rw [howner] at hle
        -- a working thread of this slot would be the one that was joined
        have hne : x.slot ≠ i := by
          rintro rfl
          obtain ⟨-, -, hthread⟩ := h.slotted w x hx hworking
          rw [hv, Option.some.injEq] at hthread
          rw [← hthread, hexited, Option.some.injEq] at hx
          rw [← hx] at hworking
          cases hworking
        have hle : i ≤ x.slot := hle
        show i + 1 ≤ x.slot
        omega
      next => cases hstep
    next => cases hstep
  | free =>
    simp only at hstep
    split at hstep
    next i howner =>
      split at hstep
      next hlast =>
        cases hstep
        have hall : ∀ (w : Nat) (x : Thread), s.threads[w]? = some x → x.stage = .exited := by
          intro w x hx
          have hnot : x.stage.leaving = false := by
            have := List.all_eq_true.mp htimely x (List.mem_of_getElem? hx)
            rwa [Bool.not_eq_true'] at this
          cases hworking : x.stage.working with
          | true =>
            have hle := h.passed w x hx hworking
            rw [howner] at hle
            have hlt := (h.slotted w x hx hworking).1
            have hle : i ≤ x.slot := hle
            omega
          | false => cases hstage : x.stage <;> rw [hstage] at hworking hnot <;> trivial
        constructor
        · intro w x hx hworking
          rw [hall w x hx] at hworking
          cases hworking
        · intro slot hslot
          cases hslot
        · exact fun _ _ _ _ => Nat.zero_le _
        · exact fun _ => hall
        · exact h.used
      next => cases hstep
    next => cases hstep
  | _ => cases hstep

theorem Kept.step (h : Kept s) {e : Event} (htimely : e.timely s = true)
    (hstep : State.step e s = some s') : Kept s' := by
  obtain hstep | ⟨-, hstep⟩ := Option.or_eq_some_iff.mp hstep
  · exact h.ownerStep htimely hstep
  · exact h.workerStep hstep

/-! ## The condition is needed -/

/-- A worker that is leaving can always go on, and its step is an access. -/
theorem leaving_step {w : Nat} {x : Thread} (hw : s.threads[w]? = some x)
    (hleaves : x.stage.leaving = true) :
    ∃ (e : Event) (t : State) (stage : Stage),
      State.step e s = some (t.access w stage) ∧ t.owner = s.owner := by
  obtain ⟨slot, isCore, stage⟩ := x
  cases stage with
  | cleared idle =>
    refine ⟨.count w, { s with pool := { s.pool with numWorkers := s.pool.numWorkers - 1 } },
      .counted idle, ?_, rfl⟩
    simp only [State.step, State.ownerStep, State.workerStep, hw, Option.none_or]
  | counted idle =>
    refine ⟨.unlock w, { s with mutex := none }, if idle then .unlocked else .exited, ?_, rfl⟩
    simp only [State.step, State.ownerStep, State.workerStep, hw, Option.none_or]
  | unlocked =>
    refine ⟨.read w, s, .exited, ?_, rfl⟩
    simp only [State.step, State.ownerStep, State.workerStep, hw, Option.none_or]
  | _ => cases hleaves

/-- A worker that is leaving when the pool is freed uses it afterwards. -/
theorem leaving_late (hleaving : Event.timely .free s = false)
    (hstep : State.step .free s = some s') :
    ∃ w e s'', State.step e s' = some s'' ∧ (w, true) ∈ s''.uses := by
  have hs' : s' = { s with owner := .freed } := by
    unfold State.step State.ownerStep at hstep
    simp only [State.workerStep, Option.or_none] at hstep
    split at hstep
    · split at hstep
      · cases hstep
        rfl
      · cases hstep
    · cases hstep
  obtain ⟨x, hx, hleaves⟩ := List.all_eq_false.mp hleaving
  obtain ⟨w, hw⟩ := List.getElem?_of_mem hx
  rw [Bool.not_eq_true, Bool.not_eq_false'] at hleaves
  subst hs'
  obtain ⟨e, t, stage, hnext, howner⟩ := leaving_step (s := { s with owner := .freed }) hw hleaves
  refine ⟨w, e, _, hnext, ?_⟩
  show (w, true) ∈ t.uses ++ [(w, t.owner.isFreed)]
  rw [howner]
  exact List.mem_append_right _ List.mem_cons_self

/-! ## Runs -/

/-- **The pool is freed last.** In every run in which `thread_pool_destroy` frees the pool at a
time when no worker stands between the clearing of its flag and its last access, every access of a
worker is made before the pool is freed. -/
theorem run_usesLive {pool : Pool} {events : List Event} {s : State}
    (htimely : along State.step Event.timely events (State.start pool) = true)
    (hrun : runs State.step events (State.start pool) = some s) : ∀ u ∈ s.uses, u.2 = false := by
  have h : Kept s :=
    runs_rule (fun _ _ _ h he hstep => h.step he hstep) (kept_start pool) htimely hrun
  exact h.used

def twoPool : Pool := (threadPoolCreate 1 2 4).get (by decide +kernel)

/-- Two workers; one leaves after an idle timeout, the other handles a request and is joined. -/
def orderly : List Event :=
  [.spawn true, .spawn true, .addTask 7, .spawn true, .spawn true, .lock 0, .lock 1, .wake 1 true,
    .count 1, .unlock 1, .read 1, .record 0, .shutdown, .destroy, .look, .lock 0, .count 0,
    .unlock 0, .join, .look, .free]

theorem run_usesLive_orderly :
    along State.step Event.timely orderly (State.start twoPool) = true ∧
      ∃ s, runs State.step orderly (State.start twoPool) = some s ∧ s.uses ≠ [] ∧
        ∀ u ∈ s.uses, u.2 = false := by
  have htimely : along State.step Event.timely orderly (State.start twoPool) = true := by decide
  have huses : (runs State.step orderly (State.start twoPool)).map (·.uses.length) = some 10 := by
    decide
  obtain ⟨s, hs, hlength⟩ := Option.map_eq_some_iff.mp huses
  refine ⟨htimely, s, hs, ?_, run_usesLive htimely hs⟩
  intro hnil
  rw [hnil] at hlength
  cases hlength

/-- A worker that leaves after an idle timeout is not joined, and reads `num_workers` late. -/
def idleStop : List Event :=
  [.spawn true, .spawn true, .addTask 7, .spawn true, .spawn true, .lock 0, .lock 1, .wake 1 true,
    .count 1, .unlock 1, .record 0, .shutdown, .lock 0, .count 0, .unlock 0, .destroy, .look, .look,
    .free, .read 1]

/-- A worker that leaves at shutdown is not joined once its flag is cleared. -/
def exitStop : List Event :=
  [.spawn true, .spawn true, .shutdown, .lock 0, .destroy, .look, .look, .free, .count 0]

theorem freed_pool_used :
    (∃ s, runs State.step idleStop (State.start twoPool) = some s ∧ (1, true) ∈ s.uses) ∧
      ∃ s, runs State.step exitStop (State.start twoPool) = some s ∧ (0, true) ∈ s.uses := by
  have hidle : (runs State.step idleStop (State.start twoPool)).map
      (fun s => decide ((1, true) ∈ s.uses)) = some true := by decide
  have hexit : (runs State.step exitStop (State.start twoPool)).map
      (fun s => decide ((0, true) ∈ s.uses)) = some true := by decide
  obtain ⟨s, hs, hused⟩ := Option.map_eq_some_iff.mp hidle
  obtain ⟨t, ht, hlate⟩ := Option.map_eq_some_iff.mp hexit
  exact ⟨⟨s, hs, of_decide_eq_true hused⟩, t, ht, of_decide_eq_true hlate⟩

end MiniWeb.ThreadPool.Teardown
