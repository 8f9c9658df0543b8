import MiniWeb.Lib.Trace
import MiniWeb.ThreadPool.Fifo
import MiniWeb.ThreadPool.Teardown

/-!
# The pool's life and the schedules

`Teardown` follows one owner and the writes of a worker that leaves; `Schedule` takes each critical
section as one step and lets anyone call the pool. Every run of the first is matched by a schedule:
a worker that has cleared its flag has left, and is counted off already, which nobody can see while
it keeps the mutex. So what holds of the schedules holds from `thread_pool_create` to
`thread_pool_destroy`: in particular `thread_pool_destroy` comes to the end of its loop only when
every descriptor was taken from the queue and no worker is left in its loop.
-/

namespace MiniWeb.ThreadPool.Teardown

open Runs

/-- What the schedules make of a stage. -/
def Stage.state : Stage → WorkerState
  | .entering => .running
  | .waiting => .waiting
  | .handling clientFd => .handling clientFd
  | .cleared _ | .counted _ | .unlocked | .exited => .exited

def Thread.worker (x : Thread) : Worker := ⟨x.slot, x.isCore, x.stage.state⟩

/-- The worker is in the section in which it leaves. -/
def Stage.inside : Stage → Bool
  | .cleared _ | .counted _ => true
  | _ => false

/-- The flag is cleared, and `num_workers` still counts the worker. -/
def Stage.uncounted : Stage → Int
  | .cleared _ => 1
  | _ => 0

/-- The workers that `num_workers` still counts though they have left. -/
def State.uncounted (t : State) : Int :=
  ((t.mutex.bind fun w => t.threads[w]?).map fun x => x.stage.uncounted).getD 0

/-- The pool when `n` more workers are counted off. -/
def countOff (pool : Pool) (n : Int) : Pool := { pool with numWorkers := pool.numWorkers - n }

/-- The same descriptors were put into the queue, and the same taken from it. -/
def SameQueue (t : State) (s : System) : Prop :=
  s.accepted.map Prod.snd = t.accepted ∧ s.dequeued.map Prod.snd = t.dequeued

/-- The schedule has the same pool and the same workers. -/
structure Same (t : State) (s : System) : Prop where
  pool : s.pool = countOff t.pool t.uncounted
  workers : s.workers = t.threads.map Thread.worker
  exclusive : ∀ (w : Nat) (x : Thread), t.threads[w]? = some x → x.stage.inside = true →
    t.mutex = some w
  queue : SameQueue t s

/-- The schedule is where the owner is. -/
def Owner.Matches (s : System) : Owner → Prop
  | .creating left sp => s.creation = .spawning left sp
  | .serving | .stopped => s.creation = .returned
  | .adding clientFd => s.creation = .returned ∧ ∃ c, s.calls c = some (.waiting clientFd)
  | .spawning sp => s.creation = .returned ∧ ∃ c, s.calls c = some (.spawning sp)
  | .destroying _ | .joining _ | .freed => True

structure Refines (t : State) (s : System) : Prop where
  same : Same t s
  owner : t.owner.Matches s
  /-- There is a call to come. -/
  fresh : ∃ n, ∀ c, n ≤ c → s.calls c = none

section

variable {t t' : State} {s s' : System}

theorem uncounted_none (h : t.mutex = none) : t.uncounted = 0 := by
  unfold State.uncounted
  rw [h]
  rfl

theorem countOff_zero (pool : Pool) : countOff pool 0 = pool := by
  unfold countOff
  rw [Int.sub_zero]

/-- Outside the section in which a worker leaves, the pools are equal. -/
theorem Same.pool_eq (h : Same t s) (hmutex : t.mutex = none) : s.pool = t.pool := by
  rw [h.pool, uncounted_none hmutex, countOff_zero]

theorem Same.getElem? (h : Same t s) {w : Nat} {x : Thread} (hx : t.threads[w]? = some x) :
    s.workers[w]? = some x.worker := by
  rw [h.workers, List.getElem?_map, hx, Option.map_some]

theorem uncounted_setStage (t' : State) {w : Nat} {x : Thread} (stage : Stage)
    (hx : t.threads[w]? = some x)
    (hthreads : t'.threads = t.threads.modify w fun x => { x with stage := stage })
    (hmutex : t'.mutex = t.mutex) (hsame : stage.uncounted = x.stage.uncounted) :
    t'.uncounted = t.uncounted := by
  unfold State.uncounted
  rw [hmutex, hthreads]
  cases hm : t.mutex with
  | none => rfl
  | some v =>
    rw [Option.bind_some, Option.bind_some]
    by_cases hvw : w = v
    · subst hvw
      rw [List.getElem?_modify_eq, hx]
      exact hsame
    · rw [List.getElem?_modify_ne _ _ hvw]

/-- The worker holds the mutex at its new stage. -/
theorem uncounted_holding (t' : State) {w : Nat} {x : Thread} (stage : Stage)
    (hx : t.threads[w]? = some x)
    (hthreads : t'.threads = t.threads.modify w fun x => { x with stage := stage })
    (hmutex : t'.mutex = some w) : t'.uncounted = stage.uncounted := by
  unfold State.uncounted
  rw [hmutex, hthreads, Option.bind_some, List.getElem?_modify_eq, hx]
  rfl

theorem map_worker_modify (threads : List Thread) (w : Nat) (stage : Stage) :
    (threads.modify w fun x => { x with stage := stage }).map Thread.worker =
      (threads.map Thread.worker).modify w fun x => { x with state := stage.state } := by
  apply List.ext_getElem?
  intro i
  by_cases hi : w = i
  · subst hi
    simp only [List.getElem?_map, List.getElem?_modify_eq, Option.map_eq_map, Option.map_map]
    rfl
  · simp only [List.getElem?_map, List.getElem?_modify_ne _ _ hi]

theorem modify_state (workers : List Worker) {w : Nat} {x : Worker} (hx : workers[w]? = some x) :
    (workers.modify w fun y => { y with state := x.state }) = workers := by
  apply List.ext_getElem?
  intro i
  by_cases hi : w = i
  · subst hi
    rw [List.getElem?_modify_eq, hx]
    rfl
  · rw [List.getElem?_modify_ne _ _ hi]

/-! ## Workers -/

/-- Worker `w` goes on to a stage, and the schedule's worker to its state. -/
theorem Same.moved (h : Same t s) {w : Nat} (stage : Stage)
    (hthreads : t'.threads = t.threads.modify w fun x => { x with stage := stage })
    (hworkers : s'.workers = s.workers.modify w fun x => { x with state := stage.state })
    (hpool : s'.pool = countOff t'.pool t'.uncounted)
    (hinside : stage.inside = true → t'.mutex = some w)
    (hmutex : ∀ v, v ≠ w → t.mutex = some v → t'.mutex = some v)
    (hqueue : SameQueue t' s') : Same t' s' where
  pool := hpool
  queue := hqueue
  workers := by rw [hworkers, hthreads, h.workers, map_worker_modify]
  exclusive v y hy hin := by
    rw [hthreads] at hy
    by_cases hvw : w = v
    · subst hvw
      rw [List.getElem?_modify_eq] at hy
      obtain ⟨x, -, rfl⟩ := Option.map_eq_some_iff.mp hy
      exact hinside hin
    · rw [List.getElem?_modify_ne _ _ hvw] at hy
      exact hmutex v (Ne.symm hvw) (h.exclusive v y hy hin)

/-- A worker goes on to a stage that the schedule does not tell from the one before. -/
theorem Same.stutter (h : Same t s) {w : Nat} {x : Thread} (stage : Stage)
    (hx : t.threads[w]? = some x) (hstate : stage.state = x.stage.state)
    (hthreads : t'.threads = t.threads.modify w fun x => { x with stage := stage })
    (hpool : s.pool = countOff t'.pool t'.uncounted)
    (hinside : stage.inside = true → t'.mutex = some w)
    (hmutex : ∀ v, v ≠ w → t.mutex = some v → t'.mutex = some v)
    (hqueue : SameQueue t' s) : Same t' s := by
  refine h.moved stage hthreads ?_ hpool hinside hmutex hqueue
  rw [hstate]
  exact (modify_state s.workers (h.getElem? hx)).symm

/-- **A worker's critical section.** -/
theorem Same.taken (h : Same t s) (hmutex : t.mutex = none) {w : Nat} {x : Thread}
    (hx : t.threads[w]? = some x) {r : Pool.Taken}
    (hexit : ∀ pool, r = .exit pool → pool = t.pool.release x.slot) :
    Same (t.taken w x.slot r) (s.taken w r) := by
  have hothers : ∀ {m : Option Nat} (v : Nat), v ≠ w → t.mutex = some v → m = some v := by
    intro m v _ hv
    rw [hmutex] at hv
    cases hv
  cases r with
  | wait =>
    refine h.moved .waiting rfl rfl ?_ (fun h => by cases h) hothers
      h.queue
    have hzero : (t.taken w x.slot .wait).uncounted = 0 := uncounted_none hmutex
    rw [hzero, countOff_zero]
    exact h.pool_eq hmutex
  | exit pool =>
    have hone := uncounted_holding (t.taken w x.slot (.exit pool)) (.cleared !t.pool.shutdown) hx
      rfl rfl
    refine h.moved (.cleared !t.pool.shutdown) rfl rfl ?_ (fun _ => rfl) hothers
      h.queue
    rw [hone]
    exact hexit pool rfl
  | task clientFd pool =>
    have hdequeued : (s.dequeued ++ [(w, clientFd)]).map Prod.snd = t.dequeued ++ [clientFd] := by
      rw [List.map_append, h.queue.2]
      rfl
    refine h.moved (.handling clientFd) rfl rfl ?_ (fun h => by cases h) hothers
      ⟨h.queue.1, hdequeued⟩
    have hzero : (t.taken w x.slot (.task clientFd pool)).uncounted = 0 := uncounted_none hmutex
    rw [hzero, countOff_zero]
    rfl

/-- The owner is where it was, and so are the calls. -/
theorem Refines.worker (h : Refines t s) (hsame : Same t' s') (howner : t'.owner = t.owner)
    (hcalls : s'.calls = s.calls) (hcreation : s'.creation = s.creation) : Refines t' s' where
  same := hsame
  owner := by
    have hm := h.owner
    rw [howner]
    unfold Owner.Matches at hm ⊢
    rwa [hcalls, hcreation]
  fresh := by
    rw [hcalls]
    exact h.fresh

theorem taken_owner (w slot : Nat) (r : Pool.Taken) : (t.taken w slot r).owner = t.owner := by
  cases r <;> rfl

theorem taken_calls (w : Nat) (r : Pool.Taken) :
    (s.taken w r).calls = s.calls ∧ (s.taken w r).creation = s.creation := by
  cases r <;> exact ⟨rfl, rfl⟩

theorem step_work {w slot : Nat} {isCore : Bool}
    (hx : s.workers[w]? = some ⟨slot, isCore, .running⟩) :
    System.step (.work w) s = some (s.taken w (s.pool.nextTask slot)) := by
  simp only [System.step, hx]

theorem step_wake {w slot : Nat} {isCore timedOut : Bool}
    (hx : s.workers[w]? = some ⟨slot, isCore, .waiting⟩) :
    System.step (.wake w timedOut) s =
      some (s.taken w (s.pool.afterWait slot isCore timedOut)) := by
  simp only [System.step, hx]

theorem step_finish {w slot : Nat} {isCore : Bool} {clientFd : Int}
    (hx : s.workers[w]? = some ⟨slot, isCore, .handling clientFd⟩) :
    System.step (.finish w) s = some (s.setWorker w .running) := by
  simp only [System.step, hx]

/-- The schedule takes one step. -/
theorem one_step {e : ThreadPool.Event} (h : System.step e s = some s') :
    runs System.step [e] s = some s' := by
  rw [runs_cons, h]
  rfl

theorem Refines.workerStep (h : Refines t s) {e : Event} (hstep : State.workerStep e t = some t') :
    ∃ es s', runs System.step es s = some s' ∧ Refines t' s' := by
  unfold State.workerStep at hstep
  cases e with
  | lock w =>
    simp only at hstep
    split at hstep
    next slot isCore hx hmutex =>
      cases hstep
      have hpool := h.same.pool_eq hmutex
      refine ⟨[.work w], _, one_step (step_work (h.same.getElem? hx)), ?_⟩
      · rw [hpool]
        exact h.worker (h.same.taken hmutex hx fun pool hr => (Pool.nextTask_exit hr).2.2)
          (taken_owner w slot _) (taken_calls w _).1 (taken_calls w _).2
    next => cases hstep
  | wake w timedOut =>
    simp only at hstep
    split at hstep
    next slot isCore hx hmutex =>
      cases hstep
      have hpool := h.same.pool_eq hmutex
      refine ⟨[.wake w timedOut], _, one_step (step_wake (h.same.getElem? hx)), ?_⟩
      · rw [hpool]
        exact h.worker (h.same.taken hmutex hx fun pool hr => (Pool.afterWait_exit hr).2.2)
          (taken_owner w slot _) (taken_calls w _).1 (taken_calls w _).2
    next => cases hstep
  | count w =>
    simp only at hstep
    split at hstep
    next slot isCore idle hx =>
      cases hstep
      have hmutex := h.same.exclusive w _ hx rfl
      refine ⟨[], s, rfl, h.worker (h.same.stutter (.counted idle) hx rfl rfl ?_
        (fun _ => hmutex) (fun v _ hv => hv) h.same.queue)
        rfl rfl rfl⟩
      have hone : t.uncounted = 1 := by
        unfold State.uncounted
        rw [hmutex, Option.bind_some, hx]
        rfl
      have hzero := uncounted_holding
        ({ t with pool := { t.pool with numWorkers := t.pool.numWorkers - 1 } }.access w
          (.counted idle)) (.counted idle) hx rfl hmutex
      rw [h.same.pool, hone, hzero]
      exact (countOff_zero _).symm
    next => cases hstep
  | unlock w =>
    simp only at hstep
    split at hstep
    next slot isCore idle hx =>
      cases hstep
      have hmutex := h.same.exclusive w _ hx rfl
      refine ⟨[], s, rfl, h.worker (h.same.stutter (if idle then .unlocked else .exited)
        hx ?_ rfl ?_ ?_ (fun v hv hmv => ?_) h.same.queue)
        rfl rfl rfl⟩
      · cases idle <;> rfl
      · have hzero : t.uncounted = 0 := by
          unfold State.uncounted
          rw [hmutex, Option.bind_some, hx]
          rfl
        rw [h.same.pool, hzero]
        rfl
      · cases idle <;> exact fun h => by cases h
      · rw [hmutex, Option.some.injEq] at hmv
        exact absurd hmv.symm hv
    next => cases hstep
  | read w =>
    simp only at hstep
    split at hstep
    next slot isCore hx =>
      cases hstep
      have huncounted := uncounted_setStage (t.access w .exited) .exited hx rfl rfl rfl
      refine ⟨[], s, rfl, h.worker (h.same.stutter .exited hx rfl rfl ?_
        (fun h => by cases h) (fun v _ hv => hv) h.same.queue)
        rfl rfl rfl⟩
      rw [huncounted]
      exact h.same.pool
    next => cases hstep
  | record w =>
    simp only at hstep
    split at hstep
    next slot isCore clientFd hx =>
      cases hstep
      have huncounted := uncounted_setStage (t.access w .entering) .entering hx rfl rfl rfl
      refine ⟨[.finish w], _, one_step (step_finish (h.same.getElem? hx)), ?_⟩
      refine h.worker (h.same.moved .entering rfl rfl ?_ (fun h => by cases h)
        (fun v _ hv => hv) h.same.queue) rfl rfl rfl
      rw [huncounted]
      exact h.same.pool
    next => cases hstep
  | spawn ok => cases hstep
  | addTask clientFd => cases hstep
  | wakeOwner => cases hstep
  | shutdown => cases hstep
  | destroy => cases hstep
  | look => cases hstep
  | join => cases hstep
  | free => cases hstep

/-! ## The owner -/

theorem uncounted_append (t : State) (x : Thread) (hx : x.stage.uncounted = 0)
    (workers : Nat → Option Nat) :
    ({ t with workers := workers, threads := t.threads ++ [x] } : State).uncounted =
      t.uncounted := by
  unfold State.uncounted
  cases t.mutex with
  | none => rfl
  | some v =>
    show ((t.threads ++ [x])[v]?.map _).getD 0 = (t.threads[v]?.map _).getD 0
    rcases Nat.lt_trichotomy v t.threads.length with hlt | heq | hgt
    · rw [List.getElem?_append_left hlt]
    · rw [heq, List.getElem?_concat_length, List.getElem?_eq_none (Nat.le_refl _)]
      exact hx
    · rw [List.getElem?_eq_none (by rw [List.length_append]; exact hgt),
        List.getElem?_eq_none (Nat.le_of_lt hgt)]

/-- A step of `spawn_worker`. -/
theorem Same.spawnWorker (h : Same t s) {isCore ok : Bool} {sp : Spawning}
    {r : Spawning ⊕ Bool} (hrun : t.spawnWorker isCore ok sp = some (r, t')) :
    ∃ s', s.spawnWorker isCore ok sp = (r, s') ∧ Same t' s' ∧ s'.calls = s.calls ∧
      s'.creation = s.creation := by
  cases sp with
  | start =>
    simp only [State.spawnWorker] at hrun
    split at hrun
    · cases hrun
    next hsome =>
      have hmutex := Option.not_isSome_iff_eq_none.mp hsome
      have hpool := h.pool_eq hmutex
      simp only [System.spawnWorker, hpool]
      cases hreserve : t.pool.reserve with
      | none =>
        rw [hreserve] at hrun
        cases hrun
        exact ⟨s, rfl, h, rfl, rfl⟩
      | some taken =>
        rw [hreserve] at hrun
        cases hrun
        refine ⟨_, rfl, ⟨?_, h.workers, h.exclusive, h.queue⟩, rfl, rfl⟩
        have hzero : ({ t with pool := taken.2 } : State).uncounted = 0 := uncounted_none hmutex
        rw [hzero, countOff_zero]
  | reserved slot =>
    simp only [State.spawnWorker] at hrun
    simp only [System.spawnWorker]
    cases ok with
    | true =>
      cases hrun
      refine ⟨_, rfl, ⟨?_, ?_, ?_, h.queue⟩, rfl, rfl⟩
      · rw [uncounted_append t ⟨slot, isCore, .entering⟩ rfl]
        exact h.pool
      · show s.workers ++ [_] = (t.threads ++ [_]).map Thread.worker
        rw [List.map_append, h.workers]
        rfl
      · intro w x hx hinside
        by_cases hlt : w < t.threads.length
        · rw [List.getElem?_append_left hlt] at hx
          exact h.exclusive w x hx hinside
        · rw [List.getElem?_append_right (Nat.le_of_not_lt hlt)] at hx
          cases List.mem_singleton.mp (List.mem_of_getElem? hx)
          cases hinside
    | false =>
      simp only [Bool.false_eq_true, if_false] at hrun ⊢
      split at hrun
      · cases hrun
      next hsome =>
        have hmutex := Option.not_isSome_iff_eq_none.mp hsome
        cases hrun
        refine ⟨_, rfl, ⟨?_, h.workers, h.exclusive, h.queue⟩, rfl, rfl⟩
        have hzero : ({ t with pool := t.pool.release slot } : State).uncounted = 0 :=
          uncounted_none hmutex
        rw [hzero, countOff_zero, h.pool_eq hmutex]

theorem fresh_setCall (h : ∃ n, ∀ c, n ≤ c → s.calls c = none) (d : Nat) (call : Call) :
    ∃ n, ∀ c, n ≤ c → (s.setCall d call).calls c = none := by
  obtain ⟨n, hn⟩ := h
  refine ⟨max n (d + 1), fun c hc => ?_⟩
  have hne : c ≠ d := by omega
  exact (Function.update_of_ne hne _ _).trans (hn c (by omega))

theorem calls_setCall (d : Nat) (call : Call) : (s.setCall d call).calls d = some call :=
  Function.update_self ..

/-- After a critical section of `thread_pool_add_task`; `d` is the schedule's call. -/
theorem Refines.added (h : Refines t s) (hmutex : t.mutex = none)
    (hcreation : s.creation = .returned) (d : Nat) (clientFd : Int) (r : Pool.Added) :
    Refines (t.added clientFd r) (s.added d clientFd r) := by
  cases r with
  | wait =>
    exact ⟨⟨h.same.pool, h.same.workers, h.same.exclusive, h.same.queue⟩,
      ⟨hcreation, d, calls_setCall d _⟩, fresh_setCall h.fresh d _⟩
  | rejected =>
    exact ⟨⟨h.same.pool, h.same.workers, h.same.exclusive, h.same.queue⟩, hcreation,
      fresh_setCall h.fresh d _⟩
  | queued pool shouldSpawn =>
    have haccepted : (s.accepted ++ [(d, clientFd)]).map Prod.snd = t.accepted ++ [clientFd] := by
      rw [List.map_append, h.same.queue.1]
      rfl
    refine ⟨⟨?_, h.same.workers, h.same.exclusive, haccepted, h.same.queue.2⟩, ?_,
      fresh_setCall h.fresh d _⟩
    · have hzero : (t.added clientFd (.queued pool shouldSpawn)).uncounted = 0 :=
        uncounted_none hmutex
      rw [hzero, countOff_zero]
      rfl
    · cases shouldSpawn with
      | true => exact ⟨hcreation, d, calls_setCall d _⟩
      | false => exact hcreation

theorem Refines.spawnCore (h : Refines t s) {ok : Bool} {left : Nat} {sp : Spawning}
    (howner : t.owner = .creating left sp) {r : Spawning ⊕ Bool}
    (hrun : t.spawnWorker true ok sp = some (r, t')) :
    ∃ es s', runs System.step es s = some s' ∧ Refines (t'.created left r) s' := by
  have hcreation : s.creation = .spawning left sp := by
    have hm := h.owner
    rwa [howner] at hm
  obtain ⟨s₁, hspawn, hsame, hcalls, -⟩ := h.same.spawnWorker hrun
  have hstep : System.step (.spawnCore ok) s = some (s.spawnCore ok left sp) := by
    simp only [System.step, hcreation]
  refine ⟨[.spawnCore ok], _, one_step hstep, ?_⟩
  have hfresh : ∃ n, ∀ c, n ≤ c → s₁.calls c = none := by
    rw [hcalls]
    exact h.fresh
  unfold System.spawnCore
  rw [hspawn]
  match r with
  | .inl sp' => exact ⟨⟨hsame.pool, hsame.workers, hsame.exclusive, hsame.queue⟩, rfl, hfresh⟩
  | .inr true =>
    refine ⟨⟨hsame.pool, hsame.workers, hsame.exclusive, hsame.queue⟩, ?_, hfresh⟩
    simp only [State.created]
    split <;> rfl
  | .inr false =>
    refine ⟨⟨?_, hsame.workers, hsame.exclusive, hsame.queue⟩, trivial, hfresh⟩
    show { s₁.pool with shutdown := true } = _
    rw [hsame.pool]
    rfl

theorem Refines.spawnExtra (h : Refines t s) {ok : Bool} {sp : Spawning}
    (howner : t.owner = .spawning sp) {r : Spawning ⊕ Bool}
    (hrun : t.spawnWorker false ok sp = some (r, t')) :
    ∃ es s', runs System.step es s = some s' ∧ Refines (t'.spawned r) s' := by
  obtain ⟨hret, d, hd⟩ : s.creation = .returned ∧ ∃ c, s.calls c = some (.spawning sp) := by
    have hm := h.owner
    rwa [howner] at hm
  obtain ⟨s₁, hspawn, hsame, hcalls, hcreation⟩ := h.same.spawnWorker hrun
  have hstep : System.step (.spawnExtra d ok) s = some (s.spawnExtra d ok sp) := by
    simp only [System.step, hd]
  refine ⟨[.spawnExtra d ok], _, one_step hstep, ?_⟩
  have hfresh : ∃ n, ∀ c, n ≤ c → s₁.calls c = none := by
    rw [hcalls]
    exact h.fresh
  unfold System.spawnExtra
  rw [hspawn]
  match r with
  | .inl sp' =>
    exact ⟨⟨hsame.pool, hsame.workers, hsame.exclusive, hsame.queue⟩,
      ⟨hcreation.trans hret, d, calls_setCall d _⟩, fresh_setCall hfresh d _⟩
  | .inr ok' =>
    exact ⟨⟨hsame.pool, hsame.workers, hsame.exclusive, hsame.queue⟩, hcreation.trans hret,
      fresh_setCall hfresh d _⟩

/-- The owner goes on where the schedule does nothing. -/
theorem Refines.goto (h : Refines t s) (owner : Owner) (howner : owner.Matches s) :
    Refines { t with owner := owner } s :=
  ⟨⟨h.same.pool, h.same.workers, h.same.exclusive, h.same.queue⟩, howner, h.fresh⟩

theorem Refines.ownerStep (h : Refines t s) {e : Event} (hstep : State.ownerStep e t = some t') :
    ∃ es s', runs System.step es s = some s' ∧ Refines t' s' := by
  have hm := h.owner
  unfold State.ownerStep at hstep
  cases e with
  | spawn ok =>
    simp only at hstep
    split at hstep
    next left sp howner =>
      obtain ⟨⟨r, t₁⟩, hrun, rfl⟩ := Option.map_eq_some_iff.mp hstep
      exact h.spawnCore howner hrun
    next sp howner =>
      obtain ⟨⟨r, t₁⟩, hrun, rfl⟩ := Option.map_eq_some_iff.mp hstep
      exact h.spawnExtra howner hrun
    next => cases hstep
  | addTask clientFd =>
    simp only at hstep
    split at hstep
    next howner hmutex =>
      cases hstep
      rw [howner] at hm
      obtain ⟨n, hn⟩ := h.fresh
      have hcall : System.step (.call n clientFd) s =
          some (s.added n clientFd (s.pool.addTask clientFd)) := by
        simp only [System.step, show s.creation = .returned from hm, hn n (Nat.le_refl n)]
      refine ⟨[.call n clientFd], _, one_step hcall, ?_⟩
      rw [h.same.pool_eq hmutex]
      exact h.added hmutex hm n clientFd _
    next => cases hstep
  | wakeOwner =>
    simp only at hstep
    split at hstep
    next clientFd howner hmutex =>
      cases hstep
      rw [howner] at hm
      obtain ⟨hret, d, hd⟩ := hm
      have hcall : System.step (.wakeCall d) s =
          some (s.added d clientFd (s.pool.awaitRoom clientFd)) := by
        simp only [System.step, hd]
      refine ⟨[.wakeCall d], _, one_step hcall, ?_⟩
      rw [h.same.pool_eq hmutex]
      exact h.added hmutex hret d clientFd _
    next => cases hstep
  | shutdown =>
    simp only at hstep
    split at hstep
    next howner hmutex =>
      cases hstep
      rw [howner] at hm
      have hshut : System.step .shutdown s =
          some { s with pool := { s.pool with shutdown := true } } := by
        simp only [System.step, show s.creation = .returned from hm]
      refine ⟨[.shutdown], _, one_step hshut,
        ⟨?_, h.same.workers, h.same.exclusive, h.same.queue⟩, hm, h.fresh⟩
      show { s.pool with shutdown := true } = _
      rw [h.same.pool]
      rfl
    next => cases hstep
  | destroy =>
    simp only at hstep
    split at hstep
    · cases hstep
      exact ⟨[], s, rfl, h.goto _ trivial⟩
    · cases hstep
  | look =>
    simp only at hstep
    split at hstep
    · split at hstep
      · cases hstep
      · cases hstep
        refine ⟨[], s, rfl, h.goto _ ?_⟩
        split <;> trivial
    · cases hstep
  | join =>
    simp only at hstep
    split at hstep
    · split at hstep
      · cases hstep
        exact ⟨[], s, rfl, h.goto _ trivial⟩
      · cases hstep
    · cases hstep
  | free =>
    simp only at hstep
    split at hstep
    · split at hstep
      · cases hstep
        exact ⟨[], s, rfl, h.goto _ trivial⟩
      · cases hstep
    · cases hstep
  | lock w => cases hstep
  | wake w timedOut => cases hstep
  | count w => cases hstep
  | unlock w => cases hstep
  | read w => cases hstep
  | record w => cases hstep

theorem Refines.step (h : Refines t s) {e : Event} (hstep : State.step e t = some t') :
    ∃ es s', runs System.step es s = some s' ∧ Refines t' s' := by
  rcases Option.or_eq_some_iff.mp hstep with hstep | ⟨-, hstep⟩
  · exact h.ownerStep hstep
  · exact h.workerStep hstep

theorem refines_start (pool : Pool) : Refines (State.start pool) (System.start pool) where
  same := ⟨(countOff_zero pool).symm, rfl, (fun w x hx => by cases hx), rfl, rfl⟩
  owner := rfl
  fresh := ⟨0, fun _ _ => rfl⟩

/-- **Every life of the pool is a schedule.** -/
theorem run_refines {pool : Pool} {events : List Event} {t : State}
    (hrun : runs State.step events (State.start pool) = some t) :
    ∃ es s, runs System.step es (System.start pool) = some s ∧ Refines t s :=
  runs_simulation Refines (fun _ _ _ _ h hstep => h.step hstep) (refines_start pool) hrun

/-! ## The end of `thread_pool_destroy` -/

theorem ownerStep_freed {e : Event} (h : t.owner = .freed) : State.ownerStep e t = none := by
  unfold State.ownerStep
  cases e <;> simp only [h]

theorem workerStep_owner {e : Event} (hstep : State.workerStep e t = some t') :
    t'.owner = t.owner := by
  unfold State.workerStep at hstep
  cases e with
  | lock w =>
    simp only at hstep
    split at hstep <;> cases hstep
    exact taken_owner w _ _
  | wake w timedOut =>
    simp only at hstep
    split at hstep <;> cases hstep
    exact taken_owner w _ _
  | count w =>
    simp only at hstep
    split at hstep <;> cases hstep
    rfl
  | unlock w =>
    simp only at hstep
    split at hstep <;> cases hstep
    rfl
  | read w =>
    simp only at hstep
    split at hstep <;> cases hstep
    rfl
  | record w =>
    simp only at hstep
    split at hstep <;> cases hstep
    rfl
  | _ => cases hstep

/-- The pool stays freed. -/
theorem step_freed {e : Event} (h : t.owner = .freed) (hstep : State.step e t = some t') :
    t'.owner = .freed := by
  unfold State.step at hstep
  rw [ownerStep_freed h, Option.none_or] at hstep
  exact (workerStep_owner hstep).trans h

/-- The pool has not been freed, so no worker was too late. -/
theorem along_timely {events : List Event} (hrun : runs State.step events t = some t')
    (hlive : t'.owner ≠ .freed) : along State.step Event.timely events t = true := by
  induction events generalizing t with
  | nil => rfl
  | cons e es ih =>
    obtain ⟨t₁, hstep, hrest⟩ := Option.bind_eq_some_iff.mp hrun
    rw [along, hstep, Bool.and_eq_true]
    refine ⟨?_, ih hrest⟩
    cases e with
    | free =>
      have hfreed : t₁.owner = .freed := by
        simp only [State.step, State.ownerStep, State.workerStep, Option.or_none] at hstep
        split at hstep
        · split at hstep <;> cases hstep
          rfl
        · cases hstep
      exact absurd (runs_invariant (fun _ _ _ h hs => step_freed h hs) hfreed hrest) hlive
    | _ => rfl

/-- Behind the last slot of the loop no worker is in its loop. -/
theorem run_idle {pool : Pool} {events : List Event}
    (hrun : runs State.step events (State.start pool) = some t) {i : Nat}
    (howner : t.owner = .destroying i) (hi : t.pool.maxSize ≤ i) :
    ∀ x ∈ t.threads, x.stage.working = false := by
  have hlive : t.owner ≠ .freed := fun h => by
    rw [howner] at h
    cases h
  have hkept : Kept t :=
    runs_rule (fun _ _ _ h htimely hstep => Kept.step h htimely hstep) (kept_start pool)
      (along_timely hrun hlive) hrun
  intro x hx
  obtain ⟨w, hw⟩ := List.mem_iff_getElem?.mp hx
  cases hworking : x.stage.working with
  | false => rfl
  | true =>
    obtain ⟨hslot, -, -⟩ := hkept.slotted w x hw hworking
    have hpassed := hkept.passed w x hw hworking
    rw [howner] at hpassed
    exact absurd (Nat.lt_of_lt_of_le hslot hi) (Nat.not_lt_of_le hpassed)

/-- When no worker is in its loop, nothing is left in the queue. -/
theorem run_drained {coreSize maxSize queueCapacity : Int} {pool : Pool}
    (hcreate : threadPoolCreate coreSize maxSize queueCapacity = some pool)
    {events : List Event} (hrun : runs State.step events (State.start pool) = some t)
    (hidle : ∀ x ∈ t.threads, x.stage.working = false) :
    t.dequeued = t.accepted ∧ t.pool.queue.count = 0 ∧
      ∃ es s, runs System.step es (System.start pool) = some s ∧ Refines t s := by
  obtain ⟨es, s, hrun', hrefines⟩ := run_refines hrun
  obtain ⟨hqueue, hcap, -⟩ := threadPoolCreate_eq_some hcreate
  have hsound : Sound pool.capacity s :=
    runs_invariant (fun _ _ _ h hstep => Sound.step h hstep) (sound_start hqueue hcap) hrun'
  have hacc : Accounted s :=
    runs_invariant (fun _ _ _ h hstep => Accounted.step h hstep) (accounted_start pool) hrun'
  have hexit : ∀ x ∈ s.workers, x.state = .exited := by
    rw [hrefines.same.workers]
    intro y hy
    obtain ⟨x, hx, rfl⟩ := List.mem_map.mp hy
    have hx := hidle x hx
    unfold Thread.worker
    cases hstage : x.stage <;> rw [hstage] at hx <;> first | rfl | cases hx
  have hall := hsound.all_dequeued hacc hexit
  have hsame : t.dequeued = t.accepted := by
    rw [← hrefines.same.queue.2, hall, hrefines.same.queue.1]
  refine ⟨hsame, ?_, es, s, hrun', hrefines⟩
  have hfifo := hsound.fifo
  rw [hall] at hfifo
  have hempty := List.append_right_eq_self.mp hfifo.symm
  have hcount := congrArg List.length hempty
  rw [Ring.length_contents, hrefines.same.pool] at hcount
  exact hcount

/-- **`thread_pool_destroy` waits for everything.** When its loop has come to the end, after any
number of calls and in any interleaving, no worker is in its loop, the descriptors taken from the
queue are those put into it, in their order, and the queue is empty. The pool's life amounts to a
schedule in which the same descriptors were accepted and dequeued. -/
theorem destroy_drains {coreSize maxSize queueCapacity : Int} {pool : Pool}
    (hcreate : threadPoolCreate coreSize maxSize queueCapacity = some pool)
    {events : List Event} (hrun : runs State.step events (State.start pool) = some t)
    {i : Nat} (howner : t.owner = .destroying i) (hi : t.pool.maxSize ≤ i) :
    (∀ x ∈ t.threads, x.stage.working = false) ∧ t.dequeued = t.accepted ∧
      t.pool.queue.count = 0 ∧
      ∃ es s, runs System.step es (System.start pool) = some s ∧ Refines t s :=
  have hidle := run_idle hrun howner hi
  ⟨hidle, run_drained hcreate hrun hidle⟩

end

/-- A descriptor was handled, and the pool is drained. -/
theorem destroy_drains_orderly :
    ∃ t, runs State.step (orderly.take 20) (State.start twoPool) = some t ∧
      t.accepted ≠ [] ∧ t.dequeued = t.accepted ∧ t.pool.queue.count = 0 ∧
      ∀ x ∈ t.threads, x.stage.working = false := by
  have hcreate : threadPoolCreate 1 2 4 = some twoPool := (Option.some_get _).symm
  have hend : (runs State.step (orderly.take 20) (State.start twoPool)).map
      (fun t => (t.owner, t.pool.maxSize, t.accepted.isEmpty)) =
        some (.destroying 2, 2, false) := rfl
  obtain ⟨t, hrun, hat⟩ := Option.map_eq_some_iff.mp hend
  obtain ⟨howner, hmax⟩ := Prod.mk.inj hat
  obtain ⟨hmax, haccepted⟩ := Prod.mk.inj hmax
  obtain ⟨hidle, hdequeued, hcount, -⟩ :=
    destroy_drains hcreate hrun howner (Nat.le_of_eq hmax)
  refine ⟨t, hrun, fun hnil => ?_, hdequeued, hcount, hidle⟩
  rw [hnil] at haccepted
  cases haccepted

end MiniWeb.ThreadPool.Teardown
