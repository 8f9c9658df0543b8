import MiniWeb.ThreadPool.Refinement
import Mathlib.Data.List.Perm.Basic

/-!
# The descriptors a pool has

A descriptor given to `thread_pool_add_task` is in the pool's custody, in the queue or in the hand
of one worker, until this worker is through with it. Every step of the pool keeps what it has, but
for an enqueue, which adds one, and the end of a request, which gives one back.
-/

namespace MiniWeb.ThreadPool.Teardown

open Runs

/-- The descriptor a worker has in its hand. -/
def Stage.descriptor : Stage → Option Int
  | .handling clientFd => some clientFd
  | _ => none

def inHand (threads : List Thread) : List Int := threads.filterMap fun x => x.stage.descriptor

/-- The descriptors in the queue and in the workers' hands. -/
def State.custody (t : State) : List Int :=
  t.pool.queue.contents t.pool.capacity ++ inHand t.threads

section

variable {t t' : State}

/-- What one worker has, and what the others have before and after its step. -/
theorem inHand_modify {threads : List Thread} {w : Nat} {x : Thread} (hx : threads[w]? = some x)
    (stage : Stage) : ∃ rest, (inHand threads).Perm (x.stage.descriptor.toList ++ rest) ∧
      (inHand (threads.modify w fun y => { y with stage := stage })).Perm
        (stage.descriptor.toList ++ rest) := by
  obtain ⟨hw, rfl⟩ := List.getElem?_eq_some_iff.mp hx
  have hsplit : threads = threads.take w ++ threads[w] :: threads.drop (w + 1) := by
    rw [← List.drop_eq_getElem_cons hw, List.take_append_drop]
  have hone : ∀ y : Thread, (inHand (threads.take w ++ y :: threads.drop (w + 1))).Perm
      (y.stage.descriptor.toList ++ inHand (threads.take w ++ threads.drop (w + 1))) := by
    intro y
    have hmiddle : (threads.take w ++ y :: threads.drop (w + 1)).Perm
        (y :: (threads.take w ++ threads.drop (w + 1))) := List.perm_middle
    refine (hmiddle.filterMap _).trans (List.Perm.of_eq ?_)
    unfold inHand
    cases hy : y.stage.descriptor with
    | none => exact List.filterMap_cons_none hy
    | some clientFd => exact List.filterMap_cons_some hy
  refine ⟨inHand (threads.take w ++ threads.drop (w + 1)), ?_, ?_⟩
  · exact (List.Perm.of_eq (congrArg inHand hsplit)).trans (hone threads[w])
  · rw [List.modify_eq_take_cons_drop hw]
    exact hone { threads[w] with stage := stage }

/-- A worker without a descriptor goes on without one. -/
theorem inHand_same {threads : List Thread} {w : Nat} {x : Thread} (hx : threads[w]? = some x)
    (hnone : x.stage.descriptor = none) {stage : Stage} (hnone' : stage.descriptor = none) :
    (inHand (threads.modify w fun y => { y with stage := stage })).Perm (inHand threads) := by
  obtain ⟨rest, hbefore, hafter⟩ := inHand_modify hx stage
  rw [hnone] at hbefore
  rw [hnone'] at hafter
  exact hafter.trans hbefore.symm

/-! ## Workers -/

theorem custody_taken (hring : t.pool.queue.Wf t.pool.capacity) {w : Nat} {x : Thread}
    (hx : t.threads[w]? = some x) (hnone : x.stage.descriptor = none) {r : Pool.Taken}
    (htask : ∀ clientFd pool, r = .task clientFd pool → t.pool.queue.count ≠ 0 ∧
      clientFd = t.pool.queue.front ∧
        pool = { t.pool with queue := t.pool.queue.pop t.pool.capacity }) :
    (t.taken w x.slot r).custody.Perm t.custody := by
  cases r with
  | wait => exact (inHand_same hx hnone rfl).append_left _
  | exit pool => exact (inHand_same hx hnone rfl).append_left _
  | task clientFd pool =>
    obtain ⟨hcount, rfl, rfl⟩ := htask clientFd pool rfl
    obtain ⟨rest, hbefore, hafter⟩ := inHand_modify hx (.handling t.pool.queue.front)
    rw [hnone] at hbefore
    show (((t.pool.queue.pop t.pool.capacity).contents t.pool.capacity) ++ _).Perm _
    unfold State.custody
    rw [hring.contents_pop hcount]
    exact (hafter.append_left _).trans (List.perm_middle.trans
      ((hbefore.symm.append_left _).cons t.pool.queue.front))

/-- The steps of a worker other than the end of a request. -/
theorem custody_worker (hring : t.pool.queue.Wf t.pool.capacity) {e : Event}
    (hstep : State.workerStep e t = some t') (hrecord : ∀ w, e ≠ .record w) :
    t'.custody.Perm t.custody := by
  unfold State.workerStep at hstep
  cases e with
  | lock w =>
    simp only at hstep
    split at hstep
    next slot isCore hx hmutex =>
      cases hstep
      exact custody_taken hring hx rfl fun _ _ hr => Pool.nextTask_task hr
    next => cases hstep
  | wake w timedOut =>
    simp only at hstep
    split at hstep
    next slot isCore hx hmutex =>
      cases hstep
      exact custody_taken hring hx rfl fun _ _ hr => Pool.nextTask_task (Pool.afterWait_task hr)
    next => cases hstep
  | count w =>
    simp only at hstep
    split at hstep
    next hx =>
      cases hstep
      exact (inHand_same hx rfl rfl).append_left _
    next => cases hstep
  | unlock w =>
    simp only at hstep
    split at hstep
    next idle hx =>
      cases hstep
      exact (inHand_same hx rfl (by cases idle <;> rfl)).append_left _
    next => cases hstep
  | read w =>
    simp only at hstep
    split at hstep
    next hx =>
      cases hstep
      exact (inHand_same hx rfl rfl).append_left _
    next => cases hstep
  | record w => exact absurd rfl (hrecord w)
  | _ => cases hstep

/-- **The end of a request**: the worker gives back the descriptor it has. -/
theorem custody_record {w : Nat} (hstep : State.workerStep (.record w) t = some t') :
    ∃ x clientFd, t.threads[w]? = some x ∧ x.stage = .handling clientFd ∧
      t.custody.Perm (clientFd :: t'.custody) := by
  simp only [State.workerStep] at hstep
  split at hstep
  next slot isCore clientFd hx =>
    cases hstep
    obtain ⟨rest, hbefore, hafter⟩ := inHand_modify hx .entering
    refine ⟨_, clientFd, hx, rfl, ?_⟩
    exact (hbefore.append_left _).trans (List.perm_middle.trans
      ((hafter.symm.append_left _).cons clientFd))
  next => cases hstep

/-! ## The owner -/

/-- A critical section of `thread_pool_add_task` takes the descriptor into custody, if it enqueues
it. -/
theorem custody_added (hring : t.pool.queue.Wf t.pool.capacity) {clientFd : Int} {r : Pool.Added}
    (hqueued : ∀ pool shouldSpawn, r = .queued pool shouldSpawn →
      t.pool.queue.count < t.pool.capacity ∧ t.pool.shutdown = false ∧
        pool = { t.pool with queue := t.pool.queue.push t.pool.capacity clientFd }) :
    (t.added clientFd r).custody.Perm
      (match r with
        | .queued _ _ => clientFd :: t.custody
        | _ => t.custody) := by
  cases r with
  | wait => exact List.Perm.refl _
  | rejected => exact List.Perm.refl _
  | queued pool shouldSpawn =>
    obtain ⟨hroom, -, rfl⟩ := hqueued pool shouldSpawn rfl
    show (((t.pool.queue.push t.pool.capacity clientFd).contents t.pool.capacity) ++ _).Perm _
    rw [hring.contents_push hroom, List.append_assoc]
    exact List.perm_middle

theorem spawnWorker_custody {isCore ok : Bool} {sp : Spawning} {r : Spawning ⊕ Bool}
    (hrun : t.spawnWorker isCore ok sp = some (r, t')) : t'.custody = t.custody := by
  cases sp with
  | start =>
    simp only [State.spawnWorker] at hrun
    split at hrun
    · cases hrun
    · cases hreserve : t.pool.reserve with
      | none =>
        rw [hreserve] at hrun
        cases hrun
        rfl
      | some taken =>
        rw [hreserve] at hrun
        cases hrun
        obtain ⟨hqueue, hcap, -⟩ := Pool.reserve_eq hreserve
        show taken.2.queue.contents taken.2.capacity ++ _ = _
        rw [hqueue, hcap]
        rfl
  | reserved slot =>
    simp only [State.spawnWorker] at hrun
    split at hrun
    · cases hrun
      show _ ++ inHand (t.threads ++ [_]) = _
      unfold inHand
      rw [List.filterMap_append]
      exact congrArg _ (List.append_nil _)
    · split at hrun <;> cases hrun
      rfl

/-- The steps of the owner other than those of `thread_pool_add_task`. -/
theorem custody_owner {e : Event} (hstep : State.ownerStep e t = some t')
    (hadd : ∀ clientFd, e ≠ .addTask clientFd) (hwake : e ≠ .wakeOwner) :
    t'.custody = t.custody := by
  unfold State.ownerStep at hstep
  cases e with
  | spawn ok =>
    simp only at hstep
    split at hstep
    · obtain ⟨⟨r, t₁⟩, hrun, rfl⟩ := Option.map_eq_some_iff.mp hstep
      rw [← spawnWorker_custody hrun]
      unfold State.created
      split <;> rfl
    · obtain ⟨⟨r, t₁⟩, hrun, rfl⟩ := Option.map_eq_some_iff.mp hstep
      rw [← spawnWorker_custody hrun]
      unfold State.spawned
      split <;> rfl
    · cases hstep
  | addTask clientFd => exact absurd rfl (hadd clientFd)
  | wakeOwner => exact absurd rfl hwake
  | shutdown =>
    simp only at hstep
    split at hstep <;> cases hstep
    rfl
  | destroy =>
    simp only at hstep
    split at hstep <;> cases hstep
    rfl
  | look =>
    simp only at hstep
    split at hstep
    · split at hstep <;> cases hstep
      rfl
    · cases hstep
  | join =>
    simp only at hstep
    split at hstep
    · split at hstep <;> cases hstep
      rfl
    · cases hstep
  | free =>
    simp only at hstep
    split at hstep
    · split at hstep <;> cases hstep
      rfl
    · cases hstep
  | _ => cases hstep

/-! ## Before the shutdown -/

/-- The owner has not called `thread_pool_shutdown`, and `thread_pool_create` has not failed. -/
def Owner.uses : Owner → Bool
  | .creating _ _ | .serving | .adding _ | .spawning _ => true
  | _ => false

/-- The flag is not set while the pool is used. -/
def State.Unshut (t : State) : Prop := t.owner.uses = true → t.pool.shutdown = false

theorem unshut_of_owner (h : t.owner.uses = false) : t.Unshut := fun huses => by
  rw [h] at huses
  cases huses

theorem taken_shutdown {w slot : Nat} {r : Pool.Taken}
    (htask : ∀ clientFd pool, r = .task clientFd pool → pool.shutdown = t.pool.shutdown) :
    (t.taken w slot r).pool.shutdown = t.pool.shutdown := by
  cases r with
  | wait => rfl
  | exit pool => rfl
  | task clientFd pool => exact htask clientFd pool rfl

theorem workerStep_shutdown {e : Event} (hstep : State.workerStep e t = some t') :
    t'.pool.shutdown = t.pool.shutdown := by
  unfold State.workerStep at hstep
  cases e with
  | lock w =>
    simp only at hstep
    split at hstep <;> cases hstep
    exact taken_shutdown fun _ _ hr => by rw [(Pool.nextTask_task hr).2.2]
  | wake w timedOut =>
    simp only at hstep
    split at hstep <;> cases hstep
    exact taken_shutdown fun _ _ hr => by rw [(Pool.nextTask_task (Pool.afterWait_task hr)).2.2]
  | count w =>
    simp only at hstep
    split at hstep <;> cases hstep
    rfl
  | unlock w =>
    simp only at hstep
    split at hstep <;> cases hstep
    rfl
  | read w =>
    simp only at hstep
    split at hstep <;> cases hstep
    rfl
  | record w =>
    simp only at hstep
    split at hstep <;> cases hstep
    rfl
  | _ => cases hstep

theorem spawnWorker_shutdown {isCore ok : Bool} {sp : Spawning} {r : Spawning ⊕ Bool}
    (hrun : t.spawnWorker isCore ok sp = some (r, t')) : t'.pool.shutdown = t.pool.shutdown := by
  cases sp with
  | start =>
    simp only [State.spawnWorker] at hrun
    split at hrun
    · cases hrun
    · cases hreserve : t.pool.reserve with
      | none =>
        rw [hreserve] at hrun
        cases hrun
        rfl
      | some taken =>
        rw [hreserve] at hrun
        cases hrun
        exact (Pool.reserve_eq hreserve).2.2
  | reserved slot =>
    simp only [State.spawnWorker] at hrun
    split at hrun
    · cases hrun
      rfl
    · split at hrun <;> cases hrun
      rfl

theorem unshut_added (h : t.pool.shutdown = false) {clientFd : Int} {r : Pool.Added}
    (hqueued : ∀ pool shouldSpawn, r = .queued pool shouldSpawn → pool.shutdown = false) :
    (t.added clientFd r).Unshut := by
  intro _
  cases r with
  | wait => exact h
  | rejected => exact h
  | queued pool shouldSpawn => exact hqueued pool shouldSpawn rfl

theorem awaitRoom_shutdown {pool pool' : Pool} {clientFd : Int} {shouldSpawn : Bool}
    (h : pool.awaitRoom clientFd = .queued pool' shouldSpawn) : pool'.shutdown = false := by
  obtain ⟨-, hshut, rfl⟩ := Pool.awaitRoom_queued h
  exact hshut

theorem State.Unshut.step (h : t.Unshut) {e : Event} (hstep : State.step e t = some t') :
    t'.Unshut := by
  rcases Option.or_eq_some_iff.mp hstep with hstep | ⟨-, hstep⟩
  · unfold State.ownerStep at hstep
    cases e with
    | spawn ok =>
      simp only at hstep
      split at hstep
      next left sp howner =>
        obtain ⟨⟨r, t₁⟩, hrun, rfl⟩ := Option.map_eq_some_iff.mp hstep
        have hfalse := (spawnWorker_shutdown hrun).trans (h (by rw [howner]; rfl))
        match r with
        | .inl sp' => exact fun _ => hfalse
        | .inr true => exact fun _ => hfalse
        | .inr false => exact unshut_of_owner rfl
      next sp howner =>
        obtain ⟨⟨r, t₁⟩, hrun, rfl⟩ := Option.map_eq_some_iff.mp hstep
        have hfalse := (spawnWorker_shutdown hrun).trans (h (by rw [howner]; rfl))
        match r with
        | .inl sp' => exact fun _ => hfalse
        | .inr ok' => exact fun _ => hfalse
      next => cases hstep
    | addTask clientFd =>
      simp only at hstep
      split at hstep
      next howner hmutex =>
        cases hstep
        exact unshut_added (h (by rw [howner]; rfl)) fun _ _ hr =>
          awaitRoom_shutdown (Pool.addTask_queued hr)
      next => cases hstep
    | wakeOwner =>
      simp only at hstep
      split at hstep
      next clientFd howner hmutex =>
        cases hstep
        exact unshut_added (h (by rw [howner]; rfl)) fun _ _ hr => awaitRoom_shutdown hr
      next => cases hstep
    | shutdown =>
      simp only at hstep
      split at hstep <;> cases hstep
      exact unshut_of_owner rfl
    | destroy =>
      simp only at hstep
      split at hstep <;> cases hstep
      exact unshut_of_owner rfl
    | look =>
      simp only at hstep
      split at hstep
      · split at hstep <;> cases hstep
        apply unshut_of_owner
        simp only
        split <;> rfl
      · cases hstep
    | join =>
      simp only at hstep
      split at hstep
      · split at hstep <;> cases hstep
        exact unshut_of_owner rfl
      · cases hstep
    | free =>
      simp only at hstep
      split at hstep
      · split at hstep <;> cases hstep
        exact unshut_of_owner rfl
      · cases hstep
    | _ => cases hstep
  · unfold State.Unshut at h ⊢
    rw [workerStep_owner hstep, workerStep_shutdown hstep]
    exact h

/-! ## Runs -/

theorem run_unshut {pool : Pool} (hpool : pool.shutdown = false) {events : List Event}
    (hrun : runs State.step events (State.start pool) = some t) : t.Unshut :=
  runs_invariant (fun _ _ _ h hstep => State.Unshut.step h hstep) (fun _ => hpool) hrun

/-- The ring is in order all the time. -/
theorem run_ring {coreSize maxSize queueCapacity : Int} {pool : Pool}
    (hcreate : threadPoolCreate coreSize maxSize queueCapacity = some pool)
    {events : List Event} (hrun : runs State.step events (State.start pool) = some t) :
    t.pool.queue.Wf t.pool.capacity := by
  obtain ⟨es, s, hrun', hrefines⟩ := run_refines hrun
  obtain ⟨hqueue, hcap, -⟩ := threadPoolCreate_eq_some hcreate
  have hsound : Sound pool.capacity s :=
    runs_invariant (fun _ _ _ h hstep => Sound.step h hstep) (sound_start hqueue hcap) hrun'
  have hring := hsound.ring
  rw [hrefines.same.pool] at hring
  exact hring

/-- When no worker is in its loop, the pool has no descriptor. -/
theorem run_returned {coreSize maxSize queueCapacity : Int} {pool : Pool}
    (hcreate : threadPoolCreate coreSize maxSize queueCapacity = some pool)
    {events : List Event} (hrun : runs State.step events (State.start pool) = some t)
    (hidle : ∀ x ∈ t.threads, x.stage.working = false) : t.custody = [] := by
  obtain ⟨-, hcount, -⟩ := run_drained hcreate hrun hidle
  unfold State.custody inHand
  rw [Ring.contents_eq_nil hcount, List.nil_append, List.filterMap_eq_nil_iff]
  intro x hx
  have hx := hidle x hx
  cases hstage : x.stage <;> rw [hstage] at hx <;> first | rfl | cases hx

end

end MiniWeb.ThreadPool.Teardown
