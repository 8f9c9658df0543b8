import MiniWeb.ThreadPool.Schedule
import Mathlib.Data.List.Nodup

/-!
# The pool is a first-in first-out queue

In every interleaving the accepted descriptors are those dequeued followed by those in the ring
(`Sound.fifo`), so none is lost, repeated or overtaken. A core worker leaves only when the pool
shuts down and the ring is empty (`Sound.drained`), after which nothing is accepted; since there
is a core worker once the pool can be used, the queue is empty when all workers have left.
-/

namespace MiniWeb.ThreadPool

open Runs

/-- The call has put its descriptor into the queue. -/
def Call.enqueued : Call → Bool
  | .waiting _ => false
  | .spawning _ => true
  | .returned zero => zero

/-- What holds of the queue and the workers in every state of a schedule. -/
structure Sound (cap : Nat) (s : System) : Prop where
  capacity : s.pool.capacity = cap
  ring : s.pool.queue.Wf s.pool.capacity
  fifo : s.accepted.map Prod.snd =
    s.dequeued.map Prod.snd ++ s.pool.queue.contents s.pool.capacity
  drained : ∀ (w : Nat) (x : Worker), s.workers[w]? = some x → x.isCore = true → x.state = .exited →
    s.pool.shutdown = true ∧ s.pool.queue.count = 0
  core : s.creation = .returned → ∃ x ∈ s.workers, x.isCore = true
  idle : s.creation ≠ .returned → ∀ c, s.calls c = none

/-- The accepted descriptors are those of the calls that have put theirs into the queue, one
each. -/
structure Accounted (s : System) : Prop where
  distinct : (s.accepted.map Prod.fst).Nodup
  enqueued : ∀ c, (∃ clientFd, (c, clientFd) ∈ s.accepted) ↔
    ∃ call, s.calls c = some call ∧ call.enqueued = true

/-- A step that leaves the queue alone. Only a worker that has already left is new as an exited
core worker. -/
structure Quiet (s s' : System) : Prop where
  queue : s'.pool.queue = s.pool.queue
  capacity : s'.pool.capacity = s.pool.capacity
  shutdown : s.pool.shutdown = true → s'.pool.shutdown = true
  accepted : s'.accepted = s.accepted
  dequeued : s'.dequeued = s.dequeued
  exited : ∀ (w : Nat) (x : Worker), s'.workers[w]? = some x → x.isCore = true → x.state = .exited →
    s.workers[w]? = some x ∨ s.pool.shutdown = true ∧ s.pool.queue.count = 0
  core : (∃ x ∈ s.workers, x.isCore = true) → ∃ x ∈ s'.workers, x.isCore = true

section

variable {cap : Nat} {s s' : System}

theorem Sound.quiet (h : Sound cap s) (hq : Quiet s s')
    (hcore : s'.creation = .returned →
      s.creation = .returned ∨ ∃ x ∈ s'.workers, x.isCore = true)
    (hidle : s'.creation ≠ .returned → ∀ c, s'.calls c = none) : Sound cap s' := by
  refine ⟨hq.capacity.trans h.capacity, ?_, ?_, fun w x hw hx hexit => ?_, fun hret => ?_,
    hidle⟩
  · rw [hq.queue, hq.capacity]
    exact h.ring
  · rw [hq.queue, hq.capacity, hq.accepted, hq.dequeued]
    exact h.fifo
  · rw [hq.queue]
    rcases hq.exited w x hw hx hexit with hold | ⟨hshut, hzero⟩
    · obtain ⟨hshut, hzero⟩ := h.drained w x hold hx hexit
      exact ⟨hq.shutdown hshut, hzero⟩
    · exact ⟨hq.shutdown hshut, hzero⟩
  · rcases hcore hret with hret | hcore
    · exact hq.core (h.core hret)
    · exact hcore

/-! ## Changing one worker -/

theorem getElem?_setWorker {w i : Nat} {state : WorkerState} {x : Worker}
    (h : (s.setWorker w state).workers[i]? = some x) :
    ∃ y, s.workers[i]? = some y ∧ x.isCore = y.isCore ∧
      (i = w ∧ x.state = state ∨ i ≠ w ∧ x = y) := by
  unfold System.setWorker at h
  rw [List.getElem?_modify] at h
  obtain ⟨y, hy, hx⟩ := Option.map_eq_some_iff.mp h
  refine ⟨y, hy, ?_⟩
  by_cases hi : w = i
  · rw [if_pos hi] at hx
    subst hx
    exact ⟨rfl, .inl ⟨hi.symm, rfl⟩⟩
  · rw [if_neg hi] at hx
    subst hx
    exact ⟨rfl, .inr ⟨fun h => hi h.symm, rfl⟩⟩

theorem setWorker_core {w : Nat} {state : WorkerState}
    (h : ∃ x ∈ s.workers, x.isCore = true) :
    ∃ x ∈ (s.setWorker w state).workers, x.isCore = true := by
  obtain ⟨x, hx, hcore⟩ := h
  obtain ⟨i, hi⟩ := List.mem_iff_getElem?.mp hx
  refine ⟨if w = i then { x with state := state } else x, ?_, ?_⟩
  · apply List.mem_iff_getElem?.mpr
    refine ⟨i, ?_⟩
    unfold System.setWorker
    rw [List.getElem?_modify, hi]
    split <;> rfl
  · split <;> exact hcore

/-- A worker goes on, waits or leaves. -/
theorem Quiet.setWorker {w : Nat} {state : WorkerState} {pool : Pool}
    (hqueue : pool.queue = s.pool.queue) (hcap : pool.capacity = s.pool.capacity)
    (hshut : pool.shutdown = s.pool.shutdown)
    (hexit : state = .exited → ∀ x, s.workers[w]? = some x → x.isCore = true →
      s.pool.shutdown = true ∧ s.pool.queue.count = 0) :
    Quiet s ({ s with pool := pool }.setWorker w state) := by
  refine ⟨hqueue, hcap, fun h => hshut.trans h, rfl, rfl, fun i x hi hx hstate => ?_,
    setWorker_core⟩
  obtain ⟨y, hy, hcore, ⟨rfl, hst⟩ | ⟨-, rfl⟩⟩ := getElem?_setWorker hi
  · exact .inr (hexit (hst.symm.trans hstate) y hy (hcore ▸ hx))
  · exact .inl hy

/-! ## Spawning -/

/-- A step of `spawn_worker` leaves everything but the slots alone, and may add a running
worker. -/
theorem spawnWorker_spec {isCore ok : Bool} {sp : Spawning} {r : Spawning ⊕ Bool}
    (h : s.spawnWorker isCore ok sp = (r, s')) :
    Quiet s s' ∧ s'.calls = s.calls ∧ s'.creation = s.creation ∧
      (r = .inr true → ∃ x ∈ s'.workers, x.isCore = isCore) := by
  unfold System.spawnWorker at h
  cases sp with
  | start =>
    cases hres : s.pool.reserve with
    | none =>
      simp only [hres] at h
      obtain ⟨rfl, rfl⟩ := Prod.mk.inj h
      exact ⟨⟨rfl, rfl, id, rfl, rfl, fun _ _ hw _ _ => .inl hw, id⟩, rfl, rfl,
        fun hr => by cases hr⟩
    | some p =>
      obtain ⟨slot, pool⟩ := p
      simp only [hres] at h
      obtain ⟨rfl, rfl⟩ := Prod.mk.inj h
      obtain ⟨hqueue, hcap, hshut⟩ := Pool.reserve_eq hres
      exact ⟨⟨hqueue, hcap, fun h => hshut.trans h, rfl, rfl, fun _ _ hw _ _ => .inl hw, id⟩,
        rfl, rfl, fun hr => by cases hr⟩
  | reserved slot =>
    cases ok with
    | false =>
      obtain ⟨rfl, rfl⟩ := Prod.mk.inj h
      exact ⟨⟨rfl, rfl, id, rfl, rfl, fun _ _ hw _ _ => .inl hw, id⟩, rfl, rfl,
        fun hr => by cases hr⟩
    | true =>
      obtain ⟨rfl, rfl⟩ := Prod.mk.inj h
      refine ⟨⟨rfl, rfl, id, rfl, rfl, fun w x hw hx hstate => ?_, ?_⟩, rfl, rfl, fun _ => ?_⟩
      · by_cases hlt : w < s.workers.length
        · rw [List.getElem?_append_left hlt] at hw
          exact .inl hw
        · rw [List.getElem?_append_right (Nat.le_of_not_lt hlt)] at hw
          obtain rfl := List.mem_singleton.mp (List.mem_of_getElem? hw)
          cases hstate
      · rintro ⟨x, hx, hcore⟩
        exact ⟨x, List.mem_append_left _ hx, hcore⟩
      · exact ⟨_, List.mem_append_right _ (List.mem_singleton_self _), rfl⟩

/-! ## One step -/

theorem Quiet.setCall {c : Nat} {call : Call} : Quiet s (s.setCall c call) :=
  ⟨rfl, rfl, id, rfl, rfl, fun _ _ hw _ _ => .inl hw, id⟩

/-- A worker's critical section. -/
theorem Sound.taken (h : Sound cap s) {w : Nat} {x : Worker} (hx : s.workers[w]? = some x)
    {r : Pool.Taken} (hr : s.Section x r) :
    Sound cap (s.taken w r) := by
  cases r with
  | wait =>
    have hq : Quiet s (s.taken w .wait) :=
      Quiet.setWorker rfl rfl rfl fun hstate => by cases hstate
    exact h.quiet hq .inl h.idle
  | exit pool =>
    obtain ⟨hzero, hcore, rfl⟩ := hr.exit pool rfl
    have hq : Quiet s ({ s with pool := s.pool.release x.slot }.setWorker w .exited) := by
      apply Quiet.setWorker
      · rfl
      · rfl
      · rfl
      · intro _ y hy hycore
        obtain rfl := Option.some.inj (hx.symm.trans hy)
        exact ⟨hcore hycore, hzero⟩
    exact h.quiet hq .inl h.idle
  | task clientFd pool =>
    obtain ⟨hpos, rfl, rfl⟩ := hr.task clientFd pool rfl
    refine ⟨h.capacity, h.ring.pop hpos, ?_, fun i y hi hy hstate => ?_, fun hret => ?_, h.idle⟩
    · show s.accepted.map Prod.snd = (s.dequeued ++ [(w, s.pool.queue.front)]).map Prod.snd ++
        (s.pool.queue.pop s.pool.capacity).contents s.pool.capacity
      rw [h.fifo, h.ring.contents_pop hpos, List.map_append, List.append_assoc]
      rfl
    · obtain ⟨z, hz, hzcore, ⟨-, hst⟩ | ⟨-, rfl⟩⟩ := getElem?_setWorker hi
      · rw [hst] at hstate
        cases hstate
      · exact absurd (h.drained i y hz hy hstate).2 hpos
    · exact setWorker_core (h.core hret)

/-- A critical section of `thread_pool_add_task`. -/
theorem Sound.added (h : Sound cap s) (hret : s.creation = .returned) {c : Nat} {clientFd : Int}
    {r : Pool.Added}
    (hqueued : ∀ pool shouldSpawn, r = .queued pool shouldSpawn →
      s.pool.queue.count < s.pool.capacity ∧ s.pool.shutdown = false ∧
        pool = { s.pool with queue := s.pool.queue.push s.pool.capacity clientFd }) :
    Sound cap (s.added c clientFd r) := by
  cases r with
  | wait => exact h.quiet Quiet.setCall .inl fun hne => absurd hret hne
  | rejected => exact h.quiet Quiet.setCall .inl fun hne => absurd hret hne
  | queued pool shouldSpawn =>
    obtain ⟨hroom, hshut, rfl⟩ := hqueued pool shouldSpawn rfl
    refine ⟨h.capacity, h.ring.push hroom, ?_, fun w x hw hx hstate => ?_, h.core,
      fun hne => absurd hret hne⟩
    · show (s.accepted ++ [(c, clientFd)]).map Prod.snd = s.dequeued.map Prod.snd ++
        (s.pool.queue.push s.pool.capacity clientFd).contents s.pool.capacity
      rw [h.ring.contents_push hroom, List.map_append, h.fifo, List.append_assoc]
      rfl
    · -- a core worker that has left saw the shutdown
      obtain ⟨htrue, -⟩ := h.drained w x hw hx hstate
      rw [hshut] at htrue
      cases htrue

/-- A step of `thread_pool_create`, before the pool is used. -/
theorem Sound.spawnCore (h : Sound cap s) {ok : Bool} {left : Nat} {sp : Spawning}
    (hcreation : s.creation = .spawning left sp) : Sound cap (s.spawnCore ok left sp) := by
  have hcalls : ∀ c, s.calls c = none := h.idle (by rw [hcreation]; exact fun h => by cases h)
  unfold System.spawnCore
  rcases hspawn : s.spawnWorker true ok sp with ⟨r, s₁⟩
  obtain ⟨hq, hcall, -, hnew⟩ := spawnWorker_spec hspawn
  rw [← hcall] at hcalls
  match r with
  | .inl sp' =>
    exact h.quiet ⟨hq.queue, hq.capacity, hq.shutdown, hq.accepted, hq.dequeued, hq.exited,
      hq.core⟩ (fun hret => by cases hret) fun _ => hcalls
  | .inr true =>
    exact h.quiet ⟨hq.queue, hq.capacity, hq.shutdown, hq.accepted, hq.dequeued, hq.exited,
      hq.core⟩ (fun _ => .inr (hnew rfl)) fun _ => hcalls
  | .inr false =>
    exact h.quiet ⟨hq.queue, hq.capacity, fun _ => rfl, hq.accepted, hq.dequeued, hq.exited,
      hq.core⟩ (fun hret => by cases hret) fun _ => hcalls

theorem Sound.spawnExtra (h : Sound cap s) (hret : s.creation = .returned) {c : Nat} {ok : Bool}
    {sp : Spawning} : Sound cap (s.spawnExtra c ok sp) := by
  unfold System.spawnExtra
  rcases hspawn : s.spawnWorker false ok sp with ⟨r, s₁⟩
  obtain ⟨hq, -, hcreation, -⟩ := spawnWorker_spec hspawn
  have hret₁ : s₁.creation = .returned := hcreation.trans hret
  cases r with
  | inl sp' =>
    exact h.quiet ⟨hq.queue, hq.capacity, hq.shutdown, hq.accepted, hq.dequeued, hq.exited,
      hq.core⟩ (fun _ => .inl hret) fun hne => absurd hret₁ hne
  | inr zero =>
    exact h.quiet ⟨hq.queue, hq.capacity, hq.shutdown, hq.accepted, hq.dequeued, hq.exited,
      hq.core⟩ (fun _ => .inl hret) fun hne => absurd hret₁ hne

/-- A call exists only after `thread_pool_create` has returned the pool. -/
theorem Sound.returned (h : Sound cap s) {c : Nat} {call : Call} (hc : s.calls c = some call) :
    s.creation = .returned := by
  by_contra hne
  rw [h.idle hne c] at hc
  cases hc

theorem Sound.step (h : Sound cap s) {e : Event} (hstep : System.step e s = some s') :
    Sound cap s' := by
  cases System.step_next hstep with
  | spawnCore hcreation => exact h.spawnCore hcreation
  | call hreturned hc =>
    exact h.added hreturned fun pool shouldSpawn hr => Pool.awaitRoom_queued (Pool.addTask_queued hr)
  | wakeCall hc => exact h.added (h.returned hc) fun pool shouldSpawn hr => Pool.awaitRoom_queued hr
  | spawnExtra hc => exact h.spawnExtra (h.returned hc)
  | work hx hlive hr => exact h.taken hx hr
  | @finish w x hx hlive =>
    have hq : Quiet s ({ s with pool := s.pool }.setWorker w .running) :=
      Quiet.setWorker rfl rfl rfl fun hstate => by cases hstate
    exact h.quiet hq .inl h.idle
  | shutdown hreturned =>
    exact h.quiet ⟨rfl, rfl, fun _ => rfl, rfl, rfl, fun _ _ hw _ _ => .inl hw, id⟩ .inl h.idle

/-! ## The calls -/

theorem accounted_start (pool : Pool) : Accounted (System.start pool) :=
  ⟨List.nodup_nil, fun c => by simp [System.start]⟩

theorem Accounted.congr (h : Accounted s) (haccepted : s'.accepted = s.accepted)
    (hcalls : s'.calls = s.calls) : Accounted s' := by
  refine ⟨?_, fun c => ?_⟩
  · rw [haccepted]
    exact h.distinct
  · rw [haccepted, hcalls]
    exact h.enqueued c

/-- A call goes on that has put its descriptor into the queue, or has not and still does not. -/
theorem Accounted.setCall (h : Accounted s) {c : Nat} {call : Call}
    (hsame : call.enqueued = true ↔ ∃ old, s.calls c = some old ∧ old.enqueued = true) :
    Accounted (s.setCall c call) := by
  refine ⟨h.distinct, fun c' => (h.enqueued c').trans ?_⟩
  by_cases hc : c' = c
  · subst hc
    rw [← hsame]
    simp [System.setCall]
  · simp [System.setCall, Function.update_of_ne hc]

/-- A call without a descriptor in the queue puts it there. -/
theorem Accounted.enqueue (h : Accounted s) {c : Nat} {clientFd : Int} {call : Call} {pool : Pool}
    (hnew : ∀ old, s.calls c = some old → old.enqueued = false) (hcall : call.enqueued = true) :
    Accounted ({ s with pool := pool, accepted := s.accepted ++ [(c, clientFd)] }.setCall c call)
    := by
  have hfresh : ∀ fd, (c, fd) ∉ s.accepted := by
    intro fd hmem
    obtain ⟨old, hold, henq⟩ := (h.enqueued c).mp ⟨fd, hmem⟩
    rw [hnew old hold] at henq
    cases henq
  refine ⟨?_, fun c' => ?_⟩
  · show ((s.accepted ++ [(c, clientFd)]).map Prod.fst).Nodup
    rw [List.map_append, List.nodup_append]
    refine ⟨h.distinct, List.nodup_singleton c, fun a ha b hb hab => ?_⟩
    obtain ⟨⟨c', fd⟩, hmem, rfl⟩ := List.mem_map.mp ha
    obtain rfl : b = c := by simpa using hb
    subst hab
    exact hfresh fd hmem
  · show (∃ fd, (c', fd) ∈ s.accepted ++ [(c, clientFd)]) ↔
      ∃ call', Function.update s.calls c (some call) c' = some call' ∧ call'.enqueued = true
    by_cases hc : c' = c
    · subst hc
      simp [hcall]
    · rw [Function.update_of_ne hc, ← h.enqueued c']
      simp [hc]

theorem Accounted.added (h : Accounted s) {c : Nat} {clientFd : Int} {r : Pool.Added}
    (hnew : ∀ old, s.calls c = some old → old.enqueued = false) :
    Accounted (s.added c clientFd r) := by
  have hnone : ¬ ∃ old, s.calls c = some old ∧ old.enqueued = true := by
    rintro ⟨old, hold, henq⟩
    rw [hnew old hold] at henq
    cases henq
  cases r with
  | wait => exact h.setCall ⟨fun h => (by cases h), fun h => absurd h hnone⟩
  | rejected => exact h.setCall ⟨fun h => (by cases h), fun h => absurd h hnone⟩
  | queued pool shouldSpawn =>
    apply h.enqueue hnew
    cases shouldSpawn <;> rfl

theorem Accounted.taken (h : Accounted s) {w : Nat} {r : Pool.Taken} :
    Accounted (s.taken w r) := by
  cases r with
  | wait => exact h.congr rfl rfl
  | exit pool => exact h.congr rfl rfl
  | task clientFd pool => exact h.congr rfl rfl

theorem Accounted.spawnCore (h : Accounted s) {ok : Bool} {left : Nat} {sp : Spawning} :
    Accounted (s.spawnCore ok left sp) := by
  unfold System.spawnCore
  rcases hspawn : s.spawnWorker true ok sp with ⟨r, s₁⟩
  obtain ⟨hq, hcalls, -, -⟩ := spawnWorker_spec hspawn
  match r with
  | .inl sp' => exact h.congr hq.accepted hcalls
  | .inr true => exact h.congr hq.accepted hcalls
  | .inr false => exact h.congr hq.accepted hcalls

theorem Accounted.spawnExtra (h : Accounted s) {c : Nat} {ok : Bool} {sp : Spawning}
    (hc : s.calls c = some (.spawning sp)) : Accounted (s.spawnExtra c ok sp) := by
  unfold System.spawnExtra
  rcases hspawn : s.spawnWorker false ok sp with ⟨r, s₁⟩
  obtain ⟨hq, hcalls, -, -⟩ := spawnWorker_spec hspawn
  have h₁ : Accounted s₁ := h.congr hq.accepted hcalls
  have hold : ∃ old, s₁.calls c = some old ∧ old.enqueued = true :=
    ⟨_, (congrFun hcalls c).trans hc, rfl⟩
  cases r with
  | inl sp' => exact h₁.setCall ⟨fun _ => hold, fun _ => rfl⟩
  | inr zero => exact h₁.setCall ⟨fun _ => hold, fun _ => rfl⟩

theorem Accounted.step (h : Accounted s) {e : Event} (hstep : System.step e s = some s') :
    Accounted s' := by
  cases System.step_next hstep with
  | spawnCore hcreation => exact h.spawnCore
  | call hreturned hc =>
    apply h.added
    intro old hold
    rw [hc] at hold
    cases hold
  | wakeCall hc =>
    apply h.added
    intro old hold
    rw [hc] at hold
    cases hold
    rfl
  | spawnExtra hc => exact h.spawnExtra hc
  | work hx hlive hr => exact h.taken
  | finish hx hlive => exact h.congr rfl rfl
  | shutdown hreturned => exact h.congr rfl rfl

/-! ## Schedules -/

theorem threadPoolCreate_eq_some {coreSize maxSize queueCapacity : Int} {pool : Pool}
    (h : threadPoolCreate coreSize maxSize queueCapacity = some pool) :
    pool.queue = ⟨fun _ => 0, 0, 0, 0⟩ ∧ 0 < pool.capacity ∧
      (pool.capacity : Int) = queueCapacity := by
  unfold threadPoolCreate at h
  split at h
  · cases h
  next hargs =>
    cases h
    refine ⟨rfl, ?_, ?_⟩
    · show 0 < queueCapacity.toNat
      omega
    · show (queueCapacity.toNat : Int) = queueCapacity
      omega

theorem sound_start {pool : Pool} (hqueue : pool.queue = ⟨fun _ => 0, 0, 0, 0⟩)
    (hcap : 0 < pool.capacity) : Sound pool.capacity (System.start pool) := by
  refine ⟨rfl, ?_, ?_, fun w x hw => ?_, fun h => ?_, fun _ _ => rfl⟩
  · show pool.queue.Wf pool.capacity
    rw [hqueue]
    exact ⟨hcap, Nat.zero_le _, (Nat.zero_mod _).symm⟩
  · show [] = [] ++ pool.queue.contents pool.capacity
    rw [hqueue]
    rfl
  · cases hw
  · cases h

/-- When all workers have left, nothing is left in the ring. -/
theorem Sound.all_dequeued (h : Sound cap s) (hacc : Accounted s)
    (hexit : ∀ x ∈ s.workers, x.state = .exited) :
    s.dequeued.map Prod.snd = s.accepted.map Prod.snd := by
  have hempty : s.pool.queue.contents s.pool.capacity = [] := by
    by_cases hret : s.creation = .returned
    · obtain ⟨x, hx, hcore⟩ := h.core hret
      obtain ⟨w, hw⟩ := List.mem_iff_getElem?.mp hx
      exact Ring.contents_eq_nil (h.drained w x hw hcore (hexit x hx)).2
    · -- before the pool is used nothing has been accepted
      have hnil : s.accepted = [] := by
        apply List.eq_nil_iff_forall_not_mem.mpr
        rintro ⟨c, clientFd⟩ hmem
        obtain ⟨call, hcall, -⟩ := (hacc.enqueued c).mp ⟨clientFd, hmem⟩
        rw [h.idle hret c] at hcall
        cases hcall
      have hfifo := h.fifo
      rw [hnil] at hfifo
      exact (List.append_eq_nil_iff.mp hfifo.symm).2
  rw [h.fifo, hempty, List.append_nil]

end

/-- **The thread pool is a queue.** For all sizes `thread_pool_create` accepts and in every
interleaving: the descriptors dequeued are the first of those accepted, in their order, one worker
for each; those accepted are the descriptors of the calls that return 0, one for each call; the
count and the positions of the ring are in order; and when the pool shuts down and every worker
has left, all accepted descriptors have been dequeued. -/
theorem schedule_fifo {coreSize maxSize queueCapacity : Int} {pool : Pool}
    (hcreate : threadPoolCreate coreSize maxSize queueCapacity = some pool)
    {events : List Event} {s : System}
    (hrun : runs System.step events (System.start pool) = some s) :
    (s.dequeued.map Prod.snd <+: s.accepted.map Prod.snd) ∧
      (s.accepted.map Prod.fst).Nodup ∧
      (∀ c, (∃ clientFd, (c, clientFd) ∈ s.accepted) ↔
        ∃ call, s.calls c = some call ∧ call.enqueued = true) ∧
      (s.pool.capacity : Int) = queueCapacity ∧
      s.pool.queue.count ≤ s.pool.capacity ∧
      s.pool.queue.tail = (s.pool.queue.head + s.pool.queue.count) % s.pool.capacity ∧
      (s.pool.shutdown = true → (∀ x ∈ s.workers, x.state = .exited) →
        s.dequeued.map Prod.snd = s.accepted.map Prod.snd) := by
  obtain ⟨hqueue, hcap, hcapacity⟩ := threadPoolCreate_eq_some hcreate
  have h : Sound pool.capacity s :=
    runs_invariant (fun _ _ _ h hstep => h.step hstep) (sound_start hqueue hcap) hrun
  have hacc : Accounted s :=
    runs_invariant (fun _ _ _ h hstep => h.step hstep) (accounted_start pool) hrun
  refine ⟨?_, hacc.distinct, hacc.enqueued, ?_, h.ring.count_le, h.ring.tail_eq,
    fun _ => h.all_dequeued hacc⟩
  · rw [h.fifo]
    exact List.prefix_append _ _
  · rw [h.capacity]
    exact hcapacity

/-- Two connections, an extra worker, and a shutdown that drains the queue. -/
def smallSchedule : List Event :=
  [.spawnCore true, .spawnCore true, .call 0 7, .spawnExtra 0 true, .spawnExtra 0 true, .call 1 9,
    .work 1, .shutdown, .work 0, .finish 1, .work 1, .finish 0, .work 0]

def smallPool : Pool := (threadPoolCreate 1 2 2).get (by decide +kernel)

def smallEnd : System :=
  (runs System.step smallSchedule (System.start smallPool)).get (by decide +kernel)

theorem schedule_fifo_example :
    threadPoolCreate 1 2 2 = some smallPool ∧
      runs System.step smallSchedule (System.start smallPool) = some smallEnd ∧
      smallEnd.dequeued.map Prod.snd = smallEnd.accepted.map Prod.snd ∧
      smallEnd.dequeued = [(1, 7), (0, 9)] := by
  have hcreate : threadPoolCreate 1 2 2 = some smallPool := (Option.some_get _).symm
  have hrun : runs System.step smallSchedule (System.start smallPool) = some smallEnd :=
    (Option.some_get _).symm
  obtain ⟨-, -, -, -, -, -, hall⟩ := schedule_fifo hcreate hrun
  exact ⟨hcreate, hrun, hall (by decide +kernel) (by decide +kernel), by decide +kernel⟩

end MiniWeb.ThreadPool
