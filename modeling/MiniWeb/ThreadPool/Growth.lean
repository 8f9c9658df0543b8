import MiniWeb.ThreadPool.Bookkeeping

/-!
# When the pool grows

A worker waits on `not_empty` until a signal or a broadcast has reached it, its time is up or it
wakes for no reason; from the signal until it runs it is no longer blocked. `Monitor` adds to the
schedules which workers a signal has reached.

The check after an enqueue looks at `count`, which the enqueue has just made positive, so what
decides is `num_workers < max_size` alone. The pool therefore grows only when it is busy as long as
no descriptor is enqueued while a worker is blocked and a slot is free.
-/

namespace MiniWeb.ThreadPool

open Runs Slots

/-- The event ends in the enqueue of `thread_pool_add_task`. -/
def Event.enqueues : Event → System → Bool
  | .call c _, s =>
    (match s.creation, s.calls c with
      | .returned, none => true
      | _, _ => false) && !s.pool.shutdown && decide (s.pool.queue.count < s.pool.capacity)
  | .wakeCall c, s =>
    (match s.calls c with
      | some (.waiting _) => true
      | _ => false) && !s.pool.shutdown && decide (s.pool.queue.count < s.pool.capacity)
  | _, _ => false

/-- The worker whose critical section the event is. -/
def Event.worker : Event → Option Nat
  | .work w => some w
  | .wake w _ => some w
  | _ => none

/-- A schedule's state with the workers that were reached by a signal and have not run since. -/
structure Monitor where
  sys : System
  reached : Nat → Bool

namespace Monitor

def start (pool : Pool) : Monitor := ⟨System.start pool, fun _ => false⟩

variable (m : Monitor)

/-- Worker `w` is blocked on `not_empty`. -/
def blocked (w : Nat) : Bool :=
  m.sys.workers[w]?.any (fun x => decide (x.state = .waiting)) && !m.reached w

/-- There is an idle worker. -/
def idle : Bool := (List.range m.sys.workers.length).any m.blocked

/-- One event. For an enqueue, `hit` tells which of the blocked workers its signal unblocks: at
least one, if there are any. -/
def step : Event × (Nat → Bool) → Monitor → Option Monitor
  | (e, hit), m =>
    (System.step e m.sys).bind fun sys =>
      if e.enqueues m.sys then
        let signalled := fun w => hit w && m.blocked w
        if m.idle && !(List.range m.sys.workers.length).any signalled then none
        else some ⟨sys, fun w => m.reached w || signalled w⟩
      else
        -- the broadcast of a shutdown reaches every worker
        if sys.pool.shutdown && !m.sys.pool.shutdown then some ⟨sys, fun _ => true⟩
        else
          some ⟨sys, match e.worker with
            | some w => Function.update m.reached w false
            | none => m.reached⟩

/-- The event does not enqueue while a worker is blocked and a slot is free. -/
def busy : Event × (Nat → Bool) → Monitor → Bool
  | (e, _), m =>
    !e.enqueues m.sys || decide (m.sys.pool.numWorkers = m.sys.pool.maxSize) || !m.idle

end Monitor

/-- A call has come to `spawn_worker`. -/
def System.spawns (s : System) (c : Nat) : Prop := s.calls c = some (.spawning .start)

/-- The pool grows only when it is busy: a call comes to `spawn_worker` only from a state without
an idle worker, and while there is always an idle worker, starting when no spawning is under way,
the number of workers does not grow. -/
structure GrowsWhenBusy (pool : Pool) (events : List (Event × (Nat → Bool))) : Prop where
  spawns : ∀ pre e post m m', events = pre ++ e :: post →
    runs Monitor.step pre (.start pool) = some m → Monitor.step e m = some m' →
    ∀ c, m'.sys.spawns c → m.sys.spawns c ∨ m.idle = false
  stays : ∀ pre mid post m m', events = pre ++ (mid ++ post) →
    runs Monitor.step pre (.start pool) = some m → runs Monitor.step mid m = some m' →
    m.sys.creation = .returned → (∀ c sp, m.sys.calls c ≠ some (.spawning sp)) →
    along Monitor.step (fun _ m => m.idle) mid m = true →
    m'.sys.pool.numWorkers ≤ m.sys.pool.numWorkers

section

variable {s s' : System} {e : Event} {c : Nat}

/-! ## One step -/

/-- Whether a call that enqueues goes on to `spawn_worker` depends on the free slots only. -/
theorem awaitRoom_room {pool : Pool} (clientFd : Int) (hshut : pool.shutdown = false)
    (hroom : pool.queue.count < pool.capacity) :
    ∃ pool', pool.awaitRoom clientFd =
      .queued pool' (decide (pool.numWorkers < pool.maxSize)) := by
  refine ⟨{ pool with queue := pool.queue.push pool.capacity clientFd }, ?_⟩
  have hwait : ¬(pool.capacity ≤ pool.queue.count ∧ pool.shutdown = false) :=
    fun h => absurd h.1 (Nat.not_le_of_lt hroom)
  have hpos : 0 < (pool.queue.push pool.capacity clientFd).count := Nat.succ_pos _
  rw [Pool.awaitRoom, if_neg hwait, hshut]
  simp only [Bool.false_eq_true, if_false, hpos, true_and]

theorem calls_spawnCore {ok : Bool} {left : Nat} {sp : Spawning} :
    (s.spawnCore ok left sp).calls = s.calls := by
  unfold System.spawnCore
  rcases hspawn : s.spawnWorker true ok sp with ⟨r, s₁⟩
  obtain ⟨-, hcalls, -, -⟩ := spawnWorker_spec hspawn
  match r with
  | .inl sp' => exact hcalls
  | .inr true => exact hcalls
  | .inr false => exact hcalls

theorem calls_taken {w : Nat} {r : Pool.Taken} : (s.taken w r).calls = s.calls := by
  cases r <;> rfl

theorem spawns_setCall {d : Nat} {call : Call} (h : (s.setCall d call).spawns c) :
    s.spawns c ∨ c = d ∧ call = .spawning .start := by
  have hcall : Function.update s.calls d (some call) c = some (.spawning .start) := h
  by_cases hcd : c = d
  · rw [hcd, Function.update_self] at hcall
    exact Or.inr ⟨hcd, Option.some.inj hcall⟩
  · rw [Function.update_of_ne hcd] at hcall
    exact Or.inl hcall

theorem spawns_spawnExtra {d : Nat} {ok : Bool} {sp : Spawning}
    (h : (s.spawnExtra d ok sp).spawns c) : s.spawns c := by
  unfold System.spawnExtra at h
  rcases hspawn : s.spawnWorker false ok sp with ⟨r, s₁⟩
  obtain ⟨-, hcalls, -, -⟩ := spawnWorker_spec hspawn
  rw [hspawn] at h
  have hback : s₁.spawns c → s.spawns c := fun h0 => (congrFun hcalls c).symm.trans h0
  cases r with
  | inl sp' =>
    rcases spawns_setCall h with h | ⟨-, hstart⟩
    · exact hback h
    · -- `spawn_worker` has a slot after its first section
      cases hstart
      unfold System.spawnWorker at hspawn
      cases sp with
      | start =>
        cases hres : s.pool.reserve with
        | none =>
          rw [hres] at hspawn
          cases hspawn
        | some p =>
          rw [hres] at hspawn
          cases hspawn
      | reserved slot =>
        cases ok with
        | true => cases hspawn
        | false => cases hspawn
  | inr zero =>
    rcases spawns_setCall h with h | ⟨-, hstart⟩
    · exact hback h
    · cases hstart

theorem spawns_added {d : Nat} {clientFd : Int} {r : Pool.Added}
    (h : (s.added d clientFd r).spawns c) :
    s.spawns c ∨ ∃ pool, r = .queued pool true := by
  cases r with
  | wait => exact (spawns_setCall h).imp id fun h => by cases h.2
  | rejected => exact (spawns_setCall h).imp id fun h => by cases h.2
  | queued pool shouldSpawn =>
    rcases spawns_setCall h with h | ⟨-, hstart⟩
    · exact Or.inl h
    · cases shouldSpawn with
      | true => exact Or.inr ⟨pool, rfl⟩
      | false => cases hstart

/-- An enqueue that goes on to `spawn_worker` had a free slot. -/
theorem awaitRoom_spawns {pool pool' : Pool} {clientFd : Int}
    (h : pool.awaitRoom clientFd = .queued pool' true) : pool.numWorkers < pool.maxSize := by
  obtain ⟨hroom, hshut, -⟩ := Pool.awaitRoom_queued h
  obtain ⟨pool'', heq⟩ := awaitRoom_room clientFd hshut hroom
  rw [heq] at h
  exact of_decide_eq_true (Pool.Added.queued.inj h).2

theorem room_of_queued {pool pool' : Pool} {clientFd : Int} {shouldSpawn : Bool}
    (h : pool.awaitRoom clientFd = .queued pool' shouldSpawn) :
    (!pool.shutdown && decide (pool.queue.count < pool.capacity)) = true := by
  obtain ⟨hroom, hshut, -⟩ := Pool.awaitRoom_queued h
  rw [hshut, decide_eq_true hroom]
  rfl

/-- A call comes to `spawn_worker` only by an enqueue, and only when a slot is free. -/
theorem step_spawns (hstep : System.step e s = some s') (h : s'.spawns c) :
    s.spawns c ∨ e.enqueues s = true ∧ s.pool.numWorkers < s.pool.maxSize := by
  unfold System.step at hstep
  cases e with
  | spawnCore ok =>
    simp only at hstep
    split at hstep
    next =>
      cases hstep
      exact Or.inl ((congrFun calls_spawnCore c).symm.trans h)
    next => cases hstep
  | call d clientFd =>
    simp only at hstep
    split at hstep
    next hreturned hd =>
      cases hstep
      rcases spawns_added h with h | ⟨pool, hr⟩
      · exact Or.inl h
      · have hqueued := Pool.addTask_queued hr
        refine Or.inr ⟨?_, awaitRoom_spawns hqueued⟩
        rw [Event.enqueues, hreturned, hd, Bool.true_and]
        exact room_of_queued hqueued
    next => cases hstep
  | wakeCall d =>
    simp only at hstep
    split at hstep
    next clientFd hd =>
      cases hstep
      rcases spawns_added h with h | ⟨pool, hr⟩
      · exact Or.inl h
      · refine Or.inr ⟨?_, awaitRoom_spawns hr⟩
        rw [Event.enqueues, hd, Bool.true_and]
        exact room_of_queued hr
    next => cases hstep
  | spawnExtra d ok =>
    simp only at hstep
    split at hstep
    next =>
      cases hstep
      exact Or.inl (spawns_spawnExtra h)
    next => cases hstep
  | work w =>
    simp only at hstep
    split at hstep
    next =>
      cases hstep
      exact Or.inl ((congrFun calls_taken c).symm.trans h)
    next => cases hstep
  | wake w timedOut =>
    simp only at hstep
    split at hstep
    next =>
      cases hstep
      exact Or.inl ((congrFun calls_taken c).symm.trans h)
    next => cases hstep
  | finish w =>
    simp only at hstep
    split at hstep
    next =>
      cases hstep
      exact Or.inl h
    next => cases hstep
  | shutdown =>
    simp only at hstep
    split at hstep
    next =>
      cases hstep
      exact Or.inl h
    next => cases hstep

/-- An enqueue with a free slot goes on to `spawn_worker`. -/
theorem enqueue_spawns (hstep : System.step e s = some s') (henqueues : e.enqueues s = true)
    (hfree : s.pool.numWorkers < s.pool.maxSize) : ∃ c, s'.spawns c ∧ ¬s.spawns c := by
  have hadded : ∀ c clientFd, s.pool.shutdown = false → s.pool.queue.count < s.pool.capacity →
      (s.added c clientFd (s.pool.awaitRoom clientFd)).spawns c := by
    intro c clientFd hshut hroom
    obtain ⟨pool', heq⟩ := awaitRoom_room clientFd hshut hroom
    rw [heq, decide_eq_true hfree]
    exact Function.update_self ..
  unfold System.step at hstep
  cases e with
  | call c clientFd =>
    rw [Event.enqueues, Bool.and_eq_true, Bool.and_eq_true, Bool.not_eq_true',
      decide_eq_true_eq] at henqueues
    obtain ⟨⟨-, hshut⟩, hroom⟩ := henqueues
    simp only at hstep
    split at hstep
    next hreturned hc =>
      have hadd : s.pool.addTask clientFd = s.pool.awaitRoom clientFd := by
        rw [Pool.addTask, hshut]
        rfl
      rw [hadd] at hstep
      cases hstep
      refine ⟨c, hadded c clientFd hshut hroom, fun h => ?_⟩
      rw [System.spawns, hc] at h
      cases h
    next => cases hstep
  | wakeCall c =>
    rw [Event.enqueues, Bool.and_eq_true, Bool.and_eq_true, Bool.not_eq_true',
      decide_eq_true_eq] at henqueues
    obtain ⟨⟨-, hshut⟩, hroom⟩ := henqueues
    simp only at hstep
    split at hstep
    next clientFd hc =>
      cases hstep
      refine ⟨c, hadded c clientFd hshut hroom, fun h => ?_⟩
      rw [System.spawns, hc] at h
      cases h
    next => cases hstep
  | spawnCore ok => cases henqueues
  | spawnExtra c ok => cases henqueues
  | work w => cases henqueues
  | wake w timedOut => cases henqueues
  | finish w => cases henqueues
  | shutdown => cases henqueues

/-- No spawning is under way. -/
structure Settled (s : System) : Prop where
  returned : s.creation = .returned
  calls : ∀ c sp, s.calls c ≠ some (.spawning sp)

theorem Settled.setCall (h : Settled s) {d : Nat} {call : Call} {sp : Spawning}
    (hc : (s.setCall d call).calls c = some (.spawning sp)) : call = .spawning sp := by
  have hcall : Function.update s.calls d (some call) c = some (.spawning sp) := hc
  rw [Function.update_apply] at hcall
  split at hcall
  · exact Option.some.inj hcall
  · exact absurd hcall (h.calls c sp)

/-- A step from a settled state adds no worker, and if no call comes to `spawn_worker` the state
is settled again. -/
theorem Settled.step (h : Settled s) (hstep : System.step e s = some s')
    (hnone : ∀ c, ¬s'.spawns c) :
    Settled s' ∧ s'.pool.numWorkers ≤ s.pool.numWorkers := by
  have hadded : ∀ d clientFd r, (∀ pool shouldSpawn, r = Pool.Added.queued pool shouldSpawn →
      pool = { s.pool with queue := s.pool.queue.push s.pool.capacity clientFd }) →
      (∀ c, ¬(s.added d clientFd r).spawns c) →
      Settled (s.added d clientFd r) ∧
        (s.added d clientFd r).pool.numWorkers ≤ s.pool.numWorkers := by
    intro d clientFd r hr hquiet
    cases r with
    | wait =>
      refine ⟨⟨h.returned, fun c sp hc => ?_⟩, Int.le_refl _⟩
      cases h.setCall hc
    | rejected =>
      refine ⟨⟨h.returned, fun c sp hc => ?_⟩, Int.le_refl _⟩
      cases h.setCall hc
    | queued pool shouldSpawn =>
      obtain rfl := hr pool shouldSpawn rfl
      refine ⟨⟨h.returned, fun c sp hc => ?_⟩, Int.le_refl _⟩
      cases shouldSpawn with
      | true => exact hquiet d (Function.update_self ..)
      | false => cases h.setCall hc
  cases System.step_next hstep with
  | spawnCore hcreation =>
    rw [h.returned] at hcreation
    cases hcreation
  | call _ hc =>
    exact hadded _ _ _ (fun pool shouldSpawn hr =>
      (Pool.awaitRoom_queued (Pool.addTask_queued hr)).2.2) hnone
  | wakeCall hc =>
    exact hadded _ _ _ (fun pool shouldSpawn hr => (Pool.awaitRoom_queued hr).2.2) hnone
  | spawnExtra hc => exact absurd hc (h.calls _ _)
  | @work w x r hx hlive hr =>
    cases r with
    | wait => exact ⟨⟨h.returned, h.calls⟩, Int.le_refl _⟩
    | exit pool =>
      obtain ⟨-, -, rfl⟩ := hr.exit pool rfl
      exact ⟨⟨h.returned, h.calls⟩, Int.sub_le_self _ (by decide)⟩
    | task clientFd pool =>
      obtain ⟨-, -, rfl⟩ := hr.task clientFd pool rfl
      exact ⟨⟨h.returned, h.calls⟩, Int.le_refl _⟩
  | finish hx hlive => exact ⟨⟨h.returned, h.calls⟩, Int.le_refl _⟩
  | shutdown hreturned => exact ⟨⟨h.returned, h.calls⟩, Int.le_refl _⟩

/-! ## Schedules with signals -/

variable {m m' : Monitor} {pool : Pool} {x : Event × (Nat → Bool)}
  {events : List (Event × (Nat → Bool))}

/-- The signals do not hinder the schedule. -/
theorem Monitor.step_sys (h : Monitor.step x m = some m') :
    System.step x.1 m.sys = some m'.sys := by
  obtain ⟨e, hit⟩ := x
  obtain ⟨sys, hsys, hrest⟩ := Option.bind_eq_some_iff.mp h
  simp only at hrest
  split at hrest
  · split at hrest
    · cases hrest
    · cases hrest
      exact hsys
  · split at hrest
    · cases hrest
      exact hsys
    · cases hrest
      exact hsys

theorem monitor_booked {coreSize maxSize queueCapacity : Int}
    (hcreate : threadPoolCreate coreSize maxSize queueCapacity = some pool)
    (hrun : runs Monitor.step events (.start pool) = some m) : Booked m.sys := by
  have hkeeps : ∀ x m m', Booked m.sys → Monitor.step x m = some m' → Booked m'.sys :=
    fun _ _ _ h hstep => h.step (Monitor.step_sys hstep)
  have hstart : Booked (Monitor.start pool).sys := booked_start hcreate
  have hbooked := runs_invariant hkeeps hstart hrun
  exact hbooked

theorem Booked.full_or_free (h : Booked s) :
    s.pool.numWorkers = s.pool.maxSize ∨ s.pool.numWorkers < s.pool.maxSize := by
  have hle : count s.pool.maxSize s.pool.workerActive ≤ s.pool.maxSize := count_le
  rw [h.counted]
  omega

/-- What a call that comes to `spawn_worker` tells of a state in which `busy` holds. -/
theorem Monitor.step_busy (hbusy : Monitor.busy x m = true) (hstep : Monitor.step x m = some m')
    (h : m'.sys.spawns c) : m.sys.spawns c ∨ m.idle = false := by
  refine (step_spawns (Monitor.step_sys hstep) h).imp id fun ⟨henqueues, hfree⟩ => ?_
  have hnot : decide (m.sys.pool.numWorkers = m.sys.pool.maxSize) = false :=
    decide_eq_false (Int.ne_of_lt hfree)
  rw [Monitor.busy, henqueues, hnot] at hbusy
  exact (Bool.not_eq_true' _).mp hbusy

end

/-- **The pool grows only when it is busy** in exactly the runs in which nothing is enqueued while
a worker is blocked and a slot is free. -/
theorem grows_when_busy_iff {coreSize maxSize queueCapacity : Int} {pool : Pool}
    (hcreate : threadPoolCreate coreSize maxSize queueCapacity = some pool)
    {events : List (Event × (Nat → Bool))} {m : Monitor}
    (hrun : runs Monitor.step events (.start pool) = some m) :
    GrowsWhenBusy pool events ↔
      along Monitor.step Monitor.busy events (.start pool) = true := by
  rw [along_iff_splits hrun]
  constructor
  · intro hgrows pre x post m₁ m₂ hsplit hpre hstep
    by_contra hbusy
    have hall : x.1.enqueues m₁.sys = true ∧ m₁.sys.pool.numWorkers ≠ m₁.sys.pool.maxSize ∧
        m₁.idle = true := by
      simpa [Monitor.busy, and_assoc] using hbusy
    obtain ⟨henqueues, hnot, hidle⟩ := hall
    have hfree := (monitor_booked hcreate hpre).full_or_free.resolve_left hnot
    obtain ⟨c, hspawns, hnew⟩ := enqueue_spawns (Monitor.step_sys hstep) henqueues hfree
    rcases hgrows.spawns pre x post m₁ m₂ hsplit hpre hstep c hspawns with h | h
    · exact hnew h
    · rw [hidle] at h
      cases h
  · intro hall
    refine ⟨fun pre x post m₁ m₂ hsplit hpre hstep c h =>
      Monitor.step_busy (hall pre x post m₁ m₂ hsplit hpre hstep) hstep h, ?_⟩
    intro pre mid post m₁ m₂ hsplit hpre hmid hreturned hcalls hidle
    have hboth : along Monitor.step (fun x m => m.idle && Monitor.busy x m) mid m₁ = true := by
      rw [along_iff_splits hmid] at hidle ⊢
      intro pre' x post' t₁ t₂ hsplit' hpre' hstep'
      rw [hidle pre' x post' t₁ t₂ hsplit' hpre' hstep', Bool.true_and]
      refine hall (pre ++ pre') x (post' ++ post) t₁ t₂ ?_ ?_ hstep'
      · rw [hsplit, hsplit', List.append_assoc, List.append_assoc, List.cons_append]
      · rw [runs_append, hpre, Option.bind_some, hpre']
    have hkeeps : ∀ x t t', (Settled t.sys ∧ t.sys.pool.numWorkers ≤ m₁.sys.pool.numWorkers) →
        (t.idle && Monitor.busy x t) = true → Monitor.step x t = some t' →
        Settled t'.sys ∧ t'.sys.pool.numWorkers ≤ m₁.sys.pool.numWorkers := by
      intro x t t' h hp hstep
      obtain ⟨hidle', hbusy⟩ := Bool.and_eq_true_iff.mp hp
      have hnone : ∀ c, ¬t'.sys.spawns c := by
        intro c hspawns
        rcases Monitor.step_busy hbusy hstep hspawns with h0 | h0
        · exact h.1.calls c _ h0
        · rw [hidle'] at h0
          cases h0
      obtain ⟨hsettled, hle⟩ := h.1.step (Monitor.step_sys hstep) hnone
      exact ⟨hsettled, hle.trans h.2⟩
    exact (runs_rule hkeeps ⟨⟨hreturned, hcalls⟩, Int.le_refl _⟩ hboth hmid).2

/-! ### Two runs -/

def nobody : Nat → Bool := fun _ => false

/-- A descriptor comes before the core worker waits. -/
def busySchedule : List (Event × (Nat → Bool)) :=
  [(.spawnCore true, nobody), (.spawnCore true, nobody), (.call 0 7, nobody),
    (.spawnExtra 0 true, nobody), (.spawnExtra 0 true, nobody)]

def busyEnd : Monitor :=
  (runs Monitor.step busySchedule (.start smallPool)).get (by decide +kernel)

theorem grows_when_busy_example :
    along Monitor.step Monitor.busy busySchedule (.start smallPool) = true ∧
      GrowsWhenBusy smallPool busySchedule := by
  have hbusy : along Monitor.step Monitor.busy busySchedule (.start smallPool) = true := by
    decide +kernel
  have hcreate : threadPoolCreate 1 2 2 = some smallPool := (Option.some_get _).symm
  have hrun : runs Monitor.step busySchedule (.start smallPool) = some busyEnd :=
    (Option.some_get _).symm
  exact ⟨hbusy, (grows_when_busy_iff hcreate hrun).mpr hbusy⟩

def coresPool : Pool := (threadPoolCreate 2 3 4).get (by decide +kernel)

/-- Two core workers begin to wait. -/
def waitingCores : List (Event × (Nat → Bool)) :=
  [(.spawnCore true, nobody), (.spawnCore true, nobody), (.spawnCore true, nobody),
    (.spawnCore true, nobody), (.work 0, nobody), (.work 1, nobody)]

/-- One descriptor; its signal reaches the first worker. -/
def oneTask : List (Event × (Nat → Bool)) :=
  [(.call 0 7, fun w => w == 0), (.spawnExtra 0 true, nobody), (.spawnExtra 0 true, nobody)]

def coresWaiting : Monitor :=
  (runs Monitor.step waitingCores (.start coresPool)).get (by decide +kernel)

def coresGrown : Monitor := (runs Monitor.step oneTask coresWaiting).get (by decide +kernel)

/-- A third worker, though the second is idle all the time. -/
theorem idle_pool_grows : ¬GrowsWhenBusy coresPool (waitingCores ++ oneTask) := by
  intro h
  have hle := h.stays waitingCores oneTask [] coresWaiting coresGrown rfl (Option.some_get _).symm
    (Option.some_get _).symm rfl (fun c sp hc => ?_) (by decide +kernel)
  · exact absurd hle (by decide +kernel)
  · cases hc

end MiniWeb.ThreadPool
