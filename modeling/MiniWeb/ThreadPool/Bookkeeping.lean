import MiniWeb.Lib.Slots
import MiniWeb.ThreadPool.Fifo

/-!
# The pool's slots

A slot is held by `thread_pool_create` or by a call between the two sections of `spawn_worker`, and
then by the worker created for it until the worker leaves. In every interleaving the slots held are
active and held once, `num_workers` counts the active slots (`Booked`), and as many core workers
are left as were spawned, as long as the pool is not shut down.
-/

namespace MiniWeb.ThreadPool

open Runs Slots

inductive Holder where
  | creation
  | call (c : Nat)
  | worker (w : Nat)

def Spawning.slot : Spawning → Option Nat
  | .start => none
  | .reserved slot => some slot

def Creation.slot : Creation → Option Nat
  | .spawning _ sp => sp.slot
  | .returned => none
  | .failed => none

def Call.slot : Call → Option Nat
  | .spawning sp => sp.slot
  | .waiting _ => none
  | .returned _ => none

/-- A worker holds its slot until it leaves. -/
def Worker.held (x : Worker) : Option Nat := if x.state = .exited then none else some x.slot

/-- The core workers that `thread_pool_create` has still to spawn. -/
def Creation.due : Creation → Nat
  | .spawning left _ => left
  | .returned => 0
  | .failed => 0

namespace System

def holds (s : System) : Holder → Option Nat
  | .creation => s.creation.slot
  | .call c => (s.calls c).bind Call.slot
  | .worker w => s.workers[w]?.bind Worker.held

/-- Worker `w` is a core worker that has not left. -/
def CoreAt (s : System) (w : Nat) : Prop :=
  ∃ x, s.workers[w]? = some x ∧ x.isCore = true ∧ x.state ≠ .exited

/-- As many core workers as there should be, less those not yet spawned. -/
def Staffed (s : System) : Prop :=
  ∃ ws : List Nat, ws.Nodup ∧ s.pool.coreSize ≤ ws.length + s.creation.due ∧ ∀ w ∈ ws, s.CoreAt w

end System

/-- The books of the pool are right. -/
structure Booked (s : System) : Prop where
  owned : Owned s.pool.maxSize s.pool.workerActive s.holds
  counted : s.pool.numWorkers = count s.pool.maxSize s.pool.workerActive
  staffed : s.pool.shutdown = false → s.Staffed

section

variable {s s' : System}

/-- A step that touches neither slots nor core workers. -/
theorem Booked.congr (h : Booked s) (hactive : s'.pool.workerActive = s.pool.workerActive)
    (hnum : s'.pool.numWorkers = s.pool.numWorkers) (hmax : s'.pool.maxSize = s.pool.maxSize)
    (hholds : ∀ a, s'.holds a = s.holds a) (hstaffed : s'.pool.shutdown = false → s'.Staffed) :
    Booked s' := by
  refine ⟨?_, ?_, hstaffed⟩
  · rw [hactive, hmax]
    apply h.owned.mono
    intro a slot ha
    rw [← hholds a]
    exact ha
  · rw [hnum, hactive, hmax]
    exact h.counted

theorem System.Staffed.mono (h : s.Staffed) (hcore : s'.pool.coreSize = s.pool.coreSize)
    (hdue : s'.creation.due = s.creation.due) (hat : ∀ w, s.CoreAt w → s'.CoreAt w) :
    s'.Staffed := by
  obtain ⟨ws, hnodup, hlength, hall⟩ := h
  refine ⟨ws, hnodup, ?_, fun w hw => hat w (hall w hw)⟩
  rw [hcore, hdue]
  exact hlength

/-! ## Workers -/

theorem holds_setWorker_ne {w : Nat} {state : WorkerState} {a : Holder} (ha : a ≠ .worker w) :
    (s.setWorker w state).holds a = s.holds a := by
  cases a with
  | creation => rfl
  | call c => rfl
  | worker v =>
    have hne : w ≠ v := by
      intro h
      exact ha (by rw [h])
    simp only [System.holds, System.setWorker, List.getElem?_modify, if_neg hne]
    cases s.workers[v]? <;> rfl

theorem holds_setWorker {w : Nat} {state : WorkerState} {x : Worker}
    (hx : s.workers[w]? = some x) :
    (s.setWorker w state).holds (.worker w) = if state = .exited then none else some x.slot := by
  simp only [System.holds, System.setWorker, List.getElem?_modify, if_pos, hx]
  rfl

theorem holds_worker {w : Nat} {x : Worker} (hx : s.workers[w]? = some x)
    (hlive : x.state ≠ .exited) : s.holds (.worker w) = some x.slot := by
  rw [System.holds, hx, Option.bind_some, Worker.held, if_neg hlive]

theorem coreAt_setWorker {w v : Nat} {state : WorkerState} {x : Worker}
    (hx : s.workers[w]? = some x) (hstate : state = .exited → x.isCore = false)
    (hv : s.CoreAt v) : (s.setWorker w state).CoreAt v := by
  obtain ⟨y, hy, hcore, hlive⟩ := hv
  by_cases hwv : w = v
  · subst hwv
    rw [hx, Option.some.injEq] at hy
    subst hy
    refine ⟨{ x with state := state }, ?_, hcore, ?_⟩
    · simp only [System.setWorker, List.getElem?_modify, if_pos, hx]
      rfl
    · intro hexit
      rw [hstate hexit] at hcore
      cases hcore
  · refine ⟨y, ?_, hcore, hlive⟩
    simp only [System.setWorker, List.getElem?_modify, if_neg hwv, hy]
    rfl

/-- A worker goes on. -/
theorem Booked.setWorker (h : Booked s) {w : Nat} {x : Worker} {state : WorkerState}
    (hx : s.workers[w]? = some x) (hlive : x.state ≠ .exited) (hstate : state ≠ .exited) :
    Booked (s.setWorker w state) := by
  refine h.congr rfl rfl rfl ?_ ?_
  · intro a
    by_cases ha : a = .worker w
    · rw [ha, holds_setWorker hx, if_neg hstate, holds_worker hx hlive]
    · exact holds_setWorker_ne ha
  · intro hshut
    refine (h.staffed hshut).mono rfl rfl ?_
    intro v hv
    exact coreAt_setWorker hx (fun hexit => absurd hexit hstate) hv

/-- A worker leaves and gives its slot back. -/
theorem Booked.exit (h : Booked s) {w : Nat} {x : Worker} (hx : s.workers[w]? = some x)
    (hlive : x.state ≠ .exited) (hcore : x.isCore = true → s.pool.shutdown = true) :
    Booked ({ s with pool := s.pool.release x.slot }.setWorker w .exited) := by
  obtain ⟨hlt, hactive⟩ := h.owned.active _ _ (holds_worker hx hlive)
  refine ⟨?_, ?_, ?_⟩
  · refine h.owned.release (holds_worker hx hlive) ?_ ?_
    · exact (holds_setWorker (s := { s with pool := s.pool.release x.slot }) hx).trans (if_pos rfl)
    · intro b hb
      rw [holds_setWorker_ne hb]
      cases b <;> rfl
  · have hcount := count_release hlt hactive
    show s.pool.numWorkers - 1 =
      ((count s.pool.maxSize (Function.update s.pool.workerActive x.slot false) : Nat) : Int)
    rw [h.counted]
    omega
  · intro hshut
    refine (h.staffed hshut).mono rfl rfl ?_
    intro v hv
    apply coreAt_setWorker hx
    · intro _
      cases hx : x.isCore with
      | false => rfl
      | true =>
        rw [show s.pool.shutdown = false from hshut] at hcore
        cases hcore hx
    · exact hv

theorem Booked.taken (h : Booked s) {w : Nat} {x : Worker} (hx : s.workers[w]? = some x)
    (hlive : x.state ≠ .exited) {r : Pool.Taken} (hr : s.Section x r) :
    Booked (s.taken w r) := by
  cases r with
  | wait =>
    apply h.setWorker hx hlive
    intro hstate
    cases hstate
  | exit pool =>
    obtain ⟨-, hcore, rfl⟩ := hr.exit pool rfl
    exact h.exit hx hlive hcore
  | task clientFd pool =>
    obtain ⟨-, -, rfl⟩ := hr.task clientFd pool rfl
    have hpopped : Booked { s with
        pool := { s.pool with queue := s.pool.queue.pop s.pool.capacity }
        dequeued := s.dequeued ++ [(w, clientFd)] } := by
      refine h.congr rfl rfl rfl ?_ h.staffed
      intro a
      cases a <;> rfl
    apply hpopped.setWorker hx hlive
    intro hstate
    cases hstate

/-! ## Calls -/

theorem holds_setCall_ne {c : Nat} {call : Call} {a : Holder} (ha : a ≠ .call c) :
    (s.setCall c call).holds a = s.holds a := by
  cases a with
  | creation => rfl
  | worker w => rfl
  | call d =>
    have hne : d ≠ c := by
      intro h
      exact ha (by rw [h])
    simp only [System.holds, System.setCall, Function.update_of_ne hne]

theorem holds_setCall {c : Nat} {call : Call} :
    (s.setCall c call).holds (.call c) = call.slot := by
  simp only [System.holds, System.setCall, Function.update_self, Option.bind_some]

/-- A call goes on without a slot. -/
theorem Booked.setCall (h : Booked s) {c : Nat} {call : Call} (hc : s.holds (.call c) = none)
    (hcall : call.slot = none) : Booked (s.setCall c call) := by
  refine h.congr rfl rfl rfl ?_ h.staffed
  intro a
  by_cases ha : a = .call c
  · rw [ha, holds_setCall, hcall, hc]
  · exact holds_setCall_ne ha

theorem Booked.added (h : Booked s) {c : Nat} {clientFd : Int} {r : Pool.Added}
    (hc : s.holds (.call c) = none)
    (hr : ∀ pool shouldSpawn, r = .queued pool shouldSpawn →
      pool = { s.pool with queue := s.pool.queue.push s.pool.capacity clientFd }) :
    Booked (s.added c clientFd r) := by
  cases r with
  | wait => exact h.setCall hc rfl
  | rejected => exact h.setCall hc rfl
  | queued pool shouldSpawn =>
    obtain rfl := hr pool shouldSpawn rfl
    have hpushed : Booked { s with
        pool := { s.pool with queue := s.pool.queue.push s.pool.capacity clientFd }
        accepted := s.accepted ++ [(c, clientFd)] } := by
      refine h.congr rfl rfl rfl ?_ h.staffed
      intro a
      cases a <;> rfl
    apply hpushed.setCall hc
    cases shouldSpawn <;> rfl

/-! ## Spawning -/

theorem reserve_spec {pool pool' : Pool} {slot : Nat} (h : pool.reserve = some (slot, pool')) :
    slot < pool.maxSize ∧ pool.workerActive slot = false ∧ pool' =
      { pool with
        workerActive := Function.update pool.workerActive slot true
        numWorkers := pool.numWorkers + 1 } := by
  obtain ⟨found, hfind, hpair⟩ := Option.map_eq_some_iff.mp h
  obtain ⟨rfl, rfl⟩ := Prod.mk.inj hpair
  obtain ⟨hlt, hfree⟩ := firstFree_spec hfind
  exact ⟨hlt, hfree, rfl⟩

/-- The slot a holder has after a step of its `spawn_worker`. -/
def slotAfter : Spawning ⊕ Bool → Option Nat
  | .inl sp => sp.slot
  | .inr _ => none

/-- A worker is created for a slot. -/
theorem holds_newWorker {x : Worker} (hlive : x.state ≠ .exited)
    (hworkers : s'.workers = s.workers ++ [x]) :
    s'.holds (.worker s.workers.length) = some x.slot ∧
      ∀ w, w ≠ s.workers.length → s'.holds (.worker w) = s.holds (.worker w) := by
  constructor
  · rw [System.holds, hworkers, List.getElem?_concat_length, Option.bind_some, Worker.held,
      if_neg hlive]
  · intro w hw
    rw [System.holds, System.holds, hworkers]
    by_cases hlt : w < s.workers.length
    · rw [List.getElem?_append_left hlt]
    · rw [List.getElem?_eq_none (by simp; omega), List.getElem?_eq_none (by omega)]

theorem coreAt_newWorker {x : Worker} (hworkers : s'.workers = s.workers ++ [x]) {w : Nat}
    (hw : s.CoreAt w) : s'.CoreAt w := by
  obtain ⟨y, hy, hcore, hlive⟩ := hw
  refine ⟨y, ?_, hcore, hlive⟩
  have hlt : w < s.workers.length := (List.getElem?_eq_some_iff.mp hy).1
  rw [hworkers, List.getElem?_append_left hlt]
  exact hy

/-- **One step of `spawn_worker`** for holder `a`: the slot is reserved, handed to the new worker,
or given back. The state `s'` is the one it leaves, once `a` has noted how far it is. -/
theorem spawnWorker_books (s' : System) (h : Booked s) {a : Holder} {isCore ok : Bool}
    {sp : Spawning} {r : Spawning ⊕ Bool} {s₁ : System}
    (hspawn : s.spawnWorker isCore ok sp = (r, s₁)) (ha : s.holds a = sp.slot)
    (hactive : s'.pool.workerActive = s₁.pool.workerActive)
    (hnum : s'.pool.numWorkers = s₁.pool.numWorkers) (hmax : s'.pool.maxSize = s₁.pool.maxSize)
    (hworkers : s'.workers = s₁.workers) (ha' : s'.holds a = slotAfter r)
    (hothers : ∀ b, b ≠ a → (∀ w, b ≠ .worker w) → s'.holds b = s.holds b) :
    Owned s'.pool.maxSize s'.pool.workerActive s'.holds ∧
      s'.pool.numWorkers = count s'.pool.maxSize s'.pool.workerActive := by
  rw [hactive, hnum, hmax]
  -- the other holders, workers included, when no worker is created
  have hrest : s₁.workers = s.workers → ∀ b, b ≠ a → s'.holds b = s.holds b := by
    intro hsame b hb
    cases b with
    | worker w =>
      rw [System.holds, System.holds, hworkers, hsame]
    | creation => exact hothers _ hb (fun w hw => by cases hw)
    | call c => exact hothers _ hb (fun w hw => by cases hw)
  unfold System.spawnWorker at hspawn
  cases sp with
  | start =>
    cases hres : s.pool.reserve with
    | none =>
      simp only [hres] at hspawn
      obtain ⟨rfl, rfl⟩ := Prod.mk.inj hspawn
      refine ⟨h.owned.mono ?_, h.counted⟩
      intro b slot hb
      by_cases hba : b = a
      · rw [hba, ha'] at hb
        cases hb
      · rw [← hrest rfl b hba]
        exact hb
    | some p =>
      obtain ⟨slot, pool⟩ := p
      simp only [hres] at hspawn
      obtain ⟨rfl, rfl⟩ := Prod.mk.inj hspawn
      obtain ⟨hlt, hfree, rfl⟩ := reserve_spec hres
      refine ⟨h.owned.acquire hlt hfree ha' (hrest rfl), ?_⟩
      show s.pool.numWorkers + 1 = _
      rw [h.counted]
      exact (congrArg Nat.cast (count_acquire hlt hfree)).symm
  | reserved slot =>
    obtain ⟨hlt, hslot⟩ := h.owned.active a slot ha
    cases ok with
    | false =>
      obtain ⟨rfl, rfl⟩ := Prod.mk.inj hspawn
      refine ⟨h.owned.release ha ha' (hrest rfl), ?_⟩
      have hcount := count_release hlt hslot
      show s.pool.numWorkers - 1 =
        ((count s.pool.maxSize (Function.update s.pool.workerActive slot false) : Nat) : Int)
      rw [h.counted]
      omega
    | true =>
      obtain ⟨rfl, rfl⟩ := Prod.mk.inj hspawn
      have hlive : (⟨slot, isCore, .running⟩ : Worker).state ≠ .exited := by
        intro hstate
        cases hstate
      obtain ⟨hnew, hold⟩ := holds_newWorker hlive hworkers
      refine ⟨h.owned.handOver ha ha' hnew ?_, h.counted⟩
      intro b hba hbw
      cases b with
      | worker w => exact hold w (by intro hw; exact hbw (by rw [hw]))
      | creation => exact hothers _ hba (fun w hw => by cases hw)
      | call c => exact hothers _ hba (fun w hw => by cases hw)

/-- What else a step of `spawn_worker` leaves: the flag, the sizes, and the core workers, with one
more when it has created one. -/
theorem spawnWorker_core {isCore ok : Bool} {sp : Spawning} {r : Spawning ⊕ Bool} {s₁ : System}
    (hspawn : s.spawnWorker isCore ok sp = (r, s₁)) :
    s₁.pool.shutdown = s.pool.shutdown ∧ s₁.pool.coreSize = s.pool.coreSize ∧
      (∀ w, s.CoreAt w → s₁.CoreAt w) ∧
      (r = .inr true → isCore = true → s₁.CoreAt s.workers.length) := by
  unfold System.spawnWorker at hspawn
  cases sp with
  | start =>
    cases hres : s.pool.reserve with
    | none =>
      simp only [hres] at hspawn
      obtain ⟨rfl, rfl⟩ := Prod.mk.inj hspawn
      exact ⟨rfl, rfl, fun _ hw => hw, fun hr => by cases hr⟩
    | some p =>
      obtain ⟨slot, pool⟩ := p
      simp only [hres] at hspawn
      obtain ⟨rfl, rfl⟩ := Prod.mk.inj hspawn
      obtain ⟨-, -, rfl⟩ := reserve_spec hres
      exact ⟨rfl, rfl, fun _ hw => hw, fun hr => by cases hr⟩
  | reserved slot =>
    cases ok with
    | false =>
      obtain ⟨rfl, rfl⟩ := Prod.mk.inj hspawn
      exact ⟨rfl, rfl, fun _ hw => hw, fun hr => by cases hr⟩
    | true =>
      obtain ⟨rfl, rfl⟩ := Prod.mk.inj hspawn
      refine ⟨rfl, rfl, fun w hw => coreAt_newWorker rfl hw, ?_⟩
      intro _ hcore
      refine ⟨⟨slot, isCore, .running⟩, List.getElem?_concat_length, hcore, ?_⟩
      intro hstate
      cases hstate

theorem Booked.spawnCore (h : Booked s) {ok : Bool} {left : Nat} {sp : Spawning}
    (hcreation : s.creation = .spawning left sp) : Booked (s.spawnCore ok left sp) := by
  have ha : s.holds .creation = sp.slot := by
    rw [System.holds, hcreation]
    rfl
  unfold System.spawnCore
  rcases hspawn : s.spawnWorker true ok sp with ⟨r, s₁⟩
  obtain ⟨hq, hcalls, hsame, -⟩ := spawnWorker_spec hspawn
  obtain ⟨hshut, hcore, hold, hnew⟩ := spawnWorker_core hspawn
  have hothers : ∀ s' : System, s'.calls = s₁.calls →
      ∀ b : Holder, b ≠ .creation → (∀ w, b ≠ .worker w) → s'.holds b = s.holds b := by
    intro s' hs' b hb hw
    cases b with
    | creation => exact absurd rfl hb
    | call c => rw [System.holds, System.holds, hs', hcalls]
    | worker w => exact absurd rfl (hw w)
  match r with
  | .inl sp' =>
    obtain ⟨howned, hcounted⟩ := spawnWorker_books { s₁ with creation := .spawning left sp' }
      h hspawn ha rfl rfl rfl rfl rfl (hothers _ rfl)
    refine ⟨howned, hcounted, fun hfalse => ?_⟩
    refine (h.staffed (hshut ▸ hfalse)).mono hcore ?_ hold
    rw [hcreation]
    rfl
  | .inr true =>
    obtain ⟨howned, hcounted⟩ := spawnWorker_books
      { s₁ with creation := if left = 1 then .returned else .spawning (left - 1) .start }
      h hspawn ha rfl rfl rfl rfl (by
        rw [System.holds]
        split <;> rfl) (hothers _ rfl)
    refine ⟨howned, hcounted, fun hfalse => ?_⟩
    -- one core worker more, one fewer to spawn
    obtain ⟨ws, hnodup, hlength, hall⟩ := h.staffed (hshut ▸ hfalse)
    refine ⟨s.workers.length :: ws, ?_, ?_, ?_⟩
    · refine List.nodup_cons.mpr ⟨fun hmem => ?_, hnodup⟩
      obtain ⟨y, hy, -, -⟩ := hall _ hmem
      have := (List.getElem?_eq_some_iff.mp hy).1
      omega
    · rw [hcreation] at hlength
      show s₁.pool.coreSize ≤ _
      rw [hcore, List.length_cons]
      have hdue : s.pool.coreSize ≤ ws.length + left := hlength
      by_cases hone : left = 1
      · rw [if_pos hone, Creation.due]
        omega
      · rw [if_neg hone, Creation.due]
        omega
    · intro w hw
      rcases List.mem_cons.mp hw with rfl | hw
      · exact hnew rfl rfl
      · exact hold w (hall w hw)
  | .inr false =>
    obtain ⟨howned, hcounted⟩ := spawnWorker_books
      { s₁ with pool := { s₁.pool with shutdown := true }, creation := .failed }
      h hspawn ha rfl rfl rfl rfl rfl (hothers _ rfl)
    refine ⟨howned, hcounted, fun hfalse => ?_⟩
    cases hfalse

theorem Booked.spawnExtra (h : Booked s) {c : Nat} {ok : Bool} {sp : Spawning}
    (hc : s.calls c = some (.spawning sp)) : Booked (s.spawnExtra c ok sp) := by
  have ha : s.holds (.call c) = sp.slot := by
    rw [System.holds, hc]
    rfl
  unfold System.spawnExtra
  rcases hspawn : s.spawnWorker false ok sp with ⟨r, s₁⟩
  obtain ⟨hq, hcalls, hsame, -⟩ := spawnWorker_spec hspawn
  obtain ⟨hshut, hcore, hold, -⟩ := spawnWorker_core hspawn
  have hothers : ∀ call, ∀ b : Holder, b ≠ .call c → (∀ w, b ≠ .worker w) →
      (s₁.setCall c call).holds b = s.holds b := by
    intro call b hb hw
    rw [holds_setCall_ne hb]
    cases b with
    | creation => rw [System.holds, System.holds, hsame]
    | call d => rw [System.holds, System.holds, hcalls]
    | worker w => exact absurd rfl (hw w)
  have hbooked : ∀ call : Call, call.slot = slotAfter r → Booked (s₁.setCall c call) := by
    intro call hcall
    obtain ⟨howned, hcounted⟩ := spawnWorker_books (s₁.setCall c call)
      h hspawn ha rfl rfl rfl rfl (holds_setCall.trans hcall)
      (hothers call)
    refine ⟨howned, hcounted, fun hfalse => ?_⟩
    refine (h.staffed (hshut ▸ hfalse)).mono hcore ?_ hold
    show s₁.creation.due = s.creation.due
    rw [hsame]
  cases r with
  | inl sp' => exact hbooked _ rfl
  | inr zero => exact hbooked _ rfl

/-! ## One step, and schedules -/

theorem Booked.step (h : Booked s) {e : Event} (hstep : System.step e s = some s') :
    Booked s' := by
  cases System.step_next hstep with
  | spawnCore hcreation => exact h.spawnCore hcreation
  | @call c clientFd hreturned hc =>
    apply h.added
    · rw [System.holds, hc]
      rfl
    · intro pool shouldSpawn hr
      exact (Pool.awaitRoom_queued (Pool.addTask_queued hr)).2.2
  | @wakeCall c clientFd hc =>
    apply h.added
    · rw [System.holds, hc]
      rfl
    · intro pool shouldSpawn hr
      exact (Pool.awaitRoom_queued hr).2.2
  | spawnExtra hc => exact h.spawnExtra hc
  | work hx hlive hr => exact h.taken hx hlive hr
  | finish hx hlive =>
    apply h.setWorker hx hlive
    intro hstate
    cases hstate
  | shutdown hreturned =>
    refine h.congr rfl rfl rfl ?_ fun hfalse => by cases hfalse
    intro a
    cases a <;> rfl

theorem booked_start {coreSize maxSize queueCapacity : Int} {pool : Pool}
    (hcreate : threadPoolCreate coreSize maxSize queueCapacity = some pool) :
    Booked (System.start pool) := by
  unfold threadPoolCreate at hcreate
  split at hcreate
  · cases hcreate
  next =>
    cases hcreate
    refine ⟨?_, ?_, fun _ => ⟨[], List.nodup_nil, ?_, ?_⟩⟩
    · apply owned_none.mono
      intro a slot ha
      cases a <;> cases ha
    · have hzero : ∀ n, count n (fun _ => false) = 0 := by
        intro n
        apply List.countP_eq_zero.mpr
        intro _ _
        exact Bool.false_ne_true
      exact (congrArg Nat.cast (hzero _)).symm
    · show _ ≤ 0 + _
      rw [Nat.zero_add]
      exact Nat.le_refl _
    · intro w hw
      cases hw

/-- The core workers hold active slots. -/
theorem Booked.core_le (h : Booked s) (hreturned : s.creation = .returned)
    (hshut : s.pool.shutdown = false) :
    s.pool.coreSize ≤ count s.pool.maxSize s.pool.workerActive := by
  obtain ⟨ws, hnodup, hlength, hall⟩ := h.staffed hshut
  have hactive : (ws.map Holder.worker).length ≤ _ := h.owned.length_le
    (hnodup.map fun _ _ hw => Holder.worker.inj hw) (by
      intro a ha
      obtain ⟨w, hw, rfl⟩ := List.mem_map.mp ha
      obtain ⟨x, hx, -, hlive⟩ := hall w hw
      rw [holds_worker hx hlive]
      rfl)
  rw [List.length_map] at hactive
  rw [hreturned, Creation.due] at hlength
  omega

end

/-- **Worker bookkeeping.** After a successful `thread_pool_create` and in every interleaving,
`num_workers` is the number of active slots and at most `max_size`, workers that have not left have
slots of their own, and until the shutdown at least `core_size` slots are active. -/
theorem schedule_booked {coreSize maxSize queueCapacity : Int} {pool : Pool}
    (hcreate : threadPoolCreate coreSize maxSize queueCapacity = some pool)
    {events : List Event} {s : System}
    (hrun : runs System.step events (System.start pool) = some s)
    (hreturned : s.creation = .returned) :
    s.pool.numWorkers = count s.pool.maxSize s.pool.workerActive ∧
      s.pool.numWorkers ≤ s.pool.maxSize ∧
      (∀ (v w : Nat) (x y : Worker), s.workers[v]? = some x → s.workers[w]? = some y →
        x.state ≠ .exited → y.state ≠ .exited → x.slot = y.slot → v = w) ∧
      (s.pool.shutdown = false →
        s.pool.coreSize ≤ count s.pool.maxSize s.pool.workerActive) := by
  have h : Booked s :=
    runs_invariant (fun _ _ _ h hstep => h.step hstep) (booked_start hcreate) hrun
  refine ⟨h.counted, ?_, ?_, h.core_le hreturned⟩
  · have hle : count s.pool.maxSize s.pool.workerActive ≤ s.pool.maxSize := count_le
    rw [h.counted]
    omega
  · intro v w x y hx hy hxlive hylive hslot
    have hheld : s.holds (.worker v) = some y.slot := by
      rw [holds_worker hx hxlive, hslot]
    exact Holder.worker.inj (h.owned.unique _ _ _ hheld (holds_worker hy hylive))

/-- A core worker, an extra worker, and an extra worker that could not be created. -/
def spawningSchedule : List Event :=
  [.spawnCore true, .spawnCore true, .call 0 7, .spawnExtra 0 true, .spawnExtra 0 true, .call 1 9,
    .spawnExtra 1 true, .spawnExtra 1 false]

def threePool : Pool := (threadPoolCreate 1 3 4).get (by decide +kernel)

def spawningEnd : System :=
  (runs System.step spawningSchedule (System.start threePool)).get (by decide +kernel)

theorem schedule_booked_example :
    spawningEnd.creation = .returned ∧ spawningEnd.pool.numWorkers ≤ spawningEnd.pool.maxSize := by
  have hcreate : threadPoolCreate 1 3 4 = some threePool := (Option.some_get _).symm
  have hrun : runs System.step spawningSchedule (System.start threePool) = some spawningEnd :=
    (Option.some_get _).symm
  have hreturned : spawningEnd.creation = .returned := by rfl
  obtain ⟨-, hle, -, -⟩ := schedule_booked hcreate hrun hreturned
  exact ⟨hreturned, hle⟩

end MiniWeb.ThreadPool
