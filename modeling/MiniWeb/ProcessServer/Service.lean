import MiniWeb.Lib.Runs
import MiniWeb.ProcessServer.Workers
import Mathlib.Data.List.Count

/-!
# Every path once, and no deadlock

The semaphore's value, the workers that have taken a post and not yet a path, and the workers that
have left add up to the queued paths and one post for each worker (`Serving.sem`). So a worker
before `sem_wait` is never blocked, and since `done_flag` is set before the first worker runs none
waits for the condition variable.
-/

namespace MiniWeb.ProcessServer

open CStr Runs

/-- The paths that phase 1 puts into the queue. -/
def reqPaths (entries : List CStr) : List CStr :=
  ((entries.filter isReq).take maxReqFiles).map reqPath

/-- A worker with a post of its own, taken from the semaphore and not yet turned into a path. -/
def Stage.spent : Stage → Bool
  | .waiting => false
  | .locking => true
  | .checking => true
  | .condWaiting => true
  | .dequeuing => true
  | .processing _ => false
  | .exited => true

/-- A worker that has the mutex. -/
def Stage.inside : Stage → Bool
  | .checking => true
  | .dequeuing => true
  | .waiting => false
  | .locking => false
  | .condWaiting => false
  | .processing _ => false
  | .exited => false

/-- How many passes of the loop that creates workers are over. -/
def Phase.created : Phase → Nat
  | .creating i => i
  | .joining _ => numWorkers
  | .joined => numWorkers

structure Serving (paths : List CStr) (s : System) : Prop where
  done : s.shared.doneFlag = true
  ring : s.shared.queue.Wf maxReqFiles
  fifo : s.dequeued.map Prod.snd ++ s.shared.queue.contents maxReqFiles = paths
  sem : s.shared.tasksSem + s.workers.countP Stage.spent = s.shared.queue.count + numWorkers
  started : s.workers.length ≤ s.phase.created
  creating : ∀ i, s.phase = .creating i → i < numWorkers
  mutex : ∀ w, s.shared.queueMutex = some w ↔
    ∃ stage, s.workers[w]? = some stage ∧ stage.inside = true
  busy : ∀ w : Nat, s.workers[w]? = some .dequeuing → s.shared.queue.count ≠ 0
  idle : ∀ w : Nat, s.workers[w]? = some .exited → s.shared.queue.count = 0
  awake : ∀ w : Nat, s.workers[w]? ≠ some .condWaiting

section

variable {paths : List CStr} {s s' : System} {w : Nat} {a b : Stage}

/-! ## The scan -/

/-- What the scan leaves: the queue in order and a post for each path. -/
structure Filled (paths : List CStr) (s : Shared) : Prop where
  ring : s.queue.Wf maxReqFiles
  contents : s.queue.contents maxReqFiles = paths
  sem : s.tasksSem = s.queue.count
  free : s.queueMutex = none

theorem scan_filled {entries paths : List CStr} {s : Shared} (h : Filled paths s) :
    Filled (paths ++ ((entries.filter isReq).take (maxReqFiles - paths.length)).map reqPath)
      (scan entries s) := by
  have hcount : ∀ {paths : List CStr} {s : Shared}, Filled paths s →
      paths.length = s.queue.count := by
    intro paths s h
    rw [← h.contents, Ring.length_contents]
  induction entries generalizing paths s with
  | nil =>
    rw [List.filter_nil, List.take_nil, List.map_nil, List.append_nil]
    exact h
  | cons name entries ih =>
    rw [scan]
    by_cases hreq : isReq name = false
    · rw [if_pos hreq, List.filter_cons_of_neg (by rw [hreq]; exact Bool.false_ne_true)]
      exact ih h
    · rw [if_neg hreq, List.filter_cons_of_pos (by simpa using hreq)]
      by_cases hfull : s.queue.count ≥ maxReqFiles
      · have hzero : maxReqFiles - paths.length = 0 := by
          rw [hcount h]
          omega
        rw [if_pos hfull, hzero, List.take_zero, List.map_nil, List.append_nil]
        exact h
      · rw [if_neg hfull]
        have hroom : s.queue.count < maxReqFiles := by omega
        have hnext : Filled (paths ++ [reqPath name]) (s.enqueue (reqPath name)) := by
          refine ⟨h.ring.push hroom, ?_, congrArg (· + 1) h.sem, h.free⟩
          exact (h.ring.contents_push hroom).trans (by rw [h.contents])
        obtain ⟨k, hk⟩ : ∃ k, maxReqFiles - paths.length = k + 1 :=
          ⟨maxReqFiles - paths.length - 1, by have := hcount h; omega⟩
        have hk' : maxReqFiles - (paths ++ [reqPath name]).length = k := by
          rw [List.length_append, List.length_singleton]
          omega
        have hrest := ih hnext
        rw [hk', List.append_assoc] at hrest
        rw [hk, List.take_succ_cons, List.map_cons]
        exact hrest

theorem serving_start (entries : List CStr) : Serving (reqPaths entries) (.start entries) := by
  have hinit : Filled [] Shared.init := ⟨⟨by decide, by decide, by decide⟩, rfl, rfl, rfl⟩
  have h : Filled (reqPaths entries) (scan entries .init) := scan_filled hinit
  refine ⟨rfl, h.ring, h.contents, ?_, Nat.le_refl _, ?_, ?_, ?_, ?_, ?_⟩
  · show (scan entries .init).tasksSem + numWorkers + 0 = _
    rw [h.sem]
    rfl
  · intro i hi
    cases hi
    decide
  · intro w
    show (scan entries .init).queueMutex = some w ↔ _
    rw [h.free]
    constructor
    · intro hw
      cases hw
    · rintro ⟨stage, hw, -⟩
      cases hw
  · intro w hw
    cases hw
  · intro w hw
    cases hw
  · intro w hw
    cases hw

/-! ## A worker goes on -/

/-- The workers after one of them has changed its stage. -/
theorem getElem?_set_some {v : Nat} {c : Stage} (h : (s.workers.set w b)[v]? = some c) :
    v = w ∧ c = b ∨ v ≠ w ∧ s.workers[v]? = some c := by
  rw [List.getElem?_set] at h
  by_cases hwv : w = v
  · rw [if_pos hwv] at h
    split at h
    · exact Or.inl ⟨hwv.symm, (Option.some.inj h).symm⟩
    · cases h
  · rw [if_neg hwv] at h
    exact Or.inr ⟨fun h => hwv h.symm, h⟩

theorem countP_set_add (hw : s.workers[w]? = some a) (p : Stage → Bool) :
    (s.workers.set w b).countP p + (p a).toNat = s.workers.countP p + (p b).toNat := by
  obtain ⟨hlt, hget⟩ := List.getElem?_eq_some_iff.mp hw
  have hpos : p a = true → 0 < s.workers.countP p := by
    intro hpa
    exact List.countP_pos_iff.mpr ⟨a, List.mem_of_getElem? hw, hpa⟩
  rw [List.countP_set hlt, hget]
  cases hpa : p a with
  | true =>
    have := hpos hpa
    cases p b
    · simp only [if_true, Bool.false_eq_true, if_false, Bool.toNat_true, Bool.toNat_false]
      omega
    · simp only [if_true, Bool.toNat_true]
      omega
  | false =>
    cases p b
    · simp only [Bool.false_eq_true, if_false, Bool.toNat_false]
      omega
    · simp only [Bool.false_eq_true, if_false, if_true, Bool.toNat_true, Bool.toNat_false]
      omega

/-- Who has the mutex, after worker `w` has taken it, kept it or given it back. -/
theorem Serving.mutex_set (h : Serving paths s) (hw : s.workers[w]? = some a)
    {mutex : Option Nat}
    (hmutex : ∀ v, mutex = some v ↔
      v = w ∧ b.inside = true ∨ v ≠ w ∧ s.shared.queueMutex = some v) (v : Nat) :
    mutex = some v ↔ ∃ stage, (s.workers.set w b)[v]? = some stage ∧ stage.inside = true := by
  have hlt : w < s.workers.length := (List.getElem?_eq_some_iff.mp hw).1
  rw [hmutex]
  by_cases hv : v = w
  · subst hv
    rw [List.getElem?_set_self hlt]
    constructor
    · rintro (⟨-, hb⟩ | ⟨hne, -⟩)
      · exact ⟨b, rfl, hb⟩
      · exact absurd rfl hne
    · rintro ⟨stage, hstage, hin⟩
      cases hstage
      exact Or.inl ⟨rfl, hin⟩
  · rw [List.getElem?_set_ne (fun h => hv h.symm), ← h.mutex v]
    constructor
    · rintro (⟨heq, -⟩ | ⟨-, hm⟩)
      · exact absurd heq hv
      · exact hm
    · intro hm
      exact Or.inr ⟨hv, hm⟩

/-- A worker goes from stage `a` to stage `b` and leaves the queue alone. -/
theorem Serving.move (h : Serving paths s) (hw : s.workers[w]? = some a) {shared : Shared}
    (hqueue : shared.queue = s.shared.queue) (hdone : shared.doneFlag = s.shared.doneFlag)
    (hsem : shared.tasksSem + b.spent.toNat = s.shared.tasksSem + a.spent.toNat)
    (hmutex : ∀ v, shared.queueMutex = some v ↔
      v = w ∧ b.inside = true ∨ v ≠ w ∧ s.shared.queueMutex = some v)
    (hbusy : b = .dequeuing → s.shared.queue.count ≠ 0)
    (hidle : b = .exited → s.shared.queue.count = 0) (hawake : b ≠ .condWaiting) :
    Serving paths ({ s with shared := shared }.setStage w b) := by
  refine ⟨hdone.trans h.done, ?_, ?_, ?_, ?_, h.creating, h.mutex_set hw hmutex, ?_, ?_, ?_⟩
  · show shared.queue.Wf _
    rw [hqueue]
    exact h.ring
  · show _ ++ shared.queue.contents _ = _
    rw [hqueue]
    exact h.fifo
  · show shared.tasksSem + (s.workers.set w b).countP Stage.spent = shared.queue.count + numWorkers
    have hcount := countP_set_add (b := b) hw Stage.spent
    have := h.sem
    rw [hqueue]
    omega
  · show (s.workers.set w b).length ≤ _
    rw [List.length_set]
    exact h.started
  · intro v hv
    show shared.queue.count ≠ 0
    rw [hqueue]
    obtain ⟨-, hb⟩ | ⟨-, hv⟩ := getElem?_set_some hv
    · exact hbusy hb.symm
    · exact h.busy v hv
  · intro v hv
    show shared.queue.count = 0
    rw [hqueue]
    obtain ⟨-, hb⟩ | ⟨-, hv⟩ := getElem?_set_some hv
    · exact hidle hb.symm
    · exact h.idle v hv
  · intro v hv
    obtain ⟨-, hb⟩ | ⟨-, hv⟩ := getElem?_set_some hv
    · exact hawake hb.symm
    · exact h.awake v hv

/-- The mutex when a worker without it goes on without it, or one with it keeps it. -/
theorem Serving.mutex_same (h : Serving paths s) (hw : s.workers[w]? = some a)
    (hsame : b.inside = a.inside) (v : Nat) :
    s.shared.queueMutex = some v ↔
      v = w ∧ b.inside = true ∨ v ≠ w ∧ s.shared.queueMutex = some v := by
  by_cases hv : v = w
  · subst hv
    rw [h.mutex v, hsame]
    constructor
    · rintro ⟨stage, hstage, hin⟩
      rw [hw] at hstage
      cases hstage
      exact Or.inl ⟨rfl, hin⟩
    · rintro (⟨-, hin⟩ | ⟨hne, -⟩)
      · exact ⟨a, hw, hin⟩
      · exact absurd rfl hne
  · constructor
    · intro hm
      exact Or.inr ⟨hv, hm⟩
    · rintro (⟨heq, -⟩ | ⟨-, hm⟩)
      · exact absurd heq hv
      · exact hm

/-- The mutex when the worker that has it gives it back. -/
theorem Serving.mutex_unlock (h : Serving paths s) (hw : s.workers[w]? = some a)
    (hin : a.inside = true) (hout : b.inside = false) (v : Nat) :
    (none : Option Nat) = some v ↔
      v = w ∧ b.inside = true ∨ v ≠ w ∧ s.shared.queueMutex = some v := by
  have howner : s.shared.queueMutex = some w := (h.mutex w).mpr ⟨a, hw, hin⟩
  constructor
  · intro hv
    cases hv
  · rintro (⟨-, hb⟩ | ⟨hne, hm⟩)
    · rw [hout] at hb
      cases hb
    · rw [howner, Option.some.injEq] at hm
      exact absurd hm.symm hne

/-- The mutex when a worker takes it. -/
theorem mutex_lock (hfree : s.shared.queueMutex = none) (hin : b.inside = true) (v : Nat) :
    some w = some v ↔ v = w ∧ b.inside = true ∨ v ≠ w ∧ s.shared.queueMutex = some v := by
  rw [hfree]
  constructor
  · intro hv
    exact Or.inl ⟨(Option.some.inj hv).symm, hin⟩
  · rintro (⟨hv, -⟩ | ⟨-, hv⟩)
    · rw [hv]
    · cases hv

theorem Serving.check (h : Serving paths s) (hw : s.workers[w]? = some .checking) :
    Serving paths (s.check w) := by
  unfold System.check
  by_cases hcount : s.shared.queue.count = 0
  · rw [if_neg (fun hne => hne hcount), if_pos h.done]
    exact h.move hw rfl rfl rfl (h.mutex_unlock hw rfl rfl) (fun hb => by cases hb)
      (fun _ => hcount) (fun hb => by cases hb)
  · rw [if_pos hcount]
    have hmoved : Serving paths ({ s with shared := s.shared }.setStage w .dequeuing) :=
      h.move hw rfl rfl rfl (h.mutex_same hw rfl) (fun _ => hcount) (fun hb => by cases hb)
        (fun hb => by cases hb)
    exact hmoved

/-- The worker that has the mutex takes the front of the queue. -/
theorem Serving.dequeue (h : Serving paths s) (hw : s.workers[w]? = some .dequeuing) :
    Serving paths (s.dequeue w) := by
  have hpos := h.busy w hw
  have howner : s.shared.queueMutex = some w := (h.mutex w).mpr ⟨_, hw, rfl⟩
  refine ⟨h.done, h.ring.pop hpos, ?_, ?_, ?_, h.creating, h.mutex_set hw (h.mutex_unlock hw rfl rfl),
    ?_, ?_, ?_⟩
  · show (s.dequeued ++ [(w, s.shared.queue.front)]).map Prod.snd ++
      (s.shared.queue.pop maxReqFiles).contents maxReqFiles = paths
    rw [← h.fifo, h.ring.contents_pop hpos, List.map_append, List.append_assoc]
    rfl
  · show s.shared.tasksSem +
      (s.workers.set w (.processing s.shared.queue.front)).countP Stage.spent =
        s.shared.queue.count - 1 + numWorkers
    have hcount : (s.workers.set w (.processing s.shared.queue.front)).countP Stage.spent + 1 =
        s.workers.countP Stage.spent := countP_set_add hw Stage.spent
    have := h.sem
    omega
  · show (s.workers.set w _).length ≤ _
    rw [List.length_set]
    exact h.started
  · -- another worker about to dequeue would have the mutex, too
    intro v hv
    obtain ⟨-, hb⟩ | ⟨hne, hv⟩ := getElem?_set_some hv
    · cases hb
    · have hother : s.shared.queueMutex = some v := (h.mutex v).mpr ⟨_, hv, rfl⟩
      rw [howner, Option.some.injEq] at hother
      exact absurd hother.symm hne
  · intro v hv
    obtain ⟨-, hb⟩ | ⟨-, hv⟩ := getElem?_set_some hv
    · cases hb
    · exact absurd (h.idle v hv) hpos
  · intro v hv
    obtain ⟨-, hb⟩ | ⟨-, hv⟩ := getElem?_set_some hv
    · cases hb
    · exact h.awake v hv

/-! ## The main thread -/

/-- A new worker is before `sem_wait`. -/
theorem Serving.create (h : Serving paths s) {ok : Bool} {i : Nat}
    (hphase : s.phase = .creating i) : Serving paths (s.create ok i) := by
  have hi := h.creating i hphase
  have hstarted := h.started
  rw [hphase, Phase.created] at hstarted
  have hcreated : i + 1 ≤ (s.create ok i).phase.created := by
    unfold System.create
    by_cases hlt : i + 1 < numWorkers
    · simp only [if_pos hlt]
      exact Nat.le_refl _
    · simp only [if_neg hlt]
      exact hi
  have hcreating : ∀ j, (s.create ok i).phase = .creating j → j < numWorkers := by
    intro j hj
    unfold System.create at hj
    by_cases hlt : i + 1 < numWorkers
    · simp only [if_pos hlt, Phase.creating.injEq] at hj
      omega
    · simp only [if_neg hlt] at hj
      cases hj
  cases ok with
  | false =>
    exact ⟨h.done, h.ring, h.fifo, h.sem, Nat.le_trans (Nat.le_succ_of_le hstarted) hcreated,
      hcreating, h.mutex, h.busy, h.idle, h.awake⟩
  | true =>
    have hold : ∀ {v : Nat} {stage : Stage}, (s.workers ++ [Stage.waiting])[v]? = some stage →
        stage ≠ .waiting → s.workers[v]? = some stage := by
      intro v stage hv hne
      by_cases hlt : v < s.workers.length
      · rwa [List.getElem?_append_left hlt] at hv
      · rw [List.getElem?_append_right (Nat.le_of_not_lt hlt)] at hv
        exact absurd (List.mem_singleton.mp (List.mem_of_getElem? hv)) hne
    refine ⟨h.done, h.ring, h.fifo, ?_, ?_, hcreating, ?_, ?_, ?_, ?_⟩
    · show s.shared.tasksSem + (s.workers ++ [Stage.waiting]).countP Stage.spent = _
      rw [List.countP_append]
      exact h.sem
    · show (s.workers ++ [Stage.waiting]).length ≤ _
      rw [List.length_append, List.length_singleton]
      omega
    · intro w
      refine (h.mutex w).trans ⟨?_, ?_⟩
      · rintro ⟨stage, hw, hin⟩
        have hlt : w < s.workers.length := (List.getElem?_eq_some_iff.mp hw).1
        refine ⟨stage, ?_, hin⟩
        show (s.workers ++ [Stage.waiting])[w]? = some stage
        rw [List.getElem?_append_left hlt, hw]
      · rintro ⟨stage, hw, hin⟩
        refine ⟨stage, hold hw ?_, hin⟩
        rintro rfl
        cases hin
    · intro w hw
      exact h.busy w (hold hw (fun hb => by cases hb))
    · intro w hw
      exact h.idle w (hold hw (fun hb => by cases hb))
    · intro w hw
      exact h.awake w (hold hw (fun hb => by cases hb))

/-- Joining changes nothing that the workers see. -/
theorem Serving.join (h : Serving paths s) {i : Nat} {phase : Phase}
    (hphase : s.phase = .joining i) (hcreated : phase.created = numWorkers)
    (hno : ∀ j, phase ≠ .creating j) : Serving paths { s with phase := phase } := by
  refine ⟨h.done, h.ring, h.fifo, h.sem, ?_, ?_, h.mutex, h.busy, h.idle, h.awake⟩
  · have hstarted := h.started
    rw [hphase] at hstarted
    show s.workers.length ≤ phase.created
    rw [hcreated]
    exact hstarted
  · intro j hj
    exact absurd hj (hno j)

/-! ## One step -/

theorem Serving.step (h : Serving paths s) {e : Event} (hstep : System.step e s = some s') :
    Serving paths s' := by
  unfold System.step at hstep
  cases e with
  | create ok =>
    simp only at hstep
    split at hstep
    next i hphase =>
      cases hstep
      exact h.create hphase
    next => cases hstep
  | join =>
    simp only at hstep
    split at hstep
    next i hphase =>
      split at hstep
      · cases hstep
        exact h.join hphase rfl (fun j hj => by cases hj)
      · cases hstep
        exact h.join hphase rfl (fun j hj => by cases hj)
      · cases hstep
    next => cases hstep
  | semWait w =>
    simp only at hstep
    split at hstep
    next hw =>
      cases hstep
      obtain ⟨hw, hsem⟩ := hw
      refine h.move hw rfl rfl ?_ (h.mutex_same hw rfl) (fun hb => by cases hb)
        (fun hb => by cases hb) (fun hb => by cases hb)
      show s.shared.tasksSem - 1 + 1 = s.shared.tasksSem + 0
      omega
    next => cases hstep
  | lock w =>
    simp only at hstep
    split at hstep
    next hw =>
      cases hstep
      exact h.move hw.1 rfl rfl rfl (mutex_lock hw.2 rfl) (fun hb => by cases hb)
        (fun hb => by cases hb) (fun hb => by cases hb)
    next => cases hstep
  | check w =>
    simp only at hstep
    split at hstep
    next hw =>
      cases hstep
      exact h.check hw
    next => cases hstep
  | wake w =>
    simp only at hstep
    split at hstep
    next hw => exact absurd hw.1 (h.awake w)
    next => cases hstep
  | dequeue w =>
    simp only at hstep
    split at hstep
    next hw =>
      cases hstep
      exact h.dequeue hw
    next => cases hstep
  | process w errors =>
    simp only at hstep
    split at hstep
    next path hw =>
      cases hstep
      cases errors <;>
        exact h.move hw rfl rfl rfl (h.mutex_same hw rfl) (fun hb => by cases hb)
          (fun hb => by cases hb) (fun hb => by cases hb)
    next => cases hstep

/-! ## What follows -/

/-- A worker before `sem_wait` finds a post. -/
theorem Serving.tasksSem_ne_zero (h : Serving paths s) (hw : s.workers[w]? = some .waiting) :
    s.shared.tasksSem ≠ 0 := by
  have hspent : s.workers.countP Stage.spent < s.workers.length :=
    List.countP_lt_length_iff.mpr ⟨_, List.mem_of_getElem? hw, rfl⟩
  have hcreated : s.phase.created ≤ numWorkers := by
    cases hphase : s.phase with
    | creating i => exact Nat.le_of_lt (h.creating i hphase)
    | joining i => exact Nat.le_refl _
    | joined => exact Nat.le_refl _
  have := h.sem
  have := h.started
  omega

/-- The worker that has the mutex can go on. -/
theorem Serving.owner_works (h : Serving paths s) (hm : s.shared.queueMutex = some w) :
    ∃ e : Event, e.isWork = true ∧ e.processor = none ∧ (System.step e s).isSome = true := by
  obtain ⟨stage, hw, hin⟩ := (h.mutex w).mp hm
  cases stage with
  | checking => exact ⟨.check w, rfl, rfl, by rw [System.step, if_pos hw]; rfl⟩
  | dequeuing => exact ⟨.dequeue w, rfl, rfl, by rw [System.step, if_pos hw]; rfl⟩
  | waiting => cases hin
  | locking => cases hin
  | condWaiting => cases hin
  | processing path => cases hin
  | exited => cases hin

/-- While a worker has not left and is not at work on a file, some worker can go on without a file
being processed. -/
theorem Serving.idle_works (h : Serving paths s) (hw : s.workers[w]? = some a) (hlive : a ≠ .exited)
    (hidle : ∀ path, a ≠ .processing path) :
    ∃ e : Event, e.isWork = true ∧ e.processor = none ∧ (System.step e s).isSome = true := by
  cases a with
  | waiting =>
    refine ⟨.semWait w, rfl, rfl, ?_⟩
    rw [System.step, if_pos ⟨hw, h.tasksSem_ne_zero hw⟩]
    rfl
  | locking =>
    cases hm : s.shared.queueMutex with
    | none =>
      refine ⟨.lock w, rfl, rfl, ?_⟩
      rw [System.step, if_pos ⟨hw, hm⟩]
      rfl
    | some v => exact h.owner_works hm
  | checking => exact h.owner_works ((h.mutex w).mpr ⟨_, hw, rfl⟩)
  | dequeuing => exact h.owner_works ((h.mutex w).mpr ⟨_, hw, rfl⟩)
  | condWaiting => exact absurd hw (h.awake w)
  | processing path => exact absurd rfl (hidle path)
  | exited => exact absurd rfl hlive

/-- **No deadlock.** While a worker has not left, some worker can go on. -/
theorem Serving.works (h : Serving paths s) (hw : s.workers[w]? = some a) (hlive : a ≠ .exited) :
    ∃ e : Event, e.isWork = true ∧ (System.step e s).isSome = true := by
  by_cases hidle : ∀ path, a ≠ .processing path
  · obtain ⟨e, hwork, -, he⟩ := h.idle_works hw hlive hidle
    exact ⟨e, hwork, he⟩
  · obtain ⟨path, hpath⟩ := not_forall.mp hidle
    obtain rfl := not_not.mp hpath
    refine ⟨.process w none, rfl, ?_⟩
    rw [System.step, hw]
    rfl

/-- A worker leaves only when nothing is left in the queue. -/
theorem Serving.all_dequeued (h : Serving paths s) (hw : s.workers[w]? = some .exited) :
    s.shared.queue.count = 0 ∧ s.dequeued.map Prod.snd = paths := by
  have hzero := h.idle w hw
  refine ⟨hzero, ?_⟩
  rw [← h.fifo, Ring.contents_eq_nil hzero, List.append_nil]

end

/-- **The file-request pool.** Whatever `requests/` holds, in every interleaving: the paths dequeued
are the first of those put into the queue, in their order, one worker for each; when a worker has
left the queue is empty and every path has been dequeued; and while a worker has not left some
worker can go on. -/
theorem run_serves {entries : List CStr} {events : List Event} {s : System}
    (hrun : runs System.step events (.start entries) = some s) :
    (s.dequeued.map Prod.snd <+: reqPaths entries) ∧
      (∀ w : Nat, s.workers[w]? = some .exited →
        s.shared.queue.count = 0 ∧ s.dequeued.map Prod.snd = reqPaths entries) ∧
      ∀ (w : Nat) (stage : Stage), s.workers[w]? = some stage → stage ≠ .exited →
        ∃ e : Event, e.isWork = true ∧ (System.step e s).isSome = true := by
  have h : Serving (reqPaths entries) s :=
    runs_invariant (fun _ _ _ h hstep => h.step hstep) (serving_start entries) hrun
  refine ⟨?_, fun w hw => h.all_dequeued hw, fun w stage hw hlive => h.works hw hlive⟩
  rw [← h.fifo]
  exact List.prefix_append _ _

/-- Two files for three workers, up to the end of one of them; the first worker takes the second
file. -/
def twoFiles : List Event :=
  [.create true, .create true, .create true, .semWait 1, .semWait 0, .lock 1, .check 1, .dequeue 1,
    .lock 0, .check 0, .dequeue 0, .semWait 2, .process 1 (some 1), .lock 2, .check 2,
    .process 0 none]

theorem run_serves_twoFiles :
    ∃ s, runs System.step twoFiles
        (.start [ascii "hello.req", ascii "notes.txt", ascii "users.req"]) = some s ∧
      s.dequeued.map Prod.snd = [ascii "requests/hello.req", ascii "requests/users.req"] ∧
      ∃ e : Event, e.isWork = true ∧ (System.step e s).isSome = true := by
  have heval : (runs System.step twoFiles
      (.start [ascii "hello.req", ascii "notes.txt", ascii "users.req"])).map (·.workers) =
        some [.waiting, .waiting, .exited] := by decide +kernel
  obtain ⟨s, hs, hworkers⟩ := Option.map_eq_some_iff.mp heval
  obtain ⟨-, hall, hworks⟩ := run_serves hs
  have hexited : s.workers[2]? = some .exited := by rw [hworkers]; rfl
  have hwaiting : s.workers[0]? = some .waiting := by rw [hworkers]; rfl
  refine ⟨s, hs, ?_, hworks 0 .waiting hwaiting (by decide)⟩
  rw [(hall 2 hexited).2]
  decide +kernel

end MiniWeb.ProcessServer
