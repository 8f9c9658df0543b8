import MiniWeb.Lib.Trace
import MiniWeb.ProcessServer.Service

/-!
# The end of a run, and its statistics

A run of the file-request pool has a bounded number of events (`run_complete`): a path costs a worker
five of them and its end costs it three. A run gets stuck before only where a worker waits while it
processes a file. Otherwise `process_server_run` returns from its last `pthread_join`, and then
`total_processed` and `total_errors` say what has become of the files: each queued file was processed
or could not be opened, once.
-/

namespace MiniWeb.ProcessServer

open CStr Runs

/-! ## What an event does -/

/-- How many events a worker has before it, at most, until it waits for a path or leaves. -/
def Stage.rank : Stage → Nat
  | .waiting => 3
  | .locking => 2
  | .checking => 1
  | .condWaiting => 0
  | .dequeuing => 0
  | .processing _ => 4
  | .exited => 0

/-- How many events the main thread has before it, and the workers it has still to create. -/
def Phase.rank : Phase → Nat
  | .creating i => 4 * (numWorkers - i) + numWorkers + 1
  | .joining i => numWorkers - i + 1
  | .joined => 0

/-- A bound on the events from a state on. -/
def System.rank (s : System) : Nat :=
  5 * s.shared.queue.count + (s.workers.map Stage.rank).sum + s.phase.rank

def Stage.isProcessing : Stage → Bool
  | .processing _ => true
  | _ => false

/-- What a worker found when it was through with a file. -/
def Event.results : Event → List (Option Nat)
  | .process _ errors => [errors]
  | _ => []

variable {paths : List CStr} {s s' : System} {e : Event} {w : Nat} {a b : Stage}

/-- A worker goes on without a path, to a stage with fewer events before it. -/
def Stage.Onward (a b : Stage) : Prop :=
  b.rank < a.rank ∧ a.isProcessing = false ∧ b.isProcessing = false

/-- **One event**: a worker is created or not, one is joined or the main thread is past all joins, a
worker goes on, takes a path, or is through with one. -/
theorem Serving.step_cases (h : Serving paths s) (hstep : System.step e s = some s') :
    (∃ ok i, e.results = [] ∧ s.phase = .creating i ∧ s' = s.create ok i) ∨
    (∃ i phase, e.results = [] ∧ s.phase = .joining i ∧
      (phase = .joined ∨ i < s.workers.length ∧ phase = .joining (i + 1)) ∧
      s' = { s with phase := phase }) ∨
    (∃ w a b shared, e.results = [] ∧ s.workers[w]? = some a ∧ a.Onward b ∧
      shared.queue = s.shared.queue ∧ shared.totalProcessed = s.shared.totalProcessed ∧
      shared.totalErrors = s.shared.totalErrors ∧
      s' = ({ s with shared := shared } : System).setStage w b) ∨
    (∃ w, e.results = [] ∧ s.workers[w]? = some .dequeuing ∧ s' = s.dequeue w) ∨
    ∃ w path errors, e.results = [errors] ∧ s.workers[w]? = some (.processing path) ∧
      s' = (s.count errors).setStage w .waiting := by
  cases e with
  | create ok =>
    rw [System.step] at hstep
    split at hstep
    next i hphase => exact .inl ⟨ok, i, rfl, hphase, (Option.some.inj hstep).symm⟩
    next => cases hstep
  | join =>
    rw [System.step] at hstep
    split at hstep
    next i hphase =>
      split at hstep
      next => exact .inr (.inl ⟨i, _, rfl, hphase, .inl rfl, (Option.some.inj hstep).symm⟩)
      next hexited =>
        have hlt := (List.getElem?_eq_some_iff.mp hexited).1
        exact .inr (.inl ⟨i, _, rfl, hphase, .inr ⟨hlt, rfl⟩, (Option.some.inj hstep).symm⟩)
      next => cases hstep
    next => cases hstep
  | semWait w =>
    rw [System.step] at hstep
    split at hstep
    next hw =>
      exact .inr (.inr (.inl ⟨w, _, .locking,
        { s.shared with tasksSem := s.shared.tasksSem - 1 }, rfl, hw.1, ⟨by decide, rfl, rfl⟩, rfl, rfl,
        rfl, (Option.some.inj hstep).symm⟩))
    next => cases hstep
  | lock w =>
    rw [System.step] at hstep
    split at hstep
    next hw =>
      exact .inr (.inr (.inl ⟨w, _, .checking, { s.shared with queueMutex := some w }, rfl, hw.1,
        ⟨by decide, rfl, rfl⟩, rfl, rfl, rfl, (Option.some.inj hstep).symm⟩))
    next => cases hstep
  | check w =>
    rw [System.step] at hstep
    split at hstep
    next hw =>
      have hs := Option.some.inj hstep
      rw [System.check] at hs
      split at hs
      · exact .inr (.inr (.inl ⟨w, _, .dequeuing, s.shared, rfl, hw, ⟨by decide, rfl, rfl⟩, rfl, rfl,
          rfl, hs.symm⟩))
      · rw [if_pos h.done] at hs
        exact .inr (.inr (.inl ⟨w, _, .exited, { s.shared with queueMutex := none }, rfl, hw,
          ⟨by decide, rfl, rfl⟩, rfl, rfl, rfl, hs.symm⟩))
    next => cases hstep
  | wake w =>
    rw [System.step] at hstep
    split at hstep
    next hw => exact absurd hw.1 (h.awake w)
    next => cases hstep
  | dequeue w =>
    rw [System.step] at hstep
    split at hstep
    next hw => exact .inr (.inr (.inr (.inl ⟨w, rfl, hw, (Option.some.inj hstep).symm⟩)))
    next => cases hstep
  | process w errors =>
    rw [System.step] at hstep
    split at hstep
    next path hw =>
      exact .inr (.inr (.inr (.inr ⟨w, path, errors, rfl, hw, (Option.some.inj hstep).symm⟩)))
    next => cases hstep

/-! ## Every run ends -/

theorem sum_rank_set {workers : List Stage} (hw : workers[w]? = some a) :
    ((workers.set w b).map Stage.rank).sum + a.rank =
      (workers.map Stage.rank).sum + b.rank := by
  induction workers generalizing w with
  | nil => cases hw
  | cons c workers ih =>
    cases w with
    | zero =>
      rw [List.getElem?_cons_zero] at hw
      obtain rfl := Option.some.inj hw
      rw [List.set_cons_zero, List.map_cons, List.map_cons, List.sum_cons, List.sum_cons]
      omega
    | succ w =>
      rw [List.getElem?_cons_succ] at hw
      have := ih hw
      rw [List.set_cons_succ, List.map_cons, List.map_cons, List.sum_cons, List.sum_cons]
      omega

/-- The rank when a worker goes from one stage to another. -/
theorem rank_setStage (shared : Shared) (hw : s.workers[w]? = some a) :
    (({ s with shared := shared } : System).setStage w b).rank + 5 * s.shared.queue.count + a.rank =
      s.rank + 5 * shared.queue.count + b.rank := by
  have hsum := sum_rank_set (b := b) hw
  change 5 * shared.queue.count + ((s.workers.set w b).map Stage.rank).sum + s.phase.rank +
    5 * s.shared.queue.count + a.rank = _
  rw [System.rank]
  omega

theorem processed_lt {path : CStr} {shared : Shared} (hw : s.workers[w]? = some (.processing path))
    (hqueue : shared.queue = s.shared.queue) :
    (({ s with shared := shared } : System).setStage w .waiting).rank < s.rank := by
  have hrank := rank_setStage (b := .waiting) shared hw
  rw [hqueue] at hrank
  change _ + _ + 4 = _ + _ + 3 at hrank
  omega

/-- Every event lowers the rank. -/
theorem Serving.rank_lt (h : Serving paths s) (hstep : System.step e s = some s') :
    s'.rank < s.rank := by
  rcases h.step_cases hstep with ⟨ok, i, -, hphase, rfl⟩ | ⟨i, phase, -, hphase, hnext, rfl⟩ |
    ⟨w, a, b, shared, -, hw, hab, hqueue, -, -, rfl⟩ | ⟨w, -, hw, rfl⟩ |
    ⟨w, path, errors, -, hw, rfl⟩
  · have hi := h.creating i hphase
    have hworkers : ((s.create ok i).workers.map Stage.rank).sum ≤
        (s.workers.map Stage.rank).sum + 3 := by
      cases ok with
      | false => exact Nat.le_add_right _ _
      | true =>
        change ((s.workers ++ [Stage.waiting]).map Stage.rank).sum ≤ _
        rw [List.map_append, List.sum_append]
        exact Nat.le_refl _
    have hrank : (s.create ok i).phase.rank + 4 ≤ s.phase.rank := by
      rw [hphase, System.create]
      by_cases hlt : i + 1 < numWorkers
      · simp only [if_pos hlt, Phase.rank]
        omega
      · simp only [if_neg hlt, Phase.rank]
        omega
    change 5 * s.shared.queue.count + _ + _ < 5 * s.shared.queue.count + _ + _
    omega
  · have hrank : phase.rank < s.phase.rank := by
      have hstarted := h.started
      rw [hphase] at hstarted ⊢
      rcases hnext with rfl | ⟨hlt, rfl⟩
      · exact Nat.succ_pos _
      · simp only [Phase.rank, Phase.created] at hstarted ⊢
        omega
    exact Nat.add_lt_add_left hrank _
  · have hrank := rank_setStage (b := b) shared hw
    have := hab.1
    rw [hqueue] at hrank
    omega
  · have hrank := rank_setStage (s := { s with dequeued := s.dequeued ++ [(w, s.shared.queue.front)] })
      (b := .processing s.shared.queue.front)
      { s.shared with queue := s.shared.queue.pop maxReqFiles, queueMutex := none } hw
    have hpos := h.busy w hw
    change (s.dequeue w).rank + 5 * s.shared.queue.count + 0 =
      s.rank + 5 * (s.shared.queue.count - 1) + 4 at hrank
    omega
  · cases errors with
    | none => exact processed_lt hw rfl
    | some n => exact processed_lt hw rfl

/-! ## What is counted -/

/-- What the workers found, file by file, in a run. -/
def results (events : List Event) : List (Option Nat) := events.flatMap Event.results

/-- How many workers are at work on a file. -/
def System.working (s : System) : Nat := s.workers.countP Stage.isProcessing

/-- The files taken are being processed or are through, and the totals say with what result. -/
structure Tally (events : List Event) (s : System) : Prop where
  taken : s.dequeued.length = (results events).length + s.working
  processed : s.shared.totalProcessed = (results events).countP Option.isSome
  errors : s.shared.totalErrors = ((results events).map (·.getD 1)).sum

variable {events : List Event}

theorem results_append (e : Event) : results (events ++ [e]) = results events ++ e.results := by
  rw [results, List.flatMap_append, List.flatMap_singleton]
  rfl

/-- An event without a result, after which as many workers are at work on as many files. -/
theorem Tally.quiet (h : Tally events s) (hresults : e.results = [])
    (htaken : s'.dequeued.length + s.working = s.dequeued.length + s'.working)
    (hprocessed : s'.shared.totalProcessed = s.shared.totalProcessed)
    (herrors : s'.shared.totalErrors = s.shared.totalErrors) : Tally (events ++ [e]) s' := by
  have heq : results (events ++ [e]) = results events := by
    rw [results_append, hresults, List.append_nil]
  refine ⟨?_, ?_, ?_⟩
  · have := h.taken
    rw [heq]
    omega
  · rw [heq, hprocessed, h.processed]
  · rw [heq, herrors, h.errors]

theorem Tally.step (h : Tally events s) (hs : Serving paths s)
    (hstep : System.step e s = some s') : Tally (events ++ [e]) s' := by
  rcases hs.step_cases hstep with ⟨ok, i, hresults, -, rfl⟩ | ⟨i, phase, hresults, -, -, rfl⟩ |
    ⟨w, a, b, shared, hresults, hw, ⟨-, ha, hb⟩, -, hprocessed, herrors, rfl⟩ |
    ⟨w, hresults, hw, rfl⟩ | ⟨w, path, errors, hresults, hw, rfl⟩
  · have hworking : (s.create ok i).working = s.working := by
      cases ok with
      | false => rfl
      | true =>
        change (s.workers ++ [Stage.waiting]).countP _ = s.working
        rw [List.countP_append]
        rfl
    exact h.quiet hresults (by rw [hworking]; rfl) rfl rfl
  · exact h.quiet hresults rfl rfl rfl
  · have hcount := countP_set_add (b := b) hw Stage.isProcessing
    rw [ha, hb] at hcount
    exact h.quiet hresults (congrArg (s.dequeued.length + ·) hcount.symm) hprocessed herrors
  · have hcount : (s.dequeue w).working + 0 = s.working + 1 :=
      countP_set_add hw Stage.isProcessing
    refine h.quiet hresults ?_ rfl rfl
    change (s.dequeued ++ [_]).length + _ = _
    rw [List.length_append, List.length_singleton]
    omega
  · have hcount : ((s.count errors).setStage w .waiting).working + 1 = s.working + 0 := by
      cases errors <;> exact countP_set_add hw Stage.isProcessing
    have hdequeued : ((s.count errors).setStage w .waiting).dequeued = s.dequeued := by
      cases errors <;> rfl
    refine ⟨?_, ?_, ?_⟩
    · have := h.taken
      rw [hdequeued, results_append, hresults, List.length_append, List.length_singleton]
      omega
    · rw [results_append, hresults, List.countP_append, ← h.processed]
      cases errors <;> rfl
    · rw [results_append, hresults, List.map_append, List.sum_append, ← h.errors]
      cases errors <;> rfl

theorem scan_totals (entries : List CStr) (t : Shared) :
    (scan entries t).totalProcessed = t.totalProcessed ∧
      (scan entries t).totalErrors = t.totalErrors := by
  induction entries generalizing t with
  | nil => exact ⟨rfl, rfl⟩
  | cons name entries ih =>
    rw [scan]
    split
    · exact ih t
    · split
      · exact ⟨rfl, rfl⟩
      · exact ih (t.enqueue (reqPath name))

/-- The rank before the first worker is created. -/
theorem rank_start (entries : List CStr) :
    (System.start entries).rank = 5 * (reqPaths entries).length + 21 := by
  have h := serving_start entries
  have hcount : (System.start entries).shared.queue.count = (reqPaths entries).length := by
    rw [← h.fifo, List.length_append, Ring.length_contents]
    exact (Nat.zero_add _).symm
  rw [System.rank, hcount]
  rfl

theorem run_tally {entries : List CStr} (hrun : runs System.step events (.start entries) = some s) :
    Serving (reqPaths entries) s ∧ Tally events s := by
  induction events using List.reverseRecOn generalizing s with
  | nil =>
    cases hrun
    exact ⟨serving_start entries, rfl, (scan_totals entries .init).1, (scan_totals entries .init).2⟩
  | append_singleton events e ih =>
    rw [runs_append] at hrun
    obtain ⟨s₁, hs₁, hlast⟩ := Option.bind_eq_some_iff.mp hrun
    obtain ⟨s₂, hstep, hnil⟩ := Option.bind_eq_some_iff.mp hlast
    obtain rfl := Option.some.inj hnil
    obtain ⟨hs, htally⟩ := ih hs₁
    exact ⟨hs.step hstep, htally.step hs hstep⟩

/-! ## The end -/

variable {held : System → Nat → Bool}

theorem step_of_stepUnless (h : System.stepUnless held e s = some s') :
    System.step e s = some s' := by
  rw [System.stepUnless] at h
  split at h
  · cases h
  · exact h

/-- A run in which workers may wait is a run. -/
theorem runs_of_stepUnless (h : runs (System.stepUnless held) events s = some s') :
    runs System.step events s = some s' := by
  induction events generalizing s with
  | nil => exact h
  | cons e events ih =>
    obtain ⟨s₁, hs₁, hrest⟩ := Option.bind_eq_some_iff.mp h
    rw [runs_cons, step_of_stepUnless hs₁]
    exact ih hrest

/-- **Where no event is possible** every worker has left, or waits while it processes a file. -/
theorem Serving.stuck (h : Serving paths s) (hstuck : ∀ e, System.stepUnless held e s = none)
    {stage : Stage} (hw : s.workers[w]? = some stage) :
    stage = .exited ∨ ∃ path, stage = .processing path ∧ held s w = true := by
  rw [or_iff_not_imp_left]
  intro hlive
  by_cases hidle : ∀ path, stage ≠ .processing path
  · obtain ⟨e, -, hprocessor, he⟩ := h.idle_works hw hlive hidle
    have hnone := hstuck e
    rw [System.stepUnless, hprocessor, if_neg (by simp)] at hnone
    rw [hnone] at he
    cases he
  · obtain ⟨path, hpath⟩ := not_forall.mp hidle
    obtain rfl := not_not.mp hpath
    refine ⟨path, rfl, ?_⟩
    by_contra hgoes
    have hnone := hstuck (.process w none)
    rw [System.stepUnless, if_neg (by simpa [Event.processor] using hgoes), System.step, hw] at hnone
    cases hnone

/-- Where all workers have left the main thread gets past its joins. -/
theorem joined_of_exited (hstuck : ∀ e, System.stepUnless held e s = none)
    (hexited : ∀ (w : Nat) stage, s.workers[w]? = some stage → stage = .exited) :
    s.phase = .joined := by
  cases hphase : s.phase with
  | joined => rfl
  | creating i =>
    have hnone : System.step (.create true) s = none := hstuck (.create true)
    rw [System.step, hphase] at hnone
    cases hnone
  | joining i =>
    have hnone : System.step .join s = none := hstuck .join
    rw [System.step, hphase] at hnone
    cases hw : s.workers[i]? with
    | none =>
      simp only [hw] at hnone
      cases hnone
    | some stage =>
      obtain rfl := hexited i stage hw
      simp only [hw] at hnone
      cases hnone

/-- **The file-request pool comes to its end.** Whatever `requests/` holds and whenever workers wait
while they process a file, every run has at most five events for each queued path and 21 more. In a
run that cannot go on every worker has left or waits. If none waits all workers are joined, and if one
was created every queued path has one result: `total_processed` counts the files that were processed,
and `total_errors` the files that could not be opened and the errors in the others. -/
theorem run_complete {entries : List CStr} {events : List Event} {s : System}
    (held : System → Nat → Bool)
    (hrun : runs (System.stepUnless held) events (.start entries) = some s) :
    events.length ≤ 5 * (reqPaths entries).length + 21 ∧
      ((∀ e, System.stepUnless held e s = none) →
        (∀ (w : Nat) stage, s.workers[w]? = some stage →
          stage = .exited ∨ ∃ path, stage = .processing path ∧ held s w = true) ∧
        ((∀ w, held s w = false) → s.phase = .joined ∧
          (∀ (w : Nat) stage, s.workers[w]? = some stage → stage = .exited) ∧
          (s.workers ≠ [] → s.dequeued.map Prod.snd = reqPaths entries ∧
            (results events).length = (reqPaths entries).length ∧
            s.shared.totalProcessed = (results events).countP Option.isSome ∧
            s.shared.totalErrors = ((results events).map (·.getD 1)).sum))) := by
  have hrun := runs_of_stepUnless hrun
  obtain ⟨hs, htally⟩ := run_tally hrun
  refine ⟨?_, fun hstuck => ⟨fun w stage hw => hs.stuck hstuck hw, fun hfree => ?_⟩⟩
  · have hrank := length_add_rank_le (Serving (reqPaths entries)) System.rank
      (fun e s s' h hstep => ⟨h.step hstep, h.rank_lt hstep⟩) (serving_start entries) hrun
    rw [rank_start] at hrank
    omega
  · have hexited : ∀ (w : Nat) stage, s.workers[w]? = some stage → stage = .exited := by
      intro w stage hw
      refine (hs.stuck hstuck hw).resolve_right ?_
      rintro ⟨path, -, hheld⟩
      rw [hfree w] at hheld
      cases hheld
    refine ⟨joined_of_exited hstuck hexited, hexited, fun hne => ?_⟩
    obtain ⟨stage, workers, hcons⟩ := List.exists_cons_of_ne_nil hne
    have hfirst : s.workers[0]? = some stage := by rw [hcons]; rfl
    obtain rfl := hexited 0 stage hfirst
    obtain ⟨-, hall⟩ := hs.all_dequeued hfirst
    have hidle : s.working = 0 := by
      refine List.countP_eq_zero.mpr fun stage hmem => ?_
      obtain ⟨w, hw⟩ := List.mem_iff_getElem?.mp hmem
      rw [hexited w stage hw]
      exact Bool.false_ne_true
    have htaken := htally.taken
    rw [hidle, Nat.add_zero] at htaken
    refine ⟨hall, ?_, htally.processed, htally.errors⟩
    rw [← htaken, ← hall, List.length_map]

/-- A run that has come to its end cannot go on. -/
theorem stuck_of_joined (hphase : s.phase = .joined)
    (hexited : ∀ (w : Nat) stage, s.workers[w]? = some stage → stage = .exited) (e : Event) :
    System.stepUnless held e s = none := by
  have hno {stage : Stage} {w : Nat} (hlive : stage ≠ .exited) : s.workers[w]? ≠ some stage :=
    fun hw => hlive (hexited w stage hw)
  have hstep : System.step e s = none := by
    cases e with
    | create ok => rw [System.step, hphase]
    | join => rw [System.step, hphase]
    | semWait w => exact if_neg fun h => hno (by decide) h.1
    | lock w => exact if_neg fun h => hno (by decide) h.1
    | check w => exact if_neg (hno (by decide))
    | wake w => exact if_neg fun h => hno (by decide) h.1
    | dequeue w => exact if_neg (hno (by decide))
    | process w errors =>
      rw [System.step]
      split
      next path hw => exact absurd hw (hno fun h => by cases h)
      next => rfl
  rw [System.stepUnless, hstep, ite_self]

/-- Two workers for three files, one of which has an error and one cannot be opened. -/
def threeFiles : List Event :=
  [.create true, .create false, .create true, .create false, .semWait 1, .semWait 0, .lock 1,
    .check 1, .dequeue 1, .lock 0, .check 0, .dequeue 0, .process 0 none, .semWait 0, .lock 0,
    .check 0, .dequeue 0, .process 1 (some 1), .process 0 (some 0), .semWait 0, .lock 0, .check 0,
    .join, .semWait 1, .lock 1, .check 1, .join, .join]

/-- The files are counted, with their errors. -/
theorem run_complete_threeFiles :
    ∃ s, runs (System.stepUnless fun _ _ => false) threeFiles
        (.start [ascii "a.req", ascii "b.req", ascii "c.req"]) = some s ∧
      s.phase = .joined ∧ s.shared.totalProcessed = 2 ∧ s.shared.totalErrors = 2 := by
  have heval : (runs (System.stepUnless fun _ _ => false) threeFiles
      (.start [ascii "a.req", ascii "b.req", ascii "c.req"])).map (fun s => (s.phase, s.workers)) =
        some (.joined, [.exited, .exited]) := by decide +kernel
  obtain ⟨s, hs, hend⟩ := Option.map_eq_some_iff.mp heval
  obtain ⟨hphase, hworkers⟩ := Prod.mk.inj hend
  have hexited : ∀ (w : Nat) stage, s.workers[w]? = some stage → stage = .exited := by
    intro w stage hw
    rw [hworkers] at hw
    have := List.mem_of_getElem? hw
    simpa using this
  obtain ⟨-, hfinished⟩ := run_complete _ hs
  obtain ⟨-, hfree⟩ := hfinished (stuck_of_joined hphase hexited)
  obtain ⟨hjoined, -, htotals⟩ := hfree fun _ => rfl
  obtain ⟨-, -, hprocessed, herrors⟩ := htotals (by rw [hworkers]; exact List.cons_ne_nil _ _)
  exact ⟨s, hs, hjoined, hprocessed.trans (by decide), herrors.trans (by decide)⟩

end MiniWeb.ProcessServer
