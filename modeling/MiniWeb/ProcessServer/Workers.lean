import MiniWeb.Lib.CString
import MiniWeb.Lib.Ring

/-!
# The file-request pool (`process_server.c`)

`process_server_run` puts the paths of the `.req` files into a queue, posts the semaphore once for
each path and once for each worker, sets `done_flag`, creates the workers and joins them. A worker
waits for the semaphore, takes the mutex, and leaves or takes a path.

An event lets one thread make its next step, so every list of events is an interleaving. The
processing of a file is one step, which fails or reports a number of errors; the log lines, whose
mutex is held by nobody who waits, are left out.
-/

namespace MiniWeb.ProcessServer

open CStr

def maxReqFiles : Nat := 64
def numWorkers : Nat := 4

/-- What the threads share: the queue with `queue_head`, `queue_tail` and `queue_count`, the flag,
the value of `tasks_sem` and the owner of `queue_mutex`. -/
structure Shared where
  queue : Ring CStr
  doneFlag : Bool
  tasksSem : Nat
  queueMutex : Option Nat
  totalProcessed : Nat
  totalErrors : Nat

def Shared.init : Shared := ⟨⟨fun _ => [], 0, 0, 0⟩, false, 0, none, 0, 0⟩

/-! ## The scan -/

/-- `strrchr(name, '.')` finds the last dot; the text from there on is `.req`. -/
def isReq (name : CStr) : Bool :=
  46 ∈ name ∧ 46 :: (name.reverse.takeWhile (· ≠ 46)).reverse = ascii ".req"

/-- `snprintf(req_path, sizeof(req_path), "requests/%s", name)`, copied with `strncpy`. -/
def reqPath (name : CStr) : CStr := cut 512 (ascii "requests/" ++ name)

/-- The section that puts a path into the queue. -/
def Shared.enqueue (s : Shared) (path : CStr) : Shared :=
  { s with queue := s.queue.push maxReqFiles path, tasksSem := s.tasksSem + 1 }

/-- The loop over the entries of `requests/`. -/
def scan : List CStr → Shared → Shared
  | [], s => s
  | name :: entries, s =>
    if isReq name = false then scan entries s
    else if s.queue.count ≥ maxReqFiles then s
    else scan entries (s.enqueue (reqPath name))

/-- The end of phase 1: the flag, and a post for every worker. -/
def Shared.close (s : Shared) : Shared :=
  { s with doneFlag := true, tasksSem := s.tasksSem + numWorkers }

/-! ## The threads -/

/-- Where a worker is: before `sem_wait`, before the lock, at the head of the inner loop, in
`pthread_cond_wait`, before the dequeue, at work, or gone. It has the mutex in `checking` and
`dequeuing`. -/
inductive Stage where
  | waiting
  | locking
  | checking
  | condWaiting
  | dequeuing
  | processing (path : CStr)
  | exited
deriving DecidableEq, Repr

/-- Where `process_server_run` is: in pass `i` of the loop that creates workers, before the join of
worker `i`, or past it. -/
inductive Phase where
  | creating (i : Nat)
  | joining (i : Nat)
  | joined
deriving DecidableEq, Repr

/-- `dequeued` lists the paths taken, each with its worker, in the order in which this happened. -/
structure System where
  shared : Shared
  phase : Phase
  workers : List Stage
  dequeued : List (Nat × CStr)

inductive Event where
  /-- The next worker is created, or `malloc` or `pthread_create` fails. -/
  | create (ok : Bool)
  | join
  | semWait (w : Nat)
  | lock (w : Nat)
  | check (w : Nat)
  /-- A wait on the condition variable ends and the mutex is taken again. -/
  | wake (w : Nat)
  | dequeue (w : Nat)
  /-- A file is processed; `none` when it, or its output, cannot be opened. -/
  | process (w : Nat) (errors : Option Nat)

/-- Phase 1 is over and no worker is created yet. -/
def System.start (entries : List CStr) : System :=
  ⟨(scan entries .init).close, .creating 0, [], []⟩

namespace System

def setStage (s : System) (w : Nat) (stage : Stage) : System :=
  { s with workers := s.workers.set w stage }

/-- The body of the loop that creates workers. -/
def create (s : System) (ok : Bool) (i : Nat) : System :=
  { s with
    phase := if i + 1 < numWorkers then .creating (i + 1) else .joining 0
    workers := if ok then s.workers ++ [.waiting] else s.workers }

/-- The inner loop of a worker that has the mutex: a path is there, the worker leaves, or it waits.
In the last two cases it unlocks the mutex. -/
def check (s : System) (w : Nat) : System :=
  if s.shared.queue.count ≠ 0 then s.setStage w .dequeuing
  else if s.shared.doneFlag then
    { s with shared := { s.shared with queueMutex := none } }.setStage w .exited
  else { s with shared := { s.shared with queueMutex := none } }.setStage w .condWaiting

/-- The dequeue, and the unlock. -/
def dequeue (s : System) (w : Nat) : System :=
  { s with
    shared := { s.shared with queue := s.shared.queue.pop maxReqFiles, queueMutex := none }
    dequeued := s.dequeued ++ [(w, s.shared.queue.front)] }.setStage w
    (.processing s.shared.queue.front)

/-- The update of the statistics. -/
def count (s : System) : Option Nat → System
  | none => { s with shared := { s.shared with totalErrors := s.shared.totalErrors + 1 } }
  | some errors =>
    { s with
      shared :=
        { s.shared with
          totalProcessed := s.shared.totalProcessed + 1
          totalErrors := s.shared.totalErrors + errors } }

def step : Event → System → Option System
  | .create ok, s =>
    match s.phase with
    | .creating i => some (s.create ok i)
    | _ => none
  | .join, s =>
    match s.phase with
    | .joining i =>
      match s.workers[i]? with
      | none => some { s with phase := .joined }
      | some .exited => some { s with phase := .joining (i + 1) }
      | some _ => none
    | _ => none
  | .semWait w, s =>
    if s.workers[w]? = some .waiting ∧ s.shared.tasksSem ≠ 0 then
      some ({ s with shared := { s.shared with tasksSem := s.shared.tasksSem - 1 } }.setStage w
        .locking)
    else none
  | .lock w, s =>
    if s.workers[w]? = some .locking ∧ s.shared.queueMutex = none then
      some ({ s with shared := { s.shared with queueMutex := some w } }.setStage w .checking)
    else none
  | .check w, s => if s.workers[w]? = some .checking then some (s.check w) else none
  | .wake w, s =>
    if s.workers[w]? = some .condWaiting ∧ s.shared.queueMutex = none then
      some ({ s with shared := { s.shared with queueMutex := some w } }.setStage w .checking)
    else none
  | .dequeue w, s => if s.workers[w]? = some .dequeuing then some (s.dequeue w) else none
  | .process w errors, s =>
    match s.workers[w]? with
    | some (.processing _) => some ((s.count errors).setStage w .waiting)
    | _ => none

end System

/-- A worker makes a step of its own accord: not a wait on the condition variable that happens to
end. -/
def Event.isWork : Event → Bool
  | .semWait _ => true
  | .lock _ => true
  | .check _ => true
  | .dequeue _ => true
  | .process _ _ => true
  | .create _ => false
  | .join => false
  | .wake _ => false

/-- The worker that is through with a file. -/
def Event.processor : Event → Option Nat
  | .process w _ => some w
  | _ => none

/-- The steps of a system in which a worker may wait while it processes a file: at a pipe that does
not hold what it prints (`captureStdout`), or for the stream of one that waits there. -/
def System.stepUnless (held : System → Nat → Bool) (e : Event) (s : System) : Option System :=
  if e.processor.any (held s) = true then none else System.step e s

end MiniWeb.ProcessServer
