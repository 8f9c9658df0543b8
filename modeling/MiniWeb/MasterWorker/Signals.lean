import MiniWeb.Lib.Runs
import Mathlib.Logic.Function.Basic

/-!
# The master and its workers (`master_worker.c`)

The master forks the workers, notes their pids in `g_workers`, and on SIGINT signals and reaps
them. `master_sigchld_handler` interrupts it between any two steps, reaps what has exited and
clears the entries it finds. A pid is free for a new process once it has been reaped.

`waitpid` and the loop that clears the entry are one step: nothing between them reads the table but
the handler, which then clears the entry of another child. How long `usleep` and the polling loop
take is left to the events, and so is the fate of the children.
-/

namespace MiniWeb.MasterWorker

open Runs

def masterMaxWorkers : Nat := 128

abbrev Pid := Nat

/-- The calls of `master_kill_workers`: two after a failed `fork`, two at the shutdown. -/
inductive Round where
  | failTerm
  | failKill
  | stopTerm
  | stopKill
deriving DecidableEq, Repr

/-- Where the master is. -/
inductive Place where
  /-- Before `fork` in pass `i` of the loop. -/
  | forking (i : Nat)
  /-- `fork` has returned `pid`, which is not yet in the table. -/
  | forked (i : Nat) (pid : Pid)
  | pausing
  /-- `master_kill_workers` before its test of entry `i`. -/
  | killing (round : Round) (i : Nat)
  /-- Entry `i` was positive, and `kill(g_workers[i], signum)` is next. -/
  | signalling (round : Round) (i : Nat)
  /-- The loop of `master_wait_for_workers`. -/
  | awaiting (round : Round) (remaining : Nat)
  | finished
deriving DecidableEq, Repr

/-- The master's table, flag and place, and its children that it has not reaped. A dead worker's
entry is `0`. -/
structure System where
  target : Nat
  workers : Nat → Pid
  numWorkers : Nat
  shutdown : Bool
  place : Place
  inHandler : Bool
  running : List Pid
  zombies : List Pid

/-- The start of the loop that forks; `worker_processes` is brought into its range before. -/
def System.start (workerProcesses : Int) : System where
  target :=
    if workerProcesses ≤ 0 then 2
    else if workerProcesses > masterMaxWorkers then masterMaxWorkers
    else workerProcesses.toNat
  workers := fun _ => 0
  numWorkers := 0
  shutdown := false
  place := .forking 0
  inHandler := false
  running := []
  zombies := []

inductive Event where
  /-- `fork` fails, or returns the pid of a new child. -/
  | fork (pid : Option Pid)
  | store
  /-- SIGINT sets the flag. -/
  | sigint
  /-- `pause` has returned and the flag is set. -/
  | resume
  /-- `master_kill_workers` tests an entry, or is at its end. -/
  | test
  | kill
  /-- `waitpid` in `master_wait_for_workers` answers with a pid, `0` or `ECHILD`. -/
  | waitReap (pid : Pid)
  | waitIdle (timedOut : Bool)
  | waitNone
  /-- A child exits. -/
  | exit (pid : Pid)
  /-- SIGCHLD is delivered. -/
  | deliver
  /-- `waitpid` in the handler answers with a pid, or with none. -/
  | reap (pid : Pid)
  | handlerReturn

namespace System

variable (s : System)

/-- A child of the master that it has not reaped. -/
def Unreaped (pid : Pid) : Prop := pid ∈ s.running ∨ pid ∈ s.zombies

instance (pid : Pid) : Decidable (s.Unreaped pid) := inferInstanceAs (Decidable (_ ∨ _))

/-- The loop over the first `g_num_workers` entries that clears the first one with this pid. -/
def clearEntry (pid : Pid) : System :=
  match (List.range s.numWorkers).find? fun i => s.workers i = pid with
  | some i => { s with workers := Function.update s.workers i 0 }
  | none => s

/-- `waitpid` answers with `pid`, and its entry is cleared. -/
def reap (pid : Pid) : System := { s with zombies := s.zombies.erase pid }.clearEntry pid

/-- The number of positive entries. -/
def remaining : Nat := (List.range s.numWorkers).countP fun i => s.workers i ≠ 0

/-- The end of `master_wait_for_workers`. -/
def endWait (round : Round) : System :=
  { s with
    place := if s.remaining > 0 ∧ round = .stopTerm then .killing .stopKill 0 else .finished }

/-- The loop of `master_wait_for_workers` with `remaining` workers to wait for. -/
def await (round : Round) (remaining : Nat) : System :=
  if remaining = 0 then s.endWait round else { s with place := .awaiting round remaining }

/-- The end of `master_kill_workers`. -/
def endKill : Round → System
  | .failTerm => { s with place := .killing .failKill 0 }
  | .failKill => { s with place := .finished }
  | .stopTerm => s.await .stopTerm s.remaining
  | .stopKill => s.await .stopKill s.remaining

/-- The store of a pid, and the end of the pass. -/
def store (i : Nat) (pid : Pid) : System :=
  { s with
    workers := Function.update s.workers s.numWorkers pid
    numWorkers := s.numWorkers + 1
    place := if i + 1 < s.target then .forking (i + 1) else .pausing }

/-- One step of the master's own flow, which stands still while the handler runs. -/
def flow : Event → System → Option System
  | .fork pid, s =>
    match s.place, pid with
    | .forking _, none => some { s with place := .killing .failTerm 0 }
    | .forking i, some pid =>
      if pid = 0 ∨ s.Unreaped pid then none
      else some { s with running := pid :: s.running, place := .forked i pid }
    | _, _ => none
  | .store, s =>
    match s.place with
    | .forked i pid => some (s.store i pid)
    | _ => none
  | .resume, s =>
    if s.place = .pausing ∧ s.shutdown = true then some { s with place := .killing .stopTerm 0 }
    else none
  | .test, s =>
    match s.place with
    | .killing round i =>
      if s.numWorkers ≤ i then some (s.endKill round)
      else if s.workers i ≠ 0 then some { s with place := .signalling round i }
      else some { s with place := .killing round (i + 1) }
    | _ => none
  | .kill, s =>
    match s.place with
    | .signalling round i => some { s with place := .killing round (i + 1) }
    | _ => none
  | .waitReap pid, s =>
    match s.place with
    | .awaiting round remaining =>
      if pid ∈ s.zombies then some ((s.reap pid).await round (remaining - 1)) else none
    | _ => none
  | .waitIdle timedOut, s =>
    match s.place with
    | .awaiting round _ =>
      if s.zombies = [] ∧ s.running ≠ [] then some (if timedOut then s.endWait round else s)
      else none
    | _ => none
  | .waitNone, s =>
    match s.place with
    | .awaiting round _ =>
      if s.zombies = [] ∧ s.running = [] then some (s.endWait round) else none
    | _ => none
  | _, _ => none

def step : Event → System → Option System
  | .sigint, s => some { s with shutdown := true }
  | .exit pid, s =>
    if pid ∈ s.running then
      some { s with running := s.running.erase pid, zombies := pid :: s.zombies }
    else none
  | .deliver, s => if s.inHandler then none else some { s with inHandler := true }
  | .reap pid, s => if s.inHandler ∧ pid ∈ s.zombies then some (s.reap pid) else none
  | .handlerReturn, s =>
    if s.inHandler ∧ s.zombies = [] then some { s with inHandler := false } else none
  | e, s => if s.inHandler then none else flow e s

/-- The pid that `kill` is about to be called with. -/
def killArg : Option Pid :=
  match s.place with
  | .signalling _ i => some (s.workers i)
  | _ => none

end System

/-! ## What the table says -/

/-- Entries are children not reaped, each in one place; the child just forked is one of them and
has no entry; the entry just tested is positive. -/
structure Tracked (s : System) : Prop where
  children : ∀ i, s.workers i ≠ 0 → s.Unreaped (s.workers i)
  inside : ∀ i, s.workers i ≠ 0 → i < s.numWorkers
  distinct : ∀ i j, s.workers i ≠ 0 → s.workers i = s.workers j → i = j
  forked : ∀ i pid, s.place = .forked i pid →
    pid ≠ 0 ∧ s.Unreaped pid ∧ ∀ j, s.workers j ≠ pid
  tested : ∀ round i, s.place = .signalling round i → s.workers i ≠ 0

section

variable {s s' : System} {pid : Pid}

theorem tracked_start (workerProcesses : Int) : Tracked (.start workerProcesses) := by
  refine ⟨fun i h => ?_, fun i h => ?_, fun i j h => ?_, fun i pid h => ?_, fun round i h => ?_⟩
  · exact absurd rfl h
  · exact absurd rfl h
  · exact absurd rfl h
  · cases h
  · cases h

/-- The same table and children, at a place with no claim of its own. -/
theorem Tracked.goto (h : Tracked s) (hworkers : s'.workers = s.workers)
    (hnum : s'.numWorkers = s.numWorkers) (hunreaped : ∀ pid, s.Unreaped pid → s'.Unreaped pid)
    (hforked : ∀ i pid, s'.place ≠ .forked i pid)
    (htested : ∀ round i, s'.place ≠ .signalling round i) : Tracked s' := by
  constructor
  · intro i hi
    rw [hworkers] at hi ⊢
    exact hunreaped _ (h.children i hi)
  · intro i hi
    rw [hworkers] at hi
    rw [hnum]
    exact h.inside i hi
  · intro i j hi hij
    rw [hworkers] at hi hij
    exact h.distinct i j hi hij
  · intro i pid hplace
    exact absurd hplace (hforked i pid)
  · intro round i hplace
    exact absurd hplace (htested round i)

/-- The same table and place, and at least the same children. -/
theorem Tracked.more (h : Tracked s) (hworkers : s'.workers = s.workers)
    (hnum : s'.numWorkers = s.numWorkers) (hplace : s'.place = s.place)
    (hunreaped : ∀ pid, s.Unreaped pid → s'.Unreaped pid) : Tracked s' := by
  constructor
  · intro i hi
    rw [hworkers] at hi ⊢
    exact hunreaped _ (h.children i hi)
  · intro i hi
    rw [hworkers] at hi
    rw [hnum]
    exact h.inside i hi
  · intro i j hi hij
    rw [hworkers] at hi hij
    exact h.distinct i j hi hij
  · intro i pid hp
    rw [hplace] at hp
    obtain ⟨hpos, hchild, hnew⟩ := h.forked i pid hp
    rw [hworkers]
    exact ⟨hpos, hunreaped pid hchild, hnew⟩
  · intro round i hp
    rw [hplace] at hp
    rw [hworkers]
    exact h.tested round i hp

/-! ## Reaping -/

theorem unreaped_reap {q : Pid} (hq : q ≠ pid) (h : s.Unreaped q) : (s.reap pid).Unreaped q := by
  have hold : ({ s with zombies := s.zombies.erase pid } : System).Unreaped q := by
    rcases h with h | h
    · exact Or.inl h
    · exact Or.inr ((List.mem_erase_of_ne hq).mpr h)
  unfold System.reap System.clearEntry
  split <;> exact hold

/-- What is left in the table was there before, and is not the pid. -/
theorem Tracked.reap_entry (h : Tracked s) {i : Nat} (hi : (s.reap pid).workers i ≠ 0) :
    (s.reap pid).workers i = s.workers i ∧ s.workers i ≠ pid := by
  unfold System.reap System.clearEntry at hi ⊢
  split at hi
  next k hfind =>
    have hk : s.workers k = pid := by simpa using List.find?_some hfind
    have hne : i ≠ k := by
      intro hik
      rw [hik] at hi
      exact hi (Function.update_self ..)
    have hsame : Function.update s.workers k 0 i = s.workers i := Function.update_of_ne hne _ _
    refine ⟨hsame, fun hpid => ?_⟩
    have hpos : s.workers i ≠ 0 := fun h0 => hi (hsame.trans h0)
    exact hne (h.distinct i k hpos (hpid.trans hk.symm))
  next hfind =>
    refine ⟨rfl, fun hpid => ?_⟩
    have hlt : i < s.numWorkers := h.inside i hi
    have hno := List.find?_eq_none.mp hfind i (List.mem_range.mpr hlt)
    exact hno (by simpa using hpid)

theorem reap_place : (s.reap pid).place = s.place := by
  unfold System.reap System.clearEntry
  split <;> rfl

theorem reap_numWorkers : (s.reap pid).numWorkers = s.numWorkers := by
  unfold System.reap System.clearEntry
  split <;> rfl

/-- **Reaping** a child keeps the table right, unless `fork` has just returned that child or
`master_kill_workers` has just tested its entry. -/
theorem Tracked.reap (h : Tracked s) (hforked : ∀ i, s.place ≠ .forked i pid)
    (htested : ∀ round i, s.place = .signalling round i → s.workers i ≠ pid) :
    Tracked (s.reap pid) := by
  constructor
  · intro i hi
    obtain ⟨hsame, hne⟩ := h.reap_entry hi
    rw [hsame] at hi ⊢
    exact unreaped_reap hne (h.children i hi)
  · intro i hi
    obtain ⟨hsame, -⟩ := h.reap_entry hi
    rw [hsame] at hi
    rw [reap_numWorkers]
    exact h.inside i hi
  · intro i j hi hij
    have hj : (s.reap pid).workers j ≠ 0 := hij ▸ hi
    obtain ⟨hsame, -⟩ := h.reap_entry hi
    obtain ⟨hsame', -⟩ := h.reap_entry hj
    rw [hsame, hsame'] at hij
    rw [hsame] at hi
    exact h.distinct i j hi hij
  · intro i child hplace
    rw [reap_place] at hplace
    obtain ⟨hpos, hchild, hnew⟩ := h.forked i child hplace
    have hne : child ≠ pid := fun heq => hforked i (heq ▸ hplace)
    refine ⟨hpos, unreaped_reap hne hchild, fun j hj => ?_⟩
    obtain ⟨hsame, -⟩ := h.reap_entry (hj ▸ hpos)
    exact hnew j (hsame.symm.trans hj)
  · intro round i hplace
    rw [reap_place] at hplace
    have hpos := h.tested round i hplace
    have hne := htested round i hplace
    unfold System.reap System.clearEntry
    split
    next k hfind =>
      have hk : s.workers k = pid := by simpa using List.find?_some hfind
      have hik : i ≠ k := fun hik => hne (hik ▸ hk)
      show Function.update s.workers k 0 i ≠ 0
      rw [Function.update_of_ne hik]
      exact hpos
    next => exact hpos

/-! ## The master's flow -/

theorem Tracked.store (h : Tracked s) {i : Nat} (hplace : s.place = .forked i pid) :
    Tracked (s.store i pid) := by
  obtain ⟨-, hchild, hnew⟩ := h.forked i pid hplace
  have hold : ∀ j, j ≠ s.numWorkers → (s.store i pid).workers j = s.workers j := fun j hj =>
    Function.update_of_ne hj _ _
  have hlast : (s.store i pid).workers s.numWorkers = pid := Function.update_self ..
  have hgoes : ∀ place, place = (s.store i pid).place →
      (∀ j q, place ≠ .forked j q) ∧ ∀ round j, place ≠ .signalling round j := by
    rintro place rfl
    unfold System.store
    by_cases hlt : i + 1 < s.target
    · simp only [if_pos hlt]
      exact ⟨fun _ _ hp => (by cases hp), fun _ _ hp => (by cases hp)⟩
    · simp only [if_neg hlt]
      exact ⟨fun _ _ hp => (by cases hp), fun _ _ hp => (by cases hp)⟩
  obtain ⟨hforked, htested⟩ := hgoes _ rfl
  constructor
  · intro j hj
    by_cases hlt : j = s.numWorkers
    · rw [hlt, hlast]
      exact hchild
    · rw [hold j hlt] at hj ⊢
      exact h.children j hj
  · intro j hj
    show j < s.numWorkers + 1
    by_cases hlt : j = s.numWorkers
    · omega
    · rw [hold j hlt] at hj
      have := h.inside j hj
      omega
  · intro j k hj hjk
    by_cases hjn : j = s.numWorkers
    · by_cases hkn : k = s.numWorkers
      · rw [hjn, hkn]
      · rw [hjn, hlast, hold k hkn] at hjk
        exact absurd hjk.symm (hnew k)
    · by_cases hkn : k = s.numWorkers
      · rw [hkn, hlast, hold j hjn] at hjk
        exact absurd hjk (hnew j)
      · rw [hold j hjn] at hj
        rw [hold j hjn, hold k hkn] at hjk
        exact h.distinct j k hj hjk
  · intro j q hp
    exact absurd hp (hforked j q)
  · intro round j hp
    exact absurd hp (htested round j)

theorem Tracked.endWait (h : Tracked s) (round : Round) : Tracked (s.endWait round) := by
  unfold System.endWait
  split
  · exact h.goto rfl rfl (fun _ hp => hp) (fun _ _ hp => by cases hp) (fun _ _ hp => by cases hp)
  · exact h.goto rfl rfl (fun _ hp => hp) (fun _ _ hp => by cases hp) (fun _ _ hp => by cases hp)

theorem Tracked.await (h : Tracked s) (round : Round) (remaining : Nat) :
    Tracked (s.await round remaining) := by
  unfold System.await
  split
  · exact h.endWait round
  · exact h.goto rfl rfl (fun _ hp => hp) (fun _ _ hp => by cases hp) (fun _ _ hp => by cases hp)

theorem Tracked.endKill (h : Tracked s) (round : Round) : Tracked (s.endKill round) := by
  cases round with
  | failTerm =>
    exact h.goto rfl rfl (fun _ hp => hp) (fun _ _ hp => by cases hp) (fun _ _ hp => by cases hp)
  | failKill =>
    exact h.goto rfl rfl (fun _ hp => hp) (fun _ _ hp => by cases hp) (fun _ _ hp => by cases hp)
  | stopTerm => exact h.await _ _
  | stopKill => exact h.await _ _

theorem Tracked.fork (h : Tracked s) {i : Nat} (hpos : pid ≠ 0) (hnew : ¬s.Unreaped pid) :
    Tracked { s with running := pid :: s.running, place := .forked i pid } := by
  have hmore : ∀ q, s.Unreaped q →
      ({ s with running := pid :: s.running, place := .forked i pid } : System).Unreaped q := by
    intro q hq
    rcases hq with hq | hq
    · exact Or.inl (List.mem_cons_of_mem _ hq)
    · exact Or.inr hq
  refine ⟨fun j hj => hmore _ (h.children j hj), h.inside, h.distinct, ?_, ?_⟩
  · intro j child hplace
    cases hplace
    refine ⟨hpos, Or.inl List.mem_cons_self, fun k hk => ?_⟩
    -- the pid was free, and an entry with it would be a child
    exact hnew (hk ▸ h.children k (hk ▸ hpos))
  · intro round j hplace
    cases hplace

theorem Tracked.flow (h : Tracked s) {e : Event} (hstep : System.flow e s = some s') :
    Tracked s' := by
  unfold System.flow at hstep
  split at hstep
  · -- fork
    split at hstep
    · cases hstep
      exact h.goto rfl rfl (fun _ hp => hp) (fun _ _ hp => by cases hp) (fun _ _ hp => by cases hp)
    · split at hstep
      · cases hstep
      next hfree =>
        cases hstep
        exact h.fork (fun h0 => hfree (Or.inl h0)) (fun hp => hfree (Or.inr hp))
    · cases hstep
  · -- store
    split at hstep
    next hplace =>
      cases hstep
      exact h.store hplace
    · cases hstep
  · -- resume
    split at hstep
    · cases hstep
      exact h.goto rfl rfl (fun _ hp => hp) (fun _ _ hp => by cases hp) (fun _ _ hp => by cases hp)
    · cases hstep
  · -- test
    split at hstep
    next round i hplace =>
      split at hstep
      · cases hstep
        exact h.endKill round
      next hlt =>
        split at hstep
        next hpos =>
          cases hstep
          refine ⟨h.children, h.inside, h.distinct, fun _ _ hp => (by cases hp), ?_⟩
          intro round' j hp
          cases hp
          exact hpos
        next =>
          cases hstep
          exact h.goto rfl rfl (fun _ hp => hp) (fun _ _ hp => by cases hp)
            (fun _ _ hp => by cases hp)
    · cases hstep
  · -- kill
    split at hstep
    · cases hstep
      exact h.goto rfl rfl (fun _ hp => hp) (fun _ _ hp => by cases hp) (fun _ _ hp => by cases hp)
    · cases hstep
  · -- a child is reaped while the master waits
    split at hstep
    next round remaining hplace =>
      split at hstep
      next hzombie =>
        cases hstep
        apply Tracked.await
        apply h.reap
        · intro i hp
          rw [hplace] at hp
          cases hp
        · intro round' i hp
          rw [hplace] at hp
          cases hp
      next => cases hstep
    · cases hstep
  · -- no child has exited yet
    split at hstep
    next round remaining hplace =>
      split at hstep
      next =>
        cases hstep
        split
        · exact h.endWait round
        · exact h
      next => cases hstep
    · cases hstep
  · -- no child is left
    split at hstep
    next round remaining hplace =>
      split at hstep
      next =>
        cases hstep
        exact h.endWait round
      next => cases hstep
    · cases hstep
  · cases hstep

/-- The handler does not reap the child that `fork` has just returned, nor the one whose entry
`master_kill_workers` has just tested. -/
def Event.timely : Event → System → Bool
  | .reap pid, s =>
    match s.place with
    | .forked _ child => child ≠ pid
    | .signalling _ i => s.workers i ≠ pid
    | _ => true
  | _, _ => true

theorem timely_reap (h : Event.timely (.reap pid) s = true) :
    (∀ i, s.place ≠ .forked i pid) ∧
      ∀ round i, s.place = .signalling round i → s.workers i ≠ pid := by
  rw [Event.timely] at h
  constructor
  · intro i hplace
    rw [hplace] at h
    simp at h
  · intro round i hplace
    rw [hplace] at h
    simpa using h

theorem Tracked.step (h : Tracked s) {e : Event} (he : e.timely s = true)
    (hstep : System.step e s = some s') : Tracked s' := by
  unfold System.step at hstep
  split at hstep
  · -- SIGINT
    cases hstep
    exact h.more rfl rfl rfl fun _ hp => hp
  · -- a child exits
    next pid =>
      split at hstep
      next hrun =>
        cases hstep
        refine h.more rfl rfl rfl fun q hq => ?_
        by_cases hqp : q = pid
        · exact Or.inr (hqp ▸ List.mem_cons_self)
        · rcases hq with hq | hq
          · exact Or.inl ((List.mem_erase_of_ne hqp).mpr hq)
          · exact Or.inr (List.mem_cons_of_mem _ hq)
      next => cases hstep
  · -- SIGCHLD
    split at hstep
    · cases hstep
    · cases hstep
      exact h.more rfl rfl rfl fun _ hp => hp
  · next pid =>
      split at hstep
      next =>
        cases hstep
        obtain ⟨hforked, htested⟩ := timely_reap he
        exact h.reap hforked htested
      next => cases hstep
  · -- the handler returns
    split at hstep
    next =>
      cases hstep
      exact h.more rfl rfl rfl fun _ hp => hp
    next => cases hstep
  · split at hstep
    · cases hstep
    · exact h.flow hstep

/-- What `kill` is called with is a child. -/
theorem Tracked.killArg (h : Tracked s) (hkill : s.killArg = some pid) : s.Unreaped pid := by
  unfold System.killArg at hkill
  split at hkill
  next round i hplace =>
    cases hkill
    exact h.children i (h.tested round i hplace)
  next => cases hkill

end

/-- **Signals go to children.** In every run in which the handler reaps no child between `fork`'s
return and the store of its pid, and none between the test of its entry and the `kill`, the
positive entries of `g_workers` are children not yet reaped, and so is every pid that `kill` is
called with. -/
theorem run_tracked {workerProcesses : Int} {events : List Event} {s : System}
    (htimely : along System.step Event.timely events (.start workerProcesses) = true)
    (hrun : runs System.step events (.start workerProcesses) = some s) :
    (∀ i, s.workers i ≠ 0 → s.Unreaped (s.workers i)) ∧
      ∀ pid, s.killArg = some pid → s.Unreaped pid := by
  have h : Tracked s :=
    runs_rule (fun _ _ _ h he hstep => h.step he hstep) (tracked_start workerProcesses) htimely hrun
  exact ⟨h.children, fun pid hkill => h.killArg hkill⟩

/-- A worker dies before its pid is stored, and the master is stopped. -/
def earlyExit : List Event :=
  [.fork (some 7), .exit 7, .deliver, .reap 7, .handlerReturn, .store, .sigint, .resume, .test]

/-- A worker dies between the test of its entry and the `kill`. -/
def lateExit : List Event :=
  [.fork (some 7), .store, .sigint, .resume, .test, .exit 7, .deliver, .reap 7, .handlerReturn]

/-- One of two workers dies and is reaped before the master is stopped. -/
def orderlyStop : List Event :=
  [.fork (some 7), .store, .fork (some 8), .store, .exit 7, .deliver, .reap 7, .handlerReturn,
    .sigint, .resume, .test, .test]

/-- The other worker is signalled, and the one that died is not. -/
theorem run_tracked_orderly :
    ∃ s, runs System.step orderlyStop (.start 2) = some s ∧ s.workers 0 = 0 ∧ ¬s.Unreaped 7 ∧
      s.killArg = some 8 ∧ s.Unreaped 8 := by
  have htimely : along System.step Event.timely orderlyStop (.start 2) = true := by decide
  have heval : (runs System.step orderlyStop (.start 2)).map
      (fun s => (s.workers 0, decide (s.Unreaped 7), s.killArg)) = some (0, false, some 8) := by
    decide
  obtain ⟨s, hs, hend⟩ := Option.map_eq_some_iff.mp heval
  rw [Prod.mk.injEq, Prod.mk.injEq] at hend
  obtain ⟨hentry, hreaped, hkill⟩ := hend
  exact ⟨s, hs, hentry, of_decide_eq_false hreaped, hkill, (run_tracked htimely hs).2 8 hkill⟩

/-- The master signals pid 7, which it has reaped, or pid 0, its own process group. -/
theorem kill_reaped :
    (∃ s, runs System.step earlyExit (.start 1) = some s ∧ s.killArg = some 7 ∧
      s.workers 0 = 7 ∧ ¬s.Unreaped 7) ∧
    ∃ s, runs System.step lateExit (.start 1) = some s ∧ s.killArg = some 0 ∧
      ¬s.Unreaped 0 := by
  constructor
  · obtain ⟨s, hs⟩ : ∃ s, runs System.step earlyExit (.start 1) = some s :=
      Option.isSome_iff_exists.mp (by decide)
    have heval : (runs System.step earlyExit (.start 1)).map
        (fun s => (s.killArg, s.workers 0, decide (s.Unreaped 7))) = some (some 7, 7, false) := by
      decide
    rw [hs, Option.map_some, Option.some.injEq, Prod.mk.injEq, Prod.mk.injEq] at heval
    obtain ⟨hkill, hentry, hreaped⟩ := heval
    exact ⟨s, hs, hkill, hentry, of_decide_eq_false hreaped⟩
  · obtain ⟨s, hs⟩ : ∃ s, runs System.step lateExit (.start 1) = some s :=
      Option.isSome_iff_exists.mp (by decide)
    have heval : (runs System.step lateExit (.start 1)).map
        (fun s => (s.killArg, decide (s.Unreaped 0))) = some (some 0, false) := by
      decide
    rw [hs, Option.map_some, Option.some.injEq, Prod.mk.injEq] at heval
    obtain ⟨hkill, hreaped⟩ := heval
    exact ⟨s, hs, hkill, of_decide_eq_false hreaped⟩

end MiniWeb.MasterWorker
