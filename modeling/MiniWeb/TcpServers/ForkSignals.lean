import MiniWeb.TcpServers.ForkServer
import Mathlib.Data.List.Count

/-!
# The signals of the server that forks

Signals are not queued: one SIGCHLD may stand for several children, and `sigchld_handler` waits for
all that have exited. A SIGCHLD that comes between the failure of `accept` and the test of `errno`
changes what is tested. After SIGINT the server accepts at most one more connection.
-/

namespace MiniWeb.TcpServers.ForkServer

open Runs

/-! ## The children are waited for -/

/-- The steps of `sigchld_handler`. -/
def Event.ofHandler : Event → Bool
  | .sigchld | .reap _ _ | .handlerReturn => true
  | _ => false

/-- How many children have exited and were not waited for. -/
def Server.zombies (s : Server) : Nat := s.children.countP fun c => decide (c.stage = .zombie)

section

variable {s s' : Server}

theorem zombies_eq_zero : s.zombies = 0 ↔ s.noZombie = true := by
  unfold Server.zombies Server.noZombie
  rw [List.countP_eq_zero, List.all_eq_true]
  refine forall_congr' fun c => imp_congr_right fun _ => ?_
  rw [decide_eq_true_eq, decide_eq_true_eq]

/-- While a child is left to wait for, `waitpid` in the handler answers with one. -/
theorem reap_step (hin : s.inHandler = true) (hz : s.zombies ≠ 0) :
    ∃ i s', Server.step (.reap i .other) s = some s' ∧ s'.zombies < s.zombies ∧
      s'.inHandler = true ∧ s'.pending = s.pending := by
  obtain ⟨c, hc, hstage⟩ := List.countP_pos_iff.mp (Nat.pos_of_ne_zero hz)
  obtain ⟨i, hi, rfl⟩ := List.getElem_of_mem hc
  have hstage' : s.children[i].stage = .zombie := of_decide_eq_true hstage
  obtain ⟨c', hc', hstage''⟩ : ∃ c', s.children[i].reap = some c' ∧ c'.stage = .reaped :=
    ⟨{ s.children[i] with stage := .reaped }, by rw [Child.reap, if_pos hstage'], rfl⟩
  refine ⟨i, { s with errno := .other, children := s.children.set i c' }, ?_, ?_, hin, rfl⟩
  · simp only [Server.step, hin, if_true, Server.setChild, List.getElem?_eq_getElem hi,
      Option.bind_some, hc', Option.map_some]
  · have hpos : 0 < s.zombies := Nat.pos_of_ne_zero hz
    unfold Server.zombies at hpos ⊢
    rw [List.countP_set hi, if_pos hstage, if_neg (by rw [hstage'']; simp)]
    omega

/-- The handler comes to its end, and then no child is left to wait for. -/
theorem handler_returns (hin : s.inHandler = true) :
    ∃ es s', (∀ e ∈ es, e.ofHandler = true) ∧ runs Server.step es s = some s' ∧
      s'.noZombie = true ∧ s'.inHandler = false ∧ s'.pending = s.pending := by
  induction hn : s.zombies using Nat.strongRecOn generalizing s with
  | ind n ih =>
    by_cases hz : s.zombies = 0
    · have hno := zombies_eq_zero.mp hz
      let errno := if s.children.all fun c => decide (c.stage = .reaped) then .echild else s.errno
      refine ⟨[.handlerReturn], { s with inHandler := false, errno := errno },
        by simp [Event.ofHandler], ?_, hno, rfl, rfl⟩
      rw [runs_cons, Server.step, if_pos ⟨hin, hno⟩]
      rfl
    · obtain ⟨i, s₁, hstep, hless, hin₁, hpending₁⟩ := reap_step hin hz
      obtain ⟨es, s', hes, hrun, hno, hout, hpending⟩ := ih s₁.zombies (hn ▸ hless) hin₁ rfl
      refine ⟨.reap i .other :: es, s', ?_, ?_, hno, hout, hpending.trans hpending₁⟩
      · intro e he
        rcases List.mem_cons.mp he with rfl | he
        · rfl
        · exact hes e he
      · rw [runs_cons, hstep, Option.bind_some, hrun]

theorem interrupt_frame (s : Server) : s.interrupt.inHandler = s.inHandler ∧
    s.interrupt.pending = s.pending ∧ s.interrupt.children = s.children := by
  unfold Server.interrupt
  split <;> exact ⟨rfl, rfl, rfl⟩

/-- A pending SIGCHLD is delivered and handled. -/
theorem sigchld_handled (hpending : s.pending = true) (hout : s.inHandler = false) :
    ∃ es s', (∀ e ∈ es, e.ofHandler = true) ∧ runs Server.step es s = some s' ∧
      s'.noZombie = true := by
  have hstep : Server.step .sigchld s =
      some ({ s with pending := false, inHandler := true } : Server).interrupt :=
    if_pos ⟨hpending, hout⟩
  obtain ⟨hin, -, -⟩ := interrupt_frame { s with pending := false, inHandler := true }
  obtain ⟨es, s', hes, hrun, hno, -, -⟩ := handler_returns hin
  refine ⟨.sigchld :: es, s', ?_, ?_, hno⟩
  · intro e he
    rcases List.mem_cons.mp he with rfl | he
    · rfl
    · exact hes e he
  · rw [runs_cons, hstep, Option.bind_some, hrun]

/-- From every state of a run the handler's own steps lead to one without a child to wait for. -/
theorem Kept.handled (h : Kept s) :
    ∃ es s', (∀ e ∈ es, e.ofHandler = true) ∧ runs Server.step es s = some s' ∧
      s'.noZombie = true := by
  cases hin : s.inHandler with
  | true =>
    obtain ⟨es, s', hes, hrun, hno, -, -⟩ := handler_returns hin
    exact ⟨es, s', hes, hrun, hno⟩
  | false =>
    rcases h.zombies with hno | hpending | hin'
    · exact ⟨[], s, fun _ he => absurd he List.not_mem_nil, rfl, hno⟩
    · exact sigchld_handled hpending hin
    · rw [hin] at hin'
      cases hin'

end

/-- **Zombies.** One pending SIGCHLD stands for any number of exits: in every interleaving a child
that has exited is left to wait for only while a SIGCHLD is pending or its handler runs, and the
steps of the handler alone reap all of them. `clients_served` counts the children. -/
theorem run_waited {events : List Event} {s : Server}
    (hrun : runs Server.step events .start = some s) :
    s.clientsServed + s.place.uncounted = s.children.length ∧
      (s.pending = false → s.inHandler = false → ∀ c ∈ s.children, c.stage ≠ .zombie) ∧
      ∃ es s', (∀ e ∈ es, e.ofHandler = true) ∧ runs Server.step es s = some s' ∧
        ∀ c ∈ s'.children, c.stage ≠ .zombie := by
  have hkept := run_kept hrun
  have hnone : ∀ {t : Server}, t.noZombie = true → ∀ c ∈ t.children, c.stage ≠ .zombie :=
    fun hno c hc => of_decide_eq_true (List.all_eq_true.mp hno c hc)
  refine ⟨hkept.served, fun hpending hout => ?_, ?_⟩
  · rcases hkept.zombies with hno | hp | hin
    · exact hnone hno
    · rw [hpending] at hp
      cases hp
    · rw [hout] at hin
      cases hin
  · obtain ⟨es, s', hes, hrun', hno⟩ := hkept.handled
    exact ⟨es, s', hes, hrun', hnone hno⟩

theorem run_waited_oneClient : oneClientEnd.clientsServed + 0 = 1 ∧
    ∀ c ∈ oneClientEnd.children, c.stage ≠ .zombie := by
  have hwaited := run_waited oneClient_runs
  exact ⟨hwaited.1, hwaited.2.1 (by decide +kernel) (by decide +kernel)⟩

/-! ## When the server stops -/

/-- `accept` fails for no other reason than a signal, and no SIGCHLD is delivered between its
failure and the test of `errno`. -/
def Event.undisturbed : Event → Server → Bool
  | .acceptFails _, _ => false
  | .sigchld, s => decide (s.place ≠ .failed)
  | _, _ => true

/-- What holds in an undisturbed run. -/
structure Steady (s : Server) : Prop where
  failed : s.place = .failed → s.errno = .eintr ∧ s.inHandler = false
  stopping : s.place.stopping = true → s.shutdown = true

/-- Where the parent accepts a connection before it tests the flag again. -/
def Place.room : Place → Nat
  | .calling | .accepting => 1
  | _ => 0

section

variable {s s' : Server}

theorem setChild_frame {i : Nat} {act : Child → Option Child} (h : s.setChild i act = some s') :
    s'.place = s.place ∧ s'.errno = s.errno ∧ s'.inHandler = s.inHandler ∧
      s'.shutdown = s.shutdown ∧ s'.accepted = s.accepted := by
  obtain ⟨c', -, rfl⟩ := Option.map_eq_some_iff.mp h
  exact ⟨rfl, rfl, rfl, rfl, rfl⟩

/-- A signal leaves the parent where it is, or interrupts `accept`. -/
theorem interrupt_place (s : Server) :
    s.interrupt = { s with place := s.interrupt.place } ∧
      (s.interrupt.place = s.place ∨ s.interrupt.place = .interrupted) := by
  unfold Server.interrupt
  split
  · exact ⟨rfl, Or.inr rfl⟩
  · exact ⟨rfl, Or.inl rfl⟩

/-- The parent is at a place of which nothing is asked. -/
theorem Steady.at_place {p : Place} (hplace : s.place = p) (hfailed : p ≠ .failed)
    (hstopping : p.stopping = false) : Steady s where
  failed h := absurd (hplace.symm.trans h) hfailed
  stopping h := by
    rw [hplace, hstopping] at h
    cases h

/-- The place stays, and the flag too if it is set. -/
theorem Steady.stay (h : Steady s) (hplace : s'.place = s.place)
    (hshut : s.shutdown = true → s'.shutdown = true)
    (hfailed : s.place = .failed → s'.errno = s.errno ∧ s'.inHandler = s.inHandler) :
    Steady s' where
  failed hp := by
    rw [hplace] at hp
    obtain ⟨herrno, hin⟩ := hfailed hp
    rw [herrno, hin]
    exact h.failed hp
  stopping hp := by
    rw [hplace] at hp
    exact hshut (h.stopping hp)

/-- The loop is left with the flag set. -/
theorem Steady.left {p : Place} (hplace : s.place = p) (hfailed : p ≠ .failed)
    (hshut : s.shutdown = true) : Steady s :=
  ⟨fun h => absurd (hplace.symm.trans h) hfailed, fun _ => hshut⟩

theorem Steady.interrupt (h : Steady s) : Steady s.interrupt := by
  obtain ⟨heq, hplace | hplace⟩ := interrupt_place s
  · rw [heq]
    exact h.stay hplace id fun _ => ⟨rfl, rfl⟩
  · exact .at_place hplace (fun h => by cases h) rfl

theorem Steady.advance (h : Steady s) (hin : s.inHandler = false)
    (hstep : s.advance = some s') : Steady s' := by
  unfold Server.advance at hstep
  split at hstep
  next =>
    cases hstep
    cases hs : s.shutdown with
    | true => exact .left rfl (fun h => by cases h) rfl
    | false => exact .at_place rfl (fun h => by cases h) rfl
  next =>
    cases hstep
    exact .at_place rfl (fun h => by cases h) rfl
  next =>
    cases hstep
    exact ⟨fun _ => ⟨rfl, hin⟩, fun h => by cases h⟩
  next hplace =>
    -- `errno` still tells of the interruption
    cases hstep
    rw [if_pos (h.failed hplace).1]
    exact .at_place rfl (fun h => by cases h) rfl
  next =>
    cases hstep
    cases hs : s.shutdown with
    | true => exact .left rfl (fun h => by cases h) rfl
    | false => exact .at_place rfl (fun h => by cases h) rfl
  next =>
    cases hstep
    exact .at_place rfl (fun h => by cases h) rfl
  next =>
    cases hstep
    exact .at_place rfl (fun h => by cases h) rfl
  next hplace =>
    cases hstep
    exact .left rfl (fun h => by cases h) (h.stopping (hplace ▸ rfl))
  next hplace =>
    cases hstep
    exact .left rfl (fun h => by cases h) (h.stopping (hplace ▸ rfl))
  next => cases hstep

theorem Steady.flow (h : Steady s) (hin : s.inHandler = false) {e : Event}
    (hcalm : e.undisturbed s = true) (hstep : Server.flow e s = some s') : Steady s' := by
  cases e with
  | setup calls =>
    simp only [Server.flow] at hstep
    split at hstep
    · split at hstep <;> cases hstep <;> exact .at_place rfl (fun h => by cases h) rfl
    · cases hstep
  | advance => exact h.advance hin hstep
  | accept fd =>
    simp only [Server.flow] at hstep
    split at hstep <;> cases hstep
    exact .at_place rfl (fun h => by cases h) rfl
  | acceptFails errno => cases hcalm
  | fork ok =>
    simp only [Server.flow] at hstep
    split at hstep
    · split at hstep <;> cases hstep <;> exact .at_place rfl (fun h => by cases h) rfl
    · cases hstep
  | sweep i =>
    simp only [Server.flow] at hstep
    split at hstep
    · obtain ⟨hplace, herrno, hin', hshut, -⟩ := setChild_frame hstep
      exact h.stay hplace (fun h => hshut.trans h) fun _ => ⟨herrno, hin'⟩
    · cases hstep
  | sweepEnd =>
    simp only [Server.flow] at hstep
    split at hstep
    next hcond =>
      cases hstep
      exact .left rfl (fun h => by cases h) (h.stopping (hcond.1 ▸ rfl))
    next => cases hstep
  | sigint => cases hstep
  | sigchld => cases hstep
  | reap i errno => cases hstep
  | handlerReturn => cases hstep
  | child i => cases hstep
  | exit i => cases hstep

theorem Steady.step (h : Steady s) {e : Event} (hcalm : e.undisturbed s = true)
    (hstep : Server.step e s = some s') : Steady s' := by
  have hflow : ∀ e : Event, e.undisturbed s = true →
      (if s.inHandler = true then none else Server.flow e s) = some s' → Steady s' := by
    intro e hcalm hstep
    cases hin : s.inHandler with
    | true =>
      rw [hin] at hstep
      cases hstep
    | false =>
      rw [hin] at hstep
      exact h.flow hin hcalm hstep
  cases e with
  | sigint =>
    cases hstep
    exact Steady.interrupt (h.stay rfl (fun _ => rfl) fun _ => ⟨rfl, rfl⟩)
  | sigchld =>
    simp only [Server.step] at hstep
    split at hstep <;> cases hstep
    exact Steady.interrupt (h.stay rfl id fun hp => absurd hp (of_decide_eq_true hcalm))
  | reap i errno =>
    simp only [Server.step] at hstep
    split at hstep
    next hin =>
      obtain ⟨hplace, -, -, hshut, -⟩ := setChild_frame hstep
      refine h.stay hplace (fun h => hshut.trans h) fun hp => ?_
      rw [(h.failed hp).2] at hin
      cases hin
    next => cases hstep
  | handlerReturn =>
    simp only [Server.step] at hstep
    split at hstep
    next hcond =>
      cases hstep
      refine h.stay rfl id fun hp => ?_
      rw [(h.failed hp).2] at hcond
      cases hcond.1
    next => cases hstep
  | child i =>
    obtain ⟨hplace, herrno, hin, hshut, -⟩ := setChild_frame hstep
    exact h.stay hplace (fun h => hshut.trans h) fun _ => ⟨herrno, hin⟩
  | exit i =>
    obtain ⟨hplace, herrno, hin, hshut, -⟩ := setChild_frame hstep
    exact h.stay hplace (fun h => hshut.trans h) fun _ => ⟨herrno, hin⟩
  | setup calls => exact hflow _ hcalm hstep
  | advance => exact hflow _ hcalm hstep
  | accept fd => exact hflow _ hcalm hstep
  | acceptFails errno => exact hflow _ hcalm hstep
  | fork ok => exact hflow _ hcalm hstep
  | sweep i => exact hflow _ hcalm hstep
  | sweepEnd => exact hflow _ hcalm hstep

/-! ### After SIGINT -/

/-- The flag stays set, and what was accepted and can still be accepted does not grow. -/
structure Winding (s s' : Server) : Prop where
  shutdown : s'.shutdown = true
  accepted : s'.accepted + s'.place.room ≤ s.accepted + s.place.room

/-- The parent goes on to a place from which it does not accept. -/
theorem Winding.at_place {p : Place} (hplace : s'.place = p) (hroom : p.room = 0)
    (hshut : s'.shutdown = true) (haccepted : s'.accepted = s.accepted) : Winding s s' := by
  refine ⟨hshut, ?_⟩
  rw [hplace, hroom, haccepted]
  exact Nat.le_add_right _ _

theorem Winding.stay (hplace : s'.place = s.place) (hshut : s'.shutdown = true)
    (haccepted : s'.accepted = s.accepted) : Winding s s' := by
  exact ⟨hshut, Nat.le_of_eq (by rw [hplace, haccepted])⟩

theorem Winding.interrupt {t : Server} (hplace : t.place = s.place) (hshut : t.shutdown = true)
    (haccepted : t.accepted = s.accepted) : Winding s t.interrupt := by
  obtain ⟨heq, hplace' | hplace'⟩ := interrupt_place t
  · rw [heq]
    exact .stay (hplace'.trans hplace) hshut haccepted
  · have hshut' : t.interrupt.shutdown = true := by rw [heq, hshut]
    have haccepted' : t.interrupt.accepted = s.accepted := by rw [heq, haccepted]
    exact .at_place hplace' rfl hshut' haccepted'

theorem winding_advance (hshut : s.shutdown = true) (hstep : s.advance = some s') :
    Winding s s' := by
  unfold Server.advance at hstep
  split at hstep
  next =>
    cases hstep
    exact .at_place (if_pos hshut) rfl hshut rfl
  next hplace =>
    cases hstep
    refine ⟨hshut, ?_⟩
    rw [hplace]
    exact Nat.le_refl _
  next =>
    cases hstep
    exact .at_place rfl rfl hshut rfl
  next =>
    cases hstep
    refine .at_place rfl ?_ hshut rfl
    split <;> rfl
  next =>
    cases hstep
    exact .at_place (if_pos hshut) rfl hshut rfl
  next =>
    cases hstep
    exact .at_place rfl rfl hshut rfl
  next =>
    cases hstep
    exact .at_place rfl rfl hshut rfl
  next =>
    cases hstep
    exact .at_place rfl rfl hshut rfl
  next =>
    cases hstep
    exact .at_place rfl rfl hshut rfl
  next => cases hstep

theorem winding_flow (hshut : s.shutdown = true) {e : Event}
    (hstep : Server.flow e s = some s') : Winding s s' := by
  cases e with
  | setup calls =>
    simp only [Server.flow] at hstep
    split at hstep
    · split at hstep <;> cases hstep <;> exact .at_place rfl rfl hshut rfl
    · cases hstep
  | advance => exact winding_advance hshut hstep
  | accept fd =>
    simp only [Server.flow] at hstep
    split at hstep
    next hcond =>
      cases hstep
      refine ⟨hshut, ?_⟩
      rw [hcond.1]
      exact Nat.le_refl _
    next => cases hstep
  | acceptFails errno =>
    simp only [Server.flow] at hstep
    split at hstep <;> cases hstep
    exact .at_place rfl rfl hshut rfl
  | fork ok =>
    simp only [Server.flow] at hstep
    split at hstep
    · split at hstep <;> cases hstep <;> exact .at_place rfl rfl hshut rfl
    · cases hstep
  | sweep i =>
    simp only [Server.flow] at hstep
    split at hstep
    · obtain ⟨hplace, -, -, hs, haccepted⟩ := setChild_frame hstep
      exact .stay hplace (hs.trans hshut) haccepted
    · cases hstep
  | sweepEnd =>
    simp only [Server.flow] at hstep
    split at hstep <;> cases hstep
    exact .at_place rfl rfl hshut rfl
  | sigint => cases hstep
  | sigchld => cases hstep
  | reap i errno => cases hstep
  | handlerReturn => cases hstep
  | child i => cases hstep
  | exit i => cases hstep

theorem winding_step (hshut : s.shutdown = true) {e : Event}
    (hstep : Server.step e s = some s') : Winding s s' := by
  have hflow : ∀ e, (if s.inHandler = true then none else Server.flow e s) = some s' →
      Winding s s' := by
    intro e hstep
    split at hstep
    · cases hstep
    · exact winding_flow hshut hstep
  cases e with
  | sigint =>
    cases hstep
    exact .interrupt rfl rfl rfl
  | sigchld =>
    simp only [Server.step] at hstep
    split at hstep <;> cases hstep
    exact .interrupt rfl hshut rfl
  | reap i errno =>
    simp only [Server.step] at hstep
    split at hstep
    · obtain ⟨hplace, -, -, hs, haccepted⟩ := setChild_frame hstep
      exact .stay hplace (hs.trans hshut) haccepted
    · cases hstep
  | handlerReturn =>
    simp only [Server.step] at hstep
    split at hstep <;> cases hstep
    exact .stay rfl hshut rfl
  | child i =>
    obtain ⟨hplace, -, -, hs, haccepted⟩ := setChild_frame hstep
    exact .stay hplace (hs.trans hshut) haccepted
  | exit i =>
    obtain ⟨hplace, -, -, hs, haccepted⟩ := setChild_frame hstep
    exact .stay hplace (hs.trans hshut) haccepted
  | setup calls => exact hflow _ hstep
  | advance => exact hflow _ hstep
  | accept fd => exact hflow _ hstep
  | acceptFails errno => exact hflow _ hstep
  | fork ok => exact hflow _ hstep
  | sweep i => exact hflow _ hstep
  | sweepEnd => exact hflow _ hstep

theorem run_winding {events : List Event} (hshut : s.shutdown = true)
    (hrun : runs Server.step events s = some s') : Winding s s' := by
  have hstep : ∀ e t t', Winding s t → Server.step e t = some t' → Winding s t' := by
    intro e t t' h hstep
    have hw := winding_step h.shutdown hstep
    exact ⟨hw.shutdown, Nat.le_trans hw.accepted h.accepted⟩
  exact runs_invariant hstep ⟨hshut, Nat.le_refl _⟩ hrun

end

/-- **Stopping.** When `accept` fails for signals only and no SIGCHLD comes between its failure and
the test of `errno`, the loop is left only after SIGINT. In every run, after SIGINT at most one more
connection is accepted, and only when the parent was behind the test of the flag and had not left
`accept`. -/
theorem run_stops {events : List Event} {s : Server}
    (hrun : runs Server.step events .start = some s) :
    (along Server.step Event.undisturbed events .start = true →
        s.place.stopping = true → s.shutdown = true) ∧
      ∀ pre post s₁, events = pre ++ post → runs Server.step pre .start = some s₁ →
        s₁.shutdown = true → s.accepted + s.place.room ≤ s₁.accepted + s₁.place.room := by
  constructor
  · intro hcalm
    have hsteady : Steady s :=
      runs_rule (fun _ _ _ h hc hstep => Steady.step h hc hstep)
        (.at_place rfl (fun h => by cases h) rfl) hcalm hrun
    exact hsteady.stopping
  · rintro pre post s₁ rfl hpre hshut
    rw [runs_append, hpre, Option.bind_some] at hrun
    exact (run_winding hshut hrun).accepted

theorem run_stops_oneClient : oneClientEnd.place.stopping = true ∧ oneClientEnd.shutdown = true := by
  have hcalm : along Server.step Event.undisturbed oneClient .start = true := by decide +kernel
  have hstopping : oneClientEnd.place.stopping = true := by decide +kernel
  exact ⟨hstopping, (run_stops oneClient_runs).1 hcalm hstopping⟩

/-- Two connections with a child each, and the second child exits just when `accept` was interrupted
by the exit of the first. -/
def twoExits : List Event :=
  [.setup ⟨some 3, true, true, true, true⟩, .advance, .advance, .accept 4, .fork true, .advance,
    .advance, .advance, .accept 4, .fork true, .advance, .advance, .advance,
    .exit 0, .sigchld, .reap 0 .other, .handlerReturn, .advance,
    .exit 1, .sigchld, .reap 1 .other, .handlerReturn, .advance]

/-- The condition is needed: when the handler of the second SIGCHLD finds no child left, `errno` is
`ECHILD`, and the server stops though `accept` was only interrupted and nobody asked it to. -/
theorem stopped_by_child : ∃ s, runs Server.step twoExits .start = some s ∧
    s.place.stopping = true ∧ s.shutdown = false := by
  refine ⟨(runs Server.step twoExits .start).get (by decide +kernel), ?_, ?_⟩
  · exact Option.some_get _ |>.symm
  · decide +kernel

end MiniWeb.TcpServers.ForkServer
