import MiniWeb.Lib.Trace
import MiniWeb.TcpServers.Listener

/-!
# The server that forks (`tcp_fork_server.c`)

`tcp_fork_server_run` accepts a connection, forks a child for it and closes its own descriptor; the
child closes the listening socket, handles the connection and exits. `fork` copies the table of
descriptors, so a connection ends for the client only when no process has a descriptor of it.

SIGCHLD and SIGINT reach the parent between any two of its steps. A SIGCHLD that is pending is
not raised again, and it is blocked while its handler runs; either signal makes a blocked `accept`
fail with `EINTR`. `sigchld_handler` leaves in `errno` what its calls set: `waitpid` sets `ECHILD`
when there is no child left. The log lines are left out, but for what they may leave in `errno`.
-/

namespace MiniWeb.TcpServers

open Runs Descriptors

inductive Errno where
  | eintr
  | echild
  | other
deriving DecidableEq, Repr

namespace ForkServer

inductive Stage where
  /-- Before `close(listen_fd)`. -/
  | born
  /-- In `request_handler_handle_connection(conn_fd)`. -/
  | handling
  /-- Before `shutdown` and `close`. -/
  | answered
  /-- Before `_exit(0)`. -/
  | leaving
  | zombie
  | reaped
deriving DecidableEq, Repr

/-- A child, with the connection it was forked for and the files it has handled as a
connection. -/
structure Child where
  stage : Stage
  files : Table File
  listenFd : Nat
  connFd : Nat
  client : Nat
  handled : List File
deriving DecidableEq, Repr

/-- The next step of a child before `_exit`. -/
def Child.advance (c : Child) : Option Child :=
  match c.stage with
  | .born => some { c with files := c.files.close c.listenFd, stage := .handling }
  | .handling =>
    some { c with handled := c.handled ++ (c.files.lookup c.connFd).toList, stage := .answered }
  | .answered => some { c with files := c.files.close c.connFd, stage := .leaving }
  | _ => none

/-- A child ends, and its descriptors are closed. -/
def Child.exit (c : Child) : Option Child :=
  match c.stage with
  | .zombie | .reaped => none
  | _ => some { c with files := [], stage := .zombie }

def Child.reap (c : Child) : Option Child :=
  if c.stage = .zombie then some { c with stage := .reaped } else none

/-- Where the parent is. -/
inductive Place where
  | setup
  /-- Before `while (!g_shutdown)`. -/
  | testing
  /-- Behind the test, and not yet in `accept`. -/
  | calling
  | accepting
  /-- `accept` was interrupted and is about to fail. -/
  | interrupted
  /-- Before `errno == EINTR`. -/
  | failed
  /-- Before the second test of `g_shutdown`. -/
  | retesting
  /-- `accept` has answered with the connection `k`. -/
  | accepted (k : Nat)
  | forkFailed (k : Nat)
  | forked (k : Nat)
  /-- In `usleep`. -/
  | grace
  /-- The last loop over `waitpid`. -/
  | sweeping
  | closing
  | returned (zero : Bool)
deriving DecidableEq, Repr

/-- The loop is left. -/
def Place.stopping : Place → Bool
  | .grace | .sweeping | .closing | .returned true => true
  | _ => false

/-- The parent and the children in the order of the forks, with the number of connections accepted
and those that were closed because `fork` failed. -/
structure Server where
  place : Place
  inHandler : Bool
  pending : Bool
  shutdown : Bool
  errno : Errno
  listenFd : Nat
  connFd : Nat
  files : Table File
  clientsServed : Nat
  children : List Child
  accepted : Nat
  dropped : List Nat
deriving DecidableEq, Repr

/-- `tcp_fork_server_run` is called. -/
def Server.start : Server where
  place := .setup
  inHandler := false
  pending := false
  shutdown := false
  errno := .other
  listenFd := 0
  connFd := 0
  files := []
  clientsServed := 0
  children := []
  accepted := 0
  dropped := []

inductive Event where
  | setup (calls : SetupCalls)
  /-- The parent's next step, where it asks nothing of the system. -/
  | advance
  /-- `accept` answers with a descriptor. -/
  | accept (fd : Nat)
  /-- `accept` fails, and no signal has interrupted it. -/
  | acceptFails (errno : Errno)
  | fork (ok : Bool)
  /-- `waitpid` of the last loop answers with a child, or with none. -/
  | sweep (i : Nat)
  | sweepEnd
  /-- SIGINT is delivered to the parent. -/
  | sigint
  /-- SIGCHLD is delivered to the parent. -/
  | sigchld
  /-- `waitpid` in the handler answers with a child; `errno` is what its log line leaves. -/
  | reap (i : Nat) (errno : Errno)
  | handlerReturn
  | child (i : Nat)
  /-- A child ends, by `_exit` or before. -/
  | exit (i : Nat)

namespace Server

variable (s : Server)

/-- A signal ends a blocked `accept`. -/
def interrupt : Server :=
  if s.place = .accepting then { s with place := .interrupted } else s

/-- Child `i` makes a step, if it can. -/
def setChild (i : Nat) (act : Child → Option Child) : Option Server :=
  (s.children[i]?.bind act).map fun c => { s with children := s.children.set i c }

/-- No child has exited that was not waited for. -/
def noZombie : Bool := s.children.all fun c => decide (c.stage ≠ .zombie)

/-- The next step of the parent's own flow. -/
def advance : Option Server :=
  match s.place with
  | .testing => some { s with place := if s.shutdown then .grace else .calling }
  | .calling => some { s with place := .accepting }
  | .interrupted => some { s with place := .failed, errno := .eintr }
  | .failed => some { s with place := if s.errno = .eintr then .retesting else .grace }
  | .retesting => some { s with place := if s.shutdown then .grace else .testing }
  | .forkFailed k =>
    some { s with
      files := s.files.close s.connFd, dropped := s.dropped ++ [k], place := .testing }
  | .forked _ =>
    some { s with
      files := s.files.close s.connFd, clientsServed := s.clientsServed + 1, place := .testing }
  | .grace => some { s with place := .sweeping }
  | .closing => some { s with files := s.files.close s.listenFd, place := .returned true }
  | _ => none

/-- A step of the parent's own flow, which stands still while the handler runs. -/
def flow : Event → Server → Option Server
  | .setup calls, s =>
    if s.place = .setup then
      match calls.listenFd with
      | (files, some fd) => some { s with files := files, listenFd := fd, place := .testing }
      | (files, none) => some { s with files := files, place := .returned false }
    else none
  | .advance, s => s.advance
  | .accept fd, s =>
    if s.place = .accepting ∧ fd ∉ s.files.fds then
      some { s with
        files := (fd, .client s.accepted) :: s.files
        connFd := fd
        place := .accepted s.accepted
        accepted := s.accepted + 1 }
    else none
  | .acceptFails errno, s =>
    if s.place = .accepting ∧ errno ≠ .eintr then some { s with place := .failed, errno := errno }
    else none
  | .fork ok, s =>
    match s.place with
    | .accepted k =>
      if ok then
        some { s with
          children := s.children ++ [⟨.born, s.files, s.listenFd, s.connFd, k, []⟩]
          place := .forked k }
      else some { s with place := .forkFailed k }
    | _ => none
  | .sweep i, s => if s.place = .sweeping then s.setChild i Child.reap else none
  | .sweepEnd, s =>
    if s.place = .sweeping ∧ s.noZombie then some { s with place := .closing } else none
  | _, _ => none

def step : Event → Server → Option Server
  | .sigint, s => some { s with shutdown := true }.interrupt
  | .sigchld, s =>
    if s.pending ∧ s.inHandler = false then
      some { s with pending := false, inHandler := true }.interrupt
    else none
  | .reap i errno, s =>
    if s.inHandler then { s with errno := errno }.setChild i Child.reap else none
  | .handlerReturn, s =>
    if s.inHandler ∧ s.noZombie then
      some { s with
        inHandler := false
        errno := if s.children.all fun c => decide (c.stage = .reaped) then .echild else s.errno }
    else none
  | .child i, s => s.setChild i Child.advance
  | .exit i, s => { s with pending := true }.setChild i Child.exit
  | e, s => if s.inHandler then none else flow e s

end Server

/-! ## What holds at each place -/

/-- The connection the parent has a descriptor of. -/
def Place.client : Place → Option Nat
  | .accepted k | .forkFailed k | .forked k => some k
  | _ => none

def Place.listens : Place → Bool
  | .setup | .returned _ => false
  | _ => true

/-- The connection for which no child was forked yet. -/
def Place.inHand : Place → List Nat
  | .accepted k | .forkFailed k => [k]
  | _ => []

/-- The child that `clients_served` does not count yet. -/
def Place.uncounted : Place → Nat
  | .forked _ => 1
  | _ => 0

/-- The parent's table. -/
def Server.ownFiles (s : Server) : Table File :=
  (s.place.client.map fun k => (s.connFd, File.client k)).toList ++
    if s.place.listens then [(s.listenFd, .listening)] else []

/-- The child has not closed its connection. -/
def Child.keeps (c : Child) : Bool :=
  match c.stage with
  | .born | .handling | .answered => true
  | _ => false

/-- The child's table. -/
def Child.ownFiles (c : Child) : Table File :=
  (if c.keeps then [(c.connFd, .client c.client)] else []) ++
    if c.stage = .born then [(c.listenFd, .listening)] else []

/-- A child has its own connection and handles it once. -/
structure Child.Ok (c : Child) : Prop where
  files : c.files = c.ownFiles
  distinct : c.connFd ≠ c.listenFd
  fresh : c.stage = .born ∨ c.stage = .handling → c.handled = []
  handled : c.handled = [] ∨ c.handled = [.client c.client]

/-- What holds in every state of a run. -/
structure Kept (s : Server) : Prop where
  files : s.files = s.ownFiles
  distinct : ∀ k ∈ s.place.client, s.connFd ≠ s.listenFd
  ledger : (s.place.inHand ++ s.dropped ++ s.children.map Child.client).Perm
    (List.range s.accepted)
  served : s.clientsServed + s.place.uncounted = s.children.length
  children : ∀ c ∈ s.children, c.Ok
  zombies : s.noZombie = true ∨ s.pending = true ∨ s.inHandler = true

/-- The two places say the same of the parent's connections. -/
structure Place.Like (p q : Place) : Prop where
  client : p.client = q.client
  listens : p.listens = q.listens
  inHand : p.inHand = q.inHand
  uncounted : p.uncounted = q.uncounted

section

variable {s s' : Server}

theorem kept_start : Kept .start where
  files := rfl
  distinct _ hk := by cases hk
  ledger := List.Perm.nil
  served := rfl
  children _ hc := absurd hc List.not_mem_nil
  zombies := Or.inl rfl

/-- The parent goes on with the same connections. -/
theorem Kept.goto (h : Kept s) {p : Place} (hp : p.Like s.place) (errno : Errno)
    (shutdown : Bool) : Kept { s with place := p, errno := errno, shutdown := shutdown } where
  files := by
    show s.files = _
    rw [h.files]
    unfold Server.ownFiles
    simp only [hp.client, hp.listens]
  distinct k hk := h.distinct k (hp.client ▸ hk)
  ledger := by
    show (p.inHand ++ s.dropped ++ s.children.map Child.client).Perm _
    rw [hp.inHand]
    exact h.ledger
  served := by
    show s.clientsServed + p.uncounted = _
    rw [hp.uncounted]
    exact h.served
  children := h.children
  zombies := h.zombies

/-! ## The children -/

theorem Child.Ok.advance {c c' : Child} (h : c.Ok) (hstep : c.advance = some c') :
    c'.Ok ∧ c'.client = c.client ∧ c'.stage ≠ .zombie := by
  have hfiles := h.files
  unfold Child.ownFiles Child.keeps at hfiles
  unfold Child.advance at hstep
  split at hstep
  next hstage =>
    cases hstep
    refine ⟨⟨?_, h.distinct, fun _ => h.fresh (Or.inl hstage), h.handled⟩, rfl,
      fun h => by cases h⟩
    rw [hstage] at hfiles
    show c.files.close c.listenFd = _
    rw [hfiles]
    exact (Table.close_cons_ne h.distinct).trans (congrArg _ Table.close_cons_self)
  next hstage =>
    cases hstep
    rw [hstage] at hfiles
    refine ⟨⟨hfiles, h.distinct, fun h => (by rcases h with h | h <;> cases h), Or.inr ?_⟩, rfl,
      fun h => by cases h⟩
    show c.handled ++ (c.files.lookup c.connFd).toList = _
    rw [h.fresh (Or.inr hstage), hfiles]
    exact congrArg Option.toList List.lookup_cons_self
  next hstage =>
    cases hstep
    rw [hstage] at hfiles
    refine ⟨⟨?_, h.distinct, fun h => (by rcases h with h | h <;> cases h), h.handled⟩, rfl,
      fun h => by cases h⟩
    show c.files.close c.connFd = _
    rw [hfiles]
    exact Table.close_cons_self
  next => cases hstep

theorem Child.Ok.exit {c c' : Child} (h : c.Ok) (hstep : c.exit = some c') :
    c'.Ok ∧ c'.client = c.client := by
  have hzombie : Child.Ok { c with files := [], stage := .zombie } :=
    ⟨rfl, h.distinct, fun h => (by rcases h with h | h <;> cases h), h.handled⟩
  unfold Child.exit at hstep
  split at hstep
  · cases hstep
  · cases hstep
  · cases hstep
    exact ⟨hzombie, rfl⟩

theorem Child.Ok.reap {c c' : Child} (h : c.Ok) (hstep : c.reap = some c') :
    c'.Ok ∧ c'.client = c.client ∧ c'.stage ≠ .zombie := by
  unfold Child.reap at hstep
  split at hstep
  next hstage =>
    cases hstep
    have hfiles := h.files
    unfold Child.ownFiles Child.keeps at hfiles
    rw [hstage] at hfiles
    exact ⟨⟨hfiles, h.distinct, fun h => (by rcases h with h | h <;> cases h), h.handled⟩, rfl,
      fun h => by cases h⟩
  next => cases hstep

theorem map_client_set {cs : List Child} {i : Nat} {c c' : Child} (hc : cs[i]? = some c)
    (hclient : c'.client = c.client) : (cs.set i c').map Child.client = cs.map Child.client := by
  obtain ⟨hi, rfl⟩ := List.getElem?_eq_some_iff.mp hc
  have hi' : i < (cs.map Child.client).length := by rwa [List.length_map]
  have hget : (cs.map Child.client)[i] = c'.client := by rw [List.getElem_map, hclient]
  rw [List.map_set, ← hget, List.set_getElem_self]

/-- A child makes a step; `zombies` says what is known of the children that have exited. -/
theorem Kept.setChild (h : Kept s) {i : Nat} {act : Child → Option Child}
    (hact : ∀ c c', c.Ok → act c = some c' → c'.Ok ∧ c'.client = c.client)
    (hset : s.setChild i act = some s')
    (hzombies : s'.noZombie = true ∨ s.pending = true ∨ s.inHandler = true) : Kept s' := by
  obtain ⟨c', hc', rfl⟩ := Option.map_eq_some_iff.mp hset
  obtain ⟨c, hc, hstep⟩ := Option.bind_eq_some_iff.mp hc'
  obtain ⟨hok, hclient⟩ := hact c c' (h.children c (List.mem_of_getElem? hc)) hstep
  constructor
  · exact h.files
  · exact h.distinct
  · show (_ ++ _ ++ (s.children.set i c').map Child.client).Perm _
    rw [map_client_set hc hclient]
    exact h.ledger
  · show _ = (s.children.set i c').length
    rw [List.length_set]
    exact h.served
  · intro d hd
    rcases List.mem_or_eq_of_mem_set hd with hd | rfl
    · exact h.children d hd
    · exact hok
  · exact hzombies

/-- A step that leaves no new child to wait for. -/
theorem noZombie_setChild {i : Nat} {act : Child → Option Child} (h : s.noZombie = true)
    (hact : ∀ c c', act c = some c' → c'.stage ≠ .zombie) (hset : s.setChild i act = some s') :
    s'.noZombie = true := by
  obtain ⟨c', hc', rfl⟩ := Option.map_eq_some_iff.mp hset
  obtain ⟨c, hc, hstep⟩ := Option.bind_eq_some_iff.mp hc'
  refine List.all_eq_true.mpr fun d hd => ?_
  rcases List.mem_or_eq_of_mem_set hd with hd | rfl
  · exact List.all_eq_true.mp h d hd
  · exact decide_eq_true (hact c d hstep)

/-! ## The parent -/

theorem ownFiles_of_none (hclient : s.place.client = none) (hlistens : s.place.listens = true) :
    s.ownFiles = [(s.listenFd, .listening)] := by
  unfold Server.ownFiles
  rw [hclient, hlistens]
  rfl

theorem ownFiles_of_some {k : Nat} (hclient : s.place.client = some k)
    (hlistens : s.place.listens = true) :
    s.ownFiles = [(s.connFd, .client k), (s.listenFd, .listening)] := by
  unfold Server.ownFiles
  rw [hclient, hlistens]
  rfl

/-- The parent closes its descriptor of the connection and goes back to the test. -/
theorem Kept.close_conn (h : Kept s) {k : Nat} (hclient : s.place.client = some k)
    (hlistens : s.place.listens = true) :
    s.files.close s.connFd = [(s.listenFd, .listening)] := by
  have hne : s.listenFd ≠ s.connFd := fun heq => h.distinct k hclient heq.symm
  rw [h.files, ownFiles_of_some hclient hlistens, Table.close_cons_self, Table.close_cons_ne hne,
    Table.close_nil]

theorem like_rfl (p : Place) : p.Like p := ⟨rfl, rfl, rfl, rfl⟩

theorem Kept.advance (h : Kept s) (hstep : s.advance = some s') : Kept s' := by
  unfold Server.advance at hstep
  split at hstep
  next hplace =>
    cases hstep
    refine h.goto ?_ s.errno s.shutdown
    rw [hplace]
    cases s.shutdown <;> exact ⟨rfl, rfl, rfl, rfl⟩
  next hplace =>
    cases hstep
    exact h.goto (hplace ▸ ⟨rfl, rfl, rfl, rfl⟩) s.errno s.shutdown
  next hplace =>
    cases hstep
    exact h.goto (hplace ▸ ⟨rfl, rfl, rfl, rfl⟩) .eintr s.shutdown
  next hplace =>
    cases hstep
    refine h.goto ?_ s.errno s.shutdown
    rw [hplace]
    split <;> exact ⟨rfl, rfl, rfl, rfl⟩
  next hplace =>
    cases hstep
    refine h.goto ?_ s.errno s.shutdown
    rw [hplace]
    cases s.shutdown <;> exact ⟨rfl, rfl, rfl, rfl⟩
  next k hplace =>
    cases hstep
    have hfiles := h.close_conn (k := k) (by rw [hplace]; rfl) (by rw [hplace]; rfl)
    have hledger := h.ledger
    rw [hplace] at hledger
    constructor
    · exact hfiles
    · intro k' hk'
      cases hk'
    · refine List.Perm.trans ?_ hledger
      show (s.dropped ++ [k] ++ _).Perm ([k] ++ s.dropped ++ _)
      exact List.perm_append_comm.append_right _
    · have hserved := h.served
      rw [hplace] at hserved
      exact hserved
    · exact h.children
    · exact h.zombies
  next k hplace =>
    cases hstep
    have hfiles := h.close_conn (k := k) (by rw [hplace]; rfl) (by rw [hplace]; rfl)
    have hledger := h.ledger
    rw [hplace] at hledger
    constructor
    · exact hfiles
    · intro k' hk'
      cases hk'
    · exact hledger
    · have hserved := h.served
      rw [hplace] at hserved
      exact hserved
    · exact h.children
    · exact h.zombies
  next hplace =>
    cases hstep
    exact h.goto (hplace ▸ ⟨rfl, rfl, rfl, rfl⟩) s.errno s.shutdown
  next hplace =>
    cases hstep
    have hfiles : s.files = [(s.listenFd, .listening)] :=
      h.files.trans (ownFiles_of_none (by rw [hplace]; rfl) (by rw [hplace]; rfl))
    have hledger := h.ledger
    have hserved := h.served
    rw [hplace] at hledger hserved
    constructor
    · show s.files.close s.listenFd = _
      rw [hfiles, Table.close_cons_self]
      rfl
    · intro k hk
      cases hk
    · exact hledger
    · exact hserved
    · exact h.children
    · exact h.zombies
  next => cases hstep

theorem Kept.setup (h : Kept s) {calls : SetupCalls}
    (hstep : Server.flow (.setup calls) s = some s') : Kept s' := by
  unfold Server.flow at hstep
  simp only at hstep
  split at hstep
  next hplace =>
    have hledger := h.ledger
    have hserved := h.served
    rw [hplace] at hledger hserved
    rcases listenFd_eq calls with hcalls | ⟨fd, hcalls⟩
    · rw [hcalls] at hstep
      cases hstep
      exact ⟨rfl, fun _ hk => (by cases hk), hledger, hserved, h.children, h.zombies⟩
    · rw [hcalls] at hstep
      cases hstep
      exact ⟨rfl, fun _ hk => (by cases hk), hledger, hserved, h.children, h.zombies⟩
  next => cases hstep

theorem Kept.accept (h : Kept s) {fd : Nat} (hplace : s.place = .accepting)
    (hfd : fd ∉ s.files.fds) :
    Kept { s with
      files := (fd, .client s.accepted) :: s.files
      connFd := fd
      place := .accepted s.accepted
      accepted := s.accepted + 1 } := by
  have hfiles : s.files = [(s.listenFd, .listening)] :=
    h.files.trans (ownFiles_of_none (by rw [hplace]; rfl) (by rw [hplace]; rfl))
  have hledger := h.ledger
  have hserved := h.served
  rw [hplace] at hledger hserved
  constructor
  · show (fd, File.client s.accepted) :: s.files = _
    rw [hfiles]
    rfl
  · intro k _ heq
    rw [hfiles] at hfd
    exact hfd (List.mem_singleton.mpr heq)
  · rw [List.range_succ]
    exact (hledger.cons s.accepted).trans (List.perm_append_singleton s.accepted _).symm
  · exact hserved
  · exact h.children
  · exact h.zombies

/-- `fork` copies the table. -/
theorem Kept.fork (h : Kept s) {k : Nat} (hplace : s.place = .accepted k) :
    Kept { s with
      children := s.children ++ [⟨.born, s.files, s.listenFd, s.connFd, k, []⟩]
      place := .forked k } := by
  have hclient : s.place.client = some k := by rw [hplace]; rfl
  have hfiles : s.files = [(s.connFd, .client k), (s.listenFd, .listening)] :=
    h.files.trans (ownFiles_of_some hclient (by rw [hplace]; rfl))
  have hledger := h.ledger
  have hserved := h.served
  rw [hplace] at hledger hserved
  constructor
  · exact hfiles
  · intro k' _
    exact h.distinct k hclient
  · refine List.Perm.trans ?_ hledger
    show (s.dropped ++ (s.children ++ [_]).map Child.client).Perm (k :: (s.dropped ++ _))
    rw [List.map_append, ← List.append_assoc]
    exact List.perm_append_singleton k _
  · show s.clientsServed + 1 = (s.children ++ [_]).length
    rw [List.length_append, ← hserved]
    rfl
  · intro c hc
    rcases List.mem_append.mp hc with hc | hc
    · exact h.children c hc
    · cases List.mem_singleton.mp hc
      exact ⟨hfiles, h.distinct k hclient, fun _ => rfl, Or.inl rfl⟩
  · refine h.zombies.imp_left fun hno => ?_
    unfold Server.noZombie at hno ⊢
    rw [List.all_append, hno]
    rfl

/-- Reaping a child cannot leave a new one to wait for. -/
theorem Kept.reap (h : Kept s) {i : Nat} (hset : s.setChild i Child.reap = some s') : Kept s' := by
  refine h.setChild (fun c c' hok hstep => ?_) hset ?_
  · exact ⟨(hok.reap hstep).1, (hok.reap hstep).2.1⟩
  · refine h.zombies.imp_left fun hno => noZombie_setChild hno (fun c c' hstep => ?_) hset
    unfold Child.reap at hstep
    split at hstep
    · cases hstep
      intro heq
      cases heq
    · cases hstep

theorem Kept.flow (h : Kept s) {e : Event} (hstep : Server.flow e s = some s') : Kept s' := by
  cases e with
  | setup calls => exact h.setup hstep
  | advance => exact h.advance hstep
  | accept fd =>
    simp only [Server.flow] at hstep
    split at hstep
    next hcond =>
      cases hstep
      exact h.accept hcond.1 hcond.2
    next => cases hstep
  | acceptFails errno =>
    simp only [Server.flow] at hstep
    split at hstep
    next hcond =>
      cases hstep
      exact h.goto (hcond.1 ▸ ⟨rfl, rfl, rfl, rfl⟩) errno s.shutdown
    next => cases hstep
  | fork ok =>
    simp only [Server.flow] at hstep
    split at hstep
    next k hplace =>
      split at hstep
      · cases hstep
        exact h.fork hplace
      · cases hstep
        exact h.goto (hplace ▸ ⟨rfl, rfl, rfl, rfl⟩) s.errno s.shutdown
    next => cases hstep
  | sweep i =>
    simp only [Server.flow] at hstep
    split at hstep
    · exact h.reap hstep
    · cases hstep
  | sweepEnd =>
    simp only [Server.flow] at hstep
    split at hstep
    next hcond =>
      cases hstep
      exact h.goto (hcond.1 ▸ ⟨rfl, rfl, rfl, rfl⟩) s.errno s.shutdown
    next => cases hstep
  | sigint => cases hstep
  | sigchld => cases hstep
  | reap i errno => cases hstep
  | handlerReturn => cases hstep
  | child i => cases hstep
  | exit i => cases hstep

/-! ## Signals, and one step -/

theorem Kept.interrupt (h : Kept s) : Kept s.interrupt := by
  unfold Server.interrupt
  split
  next hplace => exact h.goto (hplace ▸ ⟨rfl, rfl, rfl, rfl⟩) s.errno s.shutdown
  next => exact h

/-- Signals change what is known of the children that have exited. -/
theorem Kept.signal (h : Kept s) (pending inHandler : Bool) (errno : Errno)
    (hzombies : s.noZombie = true ∨ pending = true ∨ inHandler = true) :
    Kept { s with pending := pending, inHandler := inHandler, errno := errno } :=
  ⟨h.files, h.distinct, h.ledger, h.served, h.children, hzombies⟩

theorem Kept.step (h : Kept s) {e : Event} (hstep : Server.step e s = some s') : Kept s' := by
  have hflow : ∀ e, (if s.inHandler = true then none else Server.flow e s) = some s' → Kept s' := by
    intro e hstep
    split at hstep
    · cases hstep
    · exact h.flow hstep
  cases e with
  | sigint =>
    cases hstep
    exact Kept.interrupt (h.goto (like_rfl s.place) s.errno true)
  | sigchld =>
    simp only [Server.step] at hstep
    split at hstep
    · cases hstep
      exact (h.signal false true s.errno (Or.inr (Or.inr rfl))).interrupt
    · cases hstep
  | reap i errno =>
    simp only [Server.step] at hstep
    split at hstep
    · exact Kept.reap (h.goto (like_rfl s.place) errno s.shutdown) hstep
    · cases hstep
  | handlerReturn =>
    simp only [Server.step] at hstep
    split at hstep
    next hcond =>
      cases hstep
      exact h.signal s.pending false _ (Or.inl hcond.2)
    next => cases hstep
  | child i =>
    refine h.setChild (fun c c' hok hact => ⟨(hok.advance hact).1, (hok.advance hact).2.1⟩) hstep ?_
    refine h.zombies.imp_left fun hno => noZombie_setChild hno (fun c c' hact => ?_) hstep
    unfold Child.advance at hact
    split at hact <;> cases hact <;> exact fun heq => by cases heq
  | exit i =>
    have hpending := h.signal true s.inHandler s.errno (Or.inr (Or.inl rfl))
    exact hpending.setChild (fun c c' hok hact => hok.exit hact) hstep (Or.inr (Or.inl rfl))
  | setup calls => exact hflow _ hstep
  | advance => exact hflow _ hstep
  | accept fd => exact hflow _ hstep
  | acceptFails errno => exact hflow _ hstep
  | fork ok => exact hflow _ hstep
  | sweep i => exact hflow _ hstep
  | sweepEnd => exact hflow _ hstep

theorem run_kept {events : List Event} (hrun : runs Server.step events .start = some s) : Kept s :=
  runs_invariant (fun _ _ _ h hstep => Kept.step h hstep) kept_start hrun

/-! ## The connections -/

/-- A process with this table has a descriptor of the file. -/
def Holds (files : Table File) (f : File) : Prop := ∃ fd, (fd, f) ∈ files

/-- Some process has a descriptor of the file. -/
def Server.Open (s : Server) (f : File) : Prop :=
  Holds s.files f ∨ ∃ c ∈ s.children, Holds c.files f

/-- Every connection has one process that handles it, and no other keeps it open. -/
structure Served (s : Server) : Prop where
  /-- A connection that was accepted is in the parent's hand, was closed because `fork` failed, or
  has a child, and only one of these. -/
  ledger : (s.place.inHand ++ s.dropped ++ s.children.map Child.client).Perm
    (List.range s.accepted)
  /-- A connection is open while the parent hands it over and until its child closes it. -/
  open_client : ∀ k, s.Open (.client k) ↔
    s.place.client = some k ∨ ∃ c ∈ s.children, c.client = k ∧ c.keeps = true
  open_listening : s.Open .listening ↔
    s.place.listens = true ∨ ∃ c ∈ s.children, c.stage = .born
  /-- A child handles its own connection, once, or ends before. -/
  handled : ∀ c ∈ s.children, c.handled = [] ∨ c.handled = [.client c.client]

theorem Child.Ok.holds_client {c : Child} (h : c.Ok) (k : Nat) :
    Holds c.files (.client k) ↔ c.client = k ∧ c.keeps = true := by
  unfold Holds
  rw [h.files]
  unfold Child.ownFiles
  cases c.keeps <;> by_cases hstage : c.stage = .born <;> simp [hstage, eq_comm]

theorem Child.Ok.holds_listening {c : Child} (h : c.Ok) :
    Holds c.files .listening ↔ c.stage = .born := by
  unfold Holds
  rw [h.files]
  unfold Child.ownFiles
  cases c.keeps <;> by_cases hstage : c.stage = .born <;> simp [hstage]

theorem Kept.holds_client (h : Kept s) (k : Nat) :
    Holds s.files (.client k) ↔ s.place.client = some k := by
  unfold Holds
  rw [h.files]
  unfold Server.ownFiles
  cases s.place.client <;> cases s.place.listens <;> simp [eq_comm]

theorem Kept.holds_listening (h : Kept s) :
    Holds s.files .listening ↔ s.place.listens = true := by
  unfold Holds
  rw [h.files]
  unfold Server.ownFiles
  cases s.place.client <;> cases s.place.listens <;> simp

end

/-- **The connections.** In every interleaving of the parent, its signals and its children, each
accepted connection is handled by the child forked for it and by no other process; it is open while
the parent hands it over and until this child has closed it or ended, and no longer. -/
theorem run_served {events : List Event} {s : Server}
    (hrun : runs Server.step events .start = some s) : Served s := by
  have hkept := run_kept hrun
  constructor
  · exact hkept.ledger
  · intro k
    refine or_congr (hkept.holds_client k) (exists_congr fun c => ?_)
    exact and_congr_right fun hc => (hkept.children c hc).holds_client k
  · refine or_congr hkept.holds_listening (exists_congr fun c => ?_)
    exact and_congr_right fun hc => (hkept.children c hc).holds_listening
  · exact fun c hc => (hkept.children c hc).handled

/-- One connection, answered by a child that is waited for, and SIGINT while `accept` blocks. -/
def oneClient : List Event :=
  [.setup ⟨some 3, true, true, true, true⟩, .advance, .advance, .accept 4, .fork true, .child 0,
    .advance, .child 0, .advance, .advance, .child 0, .exit 0, .sigchld, .reap 0 .other,
    .handlerReturn, .advance, .advance, .advance, .advance, .advance, .sigint, .advance, .advance,
    .advance, .advance, .sweepEnd, .advance]

def oneClientEnd : Server := (runs Server.step oneClient .start).get (by decide +kernel)

theorem oneClient_runs : runs Server.step oneClient .start = some oneClientEnd :=
  Option.some_get _ |>.symm

theorem run_served_oneClient : Served oneClientEnd ∧ oneClientEnd.place = .returned true ∧
    (oneClientEnd.children.map Child.handled) = [[.client 0]] :=
  ⟨run_served oneClient_runs, by decide +kernel, by decide +kernel⟩

end ForkServer

end MiniWeb.TcpServers
