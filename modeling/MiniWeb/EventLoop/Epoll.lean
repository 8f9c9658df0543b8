import MiniWeb.EventLoop.Connections

/-!
# The loop of `epoll_server_run`

The table of connections, the count of active ones and the descriptors registered with epoll, and
what the loop does to them. One event of a run is one answer of `epoll_wait`, the handling of the
next ready descriptor it named, an idle check, or the end of the loop. The bytes of a connection
are read as in `epollRead`.

The source tears a connection down in eight places, always by the same four updates in the same
order: `tearDown`.
-/

namespace MiniWeb.EventLoop

open Handles Table FrontEnd Config

/-- `EPOLL_MAX_CONNS`. -/
def epollMaxConns : Nat := 1024

/-- A descriptor registered with epoll, and its `data.ptr`: NULL or a slot of the table. -/
structure Registration where
  fd : Nat
  ptr : Option Nat
deriving DecidableEq, Repr

/-- A descriptor named by `epoll_wait`; `error` for `EPOLLERR` or `EPOLLHUP`. -/
structure Ready where
  entry : Registration
  error : Bool
deriving DecidableEq, Repr

structure EpollLoop where
  config : Option ServerConfig
  workerMode : Bool
  listenFd : Nat
  epfd : Nat
  connections : Nat → Connection
  activeConns : Int
  registered : List Registration
  /-- What is done to the descriptors. -/
  descriptors : Trace Nat
  /-- The rest of `events`, still to be handled. -/
  pending : List Ready
  running : Bool

namespace EpollLoop

/-- Before the first `epoll_wait`. In worker mode `listenFd` is the master's. -/
def start (config : Option ServerConfig) (workerMode : Bool) (listenFd epfd : Nat) : EpollLoop where
  config := config
  workerMode := workerMode
  listenFd := listenFd
  epfd := epfd
  connections _ := .free
  activeConns := 0
  registered := [⟨listenFd, none⟩]
  descriptors := ((Trace.mk [] []).perform (.acquire listenFd)).perform (.acquire epfd)
  pending := []
  running := true

variable (s : EpollLoop)

/-- `recv` or `send` on a connection's descriptor. -/
def use : Option Nat → EpollLoop
  | none => s
  | some fd => { s with descriptors := s.descriptors.perform (.use fd) }

/-- `close`. -/
def close (fd : Nat) : EpollLoop :=
  { s with descriptors := s.descriptors.perform (.release fd) }

/-- `epoll_ctl(epfd, EPOLL_CTL_DEL, fd, NULL)`. -/
def ctlDel (fd : Nat) : EpollLoop :=
  { s with registered := s.registered.filter fun r => r.fd ≠ fd }

/-- `safe_close`: the descriptor is shut down, drained and closed. -/
def safeClose (fd : Nat) : EpollLoop := (s.use (some fd)).close fd

def setConnection (slot : Nat) (c : Connection) : EpollLoop :=
  { s with connections := Function.update s.connections slot c }

/-- `epoll_ctl(DEL)`, `safe_close`, `fd = -1` and `g_active_conns--`. -/
def tearDown (slot : Nat) (fd : Option Nat) : EpollLoop :=
  let s := match fd with
    | none => s
    | some fd => (s.ctlDel fd).safeClose fd
  let s := s.setConnection slot { s.connections slot with fd := none }
  { s with activeConns := s.activeConns - 1 }

/-- One turn of `sweep`. -/
def tearDownIf (p : Connection → Bool) (i : Nat) : EpollLoop :=
  match (s.connections i).fd with
  | some fd => if p (s.connections i) then s.tearDown i (some fd) else s
  | none => s

/-- A loop over the table that tears down the connections of which `p` holds. -/
def sweep (p : Connection → Bool) : EpollLoop :=
  (List.range epollMaxConns).foldl (fun s i => s.tearDownIf p i) s

/-- `listen_fd` is ready. No successor where `accept` answers a descriptor that is open. -/
def acceptClient (a : Answers) : Option EpollLoop :=
  match a.accepted with
  | none => some s
  | some connFd =>
    if connFd ∈ s.descriptors.live then none
    else
      let s := { s with descriptors := s.descriptors.perform (.acquire connFd) }
      match Slots.firstFree epollMaxConns fun i => (s.connections i).fd.isSome with
      | none => some (s.close connFd)
      | some slot =>
        let s := s.setConnection slot ⟨some connFd, [], 0, a.now⟩
        if a.added then
          some { s with
            registered := s.registered ++ [⟨connFd, some slot⟩]
            activeConns := s.activeConns + 1 }
        else
          let s := s.close connFd
          some (s.setConnection slot { s.connections slot with fd := none })

/-- A client's descriptor is ready. -/
def recvClient (slot : Nat) (fd : Option Nat) (a : Answers) : EpollLoop :=
  let s := s.use fd
  let conn := s.connections slot
  if a.bytes = [] then s.tearDown slot fd
  else
    let conn := { conn with recvBuf := conn.recvBuf ++ a.bytes, lastActivity := a.now }
    let s := s.setConnection slot conn
    match epollRead s.config conn.recvBuf with
    | .tooLarge => (s.use fd).tearDown slot fd
    | .echo _ =>
      (s.use fd).setConnection slot
        { conn with recvBuf := [], requestCount := conn.requestCount + 1 }
    | .malformed => (s.use fd).tearDown slot fd
    | .request req =>
      let s := s.use fd
      if !a.sent then s.tearDown slot fd
      else
        let conn := { conn with requestCount := conn.requestCount + 1 }
        let s := s.setConnection slot conn
        if maxKeepAliveRequests ≤ conn.requestCount || !req.keepAlive then s.tearDown slot fd
        else s.setConnection slot { conn with recvBuf := [] }

/-- The body of the loop over `events`. -/
def handleReady (r : Ready) (a : Answers) : Option EpollLoop :=
  let readyFd := match r.entry.ptr with
    | none => some s.listenFd
    | some slot => (s.connections slot).fd
  if r.error then
    match r.entry.ptr with
    | some slot => some (if readyFd ≠ some s.listenFd then s.tearDown slot readyFd else s)
    | none => some s
  else if readyFd = some s.listenFd then s.acceptClient a
  else
    match r.entry.ptr with
    | some slot => some (s.recvClient slot readyFd a)
    | none => some s

/-- The listening socket, unless it is the master's, and the epoll instance with its
registrations. -/
def closeOwn : EpollLoop :=
  let s := if s.workerMode then s else (s.ctlDel s.listenFd).close s.listenFd
  { s.close s.epfd with registered := [], running := false }

/-- What stands under `cleanup`: `epfd`, which still has its old value, is closed again. -/
def cleanup : EpollLoop := s.close s.epfd

/-- Behind the loop. -/
def finish : EpollLoop := (s.sweep fun _ => true).closeOwn.cleanup

variable {s} {slot fd : Nat} {a : Answers}

theorem follows_tearDown {conn : Conn} :
    Follows ((s.tearDown slot (some fd)).connections slot).conn conn.close :=
  follows_closed

theorem follows_setConnection {c : Connection} {conn : Conn} (hc : c.conn = conn) :
    Follows ((s.setConnection slot c).connections slot).conn conn :=
  follows_update hc

/-- A turn of the loop is a turn of `epollRecv`: it closes the same connections, and leaves the
others the same. -/
theorem recvClient_follows (hfd : (s.connections slot).fd = some fd) :
    Follows ((s.recvClient slot (some fd) a).connections slot).conn
      (epollRecv s.config (s.connections slot).conn ⟨a.bytes, a.sent⟩).1 := by
  have hopen : (!(s.connections slot).conn.isOpen) = false := by
    unfold Connection.conn
    rw [hfd]
    rfl
  unfold epollRecv EpollLoop.recvClient
  rw [if_neg (Bool.eq_false_iff.mp hopen)]
  by_cases hbytes : a.bytes = []
  · simp only [if_pos hbytes]
    exact follows_tearDown
  · simp only [if_neg hbytes]
    generalize hread : epollRead ((s.use (some fd)).setConnection slot _).config _ = reading
    have hread : epollRead s.config ((s.connections slot).conn.recvBuf ++ a.bytes) = reading := hread
    rw [hread]
    cases reading with
    | tooLarge => exact follows_tearDown
    | echo line => exact follows_setConnection rfl
    | malformed => exact follows_tearDown
    | request req =>
      cases hsent : a.sent with
      | false => exact follows_tearDown
      | true =>
        simp only [Bool.not_true, Bool.false_or, Bool.false_eq_true, if_false]
        by_cases hlast : (decide (maxKeepAliveRequests ≤ (s.connections slot).conn.requestCount + 1)
            || !req.keepAlive) = true
        · have hlast' : (decide (maxKeepAliveRequests ≤
              ((s.use (some fd)).connections slot).requestCount + 1) || !req.keepAlive) = true := hlast
          rw [if_pos hlast, if_pos hlast']
          exact follows_tearDown
        · have hlast' : ¬(decide (maxKeepAliveRequests ≤
              ((s.use (some fd)).connections slot).requestCount + 1) || !req.keepAlive) = true := hlast
          rw [if_neg hlast, if_neg hlast']
          exact follows_setConnection rfl

end EpollLoop

inductive EpollEvent where
  /-- `epoll_wait` names `batch`. -/
  | wait (batch : List Ready)
  | ready (a : Answers)
  /-- `epoll_wait` names nothing; the time is `now`. -/
  | timeout (now : Int)
  | shutdown

/-- `epoll_wait` names registered descriptors, each at most once. -/
def EpollLoop.step : EpollEvent → EpollLoop → Option EpollLoop
  | .wait batch, s =>
    if s.running ∧ s.pending = [] ∧ (batch.map fun r => r.entry.fd).Nodup ∧
        ∀ r ∈ batch, r.entry ∈ s.registered then
      some { s with pending := batch }
    else none
  | .ready a, s =>
    match s.pending with
    | [] => none
    | r :: rest => { s with pending := rest }.handleReady r a
  | .timeout now, s =>
    if s.running ∧ s.pending = [] then some (s.sweep (Connection.idle now)) else none
  | .shutdown, s => if s.running ∧ s.pending = [] then some s.finish else none

end MiniWeb.EventLoop
