import Mathlib.Data.Finset.Basic
import MiniWeb.EventLoop.Connections

/-!
# The loop of `select_server_run`

The table of connections, `master_set` and `max_fd`. One event of a run is one answer of `select`,
one turn of the scan over the descriptors up to `max_fd`, an idle check, or the end of the loop.
`max_fd` is compared again in every turn, so the scan sees what its own turns do to it.

The source closes a connection in five places, by the same updates: `closeClient`.
-/

namespace MiniWeb.EventLoop

open Handles Table FrontEnd

/-- `SELECT_MAX_CONNS`. -/
def selectMaxConns : Nat := 1024

/-- `FD_SETSIZE`. -/
def fdSetSize : Nat := 1024

structure SelectLoop where
  listenFd : Nat
  connections : Nat → Connection
  masterSet : Finset Nat
  maxFd : Nat
  descriptors : Trace Nat
  /-- While the scan runs: the descriptor it is at, and `read_set`. -/
  scan : Option (Nat × Finset Nat)
  /-- The descriptors of `read_set` the scan has handled. -/
  visited : List Nat
  running : Bool

/-- `while (max_fd > listen_fd && !FD_ISSET(max_fd, &master_set)) max_fd--;` -/
def lowerMaxFd (listenFd : Nat) (masterSet : Finset Nat) : Nat → Nat
  | 0 => 0
  | maxFd + 1 =>
    if listenFd < maxFd + 1 ∧ maxFd + 1 ∉ masterSet then lowerMaxFd listenFd masterSet maxFd
    else maxFd + 1

namespace SelectLoop

/-- Before the first `select`. -/
def start (listenFd : Nat) : SelectLoop where
  listenFd := listenFd
  connections _ := .free
  masterSet := {listenFd}
  maxFd := listenFd
  descriptors := (Trace.mk [] []).perform (.acquire listenFd)
  scan := none
  visited := []
  running := true

variable (s : SelectLoop)

/-- `recv` or `send`. -/
def use (fd : Nat) : SelectLoop := { s with descriptors := s.descriptors.perform (.use fd) }

/-- `close`. -/
def close (fd : Nat) : SelectLoop := { s with descriptors := s.descriptors.perform (.release fd) }

def setConnection (slot : Nat) (c : Connection) : SelectLoop :=
  { s with connections := Function.update s.connections slot c }

/-- `FD_CLR`, `close`, `fd = -1`, and `max_fd` lowered if it was this descriptor. -/
def closeClient (slot fd : Nat) : SelectLoop :=
  let s := { s with masterSet := s.masterSet.erase fd }
  let s := (s.close fd).setConnection slot { s.connections slot with fd := none }
  { s with
    maxFd := if fd = s.maxFd then lowerMaxFd s.listenFd s.masterSet s.maxFd else s.maxFd }

/-- One turn of `sweep`. -/
def closeIf (p : Connection → Bool) (i : Nat) : SelectLoop :=
  match (s.connections i).fd with
  | some fd => if p (s.connections i) then s.closeClient i fd else s
  | none => s

/-- A loop over the table that closes the connections of which `p` holds. -/
def sweep (p : Connection → Bool) : SelectLoop :=
  (List.range selectMaxConns).foldl (fun s i => s.closeIf p i) s

/-- `listen_fd` is ready. No successor where `accept` answers a descriptor that is open or too
large for the set. -/
def acceptClient (a : Answers) : Option SelectLoop :=
  match a.accepted with
  | none => some s
  | some connFd =>
    if connFd ∈ s.descriptors.live ∨ fdSetSize ≤ connFd then none
    else
      let s := { s with descriptors := s.descriptors.perform (.acquire connFd) }
      match Slots.firstFree selectMaxConns fun i => (s.connections i).fd.isSome with
      | none => some (s.close connFd)
      | some slot =>
        let s := s.setConnection slot ⟨some connFd, [], 0, a.now⟩
        some { s with
          masterSet := insert connFd s.masterSet
          maxFd := if s.maxFd < connFd then connFd else s.maxFd }

/-- A client's descriptor is ready. -/
def recvClient (slot fd : Nat) (a : Answers) : SelectLoop :=
  let s := s.use fd
  let conn := s.connections slot
  if a.bytes = [] then s.closeClient slot fd
  else
    let conn := { conn with recvBuf := conn.recvBuf ++ a.bytes, lastActivity := a.now }
    let s := (s.setConnection slot conn).use fd
    match selectRead conn.recvBuf with
    | .request _ =>
      if !a.sent then s.closeClient slot fd
      else
        let conn := { conn with requestCount := conn.requestCount + 1 }
        let s := s.setConnection slot conn
        if maxKeepAliveRequests ≤ conn.requestCount then s.closeClient slot fd
        else s.setConnection slot { conn with recvBuf := [] }
    -- there is no other reading than a request line without a path
    | _ => s.closeClient slot fd

/-- The loop that looks `fd` up. -/
def slotOf (fd : Nat) : Option Nat :=
  (List.range selectMaxConns).find? fun i => (s.connections i).fd = some fd

/-- The body of the scan for a descriptor in `read_set`. -/
def handleFd (fd : Nat) (a : Answers) : Option SelectLoop :=
  if fd = s.listenFd then s.acceptClient a
  else
    match s.slotOf fd with
    | some slot => some (s.recvClient slot fd a)
    | none =>
      -- "should not happen"
      let s := { s with masterSet := s.masterSet.erase fd }
      let s := s.close fd
      some { s with maxFd := if fd = s.maxFd then s.maxFd - 1 else s.maxFd }

/-- Behind the loop: the listening socket, when the connections are closed. -/
def closeOwn : SelectLoop :=
  { ({ s with masterSet := s.masterSet.erase s.listenFd } : SelectLoop).close s.listenFd with
    running := false }

def finish : SelectLoop := (s.sweep fun _ => true).closeOwn

variable {s} {slot fd : Nat} {a : Answers}

theorem follows_closeClient {conn : Conn} :
    Follows ((s.closeClient slot fd).connections slot).conn conn.close :=
  follows_closed

/-- A turn of the loop is a turn of `selectRecv`: it closes the same connections, and leaves the
others the same. -/
theorem recvClient_follows (hfd : (s.connections slot).fd = some fd) :
    Follows ((s.recvClient slot fd a).connections slot).conn
      (selectRecv (s.connections slot).conn ⟨a.bytes, a.sent⟩).1 := by
  have hopen : (!(s.connections slot).conn.isOpen) = false := by
    unfold Connection.conn
    rw [hfd]
    rfl
  unfold selectRecv SelectLoop.recvClient
  rw [if_neg (Bool.eq_false_iff.mp hopen)]
  by_cases hbytes : a.bytes = []
  · simp only [if_pos hbytes]
    exact follows_closeClient
  · simp only [if_neg hbytes]
    generalize hread : selectRead (((s.use fd).connections slot).recvBuf ++ a.bytes) = reading
    have hread : selectRead ((s.connections slot).conn.recvBuf ++ a.bytes) = reading := hread
    rw [hread]
    cases reading with
    | tooLarge => exact follows_closeClient
    | echo line => exact follows_closeClient
    | malformed => exact follows_closeClient
    | request req =>
      cases hsent : a.sent with
      | false => exact follows_closeClient
      | true =>
        simp only [Bool.not_true, Bool.false_or, Bool.false_eq_true, if_false, decide_eq_true_eq]
        by_cases hlast : maxKeepAliveRequests ≤ (s.connections slot).conn.requestCount + 1
        · have hlast' : maxKeepAliveRequests ≤
              ((s.use fd).connections slot).requestCount + 1 := hlast
          rw [if_pos hlast, if_pos hlast']
          exact follows_closeClient
        · have hlast' : ¬maxKeepAliveRequests ≤
              ((s.use fd).connections slot).requestCount + 1 := hlast
          rw [if_neg hlast, if_neg hlast']
          exact follows_update rfl

end SelectLoop

inductive SelectEvent where
  /-- `select` leaves `readSet`. -/
  | ready (readSet : Finset Nat)
  /-- One turn of the scan. -/
  | turn (a : Answers)
  /-- `select` leaves nothing; the time is `now`. -/
  | timeout (now : Int)
  | shutdown

/-- `select` leaves descriptors of the set up to `max_fd`. -/
def SelectLoop.step : SelectEvent → SelectLoop → Option SelectLoop
  | .ready readSet, s =>
    if s.running ∧ s.scan = none ∧ ∀ fd ∈ readSet, fd ∈ s.masterSet ∧ fd ≤ s.maxFd then
      some { s with scan := some (0, readSet), visited := [] }
    else none
  | .turn a, s =>
    match s.scan with
    | none => none
    | some (fd, readSet) =>
      if fd ≤ s.maxFd then
        let s := { s with scan := some (fd + 1, readSet) }
        if fd ∈ readSet then { s with visited := s.visited ++ [fd] }.handleFd fd a else some s
      else some { s with scan := none }
  | .timeout now, s =>
    if s.running ∧ s.scan = none then some (s.sweep (Connection.idle now)) else none
  | .shutdown, s => if s.running ∧ s.scan = none then some s.finish else none

end MiniWeb.EventLoop
