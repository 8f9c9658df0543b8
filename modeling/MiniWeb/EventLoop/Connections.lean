import MiniWeb.Lib.Handles
import MiniWeb.Lib.Table
import MiniWeb.FrontEnd.Stream

/-!
# The connection tables of the event loops

`conn_t`, less what is only logged, and what the system answers to the calls a loop makes while it
handles one ready descriptor.
-/

namespace MiniWeb.EventLoop

open Handles Table

/-- `conn_t`; `fd` is `none` where the source has -1. `recvBuf` are the first `recv_len` bytes. -/
structure Connection where
  fd : Option Nat
  recvBuf : List UInt8
  requestCount : Nat
  lastActivity : Int
deriving DecidableEq, Repr

def Connection.free : Connection := ⟨none, [], 0, 0⟩

/-- The connection as the loop's turns see it. -/
def Connection.conn (c : Connection) : FrontEnd.Conn := ⟨c.recvBuf, c.requestCount, c.fd.isSome⟩

/-- What the calls for one ready descriptor answer: `accept` a descriptor or an error, `epoll_ctl`
success or not, `recv` its bytes (none when the client closed the connection or an error came),
`send` success or not, `time` the time. -/
structure Answers where
  accepted : Option Nat
  added : Bool
  bytes : List UInt8
  sent : Bool
  now : Int
deriving DecidableEq, Repr

/-- `KEEP_ALIVE_TIMEOUT_SEC`. -/
def keepAliveTimeoutSec : Int := 5

def Connection.idle (now : Int) (c : Connection) : Bool :=
  keepAliveTimeoutSec ≤ now - c.lastActivity

/-- The descriptors in a table. -/
def fds (connections : Nat → Connection) (i : Nat) : Option Nat := (connections i).fd

theorem fds_update {connections : Nat → Connection} {i : Nat} {c : Connection} :
    fds (Function.update connections i c) = Function.update (fds connections) i c.fd := by
  funext j
  unfold fds
  by_cases h : j = i
  · subst h
    rw [Function.update_self, Function.update_self]
  · rw [Function.update_of_ne h, Function.update_of_ne h]

/-! ## The connection of a turn -/

/-- Both are closed, or both are the same. -/
def Follows (conn conn' : FrontEnd.Conn) : Prop :=
  conn.isOpen = conn'.isOpen ∧ (conn'.isOpen = true → conn = conn')

variable {connections : Nat → Connection} {slot : Nat} {c : Connection} {conn : FrontEnd.Conn}

theorem follows_closed :
    Follows (Function.update connections slot { c with fd := none } slot).conn conn.close := by
  refine ⟨?_, fun h => by cases h⟩
  rw [Function.update_self]
  rfl

theorem follows_update (hc : c.conn = conn) :
    Follows (Function.update connections slot c slot).conn conn := by
  have hsame : (Function.update connections slot c slot).conn = conn := by
    rw [Function.update_self, hc]
  exact ⟨congrArg FrontEnd.Conn.isOpen hsame, fun _ => hsame⟩

end MiniWeb.EventLoop
