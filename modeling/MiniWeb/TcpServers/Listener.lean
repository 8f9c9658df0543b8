import MiniWeb.Lib.Descriptors

/-!
# The listening socket

`tcp_fork_server_run`, `tcp_thread_server_run` and `tcp_pool_server_run` begin with the same calls:
`socket`, `setsockopt`, `inet_pton`, `bind` and `listen`. After a failure the socket is closed and
the server returns.
-/

namespace MiniWeb.TcpServers

open Descriptors

/-- What a descriptor refers to: the listening socket, or the connection accepted after `k`
others. -/
inductive File where
  | listening
  | client (k : Nat)
deriving DecidableEq, Repr

/-- The answers to the calls that set up the listening socket, up to the first that fails. -/
structure SetupCalls where
  socket : Option Nat
  setsockopt : Bool
  inetPton : Bool
  bind : Bool
  listen : Bool

/-- The set-up: `listen_fd` when all calls succeed. It is closed after a later failure. -/
def SetupCalls.listenFd (calls : SetupCalls) : Table File × Option Nat :=
  match calls.socket with
  | none => ([], none)
  | some fd =>
    let files : Table File := [(fd, .listening)]
    if !calls.setsockopt then (files.close fd, none)
    else if !calls.inetPton then (files.close fd, none)
    else if !calls.bind then (files.close fd, none)
    else if !calls.listen then (files.close fd, none)
    else (files, some fd)

/-- The set-up leaves the listening socket or nothing. -/
theorem listenFd_eq (calls : SetupCalls) :
    calls.listenFd = ([], none) ∨ ∃ fd, calls.listenFd = ([(fd, .listening)], some fd) := by
  unfold SetupCalls.listenFd
  cases calls.socket with
  | none => exact Or.inl rfl
  | some fd =>
    simp only [Table.close_cons_self, Table.close_nil]
    split
    · exact Or.inl rfl
    split
    · exact Or.inl rfl
    split
    · exact Or.inl rfl
    split
    · exact Or.inl rfl
    · exact Or.inr ⟨fd, rfl⟩

end MiniWeb.TcpServers
