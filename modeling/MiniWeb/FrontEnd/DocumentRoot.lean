import MiniWeb.FrontEnd.Body

/-!
# The document root

`g_current_root` belongs to the process. A request replaces it when its `Host` header selects a
server block with a root, and otherwise leaves what an earlier request put there. So the root in
force for a request that replaces nothing depends on the requests before it, unless none of them
can have put another root than the one the process starts with.
-/

namespace MiniWeb.FrontEnd

open CStr Config

/-- The code that serves the connections of a process. -/
inductive Server
  | connection
  | epoll
  | select
deriving DecidableEq, Repr

/-- `static char g_current_root[128] = "www"`. -/
def defaultRoot : CStr := ascii "www"

/-- `request_handler_set_root`. -/
def setRoot (root currentRoot : CStr) : CStr := if root = [] then currentRoot else cut 128 root

/-- The lines behind the scan for `Host`: the block is looked up for a host that is not empty. -/
def setHostRoot (config : Option ServerConfig) (hostBuf currentRoot : CStr) : CStr :=
  if hostBuf = [] then currentRoot
  else
    match config.bind (configFindServer · hostBuf) with
    | some sb => if sb.root = [] then currentRoot else setRoot sb.root currentRoot
    | none => currentRoot

/-- `g_current_root` when a server starts on the configuration: only `epoll_server_set_config`
sets it. -/
def startRoot (config : Option ServerConfig) : Server → CStr
  | .epoll =>
    match config.bind (·.servers.head?) with
    | some sb => if sb.root = [] then defaultRoot else setRoot sb.root defaultRoot
    | none => defaultRoot
  | .connection | .select => defaultRoot

/-- What the server makes of the bytes of one `recv`. -/
def Server.read (config : Option ServerConfig) (recvBuf : List UInt8) : Server → Reading
  | .connection => connectionRead recvBuf
  | .epoll => epollRead config recvBuf
  | .select => selectRead recvBuf

/-- The bytes are handed on as a request. -/
def Handed (config : Option ServerConfig) (server : Server) (recvBuf : List UInt8) : Prop :=
  ∃ req, server.read config recvBuf = .request req

/-- `g_current_root` after the bytes of one `recv`, in force for the request they hold. -/
def rootAfter (config : Option ServerConfig) (server : Server) (currentRoot : CStr)
    (recvBuf : List UInt8) : CStr :=
  match server.read config recvBuf with
  | .request _ =>
    match server with
    | .connection => setHostRoot config (hostBuf (extractBody recvBuf).2) currentRoot
    | .epoll => setHostRoot config (hostBuf recvBuf) currentRoot
    | .select => currentRoot
  | _ => currentRoot

/-- The root in force for a request behind a history of others. -/
def rootInForce (config : Option ServerConfig) (server : Server) (history : List (List UInt8))
    (recvBuf : List UInt8) : CStr :=
  rootAfter config server (history.foldl (rootAfter config server) (startRoot config server))
    recvBuf

/-- The root in force for a request is the same behind every history. -/
def RootIndependent (config : Option ServerConfig) (server : Server) (recvBuf : List UInt8) : Prop :=
  Handed config server recvBuf →
    ∀ history history', rootInForce config server history recvBuf
      = rootInForce config server history' recvBuf

/-- The root of the block the bytes' `Host` header selects, where there is one. -/
def selectedRoot (config : Option ServerConfig) (recvBuf : List UInt8) : Option CStr :=
  if hostBuf recvBuf = [] then none
  else
    match config.bind (configFindServer · (hostBuf recvBuf)) with
    | some sb => if sb.root = [] then none else some (cut 128 sb.root)
    | none => none

/-- A front end that looks at the `Host` header keeps the root in the hands of the request: the
header selects a root, or all the headers that requests can have select the root the process
starts with. -/
def KeepsRoot (config : Option ServerConfig) (server : Server) (recvBuf : List UInt8) : Prop :=
  server = .select ∨ ¬Handed config server recvBuf ∨ (selectedRoot config recvBuf).isSome = true ∨
    ∀ other root, Handed config server other → selectedRoot config other = some root →
      root = startRoot config server

/-! ## One request -/

section

variable {config : Option ServerConfig} {server : Server} {recvBuf : List UInt8}

theorem setHostRoot_eq (currentRoot : CStr) : setHostRoot config (hostBuf recvBuf) currentRoot
    = (selectedRoot config recvBuf).getD currentRoot := by
  unfold setHostRoot selectedRoot
  by_cases hhost : hostBuf recvBuf = []
  · rw [if_pos hhost, if_pos hhost]
    rfl
  · rw [if_neg hhost, if_neg hhost]
    cases config.bind (configFindServer · (hostBuf recvBuf)) with
    | none => rfl
    | some sb =>
      by_cases hroot : sb.root = []
      · simp only [if_pos hroot, Option.getD_none]
      · simp only [if_neg hroot, setRoot, Option.getD_some]

theorem rootAfter_of_not_handed (h : ¬Handed config server recvBuf) (currentRoot : CStr) :
    rootAfter config server currentRoot recvBuf = currentRoot := by
  unfold rootAfter
  cases hread : server.read config recvBuf with
  | request req => exact absurd ⟨req, hread⟩ h
  | tooLarge => rfl
  | malformed => rfl
  | echo line => rfl

theorem rootAfter_of_handed (h : Handed config server recvBuf) (hserver : server ≠ .select)
    (currentRoot : CStr) : rootAfter config server currentRoot recvBuf
      = (selectedRoot config recvBuf).getD currentRoot := by
  obtain ⟨req, hread⟩ := h
  unfold rootAfter
  rw [hread]
  cases server with
  | select => exact absurd rfl hserver
  | epoll => exact setHostRoot_eq currentRoot
  | connection =>
    show setHostRoot config (hostBuf (extractBody recvBuf).2) currentRoot = _
    rw [hostBuf_extractBody]
    exact setHostRoot_eq currentRoot

theorem rootAfter_select (currentRoot : CStr) :
    rootAfter config .select currentRoot recvBuf = currentRoot := by
  unfold rootAfter
  cases Server.select.read config recvBuf <;> rfl

end

/-! ## Histories -/

section

variable (config : Option ServerConfig) (server : Server)

/-- A history of requests that select the start root or none leaves the start root. -/
theorem foldl_rootAfter
    (h : ∀ other root, Handed config server other → selectedRoot config other = some root →
      root = startRoot config server) (history : List (List UInt8)) :
    history.foldl (rootAfter config server) (startRoot config server)
      = startRoot config server := by
  induction history with
  | nil => rfl
  | cons recvBuf history ih =>
    have hstep : rootAfter config server (startRoot config server) recvBuf
        = startRoot config server := by
      by_cases hselect : server = .select
      · subst hselect
        exact rootAfter_select _
      · by_cases hhanded : Handed config server recvBuf
        · rw [rootAfter_of_handed hhanded hselect]
          cases hroot : selectedRoot config recvBuf with
          | none => rfl
          | some root => exact h recvBuf root hhanded hroot
        · exact rootAfter_of_not_handed hhanded _
    rw [List.foldl_cons, hstep, ih]

theorem foldl_rootAfter_select (history : List (List UInt8)) (currentRoot : CStr) :
    history.foldl (rootAfter config .select) currentRoot = currentRoot := by
  induction history with
  | nil => rfl
  | cons recvBuf history ih => rw [List.foldl_cons, rootAfter_select, ih]

/-- For every server, configuration and request: the root in force for the request is the same
behind every history exactly when the request keeps the root in its hands. -/
theorem rootIndependent_iff (recvBuf : List UInt8) :
    RootIndependent config server recvBuf ↔ KeepsRoot config server recvBuf := by
  constructor
  · intro h
    by_cases hselect : server = .select
    · exact Or.inl hselect
    right
    by_cases hhanded : Handed config server recvBuf
    · right
      cases hroot : selectedRoot config recvBuf with
      | some root => exact Or.inl rfl
      | none =>
        right
        intro other root hother hsel
        -- the histories without a request and with this one
        have heq := h hhanded [other] []
        unfold rootInForce at heq
        rw [rootAfter_of_handed hhanded hselect, rootAfter_of_handed hhanded hselect, hroot,
          Option.getD_none, Option.getD_none, List.foldl_cons, List.foldl_nil, List.foldl_nil,
          rootAfter_of_handed hother hselect, hsel] at heq
        exact heq
    · exact Or.inl hhanded
  · intro h hhanded history history'
    unfold rootInForce
    by_cases hselect : server = .select
    · subst hselect
      rw [foldl_rootAfter_select, foldl_rootAfter_select]
    · rw [rootAfter_of_handed hhanded hselect, rootAfter_of_handed hhanded hselect]
      rcases h with h | h | h | h
      · exact absurd h hselect
      · exact absurd hhanded h
      · obtain ⟨root, hroot⟩ := Option.isSome_iff_exists.1 h
        rw [hroot, Option.getD_some, Option.getD_some]
      · rw [foldl_rootAfter config server h, foldl_rootAfter config server h]

end

/-- Two sites on one server. -/
def twoSites : ServerConfig where
  servers :=
    [⟨[], 80, ascii "www/a", [], [ascii "a.org"], true⟩,
      ⟨[], 80, ascii "www/b", [], [ascii "b.org"], false⟩]
  maxRequestBytes := 4096

/-- A request without a `Host` header gets the site of the request before it. -/
theorem twoSites_not_rootIndependent :
    ¬RootIndependent (some twoSites) .epoll (ascii "GET / HTTP/1.0\r\n\r\n") ∧
      ¬RootIndependent (some twoSites) .connection (ascii "GET / HTTP/1.0\r\n\r\n") := by
  constructor
  · intro h
    have heq := h ⟨_, rfl⟩ [] [ascii "GET / HTTP/1.1\r\nHost: b.org\r\n\r\n"]
    exact absurd heq (by decide +kernel)
  · intro h
    have heq := h ⟨_, rfl⟩ [] [ascii "GET / HTTP/1.1\r\nHost: b.org\r\n\r\n"]
    exact absurd heq (by decide +kernel)

end MiniWeb.FrontEnd
