import MiniWeb.Lib.CText
import MiniWeb.Routing.Longest
import MiniWeb.UserStore.Frame
import MiniWeb.UserStore.Listing
import MiniWeb.RequestHandler.Dispatch

/-!
# The two request processors

`request_handler_process` answers for the worker processes: a chain of `strcmp` and `strncmp` picks
the branch. `request_handler_process_http` answers over HTTP: it finds the route and calls the
handler of its entry. Both are modelled up to the outcome they report.

A listing or a comparison that is printed goes through `capture_stdout`: the text is printed into a
pipe that nobody reads until all of it is printed, so a text that the pipe does not hold is never
reported. The other texts are short, and the output buffers are taken to hold them.
-/

namespace MiniWeb.RequestHandler

open Loop CStr RedBlack SessionStore UserStore Routing

/-- What the two processors read of `request_t`; `path` is a `char[256]`. -/
structure BodyRequest extends Request where
  body : CStr
  pathFits : path.length < 256

/-- What is reported to the client. -/
inductive Outcome where
  | hello
  /-- The users of the index are listed. -/
  | listed
  | found (user : Off)
  | notFound (name : CStr)
  /-- `user_store_compare_search_method` ran. -/
  | compared (name : CStr) (verbose : Bool)
  | added
  | exists
  | deleted
  | noSuchUser
  | error (text : CStr)
  /-- `-1` of `request_handler_process`: nothing is captured, or it does not fit the output buffer. -/
  | failed
  /-- The 500 of a handler that captures nothing. -/
  | internalServerError
  /-- 404: no branch and no route is for the request. -/
  | notServed
  /-- The answer of `request_handler_process_http` when no handler is called. -/
  | refused (decision : Decision)
  /-- The answer of another handler. -/
  | served (handler : HandlerType) (captured : CStr)
  /-- A handler writes to a string literal. -/
  | undefined
deriving DecidableEq, Repr

/-! ## Captured output -/

/-- The system below `capture_stdout`: how many bytes a pipe holds, whether `pipe`, `dup` and `dup2`
succeed and whether `read` does; and what `user_store_compare_search_method` prints, with the times
it measures. -/
structure Console where
  pipeSize : Nat
  pipes : Bool
  reads : Bool
  comparison (name : CStr) (verbose : Bool) (s : Store) : CStr

/-- A pipe of 64 KiB, and system calls that succeed. -/
def linuxConsole : Console := ⟨65536, true, true, fun _ _ _ => []⟩

/-- `capture_stdout`: what is left in `buf` of a text that `fn` prints, or `-1`. It does not return
if the text fills the pipe: the write waits for a reader, which is the caller itself. -/
def captureStdout (console : Console) (printed : CStr) (size : Nat) : Option (Option CStr) :=
  if ¬console.pipes = true then some none
  else if console.pipeSize < printed.length then none
  else if ¬console.reads = true then some none
  else some (some (cut size printed))

/-- The pipe is made, and does not hold the text. -/
def Console.Blocks (console : Console) (printed : CStr) : Prop :=
  console.pipes = true ∧ console.pipeSize < printed.length

theorem captureStdout_eq_none_iff {console : Console} {printed : CStr} {size : Nat} :
    captureStdout console printed size = none ↔ console.Blocks printed := by
  rw [captureStdout, Console.Blocks]
  split
  case isTrue hpipes => exact iff_of_false (fun h => by cases h) fun h => hpipes h.1
  case isFalse hpipes =>
    rw [and_iff_right (not_not.mp hpipes)]
    split
    case isTrue hfull => exact iff_of_true rfl hfull
    case isFalse hheld =>
      refine iff_of_false (fun h => ?_) hheld
      split at h <;> cases h

/-- The header of an output buffer. -/
def connectionInfo : CStr :=
  [ascii "=== Connection Info ===\n", ascii "Client IP: 127.0.0.1\n", ascii "Client Port: 54321\n",
    ascii "Server: MiniWeb\n", ascii "=======================\n"].flatten

/-- The size of `cap` in `request_handler_process`. -/
def capSize : Nat := 8192

/-- A branch that captures its text in `cap` and copies it behind the header. -/
def captureReply (console : Console) (size : Nat) (printed : CStr) (o : Outcome) (s : Store) :
    Option (Outcome × Store) :=
  (captureStdout console printed capSize).map fun cap =>
    match cap with
    | some cap => (if connectionInfo.length + cap.length < size then o else .failed, s)
    | none => (.failed, s)

/-! ## Names in paths -/

/-- `strncmp`. -/
def strncmp (s t : CStr) (n : Nat) : Ordering := strcmp (s.take n) (t.take n)

def isXDigit (c : UInt8) : Bool := isDigit c || (65 ≤ c && c ≤ 70) || (97 ≤ c && c ≤ 102)

/-- `strtol` with base 16 on one digit. -/
def xdigitValue (c : UInt8) : UInt8 :=
  if isDigit c then c - 48 else if 97 ≤ c then c - 87 else c - 55

/-- The bytes that the loop of `url_decode_path` writes. -/
def urlDecodeBytes : CStr → List UInt8
  | c :: high :: low :: rest =>
    if c = 37 ∧ isXDigit high = true ∧ isXDigit low = true then
      (16 * xdigitValue high + xdigitValue low) :: urlDecodeBytes rest
    else c :: urlDecodeBytes (high :: low :: rest)
  | s => s

/-- `url_decode_path`: the string ends at a decoded NUL. -/
def urlDecodePath (s : CStr) : CStr := ofBuffer (urlDecodeBytes s)

/-! ## What is done for a name -/

/-- The answer to a search of the store. -/
def reportUser (name : CStr) (s : Store) (found : Option Off) : Option (Outcome × Store) :=
  found.map fun user => (if user ≠ 0 then .found user else .notFound name, s)

def addUser (body : CStr) (s : Store) : Option (Outcome × Store) :=
  if body = [] then some (.error (ascii "ERROR: POST /users requires a body with CSV data\n"), s)
  else (userStoreAdd body s).map fun (ret, s) => (if ret = 0 then .added else .exists, s)

def deleteUser (name : CStr) (s : Store) : Option (Outcome × Store) :=
  if name = [] then some (.error (ascii "ERROR: DELETE requires a user name\n"), s)
  else (userStoreDelete name s).map fun (ret, s) => (if ret = 0 then .deleted else .noSuchUser, s)

/-! ## `request_handler_process` -/

/-- `request_handler_process` with an output buffer of `size` bytes. -/
def requestHandlerProcess (console : Console) (size : Nat) (req : BodyRequest) (s : Store) :
    Option (Outcome × Store) :=
  if strcmp req.method (ascii "GET") = .eq ∧ strcmp req.path (ascii "/hello") = .eq then
    some (.hello, s)
  else if strcmp req.method (ascii "GET") = .eq ∧ strcmp req.path (ascii "/users") = .eq then
    (userStorePrintIndex s).bind fun printed => captureReply console size printed .listed s
  else if strcmp req.method (ascii "GET") = .eq ∧
      strncmp req.path (ascii "/users/find-index/") 18 = .eq then
    let name := urlDecodePath (req.path.drop 18)
    reportUser name s (userStoreFindIndex s name)
  else if strcmp req.method (ascii "GET") = .eq ∧
      strncmp req.path (ascii "/users/compare-verbose/") 23 = .eq then
    let name := urlDecodePath (req.path.drop 23)
    captureReply console size (console.comparison name true s) (.compared name true) s
  else if strcmp req.method (ascii "GET") = .eq ∧
      strncmp req.path (ascii "/users/compare/") 15 = .eq then
    let name := urlDecodePath (req.path.drop 15)
    captureReply console size (console.comparison name false s) (.compared name false) s
  else if strcmp req.method (ascii "GET") = .eq ∧ strncmp req.path (ascii "/user/") 6 = .eq then
    let name := urlDecodePath (req.path.drop 6)
    if name = [] then some (.notFound [], s)
    else reportUser name s (userStoreFind s.shm name)
  else if strcmp req.method (ascii "POST") = .eq ∧ strcmp req.path (ascii "/users") = .eq then
    addUser req.body s
  else if strcmp req.method (ascii "DELETE") = .eq ∧ strncmp req.path (ascii "/users/") 7 = .eq then
    deleteUser (urlDecodePath (req.path.drop 7)) s
  else some (.notServed, s)

/-! ## The handlers -/

/-- The name a handler decodes in place. Without captured text it is the literal `""`, and
`url_decode_path` writes the NUL at its end. -/
def withName (captured : CStr) (s : Store) (handle : CStr → Option (Outcome × Store)) :
    Option (Outcome × Store) :=
  if captured = [] then some (.undefined, s) else handle (urlDecodePath captured)

def handleUserFindIndex (captured : CStr) (s : Store) : Option (Outcome × Store) :=
  withName captured s fun name => reportUser name s (userStoreFindIndex s name)

/-- `BLOG_BODY_MAX`, the size of `g_body_buf`. -/
def bodyMax : Nat := 5 * 1024 * 1024

/-- What a handler reports of a comparison that it captures in its body buffer. -/
def compareReply (console : Console) (verbose : Bool) (name : CStr) (s : Store) :
    Option (Outcome × Store) :=
  (captureStdout console (console.comparison name verbose s) bodyMax).map fun body =>
    (if body.isSome = true then .compared name verbose else .internalServerError, s)

/-- The handlers that compare the two searches have one text. -/
def compareUser (console : Console) (verbose : Bool) (captured : CStr) (s : Store) :
    Option (Outcome × Store) :=
  withName captured s fun name => compareReply console verbose name s

def handleUserCompareVerbose (console : Console) (captured : CStr) (s : Store) :
    Option (Outcome × Store) := compareUser console true captured s

def handleUserCompare (console : Console) (captured : CStr) (s : Store) :
    Option (Outcome × Store) := compareUser console false captured s

/-- The handlers that find a user on the list have one text. -/
def findUser (captured : CStr) (s : Store) : Option (Outcome × Store) :=
  withName captured s fun name =>
    if name = [] then some (.error (ascii "ERROR: empty user name\n"), s)
    else reportUser name s (userStoreFind s.shm name)

def handleUserByName (captured : CStr) (s : Store) : Option (Outcome × Store) :=
  findUser captured s

def handleUserSimpleFind (captured : CStr) (s : Store) : Option (Outcome × Store) :=
  findUser captured s

def handleUserAdd (req : BodyRequest) (s : Store) : Option (Outcome × Store) := addUser req.body s

def handleUserDelete (captured : CStr) (s : Store) : Option (Outcome × Store) :=
  withName captured s fun name => deleteUser name s

/-- The call of `fn`. -/
def callHandlerFn (console : Console) (handler : HandlerType) (req : BodyRequest) (captured : CStr)
    (s : Store) : Option (Outcome × Store) :=
  match handler with
  | .hello => some (.hello, s)
  | .userList => some (.listed, s)
  | .userByName => handleUserByName captured s
  | .userFindIndex => handleUserFindIndex captured s
  | .userCompare => handleUserCompare console captured s
  | .userCompareVerbose => handleUserCompareVerbose console captured s
  | .userSimpleFind => handleUserSimpleFind captured s
  | .userAdd => handleUserAdd req s
  | .userDelete => handleUserDelete captured s
  | handler => some (.served handler captured, s)

/-! ## Every loop ends -/

/-- The outcomes that both processors answer with a text of their own. -/
def Outcome.Reported : Outcome → Prop
  | .listed => False
  | .notServed => False
  | .refused _ => False
  | .served _ _ => False
  | .failed => False
  | .internalServerError => False
  | .undefined => False
  | _ => True

section

variable {s : Store} {X : ColorTree Off} {L : List Off} {captured : CStr}

theorem userStoreFind_returns (h : StoreOK s X L) (name : CStr) :
    ∃ user, userStoreFind s.shm name = some user := by
  rcases userStoreFind_spec h name with ⟨-, hfind⟩ | ⟨-, a, -, -, -, hfind⟩
  · exact ⟨0, hfind⟩
  · exact ⟨a, hfind⟩

theorem userStoreFindIndex_returns (h : StoreOK s X L) (name : CStr) :
    ∃ user, userStoreFindIndex s name = some user := by
  rcases h.findIndex name with ⟨u, -, -, hfind⟩ | ⟨-, hfind⟩
  · exact ⟨u, hfind⟩
  · exact ⟨0, hfind⟩

theorem addUser_returns (h : StoreOK s X L) (body : CStr) :
    ∃ o s', addUser body s = some (o, s') ∧ o.Reported := by
  unfold addUser
  split
  · exact ⟨_, _, rfl, trivial⟩
  · rcases userStoreAdd_spec h body with ⟨res, hadd, -⟩ | ⟨elem, s', -, -, -, -, hadd, -, -⟩
    all_goals
      rw [hadd]
      refine ⟨_, _, rfl, ?_⟩
      split <;> trivial

theorem deleteUser_returns (h : StoreOK s X L) (name : CStr) :
    ∃ o s', deleteUser name s = some (o, s') ∧ o.Reported := by
  unfold deleteUser
  split
  · exact ⟨_, _, rfl, trivial⟩
  · rcases userStoreDelete_spec h name with ⟨-, hdelete⟩ | ⟨-, -, -, s', -, -, -, hdelete, -, -⟩
    all_goals
      rw [hdelete]
      refine ⟨_, _, rfl, ?_⟩
      split <;> trivial

theorem reportUser_returns {name : CStr} {found : Option Off} (h : ∃ user, found = some user) :
    ∃ o s', reportUser name s found = some (o, s') ∧ o.Reported := by
  obtain ⟨user, rfl⟩ := h
  refine ⟨_, _, rfl, ?_⟩
  split <;> trivial

/-- A name is decoded where something was captured. -/
theorem withName_returns {handle : CStr → Option (Outcome × Store)}
    (hcaptured : captured ≠ []) (h : ∀ name, ∃ o s', handle name = some (o, s') ∧ o.Reported) :
    ∃ o s', withName captured s handle = some (o, s') ∧ o.Reported := by
  rw [withName, if_neg hcaptured]
  exact h _

theorem findUser_returns (h : StoreOK s X L) (hcaptured : captured ≠ []) :
    ∃ o s', findUser captured s = some (o, s') ∧ o.Reported := by
  refine withName_returns hcaptured fun name => ?_
  split
  · exact ⟨_, _, rfl, trivial⟩
  · exact reportUser_returns (userStoreFind_returns h name)

end

/-! ## `request_handler_process_http` -/

/-- The exact routes of `route_table_populate_defaults`. -/
def defaultExact : List Route :=
  [publicRoute "GET" "/hello" .hello,
    publicRoute "GET" "/help" .help,
    publicRoute "GET" "/users" .userList,
    publicRoute "POST" "/users" .userAdd,
    publicRoute "GET" "/search" .search,
    publicRoute "POST" "/search" .search,
    publicRoute "GET" "/logout" .logout,
    publicRoute "POST" "/logout" .logout,
    publicRoute "POST" "/delete" .deleteForm,
    publicRoute "GET" "/blog" .blog,
    publicRoute "HEAD" "/blog" .blog,
    publicRoute "GET" "/" .index,
    publicRoute "HEAD" "/" .index]

/-- The prefix routes of `route_table_populate_defaults`. -/
def defaultPrefixes : List Route :=
  [publicPrefix "GET" "/users/find-index/" .userFindIndex,
    publicPrefix "GET" "/users/compare-verbose/" .userCompareVerbose,
    publicPrefix "GET" "/users/compare/" .userCompare,
    publicPrefix "GET" "/users/" .userByName,
    publicPrefix "DELETE" "/users/" .userDelete,
    publicPrefix "GET" "/user/" .userSimpleFind,
    publicPrefix "GET" "/sleep/" .sleep,
    publicPrefix "GET" "/blog/" .blog,
    publicPrefix "HEAD" "/blog/" .blog,
    publicPrefix "GET" "/" .static,
    publicPrefix "HEAD" "/" .static]

def routeTablePopulateDefaults (rt : RouteTable) : Option RouteTable :=
  addRoutes (defaultExact ++ defaultPrefixes) rt

/-- What the client is told once it is decided. -/
def answer (console : Console) (req : BodyRequest) (s : Store) :
    Decision → Option (Outcome × Store)
  | .invoke e captured => callHandlerFn console e.handler req captured s
  | .notFound => some (.notServed, s)
  | decision => some (.refused decision, s)

/-- `request_handler_process_http` when the configuration has no routes. -/
def processHttpDefaults (console : Console) (creds : Credentials) (now : Int) (sessions : Table)
    (req : BodyRequest) (s : Store) : Option (Outcome × Store) :=
  (routeTablePopulateDefaults routeTableInit).bind fun rt =>
    (requestHandlerProcessHttp rt creds req.toRequest now sessions).bind fun (decision, _) =>
      answer console req s decision

end MiniWeb.RequestHandler
