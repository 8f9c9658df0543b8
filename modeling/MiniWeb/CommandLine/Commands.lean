import MiniWeb.Lib.Words
import MiniWeb.ProcessServer.RequestFile

/-!
# The command line (`main.c`)

`dispatch` carries out one command: in the interactive mode on the store that was loaded at the
start, otherwise on a store that it loads and frees again. `run_interactive` reads commands from
standard input until `quit`, `exit` or the end of the input.

What is printed is modelled byte by byte; what a listing and a comparison print is left to
`userStorePrintIndex` and to the console.
-/

namespace MiniWeb.CommandLine

open CStr Words UserStore RequestHandler

/-! ## Arguments -/

def maxArgc : Nat := 16

/-- The white space of `tokenize`. -/
def isBlank (c : UInt8) : Bool := c = 32 ∨ c = 9 ∨ c = 10 ∨ c = 13

/-- The loop of `tokenize`, for so many arguments at most. -/
def tokenizeFrom : Nat → CStr → List CStr
  | 0, _ => []
  | n + 1, p =>
    if p.dropWhile isBlank = [] then []
    else
      let token := (p.dropWhile isBlank).takeWhile fun c => !isBlank c
      let rest := (p.dropWhile isBlank).dropWhile fun c => !isBlank c
      -- the byte behind the token becomes a NUL
      token :: tokenizeFrom n (rest.drop 1)

def tokenize (line : CStr) : List CStr := tokenizeFrom maxArgc line

/-! ## Help -/

def printHelp (prog : CStr) : CStr :=
  ([" conf/server.conf\n", " load <csv_path>\n", " findusr <name>\n",
    " addusr <name,password,birthdate,phone,mobile,email>\n", " delusr <name>\n",
    " users index\n", " users find-index <name>\n", " users compare_search_method <name>\n",
    " users compare_search_method --verbose <name>\n", " process\n", " fork [ip] [port]\n",
    " thread [ip] [port]\n", " pool [ip] [port]\n", " select <ip> <port>\n",
    " epoll <ip> <port>\n", " master conf/server.conf\n", " help\n"].zipIdx.flatMap fun (use, i) =>
      (if i = 0 then ascii "usage: " else ascii "       ") ++ prog ++ ascii use)

def printInteractiveHelp : CStr :=
  ["Interactive commands:\n", "  findusr <name>\n",
    "  addusr <name,password,birthdate,phone,mobile,email>\n", "  delusr <name>\n",
    "  users index\n", "  users find-index <name>\n", "  users compare_search_method <name>\n",
    "  users compare_search_method --verbose <name>\n", "  help\n", "  quit / exit\n"].flatMap ascii

/-! ## One command -/

/-- The store that a command works on: the one of the interactive mode, or one that is loaded from
`data/users.csv`, if the region can be mapped. -/
inductive Mode where
  | interactive (s : Store)
  | standalone (mapped : Bool) (file : Option (List UInt8))

/-- What a command prints and returns, and the store it leaves to the next one. -/
structure Reply where
  text : CStr
  ret : Int
  store : Option Store

/-- A command that does not get to the store. -/
def Mode.say (mode : Mode) (text : CStr) (ret : Int) : Option Reply :=
  match mode with
  | .interactive s => some ⟨text, ret, some s⟩
  | .standalone _ _ => some ⟨text, ret, none⟩

/-- The store is loaded unless the mode is interactive, used, and freed again. -/
def Mode.withStore (mode : Mode) (use : Store → Option (CStr × Int × Store)) : Option Reply :=
  match mode with
  | .interactive s => (use s).map fun (text, ret, s) => ⟨text, ret, some s⟩
  | .standalone false _ => some ⟨ascii "error: cannot open data/users.csv\n", 1, none⟩
  | .standalone true file =>
    (userStoreShmLoadCsv file userStoreShmInit).bind fun s =>
      (use s).map fun (text, ret, _) => ⟨text, ret, none⟩

/-- The report of a search. -/
def found (s : Store) (user : Off) : CStr × Int × Store :=
  (if user ≠ 0 then ascii "FOUND\n" else ascii "NOT_FOUND\n", 0, s)

/-- The report of an update. -/
def updated (done refused : CStr) (r : Int × Store) : CStr × Int × Store :=
  (if r.1 = 0 then done else refused, if r.1 = 0 then 0 else 1, r.2)

def useHelp : CStr := ascii "use './mini_web_server help' for usage\n"

/-- What is said of a command that lacks an argument. -/
def complaint (command needs : String) : CStr :=
  ascii "error: '" ++ ascii command ++ ascii "' requires " ++ ascii needs ++ ascii ", " ++ useHelp

/-- The name and the flag of `users compare_search_method`. -/
def compareArgs : List CStr → Option (CStr × Bool)
  | [name] => some (name, false)
  | [a, b] =>
    if a = ascii "--verbose" then some (b, true)
    else if b = ascii "--verbose" then some (a, true)
    else none
  | _ => none

/-- The commands behind `users`. -/
def dispatchUsers (console : Console) (args : List CStr) (mode : Mode) : Option Reply :=
  match args with
  | [] => mode.say (complaint "users" "a subcommand") 1
  | sub :: args =>
    if sub = ascii "index" then
      mode.withStore fun s => (userStorePrintIndex s).map fun text => (text, 0, s)
    else if sub = ascii "find-index" then
      match args with
      | [] => mode.say (complaint "users find-index" "a name argument") 1
      | name :: _ => mode.withStore fun s => (userStoreFindIndex s name).map (found s)
    else if sub = ascii "compare_search_method" then
      match compareArgs args with
      | none => mode.say (complaint "users compare_search_method" "a name argument") 1
      | some (name, verbose) =>
        mode.withStore fun s => some (console.comparison name verbose s, 0, s)
    else
      mode.say (ascii "error: unknown users subcommand '" ++ sub ++ ascii "', " ++ useHelp) 1

def dispatch (console : Console) (argv : List CStr) (mode : Mode) : Option Reply :=
  match argv with
  | [] => mode.say [] 0
  | command :: args =>
    if command = ascii "quit" ∨ command = ascii "exit" then
      match mode with
      | .interactive s => some ⟨[], -1, some s⟩
      | .standalone _ _ => some ⟨[], 0, none⟩
    else if command = ascii "help" then
      match mode with
      | .interactive s => some ⟨printInteractiveHelp, 0, some s⟩
      | .standalone _ _ => some ⟨printHelp (ascii "./mini_web_server"), 0, none⟩
    else if command = ascii "findusr" then
      match args with
      | [] => mode.say (complaint "findusr" "an argument") 1
      | name :: _ => mode.withStore fun s => (userStoreFind s.shm name).map (found s)
    else if command = ascii "addusr" then
      match args with
      | [] => mode.say (complaint "addusr" "an argument") 1
      | csvLine :: _ =>
        mode.withStore fun s =>
          (userStoreAdd csvLine s).map (updated (ascii "ADDED\n") (ascii "EXISTS\n"))
    else if command = ascii "delusr" then
      match args with
      | [] => mode.say (complaint "delusr" "an argument") 1
      | name :: _ =>
        mode.withStore fun s =>
          (userStoreDelete name s).map (updated (ascii "DELETED\n") (ascii "NO_SUCH_USER\n"))
    else if command = ascii "users" then dispatchUsers console args mode
    else mode.say (ascii "error: unknown command '" ++ command ++ ascii "'\n") 1

/-! ## The interactive mode -/

/-- What a session has printed, and its store. -/
structure Session where
  output : CStr
  store : Store

/-- The loop of `run_interactive` over the lines that `fgets` reads. A session that ends without
`quit` prints a newline. -/
def sessionLoop (console : Console) : List (List UInt8) → Session → Option Session
  | [], t => some { t with output := t.output ++ ascii "> \n" }
  | buf :: bufs, t =>
    let t := { t with output := t.output ++ ascii "> " }
    if tokenize (ofBuffer buf) = [] then sessionLoop console bufs t
    else
      (dispatch console (tokenize (ofBuffer buf)) (.interactive t.store)).bind fun reply =>
        let t := ⟨t.output ++ reply.text, reply.store.getD t.store⟩
        if reply.ret < 0 then some t else sessionLoop console bufs t

/-- `run_interactive`: what it prints and returns, and the store it frees. -/
def runInteractive (console : Console) (mapped : Bool) (path : CStr)
    (file : Option (List UInt8)) (input : List UInt8) : Option (CStr × Int × Option Store) :=
  let loading := ascii "Loading " ++ path ++ ascii " ...\n"
  if mapped = false then
    some (loading ++ ascii "error: cannot open '" ++ path ++ ascii "'\n", 1, none)
  else
    (userStoreShmLoadCsv file userStoreShmInit).bind fun s =>
      (sessionLoop console (fgets 1024 input)
        ⟨loading ++ ascii "Ready.  Type 'help' for commands, 'quit' to exit.\n\n", s⟩).map fun t =>
          (t.output ++ ascii "Bye.\n", 0, some t.store)

end MiniWeb.CommandLine
