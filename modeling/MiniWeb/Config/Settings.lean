import Mathlib.Data.List.DropRight
import MiniWeb.Lib.CText
import MiniWeb.Routing.Table
import MiniWeb.Config.Servers

/-!
# What a configuration file sets

The configuration a loader fills in, and the parts of `config.c` that two or three of the loaders
share: the handling of one directive, the `listen` value, the path of a route and the call of
`route_table_add`. Every field is zero before the first line is read.
-/

namespace MiniWeb.Config

open CStr Routing

inductive LogLevel
  | debug
  | info
  | warning
  | error
  | none
deriving DecidableEq, Repr

/-- The settings of `server_config_t` that are no arrays. -/
structure Settings where
  serverName : CStr
  host : CStr
  port : Int
  wwwRoot : CStr
  userFile : CStr
  logPath : CStr
  systemLog : CStr
  accessLog : CStr
  authUserFile : CStr
  logLevel : LogLevel
  errorLog : CStr
  errorLogLevel : LogLevel
  logMaxLines : Int
  logMaxRollFiles : Int
  maxConnections : Int
  maxRequestBytes : Int
  workerProcesses : Int
  workerShutdownTimeoutMs : Int
  root : CStr
  dataPath : CStr
deriving DecidableEq, Repr

def Settings.zero : Settings where
  serverName := []
  host := []
  port := 0
  wwwRoot := []
  userFile := []
  logPath := []
  systemLog := []
  accessLog := []
  authUserFile := []
  logLevel := .debug
  errorLog := []
  errorLogLevel := .debug
  logMaxLines := 0
  logMaxRollFiles := 0
  maxConnections := 0
  maxRequestBytes := 0
  workerProcesses := 0
  workerShutdownTimeoutMs := 0
  root := []
  dataPath := []

/-- `server_config_t`. -/
structure LoadedConfig where
  settings : Settings
  servers : List ServerBlock
  routeTable : RouteTable

def LoadedConfig.zero : LoadedConfig := ⟨.zero, [], routeTableInit⟩

/-- What the front ends read of it. -/
def LoadedConfig.serverConfig (config : LoadedConfig) : ServerConfig :=
  ⟨config.servers, config.settings.maxRequestBytes⟩

/-- How a loader can end without a configuration. -/
inductive Failure
  /-- It returns `-1`. -/
  | refused
  /-- It reads through a null pointer. -/
  | nullPointer
  /-- It steps over the NUL at the end of the text. -/
  | pastEnd
  /-- A loop of `route_table_add` does not end. -/
  | endless
deriving DecidableEq, Repr

abbrev Loaded (α : Type) := Except Failure α

/-! ## Text -/

/-- `remove_newline`. -/
def removeNewline (text : CStr) : CStr := text.takeWhile fun c => c ≠ 13 ∧ c ≠ 10

def trim (text : CStr) : CStr := (text.dropWhile isSpace).rdropWhile isSpace

def stripSemicolon (text : CStr) : CStr :=
  if text.getLast? = some 59 then text.dropLast else text

/-- The key and the value before and behind the first separator. -/
def keyValue (separator : UInt8) (text : CStr) : Option (CStr × CStr) :=
  if separator ∈ text then
    some (trim (text.takeWhile (· ≠ separator)), trim ((text.dropWhile (· ≠ separator)).drop 1))
  else none

/-- A directive of an Nginx block, `key=value` or else `key value`. -/
def directive (text : CStr) : Option (CStr × CStr) :=
  ((keyValue 61 text).or (keyValue 32 text)).filter fun (key, _) => key ≠ []

/-! ## Settings -/

def LogLevel.ofText (value : CStr) : Option LogLevel :=
  if value = ascii "debug" then some .debug
  else if value = ascii "info" then some .info
  else if value = ascii "warning" then some .warning
  else if value = ascii "error" then some .error
  else none

/-- The value of a `log_level`, which can also be `none`. -/
def logLevelOf (value : CStr) : Option LogLevel :=
  if value = ascii "none" then some .none else LogLevel.ofText value

/-- `sscanf` with `%s` of a field of `size` bytes: the word and what follows it. -/
def scanWord (size : Nat) (s : CStr) : CStr × CStr :=
  let s := s.dropWhile isSpace
  let word := cut size (s.takeWhile fun c => !isSpace c)
  (word, s.drop word.length)

/-- `error_log <path> [level]`. -/
def parseErrorLog (value : CStr) (settings : Settings) : Settings :=
  let (pathBuf, rest) := scanWord 128 value
  let (levelBuf, _) := scanWord 32 rest
  if pathBuf = [] then settings
  else
    { settings with
      errorLog := cut 128 pathBuf
      errorLogLevel := (LogLevel.ofText levelBuf).getD .warning }

def parseFlatLine (key value : CStr) (settings : Settings) : Settings :=
  if key = ascii "server_name" then { settings with serverName := cut 64 value }
  else if key = ascii "host" then { settings with host := cut 64 value }
  else if key = ascii "port" then { settings with port := atoi value }
  else if key = ascii "www_root" then { settings with wwwRoot := cut 128 value }
  else if key = ascii "root" then { settings with root := cut 128 value }
  else if key = ascii "user_file" then { settings with userFile := cut 128 value }
  else if key = ascii "data" then { settings with dataPath := cut 128 value }
  else if key = ascii "log" then { settings with logPath := cut 128 value }
  else if key = ascii "system_log" then { settings with systemLog := cut 128 value }
  else if key = ascii "access_log" then { settings with accessLog := cut 128 value }
  else if key = ascii "log_level" then
    { settings with logLevel := (logLevelOf value).getD .info }
  else if key = ascii "error_log" then parseErrorLog value settings
  else if key = ascii "log_max_lines" then { settings with logMaxLines := atoi value }
  else if key = ascii "log_max_roll_files" then { settings with logMaxRollFiles := atoi value }
  else if key = ascii "auth_user_file" then { settings with authUserFile := cut 128 value }
  else if key = ascii "max_connections" then { settings with maxConnections := atoi value }
  else if key = ascii "max_request_bytes" then { settings with maxRequestBytes := atoi value }
  else if key = ascii "worker_processes" then { settings with workerProcesses := atoi value }
  else if key = ascii "worker_shutdown_timeout_ms" then
    { settings with workerShutdownTimeoutMs := atoi value }
  else settings

/-! ## Server blocks -/

def maxServerBlocks : Nat := 16
def maxServerNames : Nat := 8

/-- A block as every loader starts it. -/
def ServerBlock.fresh : ServerBlock where
  host := ascii "0.0.0.0"
  port := 80
  root := []
  accessLog := []
  serverNames := []
  isDefault := false

/-- The first `default_server` overwritten with blanks. -/
def blankDefaultServer (buf : CStr) : CStr :=
  match strstr buf (ascii "default_server") with
  | none => buf
  | some ds =>
    let i := buf.length - ds.length
    buf.take i ++ List.replicate 14 32 ++ buf.drop (i + 14)

/-- The host and the port of a `listen` value; `host` is the host before. -/
def parseHostPort (rest host : CStr) : CStr × Int :=
  if 58 ∈ rest then
    let p := trim ((rest.dropWhile (· ≠ 58)).drop 1)
    (cut 64 (trim (rest.takeWhile (· ≠ 58))), atoi (p.takeWhile (· ≠ 32)))
  else if atoi rest ≤ 0 then (cut 64 rest, 80)
  else (host, atoi rest)

def parseListen (value : CStr) (block : ServerBlock) : ServerBlock :=
  let buf := cut 128 value
  let (host, port) := parseHostPort (trim (blankDefaultServer buf)) block.host
  { block with
    host := if host = [] then ascii "0.0.0.0" else host
    port := if port ≤ 0 then 80 else port
    isDefault := (strstr buf (ascii "default_server")).isSome }

/-- The tokens of `strtok_r(buf, " \t", &saveptr)`. -/
def tokens (buf : CStr) : List CStr :=
  (buf.splitOnP fun c => c = 32 ∨ c = 9).filter (· ≠ [])

def parseServerName (value : CStr) (block : ServerBlock) : ServerBlock :=
  { block with
    serverNames := ((tokens (cut 512 value)).take maxServerNames).map (cut 128) }

def parseBlockDirective (key value : CStr) (block : ServerBlock) : ServerBlock :=
  if key = ascii "listen" then parseListen value block
  else if key = ascii "server_name" then parseServerName value block
  else if key = ascii "root" then { block with root := cut 128 value }
  else if key = ascii "access_log" then { block with accessLog := cut 128 value }
  else block

/-! ## Routes -/

/-- `g_handler_registry`. -/
def handlerRegistry : List (CStr × HandlerType) :=
  [(ascii "hello", .hello), (ascii "help", .help), (ascii "sleep", .sleep),
    (ascii "user_list", .userList), (ascii "user_resource", .userByName),
    (ascii "user_by_name", .userByName), (ascii "user_find_index", .userFindIndex),
    (ascii "user_compare", .userCompare), (ascii "user_compare_verbose", .userCompareVerbose),
    (ascii "user_simple_find", .userSimpleFind), (ascii "user_add", .userAdd),
    (ascii "user_delete", .userDelete), (ascii "delete_form", .deleteForm),
    (ascii "search", .search), (ascii "index", .index), (ascii "blog", .blog),
    (ascii "static", .static), (ascii "login", .login), (ascii "logout", .logout)]

def routeTableLookupHandler (name : CStr) : HandlerType :=
  (handlerRegistry.lookup name).getD .none

/-- The path and the kind of match: a path that ends with `/*` is a prefix without the `*`. -/
def pathMatch (path : CStr) : CStr × MatchType :=
  if (ascii "/*").isSuffixOf path then (path.dropLast, .matchPrefix) else (path, .matchExact)

/-- `route_table_add`, where a result other than 0 makes the loader return `-1`. -/
def addRoute (r : Route) (t : RouteTable) : Loaded RouteTable :=
  match routeTableAdd r t with
  | none => .error .endless
  | some (true, t) => .ok t
  | some (false, _) => .error .refused

end MiniWeb.Config
