import MiniWeb.Config.Settings

/-!
# The Nginx loader

`load_nginx_config`, `parse_server_block` and `parse_location_directive` take turns in reading
the lines of one file. `Reader` says which of them reads the next line, with its local variables.
-/

namespace MiniWeb.Config

open CStr Routing

/-- The local variables of `parse_location_directive`; `handlerName` is set when `has_handler`
is. -/
structure Location where
  path : CStr
  matchType : MatchType
  handlerName : Option CStr
  methods : List CStr
  authRealm : CStr
  authRole : CStr
deriving DecidableEq, Repr

/-- Which function reads the next line. -/
inductive Reader
  | topLevel
  | serverBlock (block : ServerBlock)
  /-- `caller` is the block whose `parse_server_block` called `parse_location_directive`. -/
  | location (loc : Location) (caller : Option ServerBlock)

/-- Who reads on when a location block is closed. -/
def Reader.resume : Option ServerBlock → Reader
  | some block => .serverBlock block
  | none => .topLevel

/-! ## Location blocks -/

/-- The path in a line `location ... {`, `none` if the line is no such line. -/
def locationPath (locationLine : CStr) : Option CStr :=
  let p := trim ((cut 256 locationLine).takeWhile (· ≠ 123))
  if startsWith p (ascii "location") then
    let p := (p.drop 8).dropWhile fun c => c = 32 ∨ c = 9
    let p := if p.head? = some 61 then (p.drop 1).dropWhile fun c => c = 32 ∨ c = 9 else p
    some (cut 256 (p.takeWhile fun c => c ≠ 32 ∧ c ≠ 9 ∧ c ≠ 123))
  else none

/-- `parse_location_directive` before it reads its first line. -/
def openLocation (locationLine : CStr) : Loaded Location :=
  match locationPath locationLine with
  | none => .error .refused
  | some pathRaw =>
    let (path, matchType) := pathMatch pathRaw
    .ok
      { path := path
        matchType := matchType
        handlerName := none
        methods := []
        authRealm := []
        authRole := [] }

/-- The value of `auth_basic` without the quotes around it. -/
def unquote (value : CStr) : CStr :=
  match value with
  | [] => []
  | c :: v =>
    if c = 34 ∨ c = 39 then
      if v.getLast? = some 34 ∨ v.getLast? = some 39 then v.dropLast else v
    else c :: v

/-- The value of `methods`: at most eight tokens, in upper case. -/
def methodTokens (value : CStr) : List CStr :=
  ((tokens (cut 256 value)).take 8).map fun token => (cut 16 token).map toUpper

def locationDirective (key value : CStr) (loc : Location) : Location :=
  if key = ascii "handler" then { loc with handlerName := some (cut 64 value) }
  else if key = ascii "auth_basic" then { loc with authRealm := cut 64 (unquote value) }
  else if key = ascii "auth_role" then { loc with authRole := cut 32 value }
  else if key = ascii "methods" then { loc with methods := methodTokens value }
  else loc

def Location.route (loc : Location) (handler : HandlerType) (method : CStr) : Route where
  method := method
  path := loc.path
  matchType := loc.matchType
  handler := handler
  authRealm := loc.authRealm
  requiredRole := loc.authRole

/-- The closing brace: one route for each method. -/
def closeLocation (loc : Location) (rt : RouteTable) : Loaded RouteTable :=
  match loc.handlerName with
  | none => .error .refused
  | some handlerName =>
    let htype := routeTableLookupHandler handlerName
    if htype = .none then .error .refused
    else if loc.methods = [] then .error .refused
    else loc.methods.foldlM (fun rt method => addRoute (loc.route htype method) rt) rt

/-- A line inside a location block. -/
def readLocation (text : CStr) (loc : Location) (caller : Option ServerBlock)
    (config : LoadedConfig) : Loaded (Reader × LoadedConfig) :=
  if text = [] ∨ text.head? = some 35 then .ok (.location loc caller, config)
  else if text.head? = some 125 then
    (closeLocation loc config.routeTable).map fun rt =>
      (Reader.resume caller, { config with routeTable := rt })
  else
    match keyValue 32 (stripSemicolon text) with
    | none => .ok (.location loc caller, config)
    | some (key, value) => .ok (.location (locationDirective key value loc) caller, config)

/-! ## Server blocks and the top level -/

/-- A line inside a server block. -/
def readServerBlock (text : CStr) (block : ServerBlock) (config : LoadedConfig) :
    Loaded (Reader × LoadedConfig) :=
  if text = [] ∨ text.head? = some 35 then .ok (.serverBlock block, config)
  else if text.head? = some 125 then
    .ok (.topLevel, { config with servers := config.servers ++ [block] })
  else if startsWith text (ascii "location") then
    (openLocation text).map fun loc => (.location loc (some block), config)
  else
    match directive (stripSemicolon text) with
    | none => .ok (.serverBlock block, config)
    | some (key, value) => .ok (.serverBlock (parseBlockDirective key value block), config)

/-- A line at the top level. -/
def readTopLevel (text : CStr) (config : LoadedConfig) : Loaded (Reader × LoadedConfig) :=
  if text = [] ∨ text.head? = some 35 then .ok (.topLevel, config)
  else if text = ascii "server \x7b" ∨ startsWith text (ascii "server\x7b") then
    if maxServerBlocks ≤ config.servers.length then .error .refused
    else .ok (.serverBlock .fresh, config)
  else if startsWith text (ascii "location") then
    (openLocation text).map fun loc => (.location loc none, config)
  else if text.head? = some 123 ∨ text.head? = some 125 then .ok (.topLevel, config)
  else
    match directive (stripSemicolon text) with
    | none => .ok (.topLevel, config)
    | some (key, value) =>
      .ok (.topLevel, { config with settings := parseFlatLine key value config.settings })

/-- The text of a line as `fgets` left it in `line`. -/
def lineText (line : List UInt8) : CStr := trim (removeNewline (ofBuffer line))

def readLine (line : List UInt8) (reader : Reader) (config : LoadedConfig) :
    Loaded (Reader × LoadedConfig) :=
  match reader with
  | .topLevel => readTopLevel (lineText line) config
  | .serverBlock block => readServerBlock (lineText line) block config
  | .location loc caller => readLocation (lineText line) loc caller config

def readLines : List (List UInt8) → Reader → LoadedConfig → Loaded (Reader × LoadedConfig)
  | [], reader, config => .ok (reader, config)
  | line :: lines, reader, config =>
    (readLine line reader config).bind fun (reader, config) => readLines lines reader config

/-- `load_nginx_config`: a block that is not closed is an error. -/
def loadNginxConfig (file : List UInt8) (config : LoadedConfig) : Loaded LoadedConfig :=
  (readLines (fgets 256 file) .topLevel config).bind fun
    | (.topLevel, config) => .ok config
    | _ => .error .refused

end MiniWeb.Config
