import MiniWeb.Config.Nginx
import MiniWeb.Config.Yaml

/-!
# Loading a configuration

`load_config` guesses the format of the file, has the loader of the format read it, fills in
defaults and refuses a route table that `route_table_validate` finds wrong.
-/

namespace MiniWeb.Config

open CStr Routing

/-! ## The format -/

inductive ConfigFormat
  | nginx
  | json
  | yaml
deriving DecidableEq, Repr

/-- `has_brace`, `has_colon` and `has_assign`. -/
structure Evidence where
  hasBrace : Bool
  hasColon : Bool
  hasAssign : Bool
deriving DecidableEq, Repr

/-- The format a line is a definite sign of. -/
def definiteFormat (t : CStr) : Option ConfigFormat :=
  if startsWith t (ascii "server") ∧ 123 ∈ t then some .nginx
  else if startsWith t (ascii "location") then some .nginx
  else if startsWith t (ascii "---") then some .yaml
  else none

/-- A key, a blank and a value, without colon and braces. -/
def isAssign (t : CStr) : Bool :=
  let sp := (t.dropWhile (· ≠ 32)).dropWhile fun c => c = 32 ∨ c = 9
  decide (32 ∈ t ∧ 58 ∉ t ∧ 123 ∉ t ∧ 125 ∉ t) &&
    sp.head?.any fun c => c ≠ 10 ∧ c ≠ 13 ∧ c ≠ 35

def Evidence.add (t : CStr) (e : Evidence) : Evidence where
  hasBrace := e.hasBrace || decide (123 ∈ t ∨ 125 ∈ t)
  hasColon := e.hasColon || decide (58 ∈ t ∧ t.head? ≠ some 125)
  hasAssign := e.hasAssign || isAssign t

def Evidence.decide (e : Evidence) : ConfigFormat :=
  if e.hasAssign then .nginx
  else if e.hasBrace then .json
  else if e.hasColon then .yaml
  else .nginx

/-- Nothing but a comment or a line end follows the blanks. -/
def detectSkips (t : CStr) : Bool :=
  t = [] || t.head? = some 35 || t.head? = some 10 || t.head? = some 13

def detectFrom : List (List UInt8) → Evidence → ConfigFormat
  | [], e => e.decide
  | line :: lines, e =>
    let t := (ofBuffer line).dropWhile fun c => c = 32 ∨ c = 9
    if detectSkips t then detectFrom lines e
    else
      match definiteFormat t with
      | some format => format
      | none => detectFrom lines (e.add t)

/-- `detect_config_format`, which looks at 50 lines. -/
def detectConfigFormat (file : List UInt8) : ConfigFormat :=
  detectFrom ((fgets 256 file).take 50) ⟨false, false, false⟩

/-! ## Defaults -/

def orDefault (text default : CStr) : CStr := if text = [] then default else text

def orDefaultInt (n default : Int) : Int := if n ≤ 0 then default else n

def ServerBlock.fill (s : Settings) (block : ServerBlock) : ServerBlock :=
  { block with
    port := orDefaultInt block.port s.port
    host := orDefault block.host (cut 64 s.host) }

/-- The fields that stand in for each other, and the defaults. The levels are in range. -/
def Settings.fill (s : Settings) : Settings :=
  let wwwRoot := orDefault s.wwwRoot s.root
  let userFile := orDefault s.userFile s.dataPath
  { s with
    wwwRoot := wwwRoot
    root := orDefault s.root wwwRoot
    userFile := userFile
    dataPath := orDefault s.dataPath userFile
    maxConnections := orDefaultInt s.maxConnections 256
    maxRequestBytes := orDefaultInt s.maxRequestBytes 4096
    workerProcesses := orDefaultInt s.workerProcesses 2
    workerShutdownTimeoutMs := orDefaultInt s.workerShutdownTimeoutMs 3000
    logMaxLines := orDefaultInt s.logMaxLines 10000
    logMaxRollFiles := orDefaultInt s.logMaxRollFiles 5
    systemLog := orDefault s.systemLog s.logPath
    accessLog := orDefault s.accessLog s.logPath }

/-- `strcmp` of the paths and of the methods. -/
def sameRoute (e f : RouteEntry) : Bool :=
  decide (strcmp e.path f.path = .eq) && decide (strcmp e.method f.method = .eq)

/-- The loader of the format. -/
def loadFormat (format : ConfigFormat) (file : List UInt8) : Loaded LoadedConfig :=
  match format with
  | .json =>
    if file = [] ∨ 10 * 1024 * 1024 < file.length then .error .refused
    else loadJsonConfig (ofBuffer file) .zero
  | .yaml => loadYamlConfig (yamlLines file) .zero
  | .nginx => loadNginxConfig file .zero

end MiniWeb.Config
