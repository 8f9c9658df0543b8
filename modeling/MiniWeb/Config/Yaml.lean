import MiniWeb.Config.Json

/-!
# The YAML loader

The functions share a cursor into the array of lines; here they are given the lines from the
cursor on and return the lines they leave. A loop that only looks at one line at a time reads the
lines up to the first that ends it.
-/

namespace MiniWeb.Config

open CStr Routing

/-! ## Lines -/

/-- `yaml_indent`. -/
def yamlIndent (line : CStr) : Nat := (line.takeWhile (· = 32)).length

/-- `yaml_is_doc_marker`. -/
def yamlIsDocMarker (line : CStr) : Bool :=
  let line := line.dropWhile (· = 32)
  startsWith line (ascii "---") || startsWith line (ascii "--")

/-- An empty line or a comment. -/
def yamlBlank (line : CStr) : Bool := line = [] || line.head? = some 35

/-- The line is a list item, at whatever indentation. -/
def yamlDashed (line : CStr) : Bool := startsWith (line.dropWhile (· = 32)) (ascii "- ")

/-- `yaml_is_list_item`. -/
def yamlIsListItem (line : CStr) (indent : Nat) : Bool :=
  startsWith line (List.replicate indent 32 ++ ascii "- ")

/-- `yaml_is_key_at`. -/
def yamlIsKeyAt (line : CStr) (indent : Nat) (key : CStr) : Bool :=
  startsWith line (List.replicate indent 32 ++ key ++ ascii ":")

/-- `yaml_get_value`. -/
def yamlGetValue (line : CStr) (dstSize : Nat) : CStr :=
  match (line.dropWhile (· ≠ 58)).drop 1 |>.dropWhile (· = 32) with
  | [] => []
  | c :: v =>
    if c = 34 then ((jsonGetString (c :: v) dstSize).map (·.1)).getD []
    else if c = 39 then cut dstSize (v.takeWhile (· ≠ 39))
    else (cut dstSize ((c :: v).takeWhile fun c => c ≠ 10 ∧ c ≠ 13 ∧ c ≠ 35)).rdropWhile (· = 32)

/-- The text before the first colon, in a buffer of 64 bytes and without trailing blanks. -/
def yamlKey (content : CStr) : CStr := (cut 64 (content.takeWhile (· ≠ 58))).rdropWhile (· = 32)

/-- `yaml_parse_key_value`, `none` for `-1`. -/
def yamlParseKeyValue (line : CStr) : Option (CStr × CStr) :=
  let content := line.dropWhile (· = 32)
  let content := if startsWith content (ascii "- ") then content.drop 2 else content
  if 58 ∈ content then some (yamlKey content, yamlGetValue line 256) else none

/-! ## Routes -/

/-- The buffers of `yaml_parse_route_map`. -/
structure RouteFields where
  method : CStr
  path : CStr
  handlerName : CStr
  authRealm : CStr
  authRole : CStr
deriving DecidableEq, Repr

def RouteFields.empty : RouteFields := ⟨[], [], [], [], []⟩

def RouteFields.set (key value : CStr) (fields : RouteFields) : RouteFields :=
  if key = ascii "method" then { fields with method := (cut 16 value).map toUpper }
  else if key = ascii "path" then { fields with path := cut 256 value }
  else if key = ascii "handler" then { fields with handlerName := cut 64 value }
  else if key = ascii "auth" then { fields with authRealm := cut 64 value }
  else if key = ascii "role" then { fields with authRole := cut 32 value }
  else fields

/-- The loop of `yaml_parse_route_map` does not end at the line. -/
def inRouteMap (listIndent : Nat) (line : CStr) : Bool :=
  yamlBlank line || decide (listIndent < yamlIndent line) || yamlDashed line

/-- The key and the value of a line of a route. -/
def routeMapLine (line : CStr) (fields : RouteFields) : RouteFields :=
  if yamlBlank line then fields
  else
    let content := if yamlDashed line then line.drop (yamlIndent line + 2) else line
    let content := content.dropWhile (· = 32)
    if 58 ∈ content then fields.set (yamlKey content) (yamlGetValue line 256) else fields

/-- The end of `yaml_parse_route_map`: a route that lacks a field is left out. -/
def addRouteMap (fields : RouteFields) (rt : RouteTable) : Loaded RouteTable :=
  if fields.method ≠ [] ∧ fields.path ≠ [] ∧ fields.handlerName ≠ [] then
    let (path, matchType) := pathMatch fields.path
    let htype := routeTableLookupHandler fields.handlerName
    if htype = .none then .error .refused
    else addRoute ⟨fields.method, path, matchType, htype, fields.authRealm, fields.authRole⟩ rt
  else .ok rt

/-- `yaml_parse_route_map`. -/
def yamlParseRouteMap (lines : List CStr) (listIndent : Nat) (rt : RouteTable) :
    Loaded (RouteTable × List CStr) :=
  let fields := (lines.takeWhile (inRouteMap listIndent)).foldl
    (fun fields line => routeMapLine line fields) .empty
  (addRouteMap fields rt).map fun rt => (rt, lines.dropWhile (inRouteMap listIndent))

theorem yamlIsListItem_iff {line : CStr} {indent : Nat} :
    yamlIsListItem line indent = true ↔
      ∃ rest, line = List.replicate indent 32 ++ (ascii "- " ++ rest) := by
  rw [yamlIsListItem, startsWith, List.isPrefixOf_iff_prefix]
  constructor
  · rintro ⟨rest, rfl⟩
    exact ⟨rest, List.append_assoc ..⟩
  · rintro ⟨rest, rfl⟩
    exact ⟨rest, List.append_assoc ..⟩

theorem yamlDashed_of_isListItem {line : CStr} {indent : Nat}
    (h : yamlIsListItem line indent = true) : yamlDashed line = true := by
  obtain ⟨rest, rfl⟩ := yamlIsListItem_iff.1 h
  have hdrop : (List.replicate indent 32 ++ (ascii "- " ++ rest)).dropWhile (· = 32)
      = ascii "- " ++ rest := by
    rw [List.dropWhile_append_of_pos (by simp)]
    rfl
  rw [yamlDashed, hdrop]
  exact List.isPrefixOf_iff_prefix.2 ⟨rest, rfl⟩

theorem yamlIndent_of_isListItem {line : CStr} {indent : Nat}
    (h : yamlIsListItem line indent = true) : yamlIndent line = indent := by
  obtain ⟨rest, rfl⟩ := yamlIsListItem_iff.1 h
  rw [yamlIndent, List.takeWhile_append_of_pos (by simp)]
  simp [ascii]

/-- `yaml_parse_route_map` takes the list item it is called at. -/
theorem length_yamlParseRouteMap_lt {line : CStr} {lines rest : List CStr} {listIndent : Nat}
    {rt rt' : RouteTable} (hline : yamlIsListItem line listIndent = true)
    (h : yamlParseRouteMap (line :: lines) listIndent rt = .ok (rt', rest)) :
    rest.length < (line :: lines).length := by
  have hin : inRouteMap listIndent line = true := by
    rw [inRouteMap, yamlDashed_of_isListItem hline, Bool.or_true]
  rw [yamlParseRouteMap, List.dropWhile_cons_of_pos hin] at h
  cases hadd : addRouteMap ((List.takeWhile (inRouteMap listIndent) (line :: lines)).foldl
    (fun fields line => routeMapLine line fields) .empty) rt with
  | error e =>
    rw [hadd] at h
    cases h
  | ok rt'' =>
    rw [hadd] at h
    cases h
    have := List.length_dropWhile_le (inRouteMap listIndent) lines
    rw [List.length_cons]
    omega

/-- `yaml_parse_routes`. -/
def yamlParseRoutes (baseIndent : Nat) (lines : List CStr) (rt : RouteTable) :
    Loaded (RouteTable × List CStr) :=
  match lines with
  | [] => .ok (rt, [])
  | line :: rest =>
    if yamlBlank line ∨ yamlIsDocMarker line then yamlParseRoutes baseIndent rest rt
    else if yamlIndent line < baseIndent then .ok (rt, line :: rest)
    else if yamlIndent line = baseIndent ∧ ¬yamlIsListItem line (baseIndent + 2) then
      .ok (rt, line :: rest)
    else if hline : yamlIsListItem line (baseIndent + 2) then
      match h : yamlParseRouteMap (line :: rest) (baseIndent + 2) rt with
      | .error e => .error e
      | .ok (rt, lines) => yamlParseRoutes baseIndent lines rt
    else yamlParseRoutes baseIndent rest rt
termination_by lines.length
decreasing_by
  · simp
  · exact length_yamlParseRouteMap_lt hline h
  · simp

theorem length_yamlParseRoutes_le {baseIndent : Nat} {lines rest : List CStr}
    {rt rt' : RouteTable} (h : yamlParseRoutes baseIndent lines rt = .ok (rt', rest)) :
    rest.length ≤ lines.length := by
  fun_induction yamlParseRoutes baseIndent lines rt with
  | case1 rt => cases h; exact le_refl _
  | case2 rt line lines hskip ih => exact (ih h).trans (by simp)
  | case3 rt line lines hskip hlt => cases h; exact le_refl _
  | case4 rt line lines hskip hlt heq => cases h; exact le_refl _
  | case5 rt line lines hskip hlt heq hline e he => cases h
  | case6 rt line lines hskip hlt heq hline rt₁ lines₁ hmap ih =>
    exact (ih h).trans (length_yamlParseRouteMap_lt hline hmap).le
  | case7 rt line lines hskip hlt heq hline ih => exact (ih h).trans (by simp)

/-! ## Server blocks -/

/-- `yaml_parse_string_list`. -/
def yamlParseStringList (baseIndent maxCount : Nat) (lines : List CStr) :
    List CStr × List CStr :=
  let inList (line : CStr) : Bool := yamlBlank line || decide (baseIndent < yamlIndent line)
  let items := (lines.takeWhile inList).filter fun line =>
    !yamlBlank line && yamlIsListItem line (baseIndent + 2)
  ((items.take maxCount).map (yamlGetValue · 128), lines.dropWhile inList)

/-- The loop of `yaml_parse_server`. -/
def yamlServerLines (baseIndent : Nat) (lines : List CStr) (block : ServerBlock)
    (rt : RouteTable) : Loaded (ServerBlock × RouteTable × List CStr) :=
  match lines with
  | [] => .ok (block, rt, [])
  | line :: rest =>
    if yamlBlank line then yamlServerLines baseIndent rest block rt
    else if yamlIndent line < baseIndent then .ok (block, rt, line :: rest)
    else if yamlIndent line = baseIndent ∧ ¬yamlDashed line then .ok (block, rt, line :: rest)
    else
      match yamlParseKeyValue line with
      | none => yamlServerLines baseIndent rest block rt
      | some (key, value) =>
        if key = ascii "listen" then
          yamlServerLines baseIndent rest (parseListen value block) rt
        else if key = ascii "server_name" then
          match h : yamlParseStringList (yamlIndent line) maxServerNames rest with
          | (names, lines) =>
            yamlServerLines baseIndent lines { block with serverNames := names } rt
        else if key = ascii "root" then
          yamlServerLines baseIndent rest { block with root := cut 128 value } rt
        else if key = ascii "access_log" then
          yamlServerLines baseIndent rest { block with accessLog := cut 128 value } rt
        else if key = ascii "routes" then
          match h : yamlParseRoutes (yamlIndent line) rest rt with
          | .error e => .error e
          | .ok (rt, lines) => yamlServerLines baseIndent lines block rt
        else yamlServerLines baseIndent rest block rt
termination_by lines.length
decreasing_by
  · simp
  · simp
  · simp
  · have hlist := List.length_dropWhile_le
      (fun l => yamlBlank l || decide (yamlIndent line < yamlIndent l)) rest
    rw [yamlParseStringList] at h
    cases h
    rw [List.length_cons]
    omega
  · simp
  · simp
  · have := length_yamlParseRoutes_le h
    rw [List.length_cons]
    omega
  · simp

/-- The loop takes lines, or stops at once at a line that is no item of the list. -/
theorem yamlServerLines_rest {baseIndent : Nat} {lines rest : List CStr}
    {block block' : ServerBlock} {rt rt' : RouteTable}
    (h : yamlServerLines baseIndent lines block rt = .ok (block', rt', rest)) :
    rest.length < lines.length ∨
      rest = lines ∧ ∀ line ∈ lines.head?, yamlIsListItem line baseIndent = false := by
  -- what is left of the lines behind a line is shorter than the lines with it
  have hshorter : ∀ {line : CStr} {tail lines : List CStr}, lines.length ≤ tail.length →
      (rest.length < lines.length ∨
        rest = lines ∧ ∀ line ∈ lines.head?, yamlIsListItem line baseIndent = false) →
      rest.length < (line :: tail).length := by
    intro line tail lines hle hrest
    rw [List.length_cons]
    rcases hrest with hlt | ⟨rfl, -⟩ <;> omega
  fun_induction yamlServerLines baseIndent lines block rt with
  | case1 =>
    cases h
    exact Or.inr ⟨rfl, by simp⟩
  | case3 block rt line lines _ hlt =>
    cases h
    refine Or.inr ⟨rfl, ?_⟩
    simp only [List.head?_cons, Option.mem_some_iff, forall_eq']
    by_contra hitem
    rw [Bool.not_eq_false] at hitem
    have := yamlIndent_of_isListItem hitem
    omega
  | case4 block rt line lines _ _ heq =>
    cases h
    refine Or.inr ⟨rfl, ?_⟩
    simp only [List.head?_cons, Option.mem_some_iff, forall_eq']
    by_contra hitem
    rw [Bool.not_eq_false] at hitem
    exact heq.2 (yamlDashed_of_isListItem hitem)
  | case7 block rt line lines _ _ _ value names lines₁ hlist _ _ ih =>
    have hle := List.length_dropWhile_le
      (fun l => yamlBlank l || decide (yamlIndent line < yamlIndent l)) lines
    rw [yamlParseStringList] at hlist
    cases hlist
    exact Or.inl (hshorter hle (ih h))
  | case10 => cases h
  | case11 block rt line lines _ _ _ value rt₁ lines₁ hroutes _ _ _ _ _ ih =>
    exact Or.inl (hshorter (length_yamlParseRoutes_le hroutes) (ih h))
  | _ => rename_i ih; exact Or.inl (hshorter (le_refl _) (ih h))

/-- `yaml_parse_server` at a list item. -/
def yamlParseServer (baseIndent : Nat) (lines : List CStr) (config : LoadedConfig) :
    Loaded (LoadedConfig × List CStr) :=
  if maxServerBlocks ≤ config.servers.length then .error .refused
  else
    (yamlServerLines baseIndent lines .fresh config.routeTable).map fun (block, rt, lines) =>
      ({ config with servers := config.servers ++ [block], routeTable := rt }, lines)

/-- `yaml_parse_server` takes the list item it is called at. -/
theorem length_yamlParseServer_lt {line : CStr} {lines rest : List CStr}
    {config config' : LoadedConfig} (hline : yamlIsListItem line 2 = true)
    (h : yamlParseServer 2 (line :: lines) config = .ok (config', rest)) :
    rest.length < (line :: lines).length := by
  rw [yamlParseServer] at h
  by_cases hfull : maxServerBlocks ≤ config.servers.length
  · rw [if_pos hfull] at h
    cases h
  rw [if_neg hfull] at h
  cases hloop : yamlServerLines 2 (line :: lines) .fresh config.routeTable with
  | error e =>
    rw [hloop] at h
    cases h
  | ok r =>
    rw [hloop] at h
    cases h
    rcases yamlServerLines_rest hloop with hlt | ⟨-, hhead⟩
    · exact hlt
    · exact absurd (hhead line rfl) (by simp [hline])

/-- The loop of `load_yaml_config` over the list under `servers`. -/
def yamlParseServers (lines : List CStr) (config : LoadedConfig) :
    Loaded (LoadedConfig × List CStr) :=
  match lines with
  | [] => .ok (config, [])
  | line :: rest =>
    if yamlBlank line then yamlParseServers rest config
    else if yamlIndent line = 0 then .ok (config, line :: rest)
    else if hline : yamlIsListItem line 2 then
      match h : yamlParseServer 2 (line :: rest) config with
      | .error e => .error e
      | .ok (config, lines) => yamlParseServers lines config
    else yamlParseServers rest config
termination_by lines.length
decreasing_by
  · simp
  · exact length_yamlParseServer_lt hline h
  · simp

theorem length_yamlParseServers_le {lines rest : List CStr} {config config' : LoadedConfig}
    (h : yamlParseServers lines config = .ok (config', rest)) : rest.length ≤ lines.length := by
  fun_induction yamlParseServers lines config with
  | case1 => cases h; exact le_refl _
  | case3 => cases h; exact le_refl _
  | case4 => cases h
  | case5 config line lines _ _ hline config₁ lines₁ hserver ih =>
    exact (ih h).trans (length_yamlParseServer_lt hline hserver).le
  | _ => rename_i ih; exact (ih h).trans (by simp)

/-! ## Settings -/

/-- The size of the buffer for a value, and what the value does to the settings. -/
abbrev YamlField := CStr × Nat × (CStr → Settings → Settings)

def yamlLogLevel (value : CStr) (settings : Settings) : Settings :=
  { settings with logLevel := (logLevelOf value).getD settings.logLevel }

def yamlFields : List YamlField :=
  [(ascii "host", 128, fun v s => { s with host := cut 64 v }),
    (ascii "port", 32, fun v s => { s with port := atoi v }),
    (ascii "www_root", 128, fun v s => { s with wwwRoot := cut 128 v }),
    (ascii "user_file", 128, fun v s => { s with userFile := cut 128 v }),
    (ascii "system_log", 128, fun v s => { s with systemLog := cut 128 v }),
    (ascii "access_log", 128, fun v s => { s with accessLog := cut 128 v }),
    (ascii "log_level", 32, yamlLogLevel),
    (ascii "error_log", 128, fun v s => { s with errorLog := cut 128 v }),
    (ascii "log_max_lines", 32, fun v s => { s with logMaxLines := atoi v }),
    (ascii "log_max_roll_files", 32, fun v s => { s with logMaxRollFiles := atoi v }),
    (ascii "worker_processes", 32, fun v s => { s with workerProcesses := atoi v }),
    (ascii "worker_shutdown_timeout_ms", 32,
      fun v s => { s with workerShutdownTimeoutMs := atoi v }),
    (ascii "max_connections", 32, fun v s => { s with maxConnections := atoi v }),
    (ascii "max_request_bytes", 32, fun v s => { s with maxRequestBytes := atoi v })]

/-- A line at the top level that opens no list. -/
def yamlSetting (key line : CStr) (settings : Settings) : Settings :=
  match yamlFields.lookup key with
  | some (dstSize, set) => set (yamlGetValue line dstSize) settings
  | none => settings

/-- A line under `logging`. -/
def yamlLoggingLine (line : CStr) (settings : Settings) : Settings :=
  if yamlBlank line then settings
  else if yamlIsKeyAt line 4 (ascii "level") then yamlLogLevel (yamlGetValue line 32) settings
  else if yamlIsKeyAt line 4 (ascii "file") ∨ yamlIsKeyAt line 4 (ascii "system_log") then
    { settings with systemLog := cut 128 (yamlGetValue line 128) }
  else if yamlIsKeyAt line 4 (ascii "access_log") then
    { settings with accessLog := cut 128 (yamlGetValue line 128) }
  else settings

/-- The loop over the lines under `logging`. -/
def yamlLogging (lines : List CStr) (settings : Settings) : Settings × List CStr :=
  let inLogging (line : CStr) : Bool := yamlBlank line || decide (2 < yamlIndent line)
  ((lines.takeWhile inLogging).foldl (fun settings line => yamlLoggingLine line settings) settings,
    lines.dropWhile inLogging)

/-! ## The loader -/

def loadYamlConfig (lines : List CStr) (config : LoadedConfig) : Loaded LoadedConfig :=
  match lines with
  | [] => .ok config
  | line :: rest =>
    if yamlBlank line ∨ yamlIsDocMarker line ∨ 0 < yamlIndent line ∨ 58 ∉ line then
      loadYamlConfig rest config
    else
      let key := cut 64 (line.takeWhile (· ≠ 58))
      if key = ascii "logging" then
        match h : yamlLogging rest config.settings with
        | (settings, lines) => loadYamlConfig lines { config with settings := settings }
      else if key = ascii "routes" then
        match h : yamlParseRoutes 0 rest config.routeTable with
        | .error e => .error e
        | .ok (rt, lines) => loadYamlConfig lines { config with routeTable := rt }
      else if key = ascii "servers" then
        match h : yamlParseServers rest config with
        | .error e => .error e
        | .ok (config, lines) => loadYamlConfig lines config
      else
        loadYamlConfig rest { config with settings := yamlSetting key line config.settings }
termination_by lines.length
decreasing_by
  · simp
  · have hle := List.length_dropWhile_le
      (fun l => yamlBlank l || decide (2 < yamlIndent l)) rest
    rw [yamlLogging] at h
    cases h
    rw [List.length_cons]
    omega
  · have := length_yamlParseRoutes_le h
    rw [List.length_cons]
    omega
  · have := length_yamlParseServers_le h
    rw [List.length_cons]
    omega
  · simp

/-! ## The lines of a file -/

/-- A line of `fgets` without the line end the loader trims. -/
def yamlLine (line : List UInt8) : CStr :=
  let text := ofBuffer line
  let text := if text.getLast? = some 10 ∨ text.getLast? = some 13 then text.dropLast else text
  if text.getLast? = some 13 then text.dropLast else text

/-- `yaml_lines`: the first 500 lines. -/
def yamlLines (file : List UInt8) : List CStr := ((fgets 512 file).take 500).map yamlLine

end MiniWeb.Config
