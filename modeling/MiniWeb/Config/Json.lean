import MiniWeb.Config.Settings

/-!
# The JSON loader

A pointer into the text is the rest of the text from there, which ends at the NUL. The loops are
those of the source; each pass moves its pointer towards the end.
-/

namespace MiniWeb.Config

open CStr Routing

/-! ## Strings and white space -/

def isJsonSpace (c : UInt8) : Bool := c = 32 ∨ c = 9 ∨ c = 10 ∨ c = 13

def jsonSkipWs (p : CStr) : CStr := p.dropWhile isJsonSpace

/-- The byte for the letter behind a backslash. -/
def unescape (c : UInt8) : UInt8 := if c = 110 then 10 else if c = 116 then 9 else c

/-- The loop of `json_get_string` with `room` bytes left in `dst`: the bytes it stores, and where
it stops. -/
def jsonChars : Nat → CStr → CStr × CStr
  | 0, p => ([], p)
  | _, [] => ([], [])
  | _, 34 :: p => ([], 34 :: p)
  | room + 1, 92 :: e :: p =>
    let (dst, p) := jsonChars room p
    (unescape e :: dst, p)
  | room + 1, c :: p =>
    let (dst, p) := jsonChars room p
    (c :: dst, p)

/-- `json_get_string`: `dst` and the pointer it returns, `none` for `NULL`. -/
def jsonGetString (p : CStr) (dstSize : Nat) : Option (CStr × CStr) :=
  match jsonSkipWs p with
  | 34 :: p =>
    let (dst, p) := jsonChars (dstSize - 1) p
    some (dst, if p.head? = some 34 then p.drop 1 else p)
  | _ => none

/-- The loop that skips a nested value, `depth` brackets deep. -/
def skipNested (left right : UInt8) : Nat → CStr → CStr
  | 0, p => p
  | _, [] => []
  | depth + 1, c :: p =>
    if c = left then skipNested left right (depth + 2) p
    else if c = right then skipNested left right depth p
    else skipNested left right (depth + 1) p
termination_by _ p => p.length

theorem length_jsonSkipWs_le (p : CStr) : (jsonSkipWs p).length ≤ p.length :=
  List.length_dropWhile_le ..

theorem length_jsonChars_le (room : Nat) (p : CStr) :
    (jsonChars room p).2.length ≤ p.length := by
  fun_induction jsonChars room p with
  | case1 p => exact le_refl _
  | case2 room => exact le_refl _
  | case3 room p => exact le_refl _
  | case4 room e p dst q hq ih => simp only [hq, List.length_cons] at ih ⊢; omega
  | case5 room c p h34 h92 dst q hq ih => simp only [hq, List.length_cons] at ih ⊢; omega

theorem length_jsonGetString_lt {p dst p' : CStr} {dstSize : Nat}
    (h : jsonGetString p dstSize = some (dst, p')) : p'.length < p.length := by
  have hws := length_jsonSkipWs_le p
  unfold jsonGetString at h
  split at h
  next q hq =>
    have hchars := length_jsonChars_le (dstSize - 1) q
    rw [hq, List.length_cons] at hws
    simp only [Option.some.injEq, Prod.mk.injEq] at h
    rw [← h.2]
    by_cases hquote : (jsonChars (dstSize - 1) q).2.head? = some 34
    · rw [if_pos hquote, List.length_drop]
      omega
    · rw [if_neg hquote]
      omega
  next => cases h

theorem length_skipNested_le (left right : UInt8) (depth : Nat) (p : CStr) :
    (skipNested left right depth p).length ≤ p.length := by
  induction depth, p using skipNested.induct left right with
  | case1 p => simp [skipNested]
  | case2 depth => simp [skipNested]
  | case3 depth p ih => rw [skipNested, if_pos rfl, List.length_cons]; omega
  | case4 depth p h ih => rw [skipNested, if_neg h, if_pos rfl, List.length_cons]; omega
  | case5 depth c p h h' ih => rw [skipNested, if_neg h, if_neg h', List.length_cons]; omega

/-! ## Values -/

/-- The code of `json_find_key` that skips a value. -/
def jsonSkipValue (p : CStr) : CStr :=
  match p with
  | [] => []
  | c :: q =>
    if c = 34 then ((jsonGetString p 256).map (·.2)).getD []
    else if c = 123 then skipNested 123 125 1 q
    else if c = 91 then skipNested 91 93 1 q
    else p.dropWhile fun c => c ≠ 44 ∧ c ≠ 125 ∧ c ≠ 10

theorem length_jsonSkipValue_le (p : CStr) : (jsonSkipValue p).length ≤ p.length := by
  unfold jsonSkipValue
  cases p with
  | nil => exact le_refl _
  | cons c q =>
    simp only
    split
    · cases h : jsonGetString (c :: q) 256 with
      | none => simp
      | some r => exact (length_jsonGetString_lt h).le
    · split
      · have := length_skipNested_le 123 125 1 q
        rw [List.length_cons]
        omega
      · split
        · have := length_skipNested_le 91 93 1 q
          rw [List.length_cons]
          omega
        · exact List.length_dropWhile_le ..

/-- A key and its value: the pointers of `json_find_key` behind the key, the colon and the white
space. -/
def jsonMember (p : CStr) : Option (CStr × CStr) :=
  match jsonGetString p 128 with
  | none => none
  | some (kbuf, p) =>
    match jsonSkipWs p with
    | 58 :: p => some (kbuf, jsonSkipWs p)
    | _ => none

theorem length_jsonMember_lt {p k v : CStr} (h : jsonMember p = some (k, v)) :
    v.length < p.length := by
  unfold jsonMember at h
  split at h
  next => cases h
  next kbuf q hq =>
    have hget := length_jsonGetString_lt hq
    have hws := length_jsonSkipWs_le q
    split at h
    next r hr =>
      have hval := length_jsonSkipWs_le r
      rw [hr, List.length_cons] at hws
      simp only [Option.some.injEq, Prod.mk.injEq] at h
      rw [← h.2]
      omega
    next => cases h

/-- The loop of `json_find_key`. -/
def findMember (key p : CStr) : Option CStr :=
  match h : jsonSkipWs p with
  | 44 :: q => findMember key q
  | q =>
    if q.head? = some 125 then none
    else
      match hmember : jsonMember q with
      | none => none
      | some (kbuf, v) => if kbuf = key then some v else findMember key (jsonSkipValue v)
termination_by p.length
decreasing_by
  · have := length_jsonSkipWs_le p
    rw [h, List.length_cons] at this
    omega
  · have hws := length_jsonSkipWs_le p
    have hval := length_jsonMember_lt hmember
    have hskip := length_jsonSkipValue_le v
    rw [h] at hws
    omega

/-- `json_find_key`. -/
def jsonFindKey (p key : CStr) : Option CStr :=
  match jsonSkipWs p with
  | 123 :: p => findMember key p
  | _ => none

/-- `json_get_str`: a string, or the bytes up to a delimiter. -/
def jsonGetStr (p : CStr) (dstSize : Nat) : CStr :=
  let p := jsonSkipWs p
  if p.head? = some 34 then ((jsonGetString p dstSize).map (·.1)).getD []
  else cut dstSize (p.takeWhile fun c => c ≠ 44 ∧ c ≠ 125 ∧ c ≠ 93 ∧ c ≠ 10)

/-- `json_get_int`. -/
def jsonGetInt (p : CStr) : Int :=
  let p := jsonSkipWs p
  if p.head? = some 34 then atoi (((jsonGetString p 32).map (·.1)).getD []) else atoi p

/-- The loop of `json_get_string_array`, with the strings read so far. The loop reads through the
`NULL` that `json_get_string` returns for anything but a string. -/
def jsonStrings (maxCount : Nat) (arr : List CStr) (p : CStr) : Loaded (List CStr) :=
  if p = [] ∨ maxCount ≤ arr.length then .ok arr
  else
    match h : jsonSkipWs p with
    | 44 :: q => jsonStrings maxCount arr q
    | q =>
      if q.head? = some 93 then .ok arr
      else
        match hs : jsonGetString q 128 with
        | none => .error .nullPointer
        | some (s, q) => jsonStrings maxCount (arr ++ [s]) q
termination_by p.length
decreasing_by
  · have := length_jsonSkipWs_le p
    rw [h, List.length_cons] at this
    omega
  · have hws := length_jsonSkipWs_le p
    have hlt := length_jsonGetString_lt hs
    rw [h] at hws
    omega

/-- `json_get_string_array`. -/
def jsonGetStringArray (p : CStr) (maxCount : Nat) : Loaded (List CStr) :=
  match jsonSkipWs p with
  | 91 :: p => jsonStrings maxCount [] p
  | _ => .ok []

/-! ## Objects of an array -/

/-- The object that starts at the brace before `p`, as far as `obj` holds it. -/
def objectText (size : Nat) (p : CStr) : CStr :=
  cut size (123 :: p.take (p.length - (skipNested 123 125 1 p).length))

/-- The loops over the `routes` and the `servers` array, where `parse` reads one object. A step
over white space at the end of the text goes on behind the NUL. -/
def jsonObjects {σ : Type} (size : Nat) (parse : CStr → σ → Loaded σ) (p : CStr) (s : σ) :
    Loaded σ :=
  if p = [] then .ok s
  else
    match h : jsonSkipWs p with
    | [] => .error .pastEnd
    | c :: q =>
      if c = 93 then .ok s
      else if c = 123 then
        (parse (objectText size q) s).bind fun s =>
          jsonObjects size parse (skipNested 123 125 1 q) s
      else jsonObjects size parse q s
termination_by p.length
decreasing_by
  all_goals
    have hws := length_jsonSkipWs_le p
    have hskip := length_skipNested_le 123 125 1 q
    rw [h, List.length_cons] at hws
    omega

/-! ## Routes -/

/-- `json_parse_route`. -/
def jsonParseRoute (p : CStr) (rt : RouteTable) : Loaded RouteTable :=
  match jsonFindKey p (ascii "method"), jsonFindKey p (ascii "path"),
    jsonFindKey p (ascii "handler") with
  | some method, some path, some handler =>
    let (path, matchType) := pathMatch (jsonGetStr path 256)
    let htype := routeTableLookupHandler (jsonGetStr handler 64)
    if htype = .none then .error .refused
    else
      addRoute
        { method := (jsonGetStr method 16).map toUpper
          path := path
          matchType := matchType
          handler := htype
          authRealm := ((jsonFindKey p (ascii "auth")).map (jsonGetStr · 64)).getD []
          requiredRole := ((jsonFindKey p (ascii "role")).map (jsonGetStr · 32)).getD [] } rt
  | _, _, _ => .error .refused

/-- `json_parse_routes`. -/
def jsonParseRoutes (p : CStr) (rt : RouteTable) : Loaded RouteTable :=
  match jsonSkipWs p with
  | 91 :: p => jsonObjects 1024 jsonParseRoute p rt
  | _ => .ok rt

/-- The routes under the key, if the object has it. -/
def jsonRoutesOf (p : CStr) (rt : RouteTable) : Loaded RouteTable :=
  match jsonFindKey p (ascii "routes") with
  | some v => jsonParseRoutes v rt
  | none => .ok rt

/-! ## Servers -/

/-- `json_parse_server`. -/
def jsonParseServer (p : CStr) (config : LoadedConfig) : Loaded LoadedConfig :=
  if maxServerBlocks ≤ config.servers.length then .error .refused
  else do
    let block := match jsonFindKey p (ascii "listen") with
      | some v => parseListen (jsonGetStr v 128) .fresh
      | none => .fresh
    let serverNames ← match jsonFindKey p (ascii "server_name") with
      | some v => jsonGetStringArray v maxServerNames
      | none => .ok []
    let root := ((jsonFindKey p (ascii "root")).map (jsonGetStr · 128)).getD []
    let accessLog := ((jsonFindKey p (ascii "access_log")).map (jsonGetStr · 128)).getD []
    let rt ← jsonRoutesOf p config.routeTable
    let block := { block with serverNames := serverNames, root := root, accessLog := accessLog }
    .ok { config with servers := config.servers ++ [block], routeTable := rt }

/-! ## Settings -/

/-- What a value does to the settings, by its key. -/
abbrev JsonField := CStr × (CStr → Settings → Settings)

/-- The levels of `log_level`; another text changes nothing. -/
def jsonLogLevel (v : CStr) (settings : Settings) : Settings :=
  { settings with logLevel := (logLevelOf (jsonGetStr v 32)).getD settings.logLevel }

def jsonFields : List JsonField :=
  [(ascii "host", fun v s => { s with host := jsonGetStr v 64 }),
    (ascii "port", fun v s => { s with port := jsonGetInt v }),
    (ascii "www_root", fun v s => { s with wwwRoot := jsonGetStr v 128 }),
    (ascii "user_file", fun v s => { s with userFile := jsonGetStr v 128 }),
    (ascii "system_log", fun v s => { s with systemLog := jsonGetStr v 128 }),
    (ascii "access_log", fun v s => { s with accessLog := jsonGetStr v 128 }),
    (ascii "log_level", jsonLogLevel),
    (ascii "error_log", fun v s => { s with errorLog := jsonGetStr v 128 }),
    (ascii "log_max_lines", fun v s => { s with logMaxLines := jsonGetInt v }),
    (ascii "log_max_roll_files", fun v s => { s with logMaxRollFiles := jsonGetInt v }),
    (ascii "worker_processes", fun v s => { s with workerProcesses := jsonGetInt v }),
    (ascii "worker_shutdown_timeout_ms",
      fun v s => { s with workerShutdownTimeoutMs := jsonGetInt v }),
    (ascii "max_connections", fun v s => { s with maxConnections := jsonGetInt v }),
    (ascii "max_request_bytes", fun v s => { s with maxRequestBytes := jsonGetInt v })]

def jsonLoggingFields : List JsonField :=
  [(ascii "level", jsonLogLevel),
    (ascii "file", fun v s => { s with systemLog := jsonGetStr v 128 }),
    (ascii "system_log", fun v s => { s with systemLog := jsonGetStr v 128 }),
    (ascii "access_log", fun v s => { s with accessLog := jsonGetStr v 128 })]

def setFields (fields : List JsonField) (p : CStr) (settings : Settings) : Settings :=
  fields.foldl (fun settings (key, set) =>
    match jsonFindKey p key with
    | some v => set v settings
    | none => settings) settings

/-- The flat fields and the `logging` object. -/
def jsonSettings (raw : CStr) (settings : Settings) : Settings :=
  let settings := setFields jsonFields raw settings
  match jsonFindKey raw (ascii "logging") with
  | some v => setFields jsonLoggingFields v settings
  | none => settings

/-! ## The loader -/

/-- The `servers` array. -/
def jsonServersOf (raw : CStr) (config : LoadedConfig) : Loaded LoadedConfig :=
  match jsonFindKey raw (ascii "servers") with
  | none => .ok config
  | some v =>
    match jsonSkipWs v with
    | 91 :: v => jsonObjects 2048 jsonParseServer v config
    | _ => .ok config

def loadJsonConfig (raw : CStr) (config : LoadedConfig) : Loaded LoadedConfig :=
  (jsonRoutesOf raw config.routeTable).bind fun rt =>
    jsonServersOf raw
      { config with settings := jsonSettings raw config.settings, routeTable := rt }

end MiniWeb.Config
