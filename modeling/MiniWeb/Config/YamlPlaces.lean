import MiniWeb.Config.Demands
import MiniWeb.Config.Yaml

/-!
# What the YAML loader comes by

The loader reads the lines of a list item into the buffers of one record, with those of the items
behind it, and asks for a route when the record has a method, a path and a handler. What it asks for
is a matter of the lines alone.
-/

namespace MiniWeb.Config

open CStr Routing

variable {line : CStr} {lines rest : List CStr} {base n : Nat} {fields : RouteFields}
  {rt : RouteTable}

/-! ## Records -/

/-- What a call of `yaml_parse_route_map` has in its buffers in the end. -/
def yamlRecord (listIndent : Nat) (lines : List CStr) : RouteFields :=
  (lines.takeWhile (inRouteMap listIndent)).foldl (fun fields line => routeMapLine line fields)
    .empty

/-- The records of a `routes` list, and the lines behind it. -/
def yamlRecords (baseIndent : Nat) (lines : List CStr) : List RouteFields × List CStr :=
  match lines with
  | [] => ([], [])
  | line :: rest =>
    if yamlBlank line ∨ yamlIsDocMarker line then yamlRecords baseIndent rest
    else if yamlIndent line < baseIndent then ([], line :: rest)
    else if yamlIndent line = baseIndent ∧ ¬yamlIsListItem line (baseIndent + 2) then
      ([], line :: rest)
    else if yamlIsListItem line (baseIndent + 2) then
      let behind := yamlRecords baseIndent (rest.dropWhile (inRouteMap (baseIndent + 2)))
      (yamlRecord (baseIndent + 2) (line :: rest) :: behind.1, behind.2)
    else yamlRecords baseIndent rest
termination_by lines.length
decreasing_by
  · exact Nat.lt_succ_self _
  · exact Nat.lt_succ_of_le (List.length_dropWhile_le ..)
  · exact Nat.lt_succ_self _

theorem length_yamlRecords_le : (yamlRecords base lines).2.length ≤ lines.length := by
  fun_induction yamlRecords base lines with
  | case1 => exact le_refl _
  | case2 line rest hskip ih => exact ih.trans (Nat.le_succ _)
  | case3 line rest hskip hlt => exact le_refl _
  | case4 line rest hskip hlt heq => exact le_refl _
  | case5 line rest hskip hlt heq hitem behind ih =>
    exact ih.trans ((List.length_dropWhile_le ..).trans (Nat.le_succ _))
  | case6 line rest hskip hlt heq hitem ih => exact ih.trans (Nat.le_succ _)

/-- The lines of a `server_name` list. -/
def inStringList (baseIndent : Nat) (line : CStr) : Bool :=
  yamlBlank line || decide (baseIndent < yamlIndent line)

/-- The records of the `routes` lists of a server block, and the lines behind the block. -/
def yamlServerRecords (baseIndent : Nat) (lines : List CStr) : List RouteFields × List CStr :=
  match lines with
  | [] => ([], [])
  | line :: rest =>
    if yamlBlank line then yamlServerRecords baseIndent rest
    else if yamlIndent line < baseIndent then ([], line :: rest)
    else if yamlIndent line = baseIndent ∧ ¬yamlDashed line then ([], line :: rest)
    else
      match yamlParseKeyValue line with
      | none => yamlServerRecords baseIndent rest
      | some (key, _) =>
        if key = ascii "server_name" then
          yamlServerRecords baseIndent (rest.dropWhile (inStringList (yamlIndent line)))
        else if key = ascii "routes" then
          let behind := yamlServerRecords baseIndent (yamlRecords (yamlIndent line) rest).2
          ((yamlRecords (yamlIndent line) rest).1 ++ behind.1, behind.2)
        else yamlServerRecords baseIndent rest
termination_by lines.length
decreasing_by
  · exact Nat.lt_succ_self _
  · exact Nat.lt_succ_self _
  · exact Nat.lt_succ_of_le (List.length_dropWhile_le ..)
  · exact Nat.lt_succ_of_le length_yamlRecords_le
  · exact Nat.lt_succ_self _

theorem length_yamlServerRecords_le : (yamlServerRecords base lines).2.length ≤ lines.length := by
  fun_induction yamlServerRecords base lines with
  | case1 => exact le_refl _
  | case2 line rest hskip ih => exact ih.trans (Nat.le_succ _)
  | case3 line rest hskip hlt => exact le_refl _
  | case4 line rest hskip hlt heq => exact le_refl _
  | case5 line rest hskip hlt heq hnone ih => exact ih.trans (Nat.le_succ _)
  | case6 line rest hskip hlt heq value hpair ih =>
    exact ih.trans ((List.length_dropWhile_le ..).trans (Nat.le_succ _))
  | case7 line rest hskip hlt heq value hpair hnames behind ih =>
    exact ih.trans (length_yamlRecords_le.trans (Nat.le_succ _))
  | case8 line rest hskip hlt heq key value hpair hnames hroutes ih =>
    exact ih.trans (Nat.le_succ _)

/-- The item of a list is part of its block. -/
theorem length_yamlServerRecords_lt (hline : yamlIsListItem line base = true) :
    (yamlServerRecords base (line :: rest)).2.length < (line :: rest).length := by
  have hindent := yamlIndent_of_isListItem hline
  have hdashed := yamlDashed_of_isListItem hline
  rw [yamlServerRecords, List.length_cons, Nat.lt_succ_iff]
  split_ifs with hskip hlt heq
  · exact length_yamlServerRecords_le
  · omega
  · exact absurd hdashed heq.2
  · split
    · exact length_yamlServerRecords_le
    · split_ifs
      · exact length_yamlServerRecords_le.trans (List.length_dropWhile_le ..)
      · exact length_yamlServerRecords_le.trans length_yamlRecords_le
      · exact length_yamlServerRecords_le

/-! ## Demands -/

/-- What a record asks for. -/
def RouteFields.demand (fields : RouteFields) : Demand :=
  if fields.method ≠ [] ∧ fields.path ≠ [] ∧ fields.handlerName ≠ [] then
    let (path, matchType) := pathMatch fields.path
    let htype := routeTableLookupHandler fields.handlerName
    if htype = .none then .wrong
    else .routes [⟨fields.method, path, matchType, htype, fields.authRealm, fields.authRole⟩]
  else .routes []

/-- What the items of a `servers` list ask for, and the lines behind it. -/
def yamlServersDemands (lines : List CStr) : List Demand × List CStr :=
  match lines with
  | [] => ([], [])
  | line :: rest =>
    if yamlBlank line then yamlServersDemands rest
    else if yamlIndent line = 0 then ([], line :: rest)
    else if _ : yamlIsListItem line 2 then
      let behind := yamlServersDemands (yamlServerRecords 2 (line :: rest)).2
      (.server :: (yamlServerRecords 2 (line :: rest)).1.map RouteFields.demand ++ behind.1,
        behind.2)
    else yamlServersDemands rest
termination_by lines.length
decreasing_by
  · exact Nat.lt_succ_self _
  · exact length_yamlServerRecords_lt ‹_›
  · exact Nat.lt_succ_self _

theorem length_yamlServersDemands_le : (yamlServersDemands lines).2.length ≤ lines.length := by
  fun_induction yamlServersDemands lines with
  | case1 => exact le_refl _
  | case2 line rest hskip ih => exact ih.trans (Nat.le_succ _)
  | case3 line rest hskip hzero => exact le_refl _
  | case4 line rest hskip hzero hline behind ih =>
    exact ih.trans (length_yamlServerRecords_lt hline).le
  | case5 line rest hskip hzero hline ih => exact ih.trans (Nat.le_succ _)

/-- The lines under `logging`. -/
def inLogging (line : CStr) : Bool := yamlBlank line || decide (2 < yamlIndent line)

/-- What the lines of a file ask for. -/
def yamlDemands (lines : List CStr) : List Demand :=
  match lines with
  | [] => []
  | line :: rest =>
    if yamlBlank line ∨ yamlIsDocMarker line ∨ 0 < yamlIndent line ∨ 58 ∉ line then
      yamlDemands rest
    else
      let key := cut 64 (line.takeWhile (· ≠ 58))
      if key = ascii "logging" then yamlDemands (rest.dropWhile inLogging)
      else if key = ascii "routes" then
        (yamlRecords 0 rest).1.map RouteFields.demand ++ yamlDemands (yamlRecords 0 rest).2
      else if key = ascii "servers" then
        (yamlServersDemands rest).1 ++ yamlDemands (yamlServersDemands rest).2
      else yamlDemands rest
termination_by lines.length
decreasing_by
  · exact Nat.lt_succ_self _
  · exact Nat.lt_succ_of_le (List.length_dropWhile_le ..)
  · exact Nat.lt_succ_of_le length_yamlRecords_le
  · exact Nat.lt_succ_of_le length_yamlServersDemands_le
  · exact Nat.lt_succ_self _

/-! ## What the loader does -/

/-- The records are added one after the other. -/
def addRecords (records : List RouteFields) (rt : RouteTable) : Loaded RouteTable :=
  records.foldlM (fun rt fields => addRouteMap fields rt) rt

theorem addRecords_cons (fields : RouteFields) (records : List RouteFields) (rt : RouteTable) :
    addRecords (fields :: records) rt = (addRouteMap fields rt).bind (addRecords records) := rfl

theorem addRecords_append (xs ys : List RouteFields) (rt : RouteTable) :
    addRecords (xs ++ ys) rt = (addRecords xs rt).bind (addRecords ys) :=
  List.foldlM_append

theorem yamlParseRouteMap_cons (hline : yamlIsListItem line base = true) :
    yamlParseRouteMap (line :: rest) base rt =
      (addRouteMap (yamlRecord base (line :: rest)) rt).map fun rt =>
        (rt, rest.dropWhile (inRouteMap base)) := by
  have hin : inRouteMap base line = true := by
    rw [inRouteMap, yamlDashed_of_isListItem hline, Bool.or_true]
  rw [yamlParseRouteMap, List.dropWhile_cons_of_pos hin]
  rfl

/-- `yaml_parse_routes` adds the records of its lines. -/
theorem yamlParseRoutes_eq (base : Nat) (lines : List CStr) (rt : RouteTable) :
    yamlParseRoutes base lines rt =
      (addRecords (yamlRecords base lines).1 rt).map fun rt =>
        (rt, (yamlRecords base lines).2) := by
  fun_induction yamlParseRoutes base lines rt with
  | case1 rt =>
    rw [yamlRecords]
    rfl
  | case2 rt line rest hskip ih =>
    rw [yamlRecords, if_pos hskip]
    exact ih
  | case3 rt line rest hskip hlt =>
    rw [yamlRecords, if_neg hskip, if_pos hlt]
    rfl
  | case4 rt line rest hskip hlt heq =>
    rw [yamlRecords, if_neg hskip, if_neg hlt, if_pos heq]
    rfl
  | case5 rt line rest hskip hlt heq hline e he =>
    rw [yamlRecords, if_neg hskip, if_neg hlt, if_neg heq, if_pos hline, addRecords_cons]
    rw [yamlParseRouteMap_cons hline] at he
    cases hadd : addRouteMap (yamlRecord (base + 2) (line :: rest)) rt with
    | error e' =>
      rw [hadd] at he
      cases he
      rfl
    | ok rt' =>
      rw [hadd] at he
      cases he
  | case6 rt line rest hskip hlt heq hline rt₁ lines₁ hmap ih =>
    rw [yamlRecords, if_neg hskip, if_neg hlt, if_neg heq, if_pos hline, addRecords_cons]
    rw [yamlParseRouteMap_cons hline] at hmap
    cases hadd : addRouteMap (yamlRecord (base + 2) (line :: rest)) rt with
    | error e' =>
      rw [hadd] at hmap
      cases hmap
    | ok rt' =>
      rw [hadd] at hmap
      cases hmap
      exact ih
  | case7 rt line rest hskip hlt heq hline ih =>
    rw [yamlRecords, if_neg hskip, if_neg hlt, if_neg heq, if_neg hline]
    exact ih

theorem yamlParseRoutes_error {e : Failure} (h : yamlParseRoutes base lines rt = .error e) :
    addRecords (yamlRecords base lines).1 rt = .error e := by
  rw [yamlParseRoutes_eq] at h
  cases hadd : addRecords (yamlRecords base lines).1 rt with
  | error e' =>
    rw [hadd] at h
    cases h
    rfl
  | ok rt' =>
    rw [hadd] at h
    cases h

theorem yamlParseRoutes_ok {rt' : RouteTable}
    (h : yamlParseRoutes base lines rt = .ok (rt', rest)) :
    addRecords (yamlRecords base lines).1 rt = .ok rt' ∧ rest = (yamlRecords base lines).2 := by
  rw [yamlParseRoutes_eq] at h
  cases hadd : addRecords (yamlRecords base lines).1 rt with
  | error e =>
    rw [hadd] at h
    cases h
  | ok rt₁ =>
    rw [hadd] at h
    cases h
    exact ⟨rfl, rfl⟩

/-- The list of names is read up to the line behind it. -/
theorem yamlParseStringList_rest {maxCount : Nat} {names : List CStr}
    (h : yamlParseStringList base maxCount lines = (names, rest)) :
    rest = lines.dropWhile (inStringList base) :=
  (congrArg Prod.snd h).symm

theorem yamlServerRecords_other {key value : CStr} (hskip : ¬yamlBlank line = true)
    (hlt : ¬yamlIndent line < base) (heq : ¬(yamlIndent line = base ∧ ¬yamlDashed line = true))
    (hpair : yamlParseKeyValue line = some (key, value)) (hnames : key ≠ ascii "server_name")
    (hroutes : key ≠ ascii "routes") :
    yamlServerRecords base (line :: rest) = yamlServerRecords base rest := by
  rw [yamlServerRecords, if_neg hskip, if_neg hlt, if_neg heq, hpair]
  simp only [if_neg hnames, if_neg hroutes]

/-- `yaml_parse_server` adds the records of its `routes` lists. -/
theorem yamlServerLines_eq (base : Nat) (lines : List CStr) (block : ServerBlock)
    (rt : RouteTable) :
    (yamlServerLines base lines block rt).map (·.2) =
      (addRecords (yamlServerRecords base lines).1 rt).map fun rt =>
        (rt, (yamlServerRecords base lines).2) := by
  fun_induction yamlServerLines base lines block rt with
  | case1 block rt =>
    rw [yamlServerRecords]
    rfl
  | case2 block rt line rest hskip ih =>
    rw [yamlServerRecords, if_pos hskip]
    exact ih
  | case3 block rt line rest hskip hlt =>
    rw [yamlServerRecords, if_neg hskip, if_pos hlt]
    rfl
  | case4 block rt line rest hskip hlt heq =>
    rw [yamlServerRecords, if_neg hskip, if_neg hlt, if_pos heq]
    rfl
  | case5 block rt line rest hskip hlt heq hnone ih =>
    rw [yamlServerRecords, if_neg hskip, if_neg hlt, if_neg heq, hnone]
    exact ih
  | case6 block rt line rest hskip hlt heq value hpair ih =>
    rw [yamlServerRecords_other hskip hlt heq hpair (by decide) (by decide)]
    exact ih
  | case7 block rt line rest hskip hlt heq value names lines₁ hlist hpair _ ih =>
    rw [yamlServerRecords, if_neg hskip, if_neg hlt, if_neg heq, hpair]
    rw [yamlParseStringList_rest hlist] at ih
    rw [yamlParseStringList_rest hlist]
    simp only [↓reduceIte]
    exact ih
  | case8 block rt line rest hskip hlt heq value hpair _ _ ih =>
    rw [yamlServerRecords_other hskip hlt heq hpair (by decide) (by decide)]
    exact ih
  | case9 block rt line rest hskip hlt heq value hpair _ _ _ ih =>
    rw [yamlServerRecords_other hskip hlt heq hpair (by decide) (by decide)]
    exact ih
  | case10 block rt line rest hskip hlt heq value e hroutes hpair _ hnames =>
    rw [yamlServerRecords, if_neg hskip, if_neg hlt, if_neg heq, hpair]
    simp only [if_neg hnames, ↓reduceIte]
    rw [addRecords_append, yamlParseRoutes_error hroutes]
    rfl
  | case11 block rt line rest hskip hlt heq value rt₁ lines₁ hroutes hpair _ hnames _ _ ih =>
    rw [yamlServerRecords, if_neg hskip, if_neg hlt, if_neg heq, hpair]
    obtain ⟨hadd, rfl⟩ := yamlParseRoutes_ok hroutes
    simp only [if_neg hnames, ↓reduceIte]
    rw [addRecords_append, hadd]
    exact ih
  | case12 block rt line rest hskip hlt heq key value hpair _ hnames _ _ hroutes ih =>
    rw [yamlServerRecords_other hskip hlt heq hpair hnames hroutes]
    exact ih

/-! ## Servers and the whole file -/

theorem meet_demand (fields : RouteFields) (n : Nat) (rt : RouteTable) :
    meet fields.demand (n, rt) = (addRouteMap fields rt).map fun rt => (n, rt) := by
  rw [RouteFields.demand, addRouteMap]
  by_cases hall : fields.method ≠ [] ∧ fields.path ≠ [] ∧ fields.handlerName ≠ []
  · rw [if_pos hall, if_pos hall]
    by_cases hnone : routeTableLookupHandler fields.handlerName = .none
    · simp only [if_pos hnone]
      rfl
    · simp only [if_neg hnone]
      rw [meet, List.foldlM_cons]
      cases addRoute _ rt with
      | error e => rfl
      | ok rt' => rfl
  · rw [if_neg hall, if_neg hall]
    rfl

theorem meets_records (records : List RouteFields) (n : Nat) (rt : RouteTable) :
    meets (records.map RouteFields.demand) (n, rt) =
      (addRecords records rt).map fun rt => (n, rt) := by
  induction records generalizing rt with
  | nil => rfl
  | cons fields records ih =>
    rw [List.map_cons, meets_cons, meet_demand, addRecords_cons]
    cases addRouteMap fields rt with
    | error e => rfl
    | ok rt' => exact ih rt'

/-- `yaml_parse_server` asks for a server and for the routes of its block. -/
theorem yamlParseServer_eq (base : Nat) (lines : List CStr) (config : LoadedConfig) :
    (yamlParseServer base lines config).map (fun r => (r.1.summary, r.2)) =
      (meets (.server :: (yamlServerRecords base lines).1.map RouteFields.demand)
        config.summary).map fun state => (state, (yamlServerRecords base lines).2) := by
  rw [yamlParseServer, meets_cons, LoadedConfig.summary, meet]
  by_cases hfull : maxServerBlocks ≤ config.servers.length
  · rw [if_pos hfull, if_pos hfull]
    rfl
  · rw [if_neg hfull, if_neg hfull]
    have hlines := yamlServerLines_eq base lines .fresh config.routeTable
    refine Eq.trans ?_ (congrArg (Except.map _)
      (meets_records (yamlServerRecords base lines).1 (config.servers.length + 1)
        config.routeTable).symm)
    rcases map_eq_cases hlines with ⟨e, hloop, hadd⟩ | ⟨⟨block, r⟩, rt, hloop, hadd, hr⟩
    · rw [hloop, hadd]
      rfl
    · rw [hloop, hadd]
      cases hr
      exact congrArg (fun s => Except.ok (s, _)) (summary_add config block rt)

/-- The loop over the list under `servers`. -/
theorem yamlParseServers_eq (lines : List CStr) (config : LoadedConfig) :
    (yamlParseServers lines config).map (fun r => (r.1.summary, r.2)) =
      (meets (yamlServersDemands lines).1 config.summary).map fun state =>
        (state, (yamlServersDemands lines).2) := by
  fun_induction yamlParseServers lines config with
  | case1 config =>
    rw [yamlServersDemands]
    rfl
  | case2 config line rest hskip ih =>
    rw [yamlServersDemands, if_pos hskip]
    exact ih
  | case3 config line rest hskip hzero =>
    rw [yamlServersDemands, if_neg hskip, if_pos hzero]
    rfl
  | case4 config line rest hskip hzero hline e hserver =>
    rw [yamlServersDemands, if_neg hskip, if_neg hzero, dif_pos hline, meets_append]
    rcases map_eq_cases (yamlParseServer_eq 2 (line :: rest) config) with
      ⟨e', hparse, hmeets⟩ | ⟨r, state, hparse, -, -⟩
    · rw [hmeets]
      cases hserver.symm.trans hparse
      rfl
    · cases hserver.symm.trans hparse
  | case5 config line rest hskip hzero hline config₁ lines₁ hserver ih =>
    rw [yamlServersDemands, if_neg hskip, if_neg hzero, dif_pos hline, meets_append]
    rcases map_eq_cases (yamlParseServer_eq 2 (line :: rest) config) with
      ⟨e', hparse, -⟩ | ⟨r, state, hparse, hmeets, hr⟩
    · cases hserver.symm.trans hparse
    · cases hserver.symm.trans hparse
      cases hr
      rw [hmeets]
      exact ih
  | case6 config line rest hskip hzero hline ih =>
    rw [yamlServersDemands, if_neg hskip, if_neg hzero, dif_neg hline]
    exact ih

/-- The loader does with the lines of a file what they ask for. -/
theorem loadYamlConfig_eq (lines : List CStr) (config : LoadedConfig) :
    (loadYamlConfig lines config).map (·.summary) = meets (yamlDemands lines) config.summary := by
  fun_induction loadYamlConfig lines config with
  | case1 config =>
    rw [yamlDemands]
    rfl
  | case2 config line rest hskip ih =>
    rw [yamlDemands, if_pos hskip]
    exact ih
  | case3 config line rest hgo key hkey settings lines₁ hlogging ih =>
    have hlines : lines₁ = rest.dropWhile inLogging := (congrArg Prod.snd hlogging).symm
    rw [yamlDemands, if_neg hgo]
    dsimp only
    rw [if_pos hkey, ← hlines]
    exact ih
  | case4 config line rest hgo key hlog hkey e hroutes =>
    rw [yamlDemands, if_neg hgo]
    dsimp only
    rw [if_neg hlog, if_pos hkey, meets_append, LoadedConfig.summary, meets_records,
      yamlParseRoutes_error hroutes]
    rfl
  | case5 config line rest hgo key hlog hkey rt₁ lines₁ hroutes ih =>
    rw [yamlDemands, if_neg hgo]
    dsimp only
    obtain ⟨hadd, rfl⟩ := yamlParseRoutes_ok hroutes
    rw [if_neg hlog, if_pos hkey, meets_append, LoadedConfig.summary, meets_records, hadd]
    exact ih
  | case6 config line rest hgo key hlog hroutes hkey e hservers =>
    rw [yamlDemands, if_neg hgo]
    dsimp only
    rw [if_neg hlog, if_neg hroutes, if_pos hkey, meets_append]
    rcases map_eq_cases (yamlParseServers_eq rest config) with
      ⟨e', hparse, hmeets⟩ | ⟨r, state, hparse, -, -⟩
    · rw [hmeets]
      cases hservers.symm.trans hparse
      rfl
    · cases hservers.symm.trans hparse
  | case7 config line rest hgo key hlog hroutes hkey config₁ lines₁ hservers ih =>
    rw [yamlDemands, if_neg hgo]
    dsimp only
    rw [if_neg hlog, if_neg hroutes, if_pos hkey, meets_append]
    rcases map_eq_cases (yamlParseServers_eq rest config) with
      ⟨e', hparse, -⟩ | ⟨r, state, hparse, hmeets, hr⟩
    · cases hservers.symm.trans hparse
    · cases hservers.symm.trans hparse
      cases hr
      rw [hmeets]
      exact ih
  | case8 config line rest hgo key hlog hroutes hservers ih =>
    rw [yamlDemands, if_neg hgo]
    dsimp only
    rw [if_neg hlog, if_neg hroutes, if_neg hservers]
    exact ih

/-! ## The buffers -/

/-- The texts are in their buffers. -/
structure RouteFields.Fits (fields : RouteFields) : Prop where
  method : fields.method.length < 16
  path : fields.path.length < 256

theorem RouteFields.Fits.set (h : fields.Fits) (key value : CStr) :
    (fields.set key value).Fits := by
  rw [RouteFields.set]
  split_ifs
  · refine ⟨?_, h.path⟩
    show ((cut 16 value).map toUpper).length < 16
    rw [List.length_map]
    exact Nat.lt_succ_of_le (List.length_take_le 15 value)
  · exact ⟨h.method, Nat.lt_succ_of_le (List.length_take_le 255 value)⟩
  · exact ⟨h.method, h.path⟩
  · exact ⟨h.method, h.path⟩
  · exact ⟨h.method, h.path⟩
  · exact h

theorem routeMapLine_fits (h : fields.Fits) (line : CStr) : (routeMapLine line fields).Fits := by
  rw [routeMapLine]
  dsimp only
  split_ifs
  · exact h
  · exact h.set _ _
  · exact h
  · exact h.set _ _
  · exact h

theorem yamlRecord_fits (listIndent : Nat) (lines : List CStr) :
    (yamlRecord listIndent lines).Fits := by
  rw [yamlRecord]
  have hempty : RouteFields.empty.Fits := ⟨by decide, by decide⟩
  generalize RouteFields.empty = fields at hempty ⊢
  induction lines.takeWhile (inRouteMap listIndent) generalizing fields with
  | nil => exact hempty
  | cons line lines ih => exact ih _ (routeMapLine_fits hempty line)

theorem yamlRecords_fit : ∀ fields ∈ (yamlRecords base lines).1, fields.Fits := by
  fun_induction yamlRecords base lines with
  | case1 => exact List.forall_mem_nil _
  | case2 line rest hskip ih => exact ih
  | case3 line rest hskip hlt => exact List.forall_mem_nil _
  | case4 line rest hskip hlt heq => exact List.forall_mem_nil _
  | case5 line rest hskip hlt heq hitem behind ih =>
    exact List.forall_mem_cons.mpr ⟨yamlRecord_fits _ _, ih⟩
  | case6 line rest hskip hlt heq hitem ih => exact ih

theorem yamlServerRecords_fit : ∀ fields ∈ (yamlServerRecords base lines).1, fields.Fits := by
  fun_induction yamlServerRecords base lines with
  | case1 => exact List.forall_mem_nil _
  | case2 line rest hskip ih => exact ih
  | case3 line rest hskip hlt => exact List.forall_mem_nil _
  | case4 line rest hskip hlt heq => exact List.forall_mem_nil _
  | case5 line rest hskip hlt heq hnone ih => exact ih
  | case6 line rest hskip hlt heq value hpair ih => exact ih
  | case7 line rest hskip hlt heq value hpair hnames behind ih =>
    exact List.forall_mem_append.mpr ⟨yamlRecords_fit, ih⟩
  | case8 line rest hskip hlt heq key value hpair hnames hroutes ih => exact ih

theorem RouteFields.Fits.demand (h : fields.Fits) : fields.demand.Fits := by
  rw [RouteFields.demand, Demand.Fits]
  by_cases hall : fields.method ≠ [] ∧ fields.path ≠ [] ∧ fields.handlerName ≠ []
  · rw [if_pos hall]
    by_cases hnone : routeTableLookupHandler fields.handlerName = .none
    · simp only [if_pos hnone]
      exact List.forall_mem_nil _
    · simp only [if_neg hnone]
      rw [Demand.routeList, List.forall_mem_singleton]
      exact ⟨⟨h.method, lt_of_le_of_lt (length_pathMatch_le _) h.path⟩, hnone⟩
  · rw [if_neg hall]
    exact List.forall_mem_nil _

theorem records_fit {records : List RouteFields} (h : ∀ fields ∈ records, fields.Fits) :
    ∀ d ∈ records.map RouteFields.demand, d.Fits :=
  List.forall_mem_map.mpr fun fields hfields => (h fields hfields).demand

theorem yamlServersDemands_fit : ∀ d ∈ (yamlServersDemands lines).1, d.Fits := by
  fun_induction yamlServersDemands lines with
  | case1 => exact List.forall_mem_nil _
  | case2 line rest hskip ih => exact ih
  | case3 line rest hskip hzero => exact List.forall_mem_nil _
  | case4 line rest hskip hzero hline behind ih =>
    rw [List.forall_mem_append, List.forall_mem_cons]
    exact ⟨⟨List.forall_mem_nil _, records_fit yamlServerRecords_fit⟩, ih⟩
  | case5 line rest hskip hzero hline ih => exact ih

theorem yamlDemands_fit : ∀ d ∈ yamlDemands lines, d.Fits := by
  fun_induction yamlDemands lines with
  | case1 => exact List.forall_mem_nil _
  | case2 line rest hskip ih => exact ih
  | case3 line rest hgo key hkey ih => exact ih
  | case4 line rest hgo key hlog hkey ih =>
    exact List.forall_mem_append.mpr ⟨records_fit yamlRecords_fit, ih⟩
  | case5 line rest hgo key hlog hroutes hkey ih =>
    exact List.forall_mem_append.mpr ⟨yamlServersDemands_fit, ih⟩
  | case6 line rest hgo key hlog hroutes hservers ih => exact ih

end MiniWeb.Config
