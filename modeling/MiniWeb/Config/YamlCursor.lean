import MiniWeb.Config.Yaml
import MiniWeb.Lib.Cursor
import MiniWeb.Routing.Lookup

/-!
# The cursor of the YAML loader

The loops of the YAML loader pass by pass, over one array of lines and with the cursor `idx` that
they share. `passes` bounds the passes of each loop; a function has no result when a loop reaches
the bound. Every function moves the cursor on as far as its caller relies on it, so that with more
passes than lines all loops end, with what the functions over the lines from the cursor on compute.
-/

namespace MiniWeb.Config.Cursor

open CStr Loop Routing

/-! ## The loops -/

section

variable (passes : Nat) (lines : List CStr)

def lineAt (idx : Nat) : CStr := lines.getD idx []

/-- A pass of a loop that skips blank lines, ends at a line and reads one line at a time. -/
def linePass {D : Type} (ends : CStr → Bool) (read : CStr → D → D) : Pass D D
  | (idx, d) =>
    if idx < lines.length then
      if yamlBlank (lineAt lines idx) then some (.next (idx + 1, d))
      else if ends (lineAt lines idx) then some (.done (idx, d))
      else some (.next (idx + 1, read (lineAt lines idx) d))
    else some (.done (idx, d))

/-- The loop of `yaml_parse_route_map`. -/
def routeMapPass (listIndent : Nat) : Pass RouteFields RouteFields :=
  linePass lines (fun l => decide (yamlIndent l ≤ listIndent) && !yamlDashed l) routeMapLine

def yamlParseRouteMap (listIndent idx : Nat) (rt : RouteTable) :
    Option (Nat × Loaded RouteTable) :=
  (runChecked (routeMapPass lines listIndent) passes (idx, .empty)).map fun a =>
    (a.1, addRouteMap a.2 rt)

/-- The loop of `yaml_parse_routes`. -/
def routesPass (baseIndent : Nat) : Pass RouteTable (Loaded RouteTable)
  | (idx, rt) =>
    if idx < lines.length then
      let l := lineAt lines idx
      if yamlBlank l ∨ yamlIsDocMarker l then some (.next (idx + 1, rt))
      else if yamlIndent l < baseIndent then some (.done (idx, .ok rt))
      else if yamlIndent l = baseIndent ∧ ¬yamlIsListItem l (baseIndent + 2) then
        some (.done (idx, .ok rt))
      else if yamlIsListItem l (baseIndent + 2) then
        (yamlParseRouteMap passes lines (baseIndent + 2) idx rt).map (afterCall id)
      else some (.next (idx + 1, rt))
    else some (.done (idx, .ok rt))

def yamlParseRoutes (baseIndent idx : Nat) (rt : RouteTable) : Option (Nat × Loaded RouteTable) :=
  runChecked (routesPass passes lines baseIndent) passes (idx, rt)

/-- The loop of `yaml_parse_string_list`. -/
def stringListPass (baseIndent maxCount : Nat) : Pass (List CStr) (List CStr) :=
  linePass lines (fun l => decide (yamlIndent l ≤ baseIndent)) fun l arr =>
    if yamlIsListItem l (baseIndent + 2) ∧ arr.length < maxCount then arr ++ [yamlGetValue l 128]
    else arr

def yamlParseStringList (baseIndent maxCount idx : Nat) : Option (Nat × List CStr) :=
  runChecked (stringListPass lines baseIndent maxCount) passes (idx, [])

/-- The loop of `yaml_parse_server`. -/
def serverPass (baseIndent : Nat) :
    Pass (ServerBlock × RouteTable) (Loaded (ServerBlock × RouteTable))
  | (idx, block, rt) =>
    if idx < lines.length then
      let l := lineAt lines idx
      if yamlBlank l then some (.next (idx + 1, block, rt))
      else if yamlIndent l < baseIndent then some (.done (idx, .ok (block, rt)))
      else if yamlIndent l = baseIndent ∧ ¬yamlDashed l then some (.done (idx, .ok (block, rt)))
      else
        match yamlParseKeyValue l with
        | none => some (.next (idx + 1, block, rt))
        | some (key, value) =>
          if key = ascii "listen" then some (.next (idx + 1, parseListen value block, rt))
          else if key = ascii "server_name" then
            (yamlParseStringList passes lines (yamlIndent l) maxServerNames (idx + 1)).map fun a =>
              .next (a.1, { block with serverNames := a.2 }, rt)
          else if key = ascii "root" then
            some (.next (idx + 1, { block with root := cut 128 value }, rt))
          else if key = ascii "access_log" then
            some (.next (idx + 1, { block with accessLog := cut 128 value }, rt))
          else if key = ascii "routes" then
            (yamlParseRoutes passes lines (yamlIndent l) (idx + 1) rt).map
              (afterCall fun rt => (block, rt))
          else some (.next (idx + 1, block, rt))
    else some (.done (idx, .ok (block, rt)))

def yamlParseServer (baseIndent idx : Nat) (config : LoadedConfig) :
    Option (Nat × Loaded LoadedConfig) :=
  if maxServerBlocks ≤ config.servers.length then some (idx, .error .refused)
  else
    (runChecked (serverPass passes lines baseIndent) passes (idx, .fresh, config.routeTable)).map
      fun a => (a.1, a.2.map fun r =>
        { config with servers := config.servers ++ [r.1], routeTable := r.2 })

/-- The loop of `load_yaml_config` under `servers`. -/
def serversPass : Pass LoadedConfig (Loaded LoadedConfig)
  | (idx, config) =>
    if idx < lines.length then
      let l := lineAt lines idx
      if yamlBlank l then some (.next (idx + 1, config))
      else if yamlIndent l = 0 then some (.done (idx, .ok config))
      else if yamlIsListItem l 2 then
        (yamlParseServer passes lines 2 idx config).map (afterCall id)
      else some (.next (idx + 1, config))
    else some (.done (idx, .ok config))

/-- The loop of `load_yaml_config` under `logging`. -/
def loggingPass : Pass Settings Settings :=
  linePass lines (fun l => decide (yamlIndent l ≤ 2)) yamlLoggingLine

/-- The loop of `load_yaml_config`. -/
def loadPass : Pass LoadedConfig (Loaded LoadedConfig)
  | (idx, config) =>
    if idx < lines.length then
      let l := lineAt lines idx
      if yamlBlank l ∨ yamlIsDocMarker l ∨ 0 < yamlIndent l ∨ 58 ∉ l then
        some (.next (idx + 1, config))
      else
        let key := cut 64 (l.takeWhile (· ≠ 58))
        if key = ascii "logging" then
          (runChecked (loggingPass lines) passes (idx + 1, config.settings)).map fun a =>
            .next (a.1, { config with settings := a.2 })
        else if key = ascii "routes" then
          (yamlParseRoutes passes lines 0 (idx + 1) config.routeTable).map
            (afterCall fun rt => { config with routeTable := rt })
        else if key = ascii "servers" then
          (runChecked (serversPass passes lines) passes (idx + 1, config)).map (afterCall id)
        else
          some (.next (idx + 1, { config with settings := yamlSetting key l config.settings }))
    else some (.done (idx, .ok config))

def loadYamlConfig (config : LoadedConfig) : Option (Nat × Loaded LoadedConfig) :=
  runChecked (loadPass passes lines) passes (0, config)

end

/-! ## Loops that read one line at a time -/

section

variable {lines : List CStr} {idx : Nat}

theorem drop_lineAt (h : idx < lines.length) :
    lines.drop idx = lineAt lines idx :: lines.drop (idx + 1) := by
  rw [List.drop_eq_getElem_cons h, lineAt, List.getD_eq_getElem?_getD, List.getElem?_eq_getElem h,
    Option.getD_some]

theorem drop_end (h : ¬idx < lines.length) : lines.drop idx = [] :=
  List.drop_eq_nil_of_le (by omega)

variable {D : Type} {ends : CStr → Bool} {read : CStr → D → D}

/-- The loop does not end at the line. -/
def passesLine (ends : CStr → Bool) (l : CStr) : Bool := yamlBlank l || !ends l

/-- What the loop makes of the lines up to the first that ends it, and the lines it leaves. -/
def ReadsLines (lines : List CStr) (ends : CStr → Bool) (read : CStr → D → D) (s a : Nat × D) :
    Prop :=
  ((lines.drop s.1).takeWhile (passesLine ends)).foldl
      (fun d l => if yamlBlank l then d else read l d) s.2 = a.2 ∧
    (lines.drop s.1).dropWhile (passesLine ends) = lines.drop a.1

/-- Lines that are indented further than `n`. -/
theorem passesLine_indent (n : Nat) : passesLine (fun l => decide (yamlIndent l ≤ n)) =
    fun l => yamlBlank l || decide (n < yamlIndent l) := by
  funext l
  rw [passesLine, ← decide_not]
  simp only [not_le]

/-- Blank lines are skipped by what reads nothing of them. -/
theorem skip_blank (h : ∀ l d, yamlBlank l = true → read l d = d) :
    (fun d l => if yamlBlank l then d else read l d) = fun d l => read l d := by
  funext d l
  by_cases hblank : yamlBlank l = true
  · rw [if_pos hblank, h l d hblank]
  · rw [if_neg hblank]

theorem readsLines_stop {idx : Nat} (d : D)
    (h : ∀ l ∈ (lines.drop idx).head?, ¬passesLine ends l = true) :
    ReadsLines lines ends read (idx, d) (idx, d) := by
  rw [ReadsLines]
  cases hdrop : lines.drop idx with
  | nil => exact ⟨rfl, rfl⟩
  | cons l rest =>
    rw [hdrop] at h
    rw [List.takeWhile_cons_of_neg (h l rfl), List.dropWhile_cons_of_neg (h l rfl)]
    exact ⟨rfl, rfl⟩

/-- The cursor is behind the last line or at one that ends the loop. -/
def AtEnd (lines : List CStr) (ends : CStr → Bool) (idx : Nat) : Prop :=
  idx < lines.length → passesLine ends (lineAt lines idx) = false

theorem linePass_loop (lines : List CStr) (ends : CStr → Bool) (read : CStr → D → D) :
    CursorLoop lines.length (AtEnd lines ends) (linePass lines ends read)
      (ReadsLines lines ends read) := by
  rintro ⟨idx, d⟩ hidx
  rw [linePass]
  by_cases hin : idx < lines.length
  · have hnext : ∀ d', passesLine ends (lineAt lines idx) = true →
        (if yamlBlank (lineAt lines idx) then d else read (lineAt lines idx) d) = d' →
        (Step.next (idx + 1, d')).Owes lines.length (AtEnd lines ends)
          (ReadsLines lines ends read) (idx, d) := by
      intro d' hpasses hread
      refine ⟨Nat.lt_succ_self idx, hin, ?_⟩
      rintro a ⟨hfold, hrest⟩
      rw [ReadsLines, drop_lineAt hin, List.takeWhile_cons_of_pos hpasses,
        List.dropWhile_cons_of_pos hpasses, List.foldl_cons, hread]
      exact ⟨hfold, hrest⟩
    rw [if_pos hin]
    by_cases hblank : yamlBlank (lineAt lines idx) = true
    · refine ⟨_, if_pos hblank, hnext d ?_ (if_pos hblank)⟩
      rw [passesLine, hblank, Bool.true_or]
    rw [if_neg hblank]
    by_cases hends : ends (lineAt lines idx) = true
    · have hout : passesLine ends (lineAt lines idx) = false := by
        simp [passesLine, hblank, hends]
      refine ⟨_, if_pos hends, Or.inr ⟨rfl, fun _ => hout⟩, hidx, readsLines_stop d ?_⟩
      rw [drop_lineAt hin, List.head?_cons]
      rintro l hl
      cases hl
      rw [hout]
      exact Bool.false_ne_true
    · refine ⟨_, if_neg hends, hnext _ ?_ (if_neg hblank)⟩
      simp [passesLine, hends]
  · rw [if_neg hin]
    refine ⟨_, rfl, Or.inr ⟨rfl, fun h => absurd h hin⟩, hidx, readsLines_stop d ?_⟩
    rw [drop_end hin]
    intro l hl
    cases hl

end

/-! ## Loops that call other loops -/

section

variable {lines : List CStr} {D A B : Type} {list : List CStr → D → Loaded (A × List CStr)}
  {stop : Nat → Prop} {s s' : Nat × D} {idx : Nat}

/-- There is no list item at the cursor. -/
def NoItem (lines : List CStr) (indent idx : Nat) : Prop :=
  idx < lines.length → yamlIsListItem (lineAt lines idx) indent = false

/-- The function returns 0 or `-1`. -/
def Answers (r : Loaded A) : Prop := ∀ e, r = .error e → e = .refused

theorem answers_ok (v : A) : Answers (.ok v : Loaded A) := by
  intro e he
  cases he

theorem answers_refused : Answers (.error .refused : Loaded A) := by
  intro e he
  cases he
  rfl

/-- The value and the lines from the cursor on. -/
def fromCursor (lines : List CStr) (a : Nat × Loaded A) : Loaded (A × List CStr) :=
  a.2.map fun v => (v, lines.drop a.1)

/-- The loop ends with what `list` computes of the lines from the cursor on. -/
def Follows (lines : List CStr) (list : List CStr → D → Loaded (A × List CStr)) (s : Nat × D)
    (a : Nat × Loaded A) : Prop :=
  Answers a.2 ∧ list (lines.drop s.1) s.2 = fromCursor lines a

theorem owes_next (hlt : s.1 < s'.1) (hle : s'.1 ≤ lines.length)
    (h : list (lines.drop s.1) s.2 = list (lines.drop s'.1) s'.2) :
    (Step.next s').Owes lines.length stop (Follows lines list) s :=
  ⟨hlt, hle, fun _ ha => ⟨ha.1, h.trans ha.2⟩⟩

theorem owes_done {v : A} (hstop : stop s.1) (hle : s.1 ≤ lines.length)
    (h : list (lines.drop s.1) s.2 = .ok (v, lines.drop s.1)) :
    (Step.done (s.1, .ok v)).Owes lines.length stop (Follows lines list) s :=
  ⟨Or.inr ⟨rfl, hstop⟩, hle, answers_ok v, h⟩

/-- One line is taken. -/
theorem owes_line (hin : idx < lines.length) {d d' : D}
    (h : list (lineAt lines idx :: lines.drop (idx + 1)) d = list (lines.drop (idx + 1)) d') :
    (Step.next (idx + 1, d')).Owes lines.length stop (Follows lines list) (idx, d) := by
  refine owes_next (Nat.lt_succ_self idx) hin ?_
  rw [drop_lineAt hin]
  exact h

/-- The line is left to the caller. -/
theorem owes_leave (hin : idx < lines.length) (hstop : stop idx) {d : D} {v : A}
    (h : list (lineAt lines idx :: lines.drop (idx + 1)) d =
      .ok (v, lineAt lines idx :: lines.drop (idx + 1))) :
    (Step.done (idx, .ok v)).Owes lines.length stop (Follows lines list) (idx, d) := by
  refine owes_done hstop (Nat.le_of_lt hin) ?_
  rw [drop_lineAt hin]
  exact h

/-- What is owed after a callee, which has moved the cursor on if it returns 0. -/
theorem owes_afterCall {next : B → D} {a : Nat × Loaded B} (hmoved : Moved stop s.1 a.1)
    (hlt : ∀ v, a.2 = .ok v → s.1 < a.1) (hle : a.1 ≤ lines.length) (hans : Answers a.2)
    (h : list (lines.drop s.1) s.2 =
      (fromCursor lines a).bind fun r => list r.2 (next r.1)) :
    (afterCall next a).Owes lines.length stop (Follows lines list) s := by
  obtain ⟨idx', r⟩ := a
  cases r with
  | error e =>
    refine ⟨hmoved, hle, ?_, h⟩
    rw [hans e rfl]
    exact answers_refused
  | ok v => exact owes_next (hlt v rfl) hle h

end

/-! ## Routes -/

section

variable {passes : Nat} {lines : List CStr} {idx : Nat}

theorem addRoute_answers (r : Route) (t : RouteTable) : Answers (addRoute r t) := by
  rw [addRoute]
  have hresult := routeTableAdd_result r t
  generalize routeTableAdd r t = result at hresult ⊢
  cases hresult with
  | exactRefused => exact answers_refused
  | prefixRefused => exact answers_refused
  | exactAdded => exact answers_ok _
  | prefixAdded => exact answers_ok _

theorem addRouteMap_answers (fields : RouteFields) (rt : RouteTable) :
    Answers (addRouteMap fields rt) := by
  rw [addRouteMap]
  split
  · dsimp only
    split
    · exact answers_refused
    · exact addRoute_answers _ rt
  · exact answers_ok rt

theorem inRouteMap_eq (listIndent : Nat) : inRouteMap listIndent =
    passesLine fun l => decide (yamlIndent l ≤ listIndent) && !yamlDashed l := by
  funext l
  rw [inRouteMap, passesLine, Bool.not_and, Bool.not_not, ← decide_not, Bool.or_assoc]
  simp only [not_le]

/-- `yaml_parse_route_map` returns, with what is computed of the lines from the cursor on, and at
a list item with the cursor moved on. -/
theorem yamlParseRouteMap_follows (hpasses : lines.length < passes) (hidx : idx ≤ lines.length)
    (listIndent : Nat) (rt : RouteTable) :
    ∃ a, yamlParseRouteMap passes lines listIndent idx rt = some a ∧
      Moved (NoItem lines listIndent) idx a.1 ∧ a.1 ≤ lines.length ∧ Answers a.2 ∧
      Config.yamlParseRouteMap (lines.drop idx) listIndent rt = fromCursor lines a := by
  have hloop := linePass_loop lines
    (fun l => decide (yamlIndent l ≤ listIndent) && !yamlDashed l) routeMapLine
  obtain ⟨⟨idx', fields⟩, hrun, hmoved, hto, hfold, hrest⟩ :=
    hloop.ends (s := (idx, .empty)) hidx (show lines.length - idx < passes by omega)
  refine ⟨(idx', addRouteMap fields rt), ?_, hmoved.imp_right (And.imp_right ?_), hto,
    addRouteMap_answers fields rt, ?_⟩
  · rw [yamlParseRouteMap, routeMapPass, hrun]
    rfl
  · intro hend hin
    have hout := hend hin
    rw [← inRouteMap_eq, inRouteMap, Bool.or_eq_false_iff] at hout
    refine Bool.eq_false_of_not_eq_true fun hitem => ?_
    rw [yamlDashed_of_isListItem hitem] at hout
    exact Bool.noConfusion hout.2
  · have hblank : ∀ l (d : RouteFields), yamlBlank l = true → routeMapLine l d = d :=
      fun l d h => if_pos h
    rw [← inRouteMap_eq, skip_blank hblank] at hfold
    rw [← inRouteMap_eq] at hrest
    rw [Config.yamlParseRouteMap, hfold, hrest]
    rfl

theorem yamlParseRoutes_item {line : CStr} {rest : List CStr} {baseIndent : Nat}
    (hskip : ¬(yamlBlank line = true ∨ yamlIsDocMarker line = true))
    (hitem : yamlIsListItem line (baseIndent + 2) = true) (rt : RouteTable) :
    Config.yamlParseRoutes baseIndent (line :: rest) rt =
      (Config.yamlParseRouteMap (line :: rest) (baseIndent + 2) rt).bind fun r =>
        Config.yamlParseRoutes baseIndent r.2 r.1 := by
  have hindent := yamlIndent_of_isListItem hitem
  rw [Config.yamlParseRoutes, if_neg hskip, if_neg (by omega), if_neg (by omega), dif_pos hitem]
  split
  next e he =>
    rw [he]
    rfl
  next rt' lines hok =>
    rw [hok]
    rfl

theorem routesPass_loop (hpasses : lines.length < passes) (baseIndent : Nat) :
    CursorLoop lines.length (fun _ => True) (routesPass passes lines baseIndent)
      (Follows lines (Config.yamlParseRoutes baseIndent)) := by
  rintro ⟨idx, rt⟩ hidx
  rw [routesPass]
  by_cases hin : idx < lines.length
  · have hdrop := drop_lineAt hin
    rw [if_pos hin]
    dsimp only
    by_cases hskip : yamlBlank (lineAt lines idx) = true ∨ yamlIsDocMarker (lineAt lines idx) = true
    · refine ⟨_, if_pos hskip, owes_line hin ?_⟩
      rw [Config.yamlParseRoutes, if_pos hskip]
    rw [if_neg hskip]
    by_cases hlt : yamlIndent (lineAt lines idx) < baseIndent
    · refine ⟨_, if_pos hlt, owes_leave hin trivial ?_⟩
      rw [Config.yamlParseRoutes, if_neg hskip, if_pos hlt]
    rw [if_neg hlt]
    by_cases hend : yamlIndent (lineAt lines idx) = baseIndent ∧
        ¬yamlIsListItem (lineAt lines idx) (baseIndent + 2) = true
    · refine ⟨_, if_pos hend, owes_leave hin trivial ?_⟩
      rw [Config.yamlParseRoutes, if_neg hskip, if_neg hlt, if_pos hend]
    rw [if_neg hend]
    by_cases hitem : yamlIsListItem (lineAt lines idx) (baseIndent + 2) = true
    · obtain ⟨a, hcall, hmoved, hle, hans, hmap⟩ :=
        yamlParseRouteMap_follows hpasses hidx (baseIndent + 2) rt
      have honward : idx < a.1 := hmoved.lt fun h => absurd (h hin) (by simp [hitem])
      refine ⟨afterCall id a, ?_, owes_afterCall (Or.inl honward) (fun _ _ => honward) hle hans ?_⟩
      · rw [if_pos hitem, hcall]
        rfl
      · rw [← hmap, hdrop]
        exact yamlParseRoutes_item hskip hitem rt
    · refine ⟨_, if_neg hitem, owes_line hin ?_⟩
      rw [Config.yamlParseRoutes, if_neg hskip, if_neg hlt, if_neg hend, dif_neg hitem]
  · rw [if_neg hin]
    refine ⟨_, rfl, owes_done trivial hidx ?_⟩
    rw [drop_end hin, Config.yamlParseRoutes]

/-- `yaml_parse_routes` returns, with what is computed of the lines from the cursor on. -/
theorem yamlParseRoutes_follows (hpasses : lines.length < passes) (hidx : idx ≤ lines.length)
    (baseIndent : Nat) (rt : RouteTable) :
    ∃ a, yamlParseRoutes passes lines baseIndent idx rt = some a ∧ idx ≤ a.1 ∧
      a.1 ≤ lines.length ∧ Answers a.2 ∧
      Config.yamlParseRoutes baseIndent (lines.drop idx) rt = fromCursor lines a := by
  obtain ⟨a, hrun, hmoved, hto, hans, hlist⟩ := (routesPass_loop hpasses baseIndent).ends
    (s := (idx, rt)) hidx (show lines.length - idx < passes by omega)
  exact ⟨a, hrun, hmoved.le, hto, hans, hlist⟩

end

/-! ## Server blocks -/

section

variable {passes : Nat} {lines : List CStr} {idx : Nat}

theorem foldl_names (itemIndent maxCount : Nat) (ls arr : List CStr) :
    ls.foldl (fun arr l =>
        if yamlBlank l then arr
        else if yamlIsListItem l itemIndent ∧ arr.length < maxCount then arr ++ [yamlGetValue l 128]
        else arr) arr =
      arr ++ ((ls.filter fun l => !yamlBlank l && yamlIsListItem l itemIndent).take
        (maxCount - arr.length)).map (yamlGetValue · 128) := by
  induction ls generalizing arr with
  | nil => simp
  | cons l ls ih =>
    rw [List.foldl_cons, ih, List.filter_cons]
    by_cases hkeep : (!yamlBlank l && yamlIsListItem l itemIndent) = true
    · obtain ⟨hblank, hitem⟩ : ¬yamlBlank l = true ∧ yamlIsListItem l itemIndent = true := by
        simpa using hkeep
      rw [if_pos hkeep, if_neg hblank]
      by_cases hroom : arr.length < maxCount
      · have hmore : maxCount - arr.length = maxCount - (arr.length + 1) + 1 := by omega
        rw [if_pos ⟨hitem, hroom⟩, List.length_append, List.length_singleton, hmore,
          List.take_succ_cons, List.map_cons, List.append_assoc]
        rfl
      · have hfull : maxCount - arr.length = 0 := by omega
        rw [if_neg fun h => hroom h.2, hfull, List.take_zero, List.take_zero]
    · have hskip : (if yamlBlank l then arr
          else if yamlIsListItem l itemIndent ∧ arr.length < maxCount then
            arr ++ [yamlGetValue l 128]
          else arr) = arr := by
        by_cases hblank : yamlBlank l = true
        · exact if_pos hblank
        · rw [if_neg hblank]
          exact if_neg fun h => hkeep (by simp [hblank, h.1])
      rw [if_neg hkeep, hskip]

/-- `yaml_parse_string_list` returns, with what is computed of the lines from the cursor on. -/
theorem yamlParseStringList_follows (hpasses : lines.length < passes) (hidx : idx ≤ lines.length)
    (baseIndent maxCount : Nat) :
    ∃ a, yamlParseStringList passes lines baseIndent maxCount idx = some a ∧ idx ≤ a.1 ∧
      a.1 ≤ lines.length ∧
      Config.yamlParseStringList baseIndent maxCount (lines.drop idx) = (a.2, lines.drop a.1) := by
  have hloop := linePass_loop lines (fun l => decide (yamlIndent l ≤ baseIndent)) fun l arr =>
    if yamlIsListItem l (baseIndent + 2) ∧ arr.length < maxCount then arr ++ [yamlGetValue l 128]
    else arr
  obtain ⟨a, hrun, hmoved, hto, hfold, hrest⟩ :=
    hloop.ends (s := (idx, [])) hidx (show lines.length - idx < passes by omega)
  refine ⟨a, hrun, hmoved.le, hto, ?_⟩
  rw [foldl_names, List.nil_append, List.length_nil, Nat.sub_zero, passesLine_indent] at hfold
  rw [passesLine_indent] at hrest
  rw [Config.yamlParseStringList, hfold, hrest]

/-- What the loop of `yaml_parse_server` makes of the lines from the cursor on. -/
def serverLines (baseIndent : Nat) (ls : List CStr) (d : ServerBlock × RouteTable) :
    Loaded ((ServerBlock × RouteTable) × List CStr) :=
  (yamlServerLines baseIndent ls d.1 d.2).map fun r => ((r.1, r.2.1), r.2.2)

theorem serverPass_loop (hpasses : lines.length < passes) (baseIndent : Nat) :
    CursorLoop lines.length (NoItem lines baseIndent) (serverPass passes lines baseIndent)
      (Follows lines (serverLines baseIndent)) := by
  rintro ⟨idx, block, rt⟩ hidx
  rw [serverPass]
  by_cases hin : idx < lines.length
  · have hdrop := drop_lineAt hin
    have hnext : ∀ block',
        yamlServerLines baseIndent (lineAt lines idx :: lines.drop (idx + 1)) block rt =
          yamlServerLines baseIndent (lines.drop (idx + 1)) block' rt →
        (Step.next (idx + 1, block', rt)).Owes lines.length (NoItem lines baseIndent)
          (Follows lines (serverLines baseIndent)) (idx, block, rt) := by
      intro block' h
      refine owes_line hin ?_
      rw [serverLines, h]
      rfl
    have hdone : NoItem lines baseIndent idx →
        yamlServerLines baseIndent (lineAt lines idx :: lines.drop (idx + 1)) block rt =
          .ok (block, rt, lineAt lines idx :: lines.drop (idx + 1)) →
        (Step.done (idx, .ok (block, rt))).Owes lines.length (NoItem lines baseIndent)
          (Follows lines (serverLines baseIndent)) (idx, block, rt) := by
      intro hstop h
      refine owes_leave hin hstop ?_
      rw [serverLines, h]
      rfl
    rw [if_pos hin]
    dsimp only
    by_cases hblank : yamlBlank (lineAt lines idx) = true
    · refine ⟨_, if_pos hblank, hnext block ?_⟩
      rw [yamlServerLines, if_pos hblank]
    rw [if_neg hblank]
    by_cases hlt : yamlIndent (lineAt lines idx) < baseIndent
    · refine ⟨_, if_pos hlt, hdone (fun _ => Bool.eq_false_of_not_eq_true fun hitem => ?_) ?_⟩
      · have := yamlIndent_of_isListItem hitem
        omega
      rw [yamlServerLines, if_neg hblank, if_pos hlt]
    rw [if_neg hlt]
    by_cases hend : yamlIndent (lineAt lines idx) = baseIndent ∧
        ¬yamlDashed (lineAt lines idx) = true
    · refine ⟨_, if_pos hend, hdone (fun _ => Bool.eq_false_of_not_eq_true fun hitem => ?_) ?_⟩
      · exact hend.2 (yamlDashed_of_isListItem hitem)
      rw [yamlServerLines, if_neg hblank, if_neg hlt, if_pos hend]
    rw [if_neg hend]
    cases hpair : yamlParseKeyValue (lineAt lines idx) with
    | none =>
      refine ⟨_, rfl, hnext block ?_⟩
      rw [yamlServerLines, if_neg hblank, if_neg hlt, if_neg hend, hpair]
    | some pair =>
      obtain ⟨key, value⟩ := pair
      dsimp only
      by_cases hlisten : key = ascii "listen"
      · refine ⟨_, if_pos hlisten, hnext _ ?_⟩
        rw [yamlServerLines, if_neg hblank, if_neg hlt, if_neg hend, hpair]
        dsimp only
        rw [if_pos hlisten]
      rw [if_neg hlisten]
      by_cases hnames : key = ascii "server_name"
      · obtain ⟨a, hcall, hfrom, hto, hlist⟩ :=
          yamlParseStringList_follows hpasses hin (yamlIndent (lineAt lines idx)) maxServerNames
        refine ⟨.next (a.1, { block with serverNames := a.2 }, rt), ?_, owes_next hfrom hto ?_⟩
        · rw [if_pos hnames, hcall]
          rfl
        · rw [hdrop, serverLines, yamlServerLines, if_neg hblank, if_neg hlt, if_neg hend, hpair]
          dsimp only
          rw [if_neg hlisten, if_pos hnames, hlist]
          rfl
      rw [if_neg hnames]
      by_cases hroot : key = ascii "root"
      · refine ⟨_, if_pos hroot, hnext _ ?_⟩
        rw [yamlServerLines, if_neg hblank, if_neg hlt, if_neg hend, hpair]
        dsimp only
        rw [if_neg hlisten, if_neg hnames, if_pos hroot]
      rw [if_neg hroot]
      by_cases hlog : key = ascii "access_log"
      · refine ⟨_, if_pos hlog, hnext _ ?_⟩
        rw [yamlServerLines, if_neg hblank, if_neg hlt, if_neg hend, hpair]
        dsimp only
        rw [if_neg hlisten, if_neg hnames, if_neg hroot, if_pos hlog]
      rw [if_neg hlog]
      by_cases hroutes : key = ascii "routes"
      · obtain ⟨a, hcall, hfrom, hto, hans, hlist⟩ :=
          yamlParseRoutes_follows hpasses hin (yamlIndent (lineAt lines idx)) rt
        refine ⟨afterCall (fun rt => (block, rt)) a, ?_,
          owes_afterCall (Or.inl hfrom) (fun _ _ => hfrom) hto hans ?_⟩
        · rw [if_pos hroutes, hcall]
          rfl
        · rw [← hlist, hdrop, serverLines, yamlServerLines, if_neg hblank, if_neg hlt,
            if_neg hend, hpair]
          dsimp only
          rw [if_neg hlisten, if_neg hnames, if_neg hroot, if_neg hlog, if_pos hroutes]
          split
          next e he =>
            rw [he]
            rfl
          next rt' ls hok =>
            rw [hok]
            rfl
      rw [if_neg hroutes]
      refine ⟨_, rfl, hnext block ?_⟩
      rw [yamlServerLines, if_neg hblank, if_neg hlt, if_neg hend, hpair]
      dsimp only
      rw [if_neg hlisten, if_neg hnames, if_neg hroot, if_neg hlog, if_neg hroutes]
  · rw [if_neg hin]
    refine ⟨_, rfl, owes_done (fun h => absurd h hin) hidx ?_⟩
    rw [drop_end hin, serverLines, yamlServerLines]
    rfl

theorem Answers.map {A B : Type} {r : Loaded A} (h : Answers r) (f : A → B) :
    Answers (r.map f) := by
  cases r with
  | error e =>
    rw [h e rfl]
    exact answers_refused
  | ok v => exact answers_ok (f v)

/-- There is no list item at the cursor, or no room for another block. -/
def NoServer (lines : List CStr) (indent : Nat) (config : LoadedConfig) (idx : Nat) : Prop :=
  NoItem lines indent idx ∨ maxServerBlocks ≤ config.servers.length

/-- `yaml_parse_server` returns, with what is computed of the lines from the cursor on, and at a
list item with the cursor moved on unless all blocks are taken. -/
theorem yamlParseServer_follows (hpasses : lines.length < passes) (hidx : idx ≤ lines.length)
    (baseIndent : Nat) (config : LoadedConfig) :
    ∃ a, yamlParseServer passes lines baseIndent idx config = some a ∧
      Moved (NoServer lines baseIndent config) idx a.1 ∧ a.1 ≤ lines.length ∧ Answers a.2 ∧
      Config.yamlParseServer baseIndent (lines.drop idx) config = fromCursor lines a := by
  by_cases hfull : maxServerBlocks ≤ config.servers.length
  · refine ⟨(idx, .error .refused), if_pos hfull, Or.inr ⟨rfl, Or.inr hfull⟩, hidx,
      answers_refused, ?_⟩
    rw [Config.yamlParseServer, if_pos hfull]
    rfl
  · obtain ⟨⟨idx', r⟩, hrun, hmoved, hto, hans, hlist⟩ := (serverPass_loop hpasses baseIndent).ends
      (s := (idx, .fresh, config.routeTable)) hidx (show lines.length - idx < passes by omega)
    refine ⟨(idx', r.map fun v =>
        { config with servers := config.servers ++ [v.1], routeTable := v.2 }), ?_,
      Or.imp_right (And.imp_right Or.inl) hmoved, hto, hans.map _, ?_⟩
    · rw [yamlParseServer, if_neg hfull, hrun]
      rfl
    · rw [Config.yamlParseServer, if_neg hfull]
      rw [serverLines] at hlist
      cases hlines : yamlServerLines baseIndent (lines.drop idx) .fresh config.routeTable with
      | error e =>
        rw [hlines] at hlist
        cases r with
        | error e' =>
          cases hlist
          rfl
        | ok v => cases hlist
      | ok v =>
        obtain ⟨block, rt, rest⟩ := v
        rw [hlines] at hlist
        cases r with
        | error e' => cases hlist
        | ok v' =>
          have hpair : ((block, rt), rest) = (v', lines.drop idx') := Except.ok.inj hlist
          obtain ⟨rfl, rfl⟩ := Prod.mk.inj hpair
          rfl

/-! ## The loader -/

theorem yamlParseServers_item {line : CStr} {rest : List CStr} (hblank : ¬yamlBlank line = true)
    (hitem : yamlIsListItem line 2 = true) (config : LoadedConfig) :
    yamlParseServers (line :: rest) config =
      (Config.yamlParseServer 2 (line :: rest) config).bind fun r =>
        yamlParseServers r.2 r.1 := by
  have hindent := yamlIndent_of_isListItem hitem
  rw [yamlParseServers, if_neg hblank, if_neg (by omega), dif_pos hitem]
  split
  next e he =>
    rw [he]
    rfl
  next config' lines hok =>
    rw [hok]
    rfl

theorem serversPass_loop (hpasses : lines.length < passes) :
    CursorLoop lines.length (fun _ => True) (serversPass passes lines)
      (Follows lines yamlParseServers) := by
  rintro ⟨idx, config⟩ hidx
  rw [serversPass]
  by_cases hin : idx < lines.length
  · have hdrop := drop_lineAt hin
    rw [if_pos hin]
    dsimp only
    by_cases hblank : yamlBlank (lineAt lines idx) = true
    · refine ⟨_, if_pos hblank, owes_line hin ?_⟩
      rw [yamlParseServers, if_pos hblank]
    rw [if_neg hblank]
    by_cases hend : yamlIndent (lineAt lines idx) = 0
    · refine ⟨_, if_pos hend, owes_leave hin trivial ?_⟩
      rw [yamlParseServers, if_neg hblank, if_pos hend]
    rw [if_neg hend]
    by_cases hitem : yamlIsListItem (lineAt lines idx) 2 = true
    · obtain ⟨a, hcall, hmoved, hle, hans, hserver⟩ :=
        yamlParseServer_follows hpasses hidx 2 config
      have honward : ∀ v, a.2 = .ok v → idx < a.1 := by
        intro v hv
        refine hmoved.lt ?_
        rintro (hno | hfull)
        · exact absurd (hno hin) (by simp [hitem])
        · rw [Config.yamlParseServer, if_pos hfull, fromCursor, hv] at hserver
          cases hserver
      have hstay : Moved (fun _ => True) idx a.1 :=
        hmoved.imp_right (And.imp_right fun _ => trivial)
      refine ⟨afterCall id a, ?_, owes_afterCall hstay honward hle hans ?_⟩
      · rw [if_pos hitem, hcall]
        rfl
      · rw [← hserver, hdrop]
        exact yamlParseServers_item hblank hitem config
    · refine ⟨_, if_neg hitem, owes_line hin ?_⟩
      rw [yamlParseServers, if_neg hblank, if_neg hend, dif_neg hitem]
  · rw [if_neg hin]
    refine ⟨_, rfl, owes_done trivial hidx ?_⟩
    rw [drop_end hin, yamlParseServers]

theorem logging_follows (hpasses : lines.length < passes) (hidx : idx ≤ lines.length)
    (settings : Settings) :
    ∃ a, runChecked (loggingPass lines) passes (idx, settings) = some a ∧ idx ≤ a.1 ∧
      a.1 ≤ lines.length ∧ yamlLogging (lines.drop idx) settings = (a.2, lines.drop a.1) := by
  have hloop := linePass_loop lines (fun l => decide (yamlIndent l ≤ 2)) yamlLoggingLine
  obtain ⟨a, hrun, hmoved, hto, hfold, hrest⟩ :=
    hloop.ends (s := (idx, settings)) hidx (show lines.length - idx < passes by omega)
  refine ⟨a, hrun, hmoved.le, hto, ?_⟩
  have hblank : ∀ l (d : Settings), yamlBlank l = true → yamlLoggingLine l d = d :=
    fun l d h => if_pos h
  rw [passesLine_indent, skip_blank hblank] at hfold
  rw [passesLine_indent] at hrest
  rw [yamlLogging, hfold, hrest]

/-- What the loop of `load_yaml_config` makes of the lines from the cursor on: it leaves none. -/
def loadLines (ls : List CStr) (config : LoadedConfig) : Loaded (LoadedConfig × List CStr) :=
  (Config.loadYamlConfig ls config).map fun config => (config, [])

theorem loadPass_loop (hpasses : lines.length < passes) :
    CursorLoop lines.length (fun _ => True) (loadPass passes lines) (Follows lines loadLines) := by
  rintro ⟨idx, config⟩ hidx
  rw [loadPass]
  by_cases hin : idx < lines.length
  · have hdrop := drop_lineAt hin
    rw [if_pos hin]
    dsimp only
    by_cases hskip : yamlBlank (lineAt lines idx) = true ∨
        yamlIsDocMarker (lineAt lines idx) = true ∨ 0 < yamlIndent (lineAt lines idx) ∨
          58 ∉ lineAt lines idx
    · refine ⟨_, if_pos hskip, owes_line hin ?_⟩
      rw [loadLines, Config.loadYamlConfig, if_pos hskip]
      rfl
    rw [if_neg hskip]
    by_cases hlogging : cut 64 ((lineAt lines idx).takeWhile (· ≠ 58)) = ascii "logging"
    · obtain ⟨a, hrun, hfrom, hto, hlist⟩ := logging_follows hpasses hin config.settings
      refine ⟨.next (a.1, { config with settings := a.2 }), ?_, owes_next hfrom hto ?_⟩
      · rw [if_pos hlogging, hrun]
        rfl
      · rw [hdrop, loadLines, Config.loadYamlConfig, if_neg hskip]
        dsimp only
        rw [if_pos hlogging, hlist]
        rfl
    rw [if_neg hlogging]
    by_cases hroutes : cut 64 ((lineAt lines idx).takeWhile (· ≠ 58)) = ascii "routes"
    · obtain ⟨a, hcall, hfrom, hto, hans, hlist⟩ :=
        yamlParseRoutes_follows hpasses hin 0 config.routeTable
      refine ⟨afterCall (fun rt => { config with routeTable := rt }) a, ?_,
        owes_afterCall (Or.inl hfrom) (fun _ _ => hfrom) hto hans ?_⟩
      · rw [if_pos hroutes, hcall]
        rfl
      · rw [← hlist, hdrop, loadLines, Config.loadYamlConfig, if_neg hskip]
        dsimp only
        rw [if_neg hlogging, if_pos hroutes]
        split
        next e he =>
          rw [he]
          rfl
        next rt ls hok =>
          rw [hok]
          rfl
    rw [if_neg hroutes]
    by_cases hservers : cut 64 ((lineAt lines idx).takeWhile (· ≠ 58)) = ascii "servers"
    · obtain ⟨a, hrun, hmoved, hto, hans, hlist⟩ := (serversPass_loop hpasses).ends
        (s := (idx + 1, config)) hin (show lines.length - (idx + 1) < passes by omega)
      have hfrom : idx < a.1 := hmoved.le
      refine ⟨afterCall id a, ?_, owes_afterCall (Or.inl hfrom) (fun _ _ => hfrom) hto hans ?_⟩
      · rw [if_pos hservers, hrun]
        rfl
      · rw [← hlist, hdrop, loadLines, Config.loadYamlConfig, if_neg hskip]
        dsimp only
        rw [if_neg hlogging, if_neg hroutes, if_pos hservers]
        split
        next e he =>
          rw [he]
          rfl
        next config' ls hok =>
          rw [hok]
          rfl
    rw [if_neg hservers]
    refine ⟨_, rfl, owes_line hin ?_⟩
    rw [loadLines, Config.loadYamlConfig, if_neg hskip]
    dsimp only
    rw [if_neg hlogging, if_neg hroutes, if_neg hservers]
    rfl
  · rw [if_neg hin]
    refine ⟨_, rfl, owes_done trivial hidx ?_⟩
    rw [drop_end hin, loadLines, Config.loadYamlConfig]
    rfl

/-- **The loader ends**, with what is computed of the lines one after the other, and returns 0 or
`-1`. -/
theorem loadYamlConfig_ends (hpasses : lines.length < passes) (config : LoadedConfig) :
    ∃ idx, loadYamlConfig passes lines config = some (idx, Config.loadYamlConfig lines config) ∧
      idx ≤ lines.length ∧ Answers (Config.loadYamlConfig lines config) := by
  obtain ⟨⟨idx, r⟩, hrun, -, hto, hans, hlist⟩ := (loadPass_loop hpasses).ends
    (s := (0, config)) (Nat.zero_le _) (show lines.length - 0 < passes by omega)
  have hsame : Config.loadYamlConfig lines config = r := by
    rw [List.drop_zero, loadLines] at hlist
    cases hload : Config.loadYamlConfig lines config with
    | error e =>
      rw [hload] at hlist
      cases r with
      | error e' =>
        cases hlist
        rfl
      | ok v => cases hlist
    | ok c =>
      rw [hload] at hlist
      cases r with
      | error e' => cases hlist
      | ok v => exact congrArg (Except.map Prod.fst) hlist
  rw [hsame]
  exact ⟨idx, hrun, hto, hans⟩

end

/-! ## Progress -/

/-- No callee moves the cursor back or beyond the last line. -/
structure CalleesForward (passes : Nat) (lines : List CStr) : Prop where
  routeMap : ∀ listIndent idx rt, idx ≤ lines.length →
    Forward lines.length idx (yamlParseRouteMap passes lines listIndent idx rt)
  routes : ∀ baseIndent idx rt, idx ≤ lines.length →
    Forward lines.length idx (yamlParseRoutes passes lines baseIndent idx rt)
  stringList : ∀ baseIndent maxCount idx, idx ≤ lines.length →
    Forward lines.length idx (yamlParseStringList passes lines baseIndent maxCount idx)
  server : ∀ baseIndent idx config, idx ≤ lines.length →
    Forward lines.length idx (yamlParseServer passes lines baseIndent idx config)

/-- A pass of any loop that goes on, be it by `continue`, has moved the cursor on. -/
structure LoopsAdvance (passes : Nat) (lines : List CStr) : Prop where
  load : Advances lines.length (loadPass passes lines)
  logging : Advances lines.length (loggingPass lines)
  servers : Advances lines.length (serversPass passes lines)
  routes : ∀ baseIndent, Advances lines.length (routesPass passes lines baseIndent)
  routeMap : ∀ listIndent, Advances lines.length (routeMapPass lines listIndent)
  stringList : ∀ baseIndent maxCount,
    Advances lines.length (stringListPass lines baseIndent maxCount)
  server : ∀ baseIndent, Advances lines.length (serverPass passes lines baseIndent)

section

variable {passes : Nat} {lines : List CStr}

theorem calleesForward (hpasses : lines.length < passes) : CalleesForward passes lines where
  routeMap := by
    intro listIndent idx rt hidx
    obtain ⟨a, hcall, hmoved, hto, -⟩ := yamlParseRouteMap_follows hpasses hidx listIndent rt
    exact ⟨a, hcall, hmoved.le, hto⟩
  routes := by
    intro baseIndent idx rt hidx
    obtain ⟨a, hcall, hfrom, hto, -⟩ := yamlParseRoutes_follows hpasses hidx baseIndent rt
    exact ⟨a, hcall, hfrom, hto⟩
  stringList := by
    intro baseIndent maxCount idx hidx
    obtain ⟨a, hcall, hfrom, hto, -⟩ :=
      yamlParseStringList_follows hpasses hidx baseIndent maxCount
    exact ⟨a, hcall, hfrom, hto⟩
  server := by
    intro baseIndent idx config hidx
    obtain ⟨a, hcall, hmoved, hto, -⟩ := yamlParseServer_follows hpasses hidx baseIndent config
    exact ⟨a, hcall, hmoved.le, hto⟩

theorem loopsAdvance (hpasses : lines.length < passes) : LoopsAdvance passes lines where
  load := (loadPass_loop hpasses).advances
  logging := (linePass_loop lines _ _).advances
  servers := (serversPass_loop hpasses).advances
  routes := fun baseIndent => (routesPass_loop hpasses baseIndent).advances
  routeMap := fun _ => (linePass_loop lines _ _).advances
  stringList := fun _ _ => (linePass_loop lines _ _).advances
  server := fun baseIndent => (serverPass_loop hpasses baseIndent).advances

/-- **The loader advances.** It ends; a call at a list item moves the cursor on, unless a server
block is refused because all are taken; no call moves it back; and no loop goes on without
having moved it. -/
theorem cursor_advances (hpasses : lines.length < passes) :
    (∀ config, ∃ idx r, loadYamlConfig passes lines config = some (idx, r) ∧
      idx ≤ lines.length ∧ Answers r) ∧
    (∀ listIndent idx rt, idx < lines.length →
      yamlIsListItem (lineAt lines idx) listIndent = true →
        Onward lines.length idx (yamlParseRouteMap passes lines listIndent idx rt)) ∧
    (∀ baseIndent idx config, idx < lines.length →
      yamlIsListItem (lineAt lines idx) baseIndent = true →
        config.servers.length < maxServerBlocks →
          Onward lines.length idx (yamlParseServer passes lines baseIndent idx config)) ∧
    (∀ baseIndent idx config, maxServerBlocks ≤ config.servers.length →
      yamlParseServer passes lines baseIndent idx config = some (idx, .error .refused)) ∧
    CalleesForward passes lines ∧ LoopsAdvance passes lines := by
  refine ⟨?_, ?_, ?_, ?_, calleesForward hpasses, loopsAdvance hpasses⟩
  · intro config
    obtain ⟨idx, hrun, hto, hans⟩ := loadYamlConfig_ends hpasses config
    exact ⟨idx, _, hrun, hto, hans⟩
  · intro listIndent idx rt hin hitem
    obtain ⟨a, hcall, hmoved, hto, -⟩ :=
      yamlParseRouteMap_follows hpasses (Nat.le_of_lt hin) listIndent rt
    exact ⟨a, hcall, hmoved.lt fun h => absurd (h hin) (by simp [hitem]), hto⟩
  · intro baseIndent idx config hin hitem hroom
    obtain ⟨a, hcall, hmoved, hto, -⟩ :=
      yamlParseServer_follows hpasses (Nat.le_of_lt hin) baseIndent config
    refine ⟨a, hcall, hmoved.lt ?_, hto⟩
    rintro (hno | hfull)
    · exact absurd (hno hin) (by simp [hitem])
    · omega
  · intro baseIndent idx config hfull
    exact if_pos hfull

end

/-! ### One server block too many -/

/-- Seventeen items under `servers`, each with a line behind that ends it. -/
def crowdedServers : List CStr :=
  ascii "servers:" :: (List.replicate 17 [ascii "  - x", ascii "  y"]).flatten

theorem crowdedServers_advance :
    (∃ idx r, loadYamlConfig 36 crowdedServers .zero = some (idx, r) ∧
      idx ≤ crowdedServers.length ∧ Answers r) ∧
    Onward crowdedServers.length 1 (yamlParseServer 36 crowdedServers 2 1 .zero) ∧
    LoopsAdvance 36 crowdedServers := by
  obtain ⟨hends, -, hserver, -, -, hloops⟩ := @cursor_advances 36 crowdedServers (by decide)
  exact ⟨hends .zero, hserver 2 1 .zero (by decide) (by decide) (by decide), hloops⟩

/-- What has been read when the last item comes. -/
def sixteenServers : LoadedConfig := { LoadedConfig.zero with servers := List.replicate 16 .fresh }

/-- `yaml_parse_server` is called at the last item and leaves the cursor there, and so does the
loader. -/
theorem last_server_stays :
    loadYamlConfig 36 (crowdedServers.take 33) .zero = some (33, .ok sixteenServers) ∧
      yamlIsListItem (lineAt crowdedServers 33) 2 = true ∧
      yamlParseServer 36 crowdedServers 2 33 sixteenServers = some (33, .error .refused) ∧
      (loadYamlConfig 36 crowdedServers .zero).map Prod.fst = some 33 := by
  refine ⟨rfl, ?_, rfl, ?_⟩
  · decide
  · decide +kernel

end MiniWeb.Config.Cursor
