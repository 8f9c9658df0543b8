import MiniWeb.Config.Definitions
import MiniWeb.Config.JsonPlaces
import MiniWeb.Config.NginxPlaces
import MiniWeb.Config.YamlPlaces

/-!
# Bad route definitions

A route definition can name an unknown handler or no method, or repeat the method, the path and the
kind of match of another. Whatever `load_config` accepts has none of this in its route table, but
the table need not hold what is written: a loader comes by parts of a text only, cuts the values to
its buffers, and the YAML loader merges definitions. A bad definition is noticed when something that
the loader comes by is bad, or too much.
-/

namespace MiniWeb.Config

open CStr Routing DataText

/-! ## What the validation guarantees -/

/-- The routes of the table have known handlers and distinct keys. -/
def Checked (t : RouteTable) : Prop :=
  ∀ kind, (∀ e ∈ entriesOf t kind, e.handler ≠ .none) ∧
    ((entriesOf t kind).map fun e => (e.method, e.path)).Nodup

/-- A table made of sound routes is valid. -/
theorem Holds.checked {rs : List Route} {t : RouteTable} (h : Holds rs t) (hadd : Addable rs)
    (hfits : ∀ r ∈ rs, RouteFits r) (hhandler : ∀ r ∈ rs, r.handler ≠ .none) : Checked t := by
  intro kind
  rw [h.entries]
  refine ⟨?_, ?_⟩
  · intro e he
    obtain ⟨r, hr, -, rfl⟩ := mem_filter_entry.1 he
    exact hhandler r hr
  · rw [List.map_map]
    have hkeys := (hadd.distinct.of_map _).filter fun r => decide (r.matchType = kind)
    refine hkeys.map_on ?_
    intro r hr q hq hsame
    rw [List.mem_filter, decide_eq_true_eq] at hr hq
    have hmethod : r.method = q.method := by
      have hentry : r.entry.method = q.entry.method := congrArg Prod.fst hsame
      rw [← cut_of_lt (hfits r hr.1).method, ← cut_of_lt (hfits q hq.1).method]
      exact hentry
    have hpath : r.path = q.path := by
      have hentry : r.entry.path = q.entry.path := congrArg Prod.snd hsame
      rw [← cut_of_lt (hfits r hr.1).path, ← cut_of_lt (hfits q hq.1).path]
      exact hentry
    apply List.inj_on_of_nodup_map hadd.distinct hr.1 hq.1
    rw [routeKey, routeKey, hmethod, hpath, hr.2, hq.2]

/-! ## What a loader notices -/

/-- What the loader comes by cannot be accepted: a place of a JSON text is turned down before one
that the loader does not survive; the lines of an Nginx file, in pieces of 255 bytes, leave a block
open or ask for something that is wrong or too much; the first 500 lines of a YAML file, in pieces
of 511 bytes, ask for something that is wrong or too much. -/
def Noticed (loader : ConfigFormat) (file : List UInt8) : Prop :=
  match loader with
  | .json => (file = [] ∨ 10 * 1024 * 1024 < file.length) ∨ Turned [] (places (ofBuffer file))
  | .nginx =>
    (nginxDemands ((fgets 256 file).map lineText) .outside).1.isOutside = false ∨
      ¬Acceptable (nginxDemands ((fgets 256 file).map lineText) .outside).2
  | .yaml => ¬Acceptable (yamlDemands (yamlLines file))

theorem map_refused_iff {α β : Type} {run : Loaded α} (f : α → β) :
    run.map f = .error .refused ↔ run = .error .refused := by
  cases run with
  | error e => simp [Except.map]
  | ok a => simp [Except.map]

/-- The run gives up just when something is noticed, and else has a valid table. -/
structure Decides (run : Loaded LoadedConfig) (noticed : Prop) : Prop where
  refused : run = .error .refused ↔ noticed
  checked : ∀ config, run = .ok config → Checked config.routeTable

/-- Demands are acceptable and make up a valid table, or they are refused. -/
theorem meets_outcome {ds : List Demand} (hfits : ∀ d ∈ ds, d.Fits) :
    (∃ state, meets ds (0, routeTableInit) = .ok state ∧ Acceptable ds ∧ Checked state.2) ∨
      (meets ds (0, routeTableInit) = .error .refused ∧ ¬Acceptable ds) := by
  have hroutes : ∀ r ∈ ds.flatMap Demand.routeList, RouteFits r ∧ r.handler ≠ .none := by
    intro r hr
    obtain ⟨d, hd, hmem⟩ := List.mem_flatMap.mp hr
    exact hfits d hd r hmem
  have hkeys : ∀ r ∈ ds.flatMap Demand.routeList, RouteFits r := fun r hr => (hroutes r hr).1
  rcases meets_cases hkeys with ⟨state, hok, hserved⟩ | ⟨hnot, herror⟩
  · have hacceptable := hserved.acceptable
    refine Or.inl ⟨state, hok, hacceptable, ?_⟩
    exact hserved.holds.checked hacceptable.addable hkeys fun r hr => (hroutes r hr).2
  · exact Or.inr ⟨herror, hnot⟩

theorem Visited.checked {ps : List Place} {state : Nat × RouteTable} (h : Visited ps state) :
    Checked state.2 := by
  have hadd : Addable (ps.filterMap Place.route?) := by
    by_contra hnot
    exact h.standing (Or.inr (Or.inr hnot))
  apply h.holds.checked hadd route?_fits
  intro r hr
  obtain ⟨place, -, hroute⟩ := List.mem_filterMap.mp hr
  cases place with
  | route o => exact objectRoute_handler hroute
  | server => cases hroute
  | names v => cases hroute
  | unclosed => cases hroute

/-- The number of servers and the routes show what is decided. -/
theorem decides_of_summary {run : Loaded LoadedConfig} {result : Loaded (Nat × RouteTable)}
    {noticed : Prop} (hrun : run.map (·.summary) = result)
    (hresult : (∃ state, result = .ok state ∧ ¬noticed ∧ Checked state.2) ∨
      (result = .error .refused ∧ noticed)) : Decides run noticed := by
  have hrefused_iff : run = .error .refused ↔ result = .error .refused := by
    rw [← hrun, map_refused_iff]
  rcases hresult with ⟨state, hok, hnot, hchecked⟩ | ⟨hrefused, hnoticed⟩
  · refine ⟨iff_of_false (fun hrefused => ?_) hnot, fun config hconfig => ?_⟩
    · cases hok.symm.trans (hrefused_iff.mp hrefused)
    · rw [hconfig] at hrun
      cases hrun.trans hok
      exact hchecked
  · refine ⟨iff_of_true (hrefused_iff.mpr hrefused) hnoticed, fun config hconfig => ?_⟩
    rw [hconfig] at hrun
    cases hrun.trans hrefused

theorem loadNginxConfig_decides (file : List UInt8) :
    Decides (loadFormat .nginx file) (Noticed .nginx file) := by
  have houtside : Spot.Fits .outside := trivial
  have hfits := nginxDemands_fit ((fgets 256 file).map lineText) houtside
  rw [loadFormat, Noticed]
  apply decides_of_summary (loadNginxConfig_eq file)
  rcases meets_outcome hfits with ⟨state, hmeets, hacceptable, hchecked⟩ | ⟨hmeets, hnot⟩
  · rw [hmeets]
    cases (nginxDemands ((fgets 256 file).map lineText) .outside).1.isOutside with
    | true => exact Or.inl ⟨state, rfl, by simp [hacceptable], hchecked⟩
    | false => exact Or.inr ⟨rfl, Or.inl rfl⟩
  · rw [hmeets]
    exact Or.inr ⟨rfl, Or.inr hnot⟩

theorem loadYamlConfig_decides (file : List UInt8) :
    Decides (loadFormat .yaml file) (Noticed .yaml file) := by
  have hfits : ∀ d ∈ yamlDemands (yamlLines file), d.Fits := yamlDemands_fit
  rw [loadFormat, Noticed]
  apply decides_of_summary (loadYamlConfig_eq (yamlLines file) .zero)
  rcases meets_outcome hfits with ⟨state, hmeets, hacceptable, hchecked⟩ | ⟨hmeets, hnot⟩
  · exact Or.inl ⟨state, hmeets, not_not_intro hacceptable, hchecked⟩
  · exact Or.inr ⟨hmeets, hnot⟩

end MiniWeb.Config
