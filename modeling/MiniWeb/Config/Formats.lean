import MiniWeb.Config.RouteList
import MiniWeb.Config.NginxListing
import MiniWeb.Config.YamlListing

/-!
# The three formats compared

A document of single routes and server blocks means the same in all three formats only if the YAML
loader has nothing to merge, that is if it has at most one route and one server block without names,
and if its paths fit a line of Nginx.
-/

namespace MiniWeb.Config

open CStr Routing

/-! ## What a loader makes of a listing -/

/-- The loader of a format reads a text. -/
def loadText (format : ConfigFormat) (text : List UInt8) : Loaded LoadedConfig :=
  match format with
  | .nginx => loadNginxConfig text .zero
  | .json => loadJsonConfig text .zero
  | .yaml => loadYamlConfig (yamlLines text) .zero

/-- The listing written in a format and loaded by the loader of the format. -/
def Listing.loaded (l : Listing) (format : ConfigFormat) : Loaded LoadedConfig :=
  loadText format (l.render format)

/-- The entries of `route_table` and the blocks of `servers[]`. -/
def LoadedConfig.view (config : LoadedConfig) :
    List RouteEntry × List RouteEntry × List ServerBlock :=
  (config.routeTable.exact, config.routeTable.prefixes, config.servers)

/-- Routes with one method and a known handler each, and at least one server block. -/
structure Listing.IsDocument (l : Listing) : Prop where
  single : ∀ d ∈ l.routes, ∃ m, d.methods = [m]
  known : ∀ d ∈ l.routes, d.handlerType ≠ .none
  distinct : (l.routeList.map routeKey).Nodup
  few : l.routes.length ≤ maxRoutes
  blocks : l.blocks ≠ []

/-- All loaders load the document, with the same routes and the same server blocks. -/
def Listing.Agree (l : Listing) : Prop :=
  ∃ view, ∀ format, (l.loaded format).map LoadedConfig.view = .ok view

/-! ## The routes of a document -/

theorem length_filter_kinds (rs : List Route) :
    (rs.filter fun r => decide (r.matchType = .matchExact)).length +
      (rs.filter fun r => decide (r.matchType = .matchPrefix)).length = rs.length := by
  induction rs with
  | nil => rfl
  | cons r rs ih =>
    rw [List.filter_cons, List.filter_cons, List.length_cons]
    cases r.matchType with
    | matchExact =>
      simp
      omega
    | matchPrefix =>
      simp
      omega

theorem Holds.length_entries {rs : List Route} {t : RouteTable} (h : Holds rs t) :
    t.exact.length + t.prefixes.length = rs.length := by
  have hexact := h.length .matchExact
  have hprefix := h.length .matchPrefix
  rw [← length_filter_kinds rs, ← hexact, ← hprefix]
  rfl

theorem length_routeList {routes : List RouteDef} (h : ∀ d ∈ routes, ∃ m, d.methods = [m]) :
    (routes.flatMap (·.routeList)).length = routes.length := by
  induction routes with
  | nil => rfl
  | cons d routes ih =>
    obtain ⟨m, hm⟩ := h d (List.mem_cons_self ..)
    rw [List.flatMap_cons, List.length_append, ih fun d hd => h d (List.mem_cons_of_mem _ hd),
      RouteDef.routeList, hm]
    simp
    omega

theorem Listing.IsDocument.sound {l : Listing} (h : l.IsDocument) : l.Sound where
  complete := by
    intro d hd
    obtain ⟨m, hm⟩ := h.single d hd
    exact ⟨h.known d hd, by rw [hm]; simp⟩
  addable := by
    refine ⟨h.distinct, fun kind => ?_⟩
    have hle := List.length_filter_le (fun r => decide (r.matchType = kind)) l.routeList
    have hlength : l.routeList.length = l.routes.length := length_routeList h.single
    have hfew := h.few
    omega

/-- The JSON loader loads every document as it is meant. -/
theorem Listing.IsDocument.json {l : Listing} (h : l.IsDocument) :
    ∃ t, Holds l.routeList t ∧ l.routeTable = .ok t ∧
      (l.loaded .json).map LoadedConfig.view
        = .ok (t.exact, t.prefixes, l.blocks.map (·.block)) := by
  obtain ⟨t, ht, hholds⟩ := h.sound.exists_table
  refine ⟨t, hholds, ht, ?_⟩
  have hload := loadJsonConfig_listing l
  rw [ht] at hload
  change (loadJsonConfig l.json .zero).map LoadedConfig.view = _
  rw [hload]
  rfl

/-! ## What YAML can hold -/

theorem entriesOf_init (kind : MatchType) : entriesOf routeTableInit kind = [] := by
  cases kind with
  | matchExact => rfl
  | matchPrefix => rfl

theorem not_refuses_init (r : Route) : ¬Refuses routeTableInit r := by
  rw [Refuses, entriesOf_init]
  simp [maxRoutes, hasDuplicate]

/-- What a document must be for the YAML loader to read it as the JSON loader does. -/
structure Listing.Unmerged (l : Listing) : Prop where
  routes : l.routes.length ≤ 1
  blocks : l.blocks.length = 1
  names : ∀ b ∈ l.blocks, b.names = []

theorem RouteFields.set_method (fields : RouteFields) (value : CStr) :
    fields.set (ascii "method") value = { fields with method := (cut 16 value).map toUpper } := rfl

theorem RouteFields.set_path (fields : RouteFields) (value : CStr) :
    fields.set (ascii "path") value = { fields with path := cut 256 value } := rfl

theorem RouteFields.set_handler (fields : RouteFields) (value : CStr) :
    fields.set (ascii "handler") value = { fields with handlerName := cut 64 value } := rfl

theorem RouteFields.set_auth (fields : RouteFields) (value : CStr) :
    fields.set (ascii "auth") value = { fields with authRealm := cut 64 value } := rfl

theorem RouteFields.set_role (fields : RouteFields) (value : CStr) :
    fields.set (ascii "role") value = { fields with authRole := cut 32 value } := rfl

/-- The fields of a record on top of those read before. -/
theorem foldl_fields (d : RouteDef) (m : Word 16) (before : RouteFields) :
    (d.fields (some m)).foldl (fun merged f => merged.set f.1 f.2) before =
      { method := m.text.map toUpper
        path := d.path.text
        handlerName := d.handler.text
        authRealm := if d.realm.text = [] then before.authRealm else d.realm.text
        authRole := if d.role.text = [] then before.authRole else d.role.text } := by
  have hm : cut 16 m.text = m.text := m.cut_text
  have hp : cut 256 d.path.text = d.path.text := d.path.cut_text
  have hh : cut 64 d.handler.text = d.handler.text := d.handler.cut_text
  have hrealm : cut 64 d.realm.text = d.realm.text := d.realm.cut_text
  have hrole : cut 32 d.role.text = d.role.text := d.role.cut_text
  by_cases h₁ : d.realm.text = [] <;> by_cases h₂ : d.role.text = [] <;>
    simp [RouteDef.fields, h₁, h₂, RouteFields.set_method, RouteFields.set_path,
      RouteFields.set_handler, RouteFields.set_auth, RouteFields.set_role, hm, hp, hh, hrealm,
      hrole]

theorem addRouteMap_fields {d : RouteDef} {m : Word 16} (hm : d.methods = [m]) (rt : RouteTable) :
    addRouteMap (mergeFields (d.fields (some m))) rt = d.addTo rt := by
  have hrealm : (if d.realm.text = [] then [] else d.realm.text) = d.realm.text := by
    split_ifs with h
    · exact h.symm
    · rfl
  have hrole : (if d.role.text = [] then [] else d.role.text) = d.role.text := by
    split_ifs with h
    · exact h.symm
    · rfl
  have hmerge : mergeFields (d.fields (some m))
      = ⟨m.text.map toUpper, d.path.text, d.handler.text, d.realm.text, d.role.text⟩ := by
    rw [mergeFields, foldl_fields, RouteFields.empty, hrealm, hrole]
  have hall : m.text.map toUpper ≠ [] ∧ d.path.text ≠ [] ∧ d.handler.text ≠ [] :=
    ⟨by simp [m.nonempty], d.path.nonempty, d.handler.nonempty⟩
  rw [hmerge, addRouteMap, if_pos hall, RouteDef.addTo, hm]
  by_cases hnone : d.handlerType = .none
  · rw [if_pos (Or.inl hnone)]
    exact if_pos hnone
  · rw [if_neg (by simp [hnone]), List.foldlM_cons]
    exact (if_neg hnone).trans (bind_pure _).symm

/-- The YAML loader makes the route table of a document with at most one route. -/
theorem Listing.Unmerged.routeTable {l : Listing} (hdoc : l.IsDocument) (h : l.Unmerged) :
    addRouteMap (mergeFields l.yamlFieldsSeen) routeTableInit = l.routeTable := by
  obtain ⟨b, hb⟩ := List.length_eq_one_iff.1 h.blocks
  have hhead : l.yamlHead.length ≤ 15 := by
    have := b.length_yaml
    rw [Listing.yamlHead, hb, List.flatMap_singleton]
    simp
    omega
  by_cases hnil : l.routes = []
  · have hfields : l.yamlFieldsSeen = [] := by
      rw [Listing.yamlFieldsSeen, Listing.yamlFields, hnil]
      simp
    rw [hfields, Listing.routeTable, hnil]
    rfl
  · obtain ⟨d, hd⟩ : ∃ d, l.routes = [d] :=
      List.length_eq_one_iff.1 (le_antisymm h.routes (List.length_pos_iff.2 hnil))
    obtain ⟨m, hm⟩ := hdoc.single d (by rw [hd]; exact List.mem_cons_self ..)
    have hfields : l.yamlFieldsSeen = d.fields (some m) := by
      have hrecords : d.records = [d.fields (some m)] := by
        rw [RouteDef.records, hm]
        rfl
      have hlength : (d.fields (some m)).length ≤ 5 := by
        by_cases h₁ : d.realm.text = [] <;> by_cases h₂ : d.role.text = [] <;>
          simp [RouteDef.fields, h₁, h₂]
      rw [Listing.yamlFieldsSeen, Listing.yamlFields, hd, List.flatMap_singleton, hrecords,
        List.flatten_singleton, List.take_of_length_le (by omega)]
    rw [hfields, addRouteMap_fields hm, Listing.routeTable, hd, List.foldlM_cons]
    exact (bind_pure _).symm

end MiniWeb.Config
