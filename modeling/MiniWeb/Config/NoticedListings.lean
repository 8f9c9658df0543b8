import MiniWeb.Config.Formats
import MiniWeb.Config.Refusal

/-!
# What is noticed in a listing

For the renderings of a listing, what a loader notices comes down to the definitions that are
listed: the JSON loader comes by all of them, the Nginx loader by eight methods of each, and the
YAML loader by one record that holds what is read last under each key.
-/

namespace MiniWeb.Config

open CStr Routing

/-! ## Merged definitions -/

/-- The last value of a key. -/
def lastValue (key : CStr) (fields : List (CStr × CStr)) : Option CStr :=
  (fields.filter fun f => decide (f.1 = key)).getLast?.map (·.2)

theorem lastValue_concat (key : CStr) (fields : List (CStr × CStr)) (f : CStr × CStr) :
    lastValue key (fields ++ [f]) = if f.1 = key then some f.2 else lastValue key fields := by
  rw [lastValue, List.filter_append]
  by_cases h : f.1 = key
  · simp [h]
  · simp [h, lastValue]

/-- The fields without which a route is left out. -/
structure FieldFits (f : CStr × CStr) : Prop where
  method : f.1 = ascii "method" → f.2 ≠ [] ∧ f.2.length < 16
  path : f.1 = ascii "path" → f.2 ≠ [] ∧ f.2.length < 256
  handler : f.1 = ascii "handler" → f.2 ≠ [] ∧ f.2.length < 64

theorem RouteDef.fieldFits (d : RouteDef) (m : Option (Word 16)) :
    ∀ f ∈ d.fields m, FieldFits f := by
  intro f hf
  simp only [RouteDef.fields, List.mem_append, Option.mem_toList, List.mem_cons,
    List.not_mem_nil, or_false] at hf
  rcases hf with ((hf | (rfl | rfl)) | hf) | hf
  · obtain ⟨w, -, rfl⟩ := Option.map_eq_some_iff.1 hf
    exact ⟨fun _ => ⟨w.nonempty, w.short⟩, fun h => absurd h (by simp [ascii]),
      fun h => absurd h (by simp [ascii])⟩
  · exact ⟨fun h => absurd h (by simp [ascii]), fun _ => ⟨d.path.nonempty, d.path.short⟩,
      fun h => absurd h (by simp [ascii])⟩
  · exact ⟨fun h => absurd h (by simp [ascii]), fun h => absurd h (by simp [ascii]),
      fun _ => ⟨d.handler.nonempty, d.handler.short⟩⟩
  · by_cases h : d.realm.text = []
    · simp [h] at hf
    · rw [if_neg h, List.mem_singleton] at hf
      subst hf
      exact ⟨fun h => absurd h (by simp [ascii]), fun h => absurd h (by simp [ascii]),
        fun h => absurd h (by simp [ascii])⟩
  · by_cases h : d.role.text = []
    · simp [h] at hf
    · rw [if_neg h, List.mem_singleton] at hf
      subst hf
      exact ⟨fun h => absurd h (by simp [ascii]), fun h => absurd h (by simp [ascii]),
        fun h => absurd h (by simp [ascii])⟩

/-- What is read last under a key stands. -/
theorem mergeFields_eq {fields : List (CStr × CStr)} (h : ∀ f ∈ fields, FieldFits f) :
    (mergeFields fields).method
      = ((lastValue (ascii "method") fields).map (·.map toUpper)).getD [] ∧
    (mergeFields fields).path = (lastValue (ascii "path") fields).getD [] ∧
    (mergeFields fields).handlerName = (lastValue (ascii "handler") fields).getD [] := by
  induction fields using List.reverseRecOn with
  | nil => exact ⟨rfl, rfl, rfl⟩
  | append_singleton fields f ih =>
    obtain ⟨hmethod, hpath, hhandler⟩ := ih fun g hg => h g (List.mem_append_left _ hg)
    have hf := h f (by simp)
    have hset : mergeFields (fields ++ [f]) = (mergeFields fields).set f.1 f.2 := by
      rw [mergeFields, List.foldl_append]
      rfl
    rw [hset, lastValue_concat, lastValue_concat, lastValue_concat]
    by_cases h₁ : f.1 = ascii "method"
    · have hne : f.1 ≠ ascii "path" ∧ f.1 ≠ ascii "handler" := by
        rw [h₁]
        decide
      rw [if_pos h₁, if_neg hne.1, if_neg hne.2, RouteFields.set, if_pos h₁,
        cut_of_lt (hf.method h₁).2]
      exact ⟨rfl, hpath, hhandler⟩
    by_cases h₂ : f.1 = ascii "path"
    · have hne : f.1 ≠ ascii "handler" := by
        rw [h₂]
        decide
      rw [if_neg h₁, if_pos h₂, if_neg hne, RouteFields.set, if_neg h₁, if_pos h₂,
        cut_of_lt (hf.path h₂).2]
      exact ⟨hmethod, rfl, hhandler⟩
    by_cases h₃ : f.1 = ascii "handler"
    · rw [if_neg h₁, if_neg h₂, if_pos h₃, RouteFields.set, if_neg h₁, if_neg h₂, if_pos h₃,
        cut_of_lt (hf.handler h₃).2]
      exact ⟨hmethod, hpath, rfl⟩
    rw [if_neg h₁, if_neg h₂, if_neg h₃, RouteFields.set, if_neg h₁, if_neg h₂, if_neg h₃]
    split_ifs
    · exact ⟨hmethod, hpath, hhandler⟩
    · exact ⟨hmethod, hpath, hhandler⟩
    · exact ⟨hmethod, hpath, hhandler⟩

theorem getD_ne_nil_iff {o : Option CStr} (h : ∀ v ∈ o, v ≠ []) : o.getD [] ≠ [] ↔ o ≠ none := by
  cases o with
  | none => simp
  | some v => simpa using h v rfl

/-- Some of the lines that the YAML loader sees give a method and a path, and the last handler in
them is unknown. -/
structure Listing.YamlNotices (l : Listing) : Prop where
  method : lastValue (ascii "method") l.yamlFieldsSeen ≠ none
  path : lastValue (ascii "path") l.yamlFieldsSeen ≠ none
  handler : ∃ name ∈ lastValue (ascii "handler") l.yamlFieldsSeen,
    routeTableLookupHandler name = .none

theorem mem_of_lastValue {key v : CStr} {fields : List (CStr × CStr)}
    (h : v ∈ lastValue key fields) : (key, v) ∈ fields := by
  obtain ⟨f, hf, rfl⟩ := Option.map_eq_some_iff.1 h
  obtain ⟨hmem, hkey⟩ := List.mem_filter.1 (List.mem_of_getLast? hf)
  rw [decide_eq_true_eq] at hkey
  rw [← hkey]
  exact hmem

theorem Listing.fieldFits (l : Listing) : ∀ f ∈ l.yamlFieldsSeen, FieldFits f := by
  intro f hf
  obtain ⟨fields, hfields, hmem⟩ := List.mem_flatten.1 (List.mem_of_mem_take hf)
  obtain ⟨d, -, hd⟩ := List.mem_flatMap.1 hfields
  obtain ⟨m, rfl⟩ := mem_records hd
  exact d.fieldFits m f hmem

/-- What is added to an empty table is refused if the handler is unknown. -/
theorem addRouteMap_init_refused_iff (fields : RouteFields) :
    addRouteMap fields routeTableInit = .error .refused ↔
      (fields.method ≠ [] ∧ fields.path ≠ [] ∧ fields.handlerName ≠ []) ∧
        routeTableLookupHandler fields.handlerName = .none := by
  rw [addRouteMap]
  by_cases hall : fields.method ≠ [] ∧ fields.path ≠ [] ∧ fields.handlerName ≠ []
  · rw [if_pos hall]
    by_cases hnone : routeTableLookupHandler fields.handlerName = .none
    · exact iff_of_true (if_pos hnone) ⟨hall, hnone⟩
    · obtain ⟨t, hok, -⟩ := addRoute_ok built_init (not_refuses_init
        ⟨fields.method, (pathMatch fields.path).1, (pathMatch fields.path).2,
          routeTableLookupHandler fields.handlerName, fields.authRealm, fields.authRole⟩)
      refine iff_of_false (fun hrefused => ?_) fun h => hnone h.2
      cases hrefused.symm.trans ((if_neg hnone).trans hok)
  · rw [if_neg hall]
    refine iff_of_false (fun hrefused => ?_) fun h => hall h.1
    cases hrefused

/-! ## The three loaders -/

theorem Listing.routeTable_refused_iff (l : Listing) :
    l.routeTable = .error .refused ↔ ¬l.Sound := by
  rcases l.routeTable_cases with ⟨hsound, t, ht, -⟩ | ⟨hnot, herror⟩
  · refine iff_of_false (fun hrefused => ?_) (not_not_intro hsound)
    cases hrefused.symm.trans ht
  · exact iff_of_true herror hnot

theorem turned_json_iff (l : Listing) : Turned [] (places l.json) ↔ ¬l.Sound := by
  rw [← (visited_nil.outcome (places l.json)).1, visits_places, map_refused_iff,
    loadJsonConfig_listing, map_refused_iff, l.routeTable_refused_iff]

theorem noticed_nginx_iff {l : Listing} (h : l.Fits) : Noticed .nginx l.nginx ↔ ¬l.read.Sound := by
  rw [← (loadNginxConfig_decides l.nginx).refused, loadFormat, loadNginxConfig_listing h,
    map_refused_iff, l.read.routeTable_refused_iff]

theorem noticed_yaml_iff (l : Listing) : Noticed .yaml l.yaml ↔ l.YamlNotices := by
  obtain ⟨hmethod, hpath, hhandler⟩ := mergeFields_eq l.fieldFits
  have hfits : ∀ key v, v ∈ lastValue key l.yamlFieldsSeen → FieldFits (key, v) := fun key v hv =>
    l.fieldFits _ (mem_of_lastValue hv)
  have hnotices : l.YamlNotices ↔
      ((mergeFields l.yamlFieldsSeen).method ≠ [] ∧ (mergeFields l.yamlFieldsSeen).path ≠ [] ∧
        (mergeFields l.yamlFieldsSeen).handlerName ≠ []) ∧
      routeTableLookupHandler (mergeFields l.yamlFieldsSeen).handlerName = .none := by
    have hmethodSome : (mergeFields l.yamlFieldsSeen).method ≠ [] ↔
        lastValue (ascii "method") l.yamlFieldsSeen ≠ none := by
      rw [hmethod, getD_ne_nil_iff, Ne, Option.map_eq_none_iff]
      intro v hv
      obtain ⟨w, hw, rfl⟩ := Option.map_eq_some_iff.1 hv
      simp [((hfits _ w hw).method rfl).1]
    have hpathSome : (mergeFields l.yamlFieldsSeen).path ≠ [] ↔
        lastValue (ascii "path") l.yamlFieldsSeen ≠ none := by
      rw [hpath, getD_ne_nil_iff]
      exact fun v hv => ((hfits _ v hv).path rfl).1
    have hhandlerSome : (mergeFields l.yamlFieldsSeen).handlerName ≠ [] ↔
        lastValue (ascii "handler") l.yamlFieldsSeen ≠ none := by
      rw [hhandler, getD_ne_nil_iff]
      exact fun v hv => ((hfits _ v hv).handler rfl).1
    rw [hmethodSome, hpathSome, hhandlerSome, hhandler]
    constructor
    · rintro ⟨h₁, h₂, name, hname, hnone⟩
      rw [Option.mem_def] at hname
      rw [hname]
      exact ⟨⟨h₁, h₂, by simp⟩, hnone⟩
    · rintro ⟨⟨h₁, h₂, h₃⟩, hnone⟩
      obtain ⟨name, hname⟩ := Option.ne_none_iff_exists'.1 h₃
      rw [hname] at hnone
      exact ⟨h₁, h₂, name, hname, hnone⟩
  rw [← (loadYamlConfig_decides l.yaml).refused, loadFormat, loadYamlConfig_listing,
    map_refused_iff, addRouteMap_init_refused_iff, hnotices]

end MiniWeb.Config
