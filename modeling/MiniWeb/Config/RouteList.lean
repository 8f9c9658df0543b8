import MiniWeb.Config.Document
import MiniWeb.Routing.Lookup

/-!
# Adding a list of routes

A list of routes whose texts fit their fields is taken by `route_table_add` as long as no two of
them have the same key and neither array is full; otherwise the loader gives up. This settles which
listings make up a route table.
-/

namespace MiniWeb.Config

open CStr Routing

variable {t : RouteTable} {r : Route} {rs : List Route}

/-! ## One route -/

/-- The array for a kind of match. -/
def entriesOf (t : RouteTable) : MatchType → List RouteEntry
  | .matchExact => t.exact
  | .matchPrefix => t.prefixes

/-- `route_table_add` refuses the route. -/
def Refuses (t : RouteTable) (r : Route) : Prop :=
  maxRoutes ≤ (entriesOf t r.matchType).length ∨
    hasDuplicate r (entriesOf t r.matchType) = true

theorem addRoute_refused (h : Refuses t r) : addRoute r t = .error .refused := by
  rw [addRoute]
  have hresult := routeTableAdd_result r t
  generalize routeTableAdd r t = result at hresult ⊢
  cases hresult with
  | exactRefused => rfl
  | prefixRefused => rfl
  | exactAdded htype hroom hnew =>
    rw [Refuses, htype] at h
    rcases h with hfull | hdup
    · exact absurd hfull (Nat.not_le_of_lt hroom)
    · exact absurd hdup hnew
  | prefixAdded htype hroom hnew =>
    rw [Refuses, htype] at h
    rcases h with hfull | hdup
    · exact absurd hfull (Nat.not_le_of_lt hroom)
    · exact absurd hdup hnew

/-- A route that is not refused is put at the end of its array. -/
theorem addRoute_ok (ht : Built t) (h : ¬Refuses t r) :
    ∃ t', addRoute r t = .ok t' ∧ Built t' ∧ ∀ kind,
      entriesOf t' kind = entriesOf t kind ++ if r.matchType = kind then [r.entry] else [] := by
  obtain ⟨ok, t', hadd, hbuilt⟩ := routeTableAdd_built ht r
  have hresult := routeTableAdd_result r t
  rw [hadd] at hresult
  rw [addRoute, hadd]
  cases hresult with
  | exactRefused htype hwhy =>
    refine absurd ?_ h
    rw [Refuses, htype]
    exact hwhy
  | prefixRefused htype hwhy =>
    refine absurd ?_ h
    rw [Refuses, htype]
    exact hwhy
  | exactAdded htype =>
    refine ⟨_, rfl, hbuilt, fun kind => ?_⟩
    cases kind with
    | matchExact => simp [entriesOf, htype]
    | matchPrefix => simp [entriesOf, htype]
  | prefixAdded htype =>
    refine ⟨_, rfl, hbuilt, fun kind => ?_⟩
    cases kind with
    | matchExact => simp [entriesOf, htype]
    | matchPrefix => simp [entriesOf, htype]

/-! ## A list of routes -/

/-- The texts that tell the route apart fit their fields. -/
structure RouteFits (r : Route) : Prop where
  method : r.method.length < 16
  path : r.path.length < 256

/-- What no two routes may share. -/
def routeKey (r : Route) : CStr × CStr × MatchType := (r.method, r.path, r.matchType)

/-- The table holds the routes in their order. -/
structure Holds (rs : List Route) (t : RouteTable) : Prop where
  built : Built t
  entries : ∀ kind,
    entriesOf t kind = (rs.filter fun r => decide (r.matchType = kind)).map Route.entry

/-- The keys are distinct and the arrays are large enough. -/
structure Addable (rs : List Route) : Prop where
  distinct : (rs.map routeKey).Nodup
  room : ∀ kind, (rs.filter fun r => decide (r.matchType = kind)).length ≤ maxRoutes

theorem holds_init : Holds [] routeTableInit where
  built := built_init
  entries := by
    rintro (_ | _)
    · rfl
    · rfl

theorem addable_nil : Addable [] := ⟨List.nodup_nil, fun _ => Nat.zero_le _⟩

theorem Addable.of_append {xs ys : List Route} (h : Addable (xs ++ ys)) : Addable xs where
  distinct := by
    have hdistinct := h.distinct
    rw [List.map_append] at hdistinct
    exact hdistinct.of_append_left
  room := by
    intro kind
    have hroom := h.room kind
    rw [List.filter_append, List.length_append] at hroom
    omega

theorem mem_filter_entry {kind : MatchType} {e : RouteEntry} :
    e ∈ (rs.filter fun r => decide (r.matchType = kind)).map Route.entry ↔
      ∃ r ∈ rs, r.matchType = kind ∧ r.entry = e := by
  simp only [List.mem_map, List.mem_filter, decide_eq_true_eq, and_assoc]

/-- A route is a duplicate if its key is one of those in the table. -/
theorem Holds.hasDuplicate_iff (h : Holds rs t) (hfits : ∀ r ∈ rs, RouteFits r) :
    hasDuplicate r (entriesOf t r.matchType) = true ↔ routeKey r ∈ rs.map routeKey := by
  have hmethod : ∀ q ∈ rs, q.entry.method = q.method := fun q hq =>
    List.take_of_length_le (by have := (hfits q hq).method; omega)
  have hpath : ∀ q ∈ rs, q.entry.path = q.path := fun q hq =>
    List.take_of_length_le (by have := (hfits q hq).path; omega)
  rw [hasDuplicate, List.any_eq_true, h.entries, List.mem_map]
  simp only [Bool.and_eq_true, decide_eq_true_eq, strcmp_eq_iff, mem_filter_entry]
  constructor
  · rintro ⟨e, ⟨q, hq, hkind, rfl⟩, hp, hm⟩
    rw [hpath q hq] at hp
    rw [hmethod q hq] at hm
    exact ⟨q, hq, by rw [routeKey, routeKey, hp, hm, hkind]⟩
  · rintro ⟨q, hq, hkey⟩
    simp only [routeKey, Prod.mk.injEq] at hkey
    refine ⟨q.entry, ⟨q, hq, hkey.2.2, rfl⟩, ?_, ?_⟩
    · rw [hpath q hq, hkey.2.1]
    · rw [hmethod q hq, hkey.1]

/-- The routes held are as many as the entries. -/
theorem Holds.length (h : Holds rs t) (kind : MatchType) :
    (entriesOf t kind).length = (rs.filter fun r => decide (r.matchType = kind)).length := by
  rw [h.entries, List.length_map]

/-- One more route is refused just when it could not be added to the list. -/
theorem Holds.refuses_iff (h : Holds rs t) (hadd : Addable rs) (hfits : ∀ r ∈ rs, RouteFits r) :
    Refuses t r ↔ ¬Addable (rs ++ [r]) := by
  rw [Refuses, h.hasDuplicate_iff hfits, h.length]
  constructor
  · rintro (hfull | hdup) hmore
    · have hroom := hmore.room r.matchType
      rw [List.filter_append, List.length_append] at hroom
      simp at hroom
      omega
    · have hdistinct := hmore.distinct
      rw [List.map_append, List.nodup_append] at hdistinct
      exact hdistinct.2.2 _ hdup _ (by simp) rfl
  · intro hnot
    by_contra hno
    rw [not_or, not_le] at hno
    refine hnot ⟨?_, ?_⟩
    · rw [List.map_append, List.nodup_append]
      refine ⟨hadd.distinct, by simp, ?_⟩
      intro k hk k' hk' hkk
      rw [List.map_singleton, List.mem_singleton] at hk'
      exact hno.2 (hk' ▸ hkk ▸ hk)
    · intro kind
      rw [List.filter_append, List.length_append]
      by_cases hkind : r.matchType = kind
      · have hroom := hno.1
        rw [hkind] at hroom
        simp [hkind]
        omega
      · have hroom := hadd.room kind
        simp [hkind]
        omega

theorem Holds.add (h : Holds rs t) {t' : RouteTable} (hbuilt : Built t')
    (hentries : ∀ kind,
      entriesOf t' kind = entriesOf t kind ++ if r.matchType = kind then [r.entry] else []) :
    Holds (rs ++ [r]) t' where
  built := hbuilt
  entries := by
    intro kind
    rw [hentries, h.entries, List.filter_append, List.map_append]
    by_cases hkind : r.matchType = kind
    · simp [hkind]
    · simp [hkind]

/-- A list of routes is added as a whole, or the loader gives up. -/
theorem foldlM_addRoute {pre : List Route} (h : Holds pre t) (hadd : Addable pre)
    (hfits : ∀ r ∈ pre ++ rs, RouteFits r) :
    (Addable (pre ++ rs) ∧
      ∃ t', rs.foldlM (fun t r => addRoute r t) t = .ok t' ∧ Holds (pre ++ rs) t') ∨
    (¬Addable (pre ++ rs) ∧ rs.foldlM (fun t r => addRoute r t) t = .error .refused) := by
  induction rs generalizing pre t with
  | nil =>
    rw [List.append_nil]
    exact Or.inl ⟨hadd, t, rfl, h⟩
  | cons r rs ih =>
    have hpre : ∀ r ∈ pre, RouteFits r := fun r hr => hfits r (List.mem_append_left _ hr)
    have hcons : pre ++ r :: rs = pre ++ [r] ++ rs := List.append_cons ..
    by_cases hrefuse : Refuses t r
    · refine Or.inr ⟨fun hall => (h.refuses_iff hadd hpre).1 hrefuse ?_, ?_⟩
      · rw [hcons] at hall
        exact hall.of_append
      · rw [List.foldlM_cons, addRoute_refused hrefuse]
        rfl
    · have hmore : Addable (pre ++ [r]) := by
        by_contra hnot
        exact hrefuse ((h.refuses_iff hadd hpre).2 hnot)
      obtain ⟨t', hok, hbuilt, hentries⟩ := addRoute_ok h.built hrefuse
      have hrest := ih (h.add hbuilt hentries) hmore (hcons ▸ hfits)
      rw [hcons, List.foldlM_cons, hok]
      exact hrest

/-! ## The routes of a listing -/

theorem length_pathMatch_le (path : CStr) : (pathMatch path).1.length ≤ path.length := by
  rw [pathMatch]
  split_ifs
  · simp
  · exact le_refl _

theorem RouteDef.routeFits (d : RouteDef) (m : Word 16) : RouteFits (d.route m) where
  method := by
    have := m.short
    rw [RouteDef.route, List.length_map]
    exact this
  path := lt_of_le_of_lt (length_pathMatch_le d.path.text) d.path.short

def RouteDef.routeList (d : RouteDef) : List Route := d.methods.map d.route

def Listing.routeList (l : Listing) : List Route := l.routes.flatMap (·.routeList)

/-- A definition on its own is in order. -/
def RouteDef.Complete (d : RouteDef) : Prop := d.handlerType ≠ .none ∧ d.methods ≠ []

theorem RouteDef.addTo_cases (d : RouteDef) {pre : List Route} (h : Holds pre t)
    (hadd : Addable pre) (hfits : ∀ r ∈ pre, RouteFits r) :
    (d.Complete ∧ Addable (pre ++ d.routeList) ∧
      ∃ t', d.addTo t = .ok t' ∧ Holds (pre ++ d.routeList) t') ∨
    (¬(d.Complete ∧ Addable (pre ++ d.routeList)) ∧ d.addTo t = .error .refused) := by
  have hall : ∀ r ∈ pre ++ d.routeList, RouteFits r := by
    rw [RouteDef.routeList, List.forall_mem_append]
    refine ⟨hfits, ?_⟩
    intro r hr
    obtain ⟨m, -, rfl⟩ := List.mem_map.1 hr
    exact d.routeFits m
  by_cases hcomplete : d.Complete
  · have hfold : d.addTo t = d.routeList.foldlM (fun t r => addRoute r t) t := by
      rw [RouteDef.addTo, if_neg (by rw [not_or]; exact hcomplete), RouteDef.routeList,
        List.foldlM_map]
    rw [hfold]
    rcases foldlM_addRoute h hadd hall with ⟨hok, htable⟩ | ⟨hnot, herror⟩
    · exact Or.inl ⟨hcomplete, hok, htable⟩
    · exact Or.inr ⟨fun hboth => hnot hboth.2, herror⟩
  · refine Or.inr ⟨fun hboth => hcomplete hboth.1, ?_⟩
    rw [RouteDef.Complete, not_and_or, not_not, not_not] at hcomplete
    rw [RouteDef.addTo, if_pos hcomplete]

/-- The definitions are complete and their routes fit a table. -/
structure Listing.Sound (l : Listing) : Prop where
  complete : ∀ d ∈ l.routes, d.Complete
  addable : Addable l.routeList

theorem foldlM_addTo (defs : List RouteDef) {pre : List Route} (h : Holds pre t)
    (hadd : Addable pre) (hfits : ∀ r ∈ pre, RouteFits r) :
    (((∀ d ∈ defs, d.Complete) ∧ Addable (pre ++ defs.flatMap (·.routeList))) ∧
      ∃ t', defs.foldlM (fun t d => d.addTo t) t = .ok t' ∧
        Holds (pre ++ defs.flatMap (·.routeList)) t') ∨
    (¬((∀ d ∈ defs, d.Complete) ∧ Addable (pre ++ defs.flatMap (·.routeList))) ∧
      defs.foldlM (fun t d => d.addTo t) t = .error .refused) := by
  induction defs generalizing pre t with
  | nil =>
    rw [List.flatMap_nil, List.append_nil]
    exact Or.inl ⟨⟨List.forall_mem_nil _, hadd⟩, t, rfl, h⟩
  | cons d defs ih =>
    rw [List.flatMap_cons, ← List.append_assoc, List.forall_mem_cons, List.foldlM_cons]
    rcases d.addTo_cases h hadd hfits with ⟨hcomplete, hmore, t', hok, hholds⟩ | ⟨hnot, herror⟩
    · have hmoreFits : ∀ r ∈ pre ++ d.routeList, RouteFits r := by
        rw [List.forall_mem_append]
        refine ⟨hfits, ?_⟩
        intro r hr
        obtain ⟨m, -, rfl⟩ := List.mem_map.1 hr
        exact d.routeFits m
      rw [hok]
      rcases ih hholds hmore hmoreFits with ⟨⟨hall, hrest⟩, htable⟩ | ⟨hnot, herror⟩
      · exact Or.inl ⟨⟨⟨hcomplete, hall⟩, hrest⟩, htable⟩
      · exact Or.inr ⟨fun hboth => hnot ⟨hboth.1.2, hboth.2⟩, herror⟩
    · refine Or.inr ⟨fun hboth => hnot ⟨hboth.1.1, hboth.2.of_append⟩, ?_⟩
      rw [herror]
      rfl

/-- A listing makes up a table if it is sound, and is refused otherwise. -/
theorem Listing.routeTable_cases (l : Listing) :
    (l.Sound ∧ ∃ t, l.routeTable = .ok t ∧ Holds l.routeList t) ∨
      (¬l.Sound ∧ l.routeTable = .error .refused) := by
  rcases foldlM_addTo l.routes holds_init addable_nil (List.forall_mem_nil _) with
    ⟨⟨hcomplete, hadd⟩, htable⟩ | ⟨hnot, herror⟩
  · exact Or.inl ⟨⟨hcomplete, hadd⟩, htable⟩
  · exact Or.inr ⟨fun h => hnot ⟨h.complete, h.addable⟩, herror⟩

theorem Listing.Sound.exists_table {l : Listing} (h : l.Sound) :
    ∃ t, l.routeTable = .ok t ∧ Holds l.routeList t :=
  l.routeTable_cases.elim And.right fun hnot => absurd h hnot.1

end MiniWeb.Config
