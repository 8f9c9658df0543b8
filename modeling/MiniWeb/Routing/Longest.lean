import MiniWeb.Routing.Find

/-!
# The longest prefix

The header of the route table promises that the longest pattern wins. The scan answers the
matching route that was added first, so that holds exactly when the first one has the longest
pattern. Then the order in which the routes were added makes no difference.
-/

namespace MiniWeb.Routing

open Loop CStr

/-- A prefix route of the method whose pattern is a prefix of the path. -/
def Candidate (t : RouteTable) (method path : CStr) (e : RouteEntry) : Prop :=
  e ∈ t.prefixes ∧ e.method = method ∧ e.path <+: path

/-- A candidate with the longest pattern. -/
def LongestCandidate (t : RouteTable) (method path : CStr) (e : RouteEntry) : Prop :=
  Candidate t method path e ∧ ∀ e', Candidate t method path e' → e'.path.length ≤ e.path.length

/-- `route_table_find` answers the longest candidate, with the rest of the path captured, and no
route if there is no candidate. -/
def FindsLongest (t : RouteTable) (method path : CStr) : Prop :=
  ∃ r, routeTableFind t method path = some r ∧
    (∀ e, r.entry = some e →
      LongestCandidate t method path e ∧ r.captured = path.drop e.path.length) ∧
    (r.entry = none → ∀ e, ¬ Candidate t method path e)

/-- If a route of the method with a nonempty pattern matches, then the one added first has the
longest pattern, the walk meets no exact route for the path, and the rest of the path fits the
buffer; if none does, no route of the method has an empty pattern. -/
def LongestFirst (t : RouteTable) (method path : CStr) : Prop :=
  match firstOfMethod t method path with
  | some e =>
    (∀ e', Candidate t method path e' → e'.path.length ≤ e.path.length) ∧
      Clear t method path ∧ path.length - e.path.length < 256
  | none => ∀ e ∈ t.prefixes, e.method = method → e.path ≠ []

section

variable {t t' : RouteTable} {method path : CStr} {e e' : RouteEntry}

theorem cut_eq_self_iff {s : CStr} : cut 256 s = s ↔ s.length < 256 := by
  rw [cut, List.take_eq_self_iff]
  omega

/-- With no exact route for the key, the walk does not hit. -/
theorem not_hit (ht : Built t) (hno : ∀ i, ¬ Keyed t method path i) : ¬ Hit t method path := by
  rintro ⟨j, hj, hm⟩
  exact hno j ⟨hj.lt ht, hj.onPath, hm⟩

theorem find_of_first (ht : Built t) (hclear : Clear t method path)
    (hfirst : firstOfMethod t method path = some e) :
    ∃ r, routeTableFind t method path = some r ∧ r.entry = some e ∧
      r.captured = cut 256 (path.drop e.path.length) := by
  obtain ⟨hentry, hcaptured, -⟩ := scanPrefixes_found (t := t) hfirst ⟨none, [], false, []⟩
  exact ⟨_, find_of_clear ht hclear, hentry, hcaptured⟩

theorem find_of_no_first (ht : Built t) (hno : ∀ i, ¬ Keyed t method path i)
    (hfirst : firstOfMethod t method path = none) :
    ∃ r, routeTableFind t method path = some r ∧ r.entry = none := by
  rcases hit_or_blocked_or_clear t method path with hhit | hblocked | hclear
  · exact absurd hhit (not_hit ht hno)
  · exact ⟨_, find_of_blocked ht hblocked, rfl⟩
  · exact ⟨_, find_of_clear ht hclear,
      (scanPrefixes_missed (firstOfMethod_none.mp hfirst) ⟨none, [], false, []⟩ rfl).1⟩

theorem findsLongest_iff (ht : Built t) (hno : ∀ i, ¬ Keyed t method path i) :
    FindsLongest t method path ↔ LongestFirst t method path := by
  unfold LongestFirst
  cases hfirst : firstOfMethod t method path with
  | none =>
    obtain ⟨r, hr, hnone⟩ := find_of_no_first ht hno hfirst
    have hlong := firstOfMethod_none.mp hfirst
    constructor
    · rintro ⟨r', hr', -, hempty⟩ e he hm hnil
      rw [hr] at hr'
      cases hr'
      exact hempty hnone e ⟨he, hm, hnil ▸ List.nil_prefix⟩
    · intro hne
      refine ⟨r, hr, fun e he => ?_, fun _ e he => ?_⟩
      · rw [hnone] at he
        cases he
      · obtain ⟨hmem, hm, hpre⟩ := he
        exact hlong e hmem ⟨hne e hmem hm, hpre⟩ hm
  | some e =>
    obtain ⟨hmem, hm, hmatch⟩ := firstOfMethod_some hfirst
    have hcand : Candidate t method path e := ⟨hmem, hm, hmatch.2⟩
    constructor
    · rintro ⟨r, hr, hsome, hnone⟩
      rcases hit_or_blocked_or_clear t method path with hhit | hblocked | hclear
      · exact absurd hhit (not_hit ht hno)
      · rw [find_of_blocked ht hblocked] at hr
        cases hr
        exact absurd hcand (hnone rfl e)
      · obtain ⟨r', hr', hentry, hcaptured⟩ := find_of_first ht hclear hfirst
        rw [hr] at hr'
        cases hr'
        obtain ⟨hlongest, hrest⟩ := hsome e hentry
        refine ⟨hlongest.2, hclear, ?_⟩
        rw [hcaptured] at hrest
        have := cut_eq_self_iff.mp hrest
        rwa [List.length_drop] at this
    · rintro ⟨hlongest, hclear, hfits⟩
      obtain ⟨r, hr, hentry, hcaptured⟩ := find_of_first ht hclear hfirst
      refine ⟨r, hr, fun e' he' => ?_, fun hnone => ?_⟩
      · rw [hentry] at he'
        cases he'
        refine ⟨⟨hcand, hlongest⟩, ?_⟩
        rw [hcaptured]
        apply cut_eq_self_iff.mpr
        rwa [List.length_drop]
      · rw [hentry] at hnone
        cases hnone

/-! ## The order of the routes -/

/-- Every call of `route_table_add` returns 0. -/
def allAdded : List Route → RouteTable → Bool
  | [], _ => true
  | r :: rs, t =>
    match routeTableAdd r t with
    | some (true, t) => allAdded rs t
    | _ => false

/-- No two routes are stored with one method and pattern. -/
def DistinctKeys (entries : List RouteEntry) : Prop :=
  ∀ e ∈ entries, ∀ e' ∈ entries, e.method = e'.method → e.path = e'.path → e = e'

/-- What is returned is the same route, with the same rest of the path captured. -/
def SameRoute (t t' : RouteTable) (method path : CStr) : Prop :=
  ∃ r r', routeTableFind t method path = some r ∧ routeTableFind t' method path = some r' ∧
    r.entry = r'.entry ∧ (r.entry ≠ none → r.captured = r'.captured)

/-- The prefix routes of a list, as they are stored. -/
def prefixEntries (routes : List Route) : List RouteEntry :=
  (routes.filter fun r => decide (r.matchType = .matchPrefix)).map Route.entry

theorem routeTableAdd_prefixes {r : Route} (h : routeTableAdd r t = some (true, t')) :
    t'.prefixes = t.prefixes ++ prefixEntries [r] := by
  have hresult := routeTableAdd_result r t
  rw [h] at hresult
  cases hresult with
  | exactAdded htype => simp [prefixEntries, htype]
  | prefixAdded htype => simp [prefixEntries, htype]

theorem addRoutes_prefixes {routes : List Route} (hall : allAdded routes t = true)
    (h : addRoutes routes t = some t') : t'.prefixes = t.prefixes ++ prefixEntries routes := by
  induction routes generalizing t with
  | nil =>
    cases h
    rw [prefixEntries, List.filter_nil, List.map_nil, List.append_nil]
  | cons r routes ih =>
    obtain ⟨⟨ok, t₁⟩, ht₁, hrest⟩ := Option.bind_eq_some_iff.mp h
    rw [allAdded, ht₁] at hall
    cases ok with
    | false => cases hall
    | true =>
      rw [ih hall hrest, routeTableAdd_prefixes ht₁, List.append_assoc]
      congr 1
      rw [prefixEntries, prefixEntries, prefixEntries, ← List.map_append, ← List.filter_append]
      rfl

/-- Two orders of the prefix routes, in each of which the longest candidate comes first. -/
theorem FindsLongest.sameRoute (h : FindsLongest t method path) (h' : FindsLongest t' method path)
    (hsame : ∀ e, e ∈ t.prefixes ↔ e ∈ t'.prefixes) (hkeys : DistinctKeys t.prefixes) :
    SameRoute t t' method path := by
  have hcand : ∀ e, Candidate t method path e ↔ Candidate t' method path e := by
    intro e
    unfold Candidate
    rw [hsame e]
  obtain ⟨r, hr, hsome, hnone⟩ := h
  obtain ⟨r', hr', hsome', hnone'⟩ := h'
  refine ⟨r, r', hr, hr', ?_⟩
  cases he : r.entry with
  | none =>
    cases he' : r'.entry with
    | none => exact ⟨rfl, fun h0 => absurd rfl h0⟩
    | some e' => exact absurd ((hcand e').mpr (hsome' e' he').1.1) (hnone he e')
  | some e =>
    cases he' : r'.entry with
    | none => exact absurd ((hcand e).mp (hsome e he).1.1) (hnone' he' e)
    | some e' =>
      obtain ⟨⟨hc, hlong⟩, hcap⟩ := hsome e he
      obtain ⟨⟨hc', hlong'⟩, hcap'⟩ := hsome' e' he'
      -- two prefixes of one path with the same length
      have hlen : e.path.length = e'.path.length :=
        Nat.le_antisymm (hlong' e ((hcand e).mp hc)) (hlong e' ((hcand e').mpr hc'))
      have hpath : e.path = e'.path :=
        (List.prefix_of_prefix_length_le hc.2.2 hc'.2.2 (Nat.le_of_eq hlen)).eq_of_length hlen
      have heq : e = e' := hkeys e hc.1 e' ((hcand e').mpr hc').1
        (hc.2.1.trans hc'.2.1.symm) hpath
      rw [heq] at hcap ⊢
      exact ⟨rfl, fun _ => hcap.trans hcap'.symm⟩

end

/-- **Longest prefix.** For every table that `route_table_add` builds and every key without an
exact route, `route_table_find` answers the longest candidate exactly if it comes first; and two
lists of the same routes in different orders then lead to the same route. -/
theorem addRoutes_findsLongest_iff (routes : List Route) :
    ∃ t, addRoutes routes routeTableInit = some t ∧
      ∀ method path, (∀ i, ¬ Keyed t method path i) →
        (FindsLongest t method path ↔ LongestFirst t method path) ∧
        ∀ routes' t', routes'.Perm routes → addRoutes routes' routeTableInit = some t' →
          allAdded routes routeTableInit = true → allAdded routes' routeTableInit = true →
          DistinctKeys t.prefixes → (∀ i, ¬ Keyed t' method path i) →
          LongestFirst t method path → LongestFirst t' method path →
          SameRoute t t' method path := by
  obtain ⟨t, ht, hbuilt⟩ := addRoutes_built routes built_init
  refine ⟨t, ht, fun method path hno => ⟨findsLongest_iff hbuilt hno, ?_⟩⟩
  intro routes' t' hperm ht' hall hall' hkeys hno' hfirst hfirst'
  obtain ⟨t₁, ht₁, hbuilt'⟩ := addRoutes_built routes' built_init
  rw [ht'] at ht₁
  cases ht₁
  apply ((findsLongest_iff hbuilt hno).mpr hfirst).sameRoute
    ((findsLongest_iff hbuilt' hno').mpr hfirst') _ hkeys
  intro e
  rw [addRoutes_prefixes hall ht, addRoutes_prefixes hall' ht']
  exact ((hperm.filter _).map _).symm.mem_iff

/-- A prefix route without a realm or a role. -/
def publicPrefix (method path : String) (handler : HandlerType) : Route :=
  ⟨ascii method, ascii path, .matchPrefix, handler, [], []⟩

/-- The locations `/users/find-index/*`, `/users/compare/*` and `/users/*`, with the first two in
either order. -/
def usersRoutes (swap : Bool) : List Route :=
  let longer := [publicPrefix "GET" "/users/find-index/" .userFindIndex,
    publicPrefix "GET" "/users/compare/" .userCompare]
  (if swap then longer.reverse else longer) ++ [publicPrefix "GET" "/users/" .userByName]

/-- In both orders the longer patterns come before `/users/*`, and a request is routed alike. -/
theorem addRoutes_findsLongest_iff_example :
    ∃ t t', addRoutes (usersRoutes false) routeTableInit = some t ∧
      addRoutes (usersRoutes true) routeTableInit = some t' ∧
      FindsLongest t (ascii "GET") (ascii "/users/find-index/bob") ∧
      SameRoute t t' (ascii "GET") (ascii "/users/find-index/bob") := by
  have hready : ∀ swap : Bool, ∃ t, addRoutes (usersRoutes swap) routeTableInit = some t ∧
      (∀ i, ¬ Keyed t (ascii "GET") (ascii "/users/find-index/bob") i) ∧
      LongestFirst t (ascii "GET") (ascii "/users/find-index/bob") ∧
      DistinctKeys t.prefixes := by
    intro swap
    obtain ⟨t, ht, hbuilt⟩ := addRoutes_built (usersRoutes swap) built_init
    have hall : allAdded (usersRoutes swap) routeTableInit = true := by
      cases swap <;> decide +kernel
    have hprefixes : t.prefixes = prefixEntries (usersRoutes swap) := addRoutes_prefixes hall ht
    have hexact : t.exact = [] := by
      have hget : ((addRoutes (usersRoutes swap) routeTableInit).map (·.exact)) = some [] := by
        cases swap <;> decide +kernel
      rw [ht] at hget
      exact Option.some.inj hget
    have hfirst : firstOfMethod t (ascii "GET") (ascii "/users/find-index/bob") =
        some (publicPrefix "GET" "/users/find-index/" .userFindIndex).entry := by
      rw [firstOfMethod, hprefixes]
      cases swap <;> decide +kernel
    refine ⟨t, ht, fun i hi => ?_, ?_, ?_⟩
    · have hlt := hi.1
      rw [hexact] at hlt
      cases hlt
    · rw [LongestFirst, hfirst]
      refine ⟨fun e he => ?_, clear_of_no_exact hbuilt hexact _ _, by decide +kernel⟩
      have hlength : ∀ e ∈ prefixEntries (usersRoutes swap), e.path.length ≤
          (publicPrefix "GET" "/users/find-index/" .userFindIndex).entry.path.length := by
        cases swap <;> decide +kernel
      exact hlength e (hprefixes ▸ he.1)
    · rw [hprefixes]
      unfold DistinctKeys
      cases swap <;> decide +kernel
  obtain ⟨t, ht, h⟩ := addRoutes_findsLongest_iff (usersRoutes false)
  obtain ⟨t₁, ht₁, hno, hfirst, hkeys⟩ := hready false
  obtain ⟨t', ht', hno', hfirst', -⟩ := hready true
  rw [ht] at ht₁
  cases ht₁
  obtain ⟨hiff, hsame⟩ := h _ _ hno
  exact ⟨t, t', ht, ht', hiff.mpr hfirst, hsame (usersRoutes true) t' (List.Perm.swap _ _ _) ht'
    (by decide +kernel) (by decide +kernel) hkeys hno' hfirst hfirst'⟩

/-- With the routes in the order of the shipped configuration, `/users/*` takes the requests for
`/users/find-index/*`. -/
theorem find_index_shadowed :
    ∃ t, addRoutes [publicPrefix "GET" "/users/" .userByName,
        publicPrefix "GET" "/users/find-index/" .userFindIndex] routeTableInit = some t ∧
      Candidate t (ascii "GET") (ascii "/users/find-index/bob")
        (publicPrefix "GET" "/users/find-index/" .userFindIndex).entry ∧
      routeTableFind t (ascii "GET") (ascii "/users/find-index/bob") =
        some ⟨some (publicPrefix "GET" "/users/" .userByName).entry, ascii "find-index/bob",
          false, []⟩ ∧
      ¬ FindsLongest t (ascii "GET") (ascii "/users/find-index/bob") := by
  have hcand : Candidate ((addRoutes [publicPrefix "GET" "/users/" .userByName,
      publicPrefix "GET" "/users/find-index/" .userFindIndex] routeTableInit).get
        (by decide +kernel)) (ascii "GET") (ascii "/users/find-index/bob")
          (publicPrefix "GET" "/users/find-index/" .userFindIndex).entry := by
    refine ⟨by decide +kernel, by decide +kernel, by decide +kernel⟩
  have hfind : routeTableFind ((addRoutes [publicPrefix "GET" "/users/" .userByName,
      publicPrefix "GET" "/users/find-index/" .userFindIndex] routeTableInit).get
        (by decide +kernel)) (ascii "GET") (ascii "/users/find-index/bob") =
          some ⟨some (publicPrefix "GET" "/users/" .userByName).entry, ascii "find-index/bob",
            false, []⟩ := by decide +kernel
  refine ⟨_, (Option.some_get (by decide +kernel)).symm, hcand, hfind, ?_⟩
  rintro ⟨r, hr, hsome, -⟩
  rw [hfind] at hr
  cases hr
  have hle := (hsome _ rfl).1.2 _ hcand
  revert hle
  decide +kernel

end MiniWeb.Routing
