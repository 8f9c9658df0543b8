import MiniWeb.Routing.Lookup

/-!
# Prefix routes

When no exact route is met, `route_table_find` answers the prefix route of the method that was
added first among those that match the path. It is the one with the longest pattern only if the
routes were added in such an order.
-/

namespace MiniWeb.Routing

open Loop CStr

/-- `path_matches_prefix` says that the route's pattern matches. -/
def Matches (e : RouteEntry) (path : CStr) : Prop := e.path ≠ [] ∧ e.path <+: path

instance decidableMatches (e : RouteEntry) (path : CStr) : Decidable (Matches e path) :=
  inferInstanceAs (Decidable (_ ∧ _))

/-- The prefix route of the method that was added first among those that match. -/
def firstOfMethod (t : RouteTable) (method path : CStr) : Option RouteEntry :=
  t.prefixes.find? fun e => decide (e.method = method ∧ Matches e path)

/-- The prefix route that was added first among those that match, of whatever method. -/
def firstMatch (t : RouteTable) (path : CStr) : Option RouteEntry :=
  t.prefixes.find? fun e => decide (Matches e path)

/-! ## The scan -/

section

variable {t : RouteTable} {method path : CStr} {e : RouteEntry} {es : List RouteEntry}

theorem pathMatchesPrefix_of_matches (h : Matches e path) (captured : CStr) :
    pathMatchesPrefix e.path path captured = (true, cut 256 (path.drop e.path.length)) := by
  rw [pathMatchesPrefix, if_neg h.1, if_pos]
  exact List.isPrefixOf_iff_prefix.mpr h.2

theorem pathMatchesPrefix_of_not_matches (h : ¬ Matches e path) (captured : CStr) :
    (pathMatchesPrefix e.path path captured).1 = false := by
  by_cases hnil : e.path = []
  · rw [pathMatchesPrefix, if_pos hnil]
  · rw [pathMatchesPrefix, if_neg hnil, if_neg]
    intro hstart
    exact h ⟨hnil, List.isPrefixOf_iff_prefix.mp hstart⟩

theorem scanPrefixes_skip (h : ¬ Matches e path) (result : FindResult) :
    scanPrefixes t method path (e :: es) result = scanPrefixes t method path es
      { result with captured := (pathMatchesPrefix e.path path result.captured).2 } := by
  rw [scanPrefixes]
  simp only [pathMatchesPrefix_of_not_matches h]
  rfl

/-- What the scan makes of its result at a route that matches but has another method. -/
def FindResult.mismatch (result : FindResult) (t : RouteTable) (path : CStr) (e : RouteEntry) :
    FindResult :=
  { result with
    captured := cut 256 (path.drop e.path.length)
    is405 := true
    allow := if result.is405 then result.allow else buildAllowForPath t e.path .matchPrefix }

theorem scanPrefixes_mismatch (h : Matches e path) (hm : e.method ≠ method)
    (result : FindResult) :
    scanPrefixes t method path (e :: es) result =
      scanPrefixes t method path es (result.mismatch t path e) := by
  rw [scanPrefixes]
  simp only [pathMatchesPrefix_of_matches h, strcmp_eq_iff, if_neg hm, FindResult.mismatch]
  cases h405 : result.is405 with
  | true => simp only [if_true]
  | false => simp

/-- **A route is found.** The scan ends at the first route of the method that matches. -/
theorem scanPrefixes_found
    (h : es.find? (fun e => decide (e.method = method ∧ Matches e path)) = some e) :
    ∀ result, (scanPrefixes t method path es result).entry = some e ∧
      (scanPrefixes t method path es result).captured = cut 256 (path.drop e.path.length) ∧
      (scanPrefixes t method path es result).is405 = false := by
  induction es with
  | nil => cases h
  | cons a es ih =>
    intro result
    by_cases ha : Matches a path
    · by_cases hm : a.method = method
      · rw [List.find?_cons_of_pos (by simp [ha, hm])] at h
        cases h
        rw [scanPrefixes]
        simp only [pathMatchesPrefix_of_matches ha, strcmp_eq_iff, if_pos hm, if_true]
        exact ⟨trivial, trivial, trivial⟩
      · rw [List.find?_cons_of_neg (by simp [hm])] at h
        rw [scanPrefixes_mismatch ha hm]
        exact ih h _
    · rw [List.find?_cons_of_neg (by simp [ha])] at h
      rw [scanPrefixes_skip ha]
      exact ih h _

/-- Once a mismatch is noted, routes of other methods change nothing. -/
theorem scanPrefixes_noted (hno : ∀ e ∈ es, Matches e path → e.method ≠ method) :
    ∀ result : FindResult, result.is405 = true →
      (scanPrefixes t method path es result).entry = result.entry ∧
      (scanPrefixes t method path es result).is405 = true ∧
      (scanPrefixes t method path es result).allow = result.allow := by
  induction es with
  | nil => exact fun result h => ⟨rfl, h, rfl⟩
  | cons a es ih =>
    intro result h405
    have hrest : ∀ e ∈ es, Matches e path → e.method ≠ method :=
      fun e he => hno e (List.mem_cons_of_mem a he)
    by_cases ha : Matches a path
    · rw [scanPrefixes_mismatch ha (hno a List.mem_cons_self ha)]
      obtain ⟨hentry, h405', hallow⟩ := ih hrest (result.mismatch t path a) rfl
      refine ⟨hentry, h405', ?_⟩
      rw [hallow, FindResult.mismatch, if_pos h405]
    · rw [scanPrefixes_skip ha]
      exact ih hrest _ h405

/-- **No route is found.** The first route that matches makes the answer 405, with the methods
of its pattern. -/
theorem scanPrefixes_missed (hno : ∀ e ∈ es, Matches e path → e.method ≠ method) :
    ∀ result : FindResult, result.is405 = false →
      (scanPrefixes t method path es result).entry = result.entry ∧
      match es.find? fun e => decide (Matches e path) with
      | some e =>
        (scanPrefixes t method path es result).is405 = true ∧
          (scanPrefixes t method path es result).allow = buildAllowForPath t e.path .matchPrefix
      | none => (scanPrefixes t method path es result).is405 = false := by
  induction es with
  | nil => exact fun result h => ⟨rfl, h⟩
  | cons a es ih =>
    intro result h405
    have hrest : ∀ e ∈ es, Matches e path → e.method ≠ method :=
      fun e he => hno e (List.mem_cons_of_mem a he)
    by_cases ha : Matches a path
    · rw [scanPrefixes_mismatch ha (hno a List.mem_cons_self ha),
        List.find?_cons_of_pos (by simp [ha])]
      obtain ⟨hentry, h405', hallow⟩ :=
        scanPrefixes_noted (t := t) hrest (result.mismatch t path a) rfl
      refine ⟨hentry, h405', ?_⟩
      rw [hallow, FindResult.mismatch, h405]
      rfl
    · rw [scanPrefixes_skip ha, List.find?_cons_of_neg (by simp [ha])]
      exact ih hrest _ h405

end

/-! ## `route_table_find` -/

section

variable {t : RouteTable} {method path : CStr} {e : RouteEntry}

theorem firstOfMethod_some (h : firstOfMethod t method path = some e) :
    e ∈ t.prefixes ∧ e.method = method ∧ Matches e path := by
  unfold firstOfMethod at h
  have hfound := List.find?_some h
  exact ⟨List.mem_of_find?_eq_some h, of_decide_eq_true hfound⟩

theorem firstOfMethod_none : firstOfMethod t method path = none ↔
    ∀ e ∈ t.prefixes, Matches e path → e.method ≠ method := by
  rw [firstOfMethod, List.find?_eq_none]
  constructor
  · intro h e he hmatch hm
    exact h e he (decide_eq_true ⟨hm, hmatch⟩)
  · intro h e he hdec
    obtain ⟨hm, hmatch⟩ := of_decide_eq_true hdec
    exact h e he hmatch hm

theorem firstMatch_some (h : firstMatch t path = some e) : e ∈ t.prefixes ∧ Matches e path := by
  unfold firstMatch at h
  have hfound := List.find?_some h
  exact ⟨List.mem_of_find?_eq_some h, of_decide_eq_true hfound⟩

theorem firstMatch_none : firstMatch t path = none ↔ ∀ e ∈ t.prefixes, ¬ Matches e path := by
  simp [firstMatch, List.find?_eq_none]

/-- The walk meets the route of the key. -/
def Hit (t : RouteTable) (method path : CStr) : Prop :=
  ∃ j, Meets t method path j ∧ (t.entry j).method = method

/-- The walk meets a route for the path with another method. -/
def Blocked (t : RouteTable) (method path : CStr) : Prop :=
  ∃ j, Meets t method path j ∧ (t.entry j).method ≠ method

/-- The walk meets no route for the path. -/
def Clear (t : RouteTable) (method path : CStr) : Prop := ∀ j, ¬ Meets t method path j

/-- Without exact routes every walk is clear. -/
theorem clear_of_no_exact (ht : Built t) (h : t.exact = []) (method path : CStr) :
    Clear t method path := by
  intro j hj
  have hlt := hj.lt ht
  rw [h] at hlt
  cases hlt

theorem hit_or_blocked_or_clear (t : RouteTable) (method path : CStr) :
    Hit t method path ∨ Blocked t method path ∨ Clear t method path := by
  by_cases hclear : Clear t method path
  · exact .inr (.inr hclear)
  · obtain ⟨j, hj⟩ := not_forall_not.mp hclear
    by_cases hm : (t.entry j).method = method
    · exact .inl ⟨j, hj, hm⟩
    · exact .inr (.inl ⟨j, hj, hm⟩)

theorem Hit.not_blocked (h : Hit t method path) : ¬ Blocked t method path := by
  obtain ⟨i, hi, him⟩ := h
  rintro ⟨j, hj, hjm⟩
  exact hjm (hj.unique hi ▸ him)

theorem Hit.not_clear (h : Hit t method path) : ¬ Clear t method path := by
  obtain ⟨i, hi, -⟩ := h
  exact fun hclear => hclear i hi

theorem Blocked.not_clear (h : Blocked t method path) : ¬ Clear t method path := by
  obtain ⟨i, hi, -⟩ := h
  exact fun hclear => hclear i hi

theorem find_of_hit (ht : Built t) (h : Hit t method path) :
    ∃ e, routeTableFind t method path = some ⟨some e, [], false, []⟩ := by
  rcases hashLookup_cases ht method path with
    ⟨j, -, -, hl⟩ | ⟨j, hj, hm, -⟩ | ⟨hno, -⟩
  · exact ⟨t.entry j, by rw [routeTableFind, hl]; rfl⟩
  · exact absurd ⟨j, hj, hm⟩ h.not_blocked
  · exact absurd hno h.not_clear

theorem find_of_blocked (ht : Built t) (h : Blocked t method path) :
    routeTableFind t method path =
      some ⟨none, [], true, buildAllowForPath t path .matchExact⟩ := by
  rcases hashLookup_cases ht method path with
    ⟨j, hj, hm, -⟩ | ⟨j, -, -, hl⟩ | ⟨hno, -⟩
  · exact absurd h (Hit.not_blocked ⟨j, hj, hm⟩)
  · rw [routeTableFind, hl]
    rfl
  · exact absurd hno h.not_clear

theorem find_of_clear (ht : Built t) (h : Clear t method path) :
    routeTableFind t method path =
      some (scanPrefixes t method path t.prefixes ⟨none, [], false, []⟩) := by
  rcases hashLookup_cases ht method path with
    ⟨j, hj, -, -⟩ | ⟨j, hj, -, -⟩ | ⟨-, hl⟩
  · exact absurd hj (h j)
  · exact absurd hj (h j)
  · rw [routeTableFind, hl]
    rfl

end

/-! ## The route found -/

section

variable {t : RouteTable} {method path : CStr} {e : RouteEntry}

/-- The result names an exact route for the path with nothing captured. -/
def IsExact (t : RouteTable) (path : CStr) (e : RouteEntry) (captured : CStr) : Prop :=
  e ∈ t.exact ∧ e.path = path ∧ captured = []

/-- The result names a prefix route, with the rest of the path captured, and no route that stands
before it in `prefix[]` has the method and a pattern that matches. -/
def IsFirstPrefix (t : RouteTable) (method path : CStr) (e : RouteEntry) (captured : CStr) :
    Prop :=
  e.path ++ captured = path ∧ ∃ earlier later, t.prefixes = earlier ++ e :: later ∧
    ∀ a ∈ earlier, ¬ (a.method = method ∧ a.path ≠ [] ∧ a.path <+: path)

theorem Meets.entry_mem {j : Nat} (h : Meets t method path j) (ht : Built t) :
    t.entry j ∈ t.exact := by
  have hlt := h.lt ht
  rw [RouteTable.entry, List.getD_eq_getElem?_getD, List.getElem?_eq_getElem hlt]
  exact List.getElem_mem hlt

/-- The scan started on an empty result finds what `firstOfMethod` says. -/
theorem scanPrefixes_entry (h : (scanPrefixes t method path t.prefixes ⟨none, [], false, []⟩).entry
    = some e) : firstOfMethod t method path = some e := by
  cases hfirst : firstOfMethod t method path with
  | none =>
    have hmissed := (scanPrefixes_missed (t := t) (firstOfMethod_none.mp hfirst)
      ⟨none, [], false, []⟩ rfl).1
    rw [hmissed] at h
    cases h
  | some a =>
    have hfound := (scanPrefixes_found (t := t) hfirst ⟨none, [], false, []⟩).1
    rw [hfound] at h
    exact h

/-- The rest of a path behind a pattern fits the buffer `captured`. -/
theorem append_captured (h : e.path <+: path) (hlen : path.length < 256) :
    e.path ++ cut 256 (path.drop e.path.length) = path := by
  have hcut : cut 256 (path.drop e.path.length) = path.drop e.path.length := by
    apply List.take_of_length_le
    rw [List.length_drop]
    omega
  rw [hcut]
  exact List.prefix_append_drop h |>.symm

theorem firstOfMethod_isFirst (h : firstOfMethod t method path = some e)
    (hlen : path.length < 256) :
    IsFirstPrefix t method path e (cut 256 (path.drop e.path.length)) := by
  obtain ⟨-, -, hmatch⟩ := firstOfMethod_some h
  obtain ⟨-, earlier, later, hsplit, hearlier⟩ := List.find?_eq_some_iff_append.mp h
  refine ⟨append_captured hmatch.2 hlen, earlier, later, hsplit, fun a ha hbefore => ?_⟩
  have hno := hearlier a ha
  rw [Bool.not_eq_true', decide_eq_false_iff_not] at hno
  exact hno hbefore

theorem find_returns (ht : Built t) (method path : CStr) :
    ∃ result, routeTableFind t method path = some result := by
  rcases hit_or_blocked_or_clear t method path with h | h | h
  · obtain ⟨e, he⟩ := find_of_hit ht h
    exact ⟨_, he⟩
  · exact ⟨_, find_of_blocked ht h⟩
  · exact ⟨_, find_of_clear ht h⟩

/-- What the result says when it names a route. -/
theorem find_sound (ht : Built t) (hlen : path.length < 256) {result : FindResult}
    (h : routeTableFind t method path = some result) (he : result.entry = some e) :
    result.is405 = false ∧ e.method = method ∧
      (IsExact t path e result.captured ∨ IsFirstPrefix t method path e result.captured) := by
  rcases hashLookup_cases ht method path with
    ⟨j, hj, hm, hl⟩ | ⟨j, hj, hm, hl⟩ | ⟨hno, -⟩
  · -- the walk of the hash ends at the route of the key
    rw [routeTableFind, hl] at h
    cases h
    cases he
    exact ⟨rfl, hm, .inl ⟨hj.entry_mem ht, hj.onPath, rfl⟩⟩
  · -- it ends at another method, and no prefix route is looked at
    rw [find_of_blocked ht ⟨j, hj, hm⟩] at h
    cases h
    cases he
  · -- the scan takes the first prefix route of the method that matches
    rw [find_of_clear ht hno] at h
    cases h
    have hfirst := scanPrefixes_entry he
    obtain ⟨-, hcaptured, h405⟩ := scanPrefixes_found (t := t) hfirst ⟨none, [], false, []⟩
    refine ⟨h405, (firstOfMethod_some hfirst).2.1, .inr ?_⟩
    rw [hcaptured]
    exact firstOfMethod_isFirst hfirst hlen

end

/-- **A route found is sound and first.** For every table that `route_table_add` builds, the
result is the exact route, or the first prefix route of the method with a nonempty pattern that
the path starts with, and nothing of the mismatches before it is left in the result. -/
theorem addRoutes_find_sound (routes : List Route) (method path : CStr)
    (hlen : path.length < 256) :
    ∃ t result, addRoutes routes routeTableInit = some t ∧
      routeTableFind t method path = some result ∧
      ∀ e, result.entry = some e →
        result.is405 = false ∧ e.method = method ∧
          (IsExact t path e result.captured ∨ IsFirstPrefix t method path e result.captured) := by
  obtain ⟨t, ht, hbuilt⟩ := addRoutes_built routes built_init
  obtain ⟨result, hresult⟩ := find_returns hbuilt method path
  exact ⟨t, result, ht, hresult, fun e he => find_sound hbuilt hlen hresult he⟩

/-- A prefix route for users behind one of another method. -/
def usersPrefixes : List Route :=
  [⟨ascii "POST", ascii "/u", .matchPrefix, .userAdd, [], []⟩,
    ⟨ascii "GET", ascii "/users/", .matchPrefix, .userByName, [], []⟩]

theorem addRoutes_find_sound_users :
    ∃ t result, addRoutes usersPrefixes routeTableInit = some t ∧
      routeTableFind t (ascii "GET") (ascii "/users/bob") = some result ∧
      ∀ e, result.entry = some e →
        result.is405 = false ∧ e.method = ascii "GET" ∧
          (IsExact t (ascii "/users/bob") e result.captured ∨
            IsFirstPrefix t (ascii "GET") (ascii "/users/bob") e result.captured) :=
  addRoutes_find_sound usersPrefixes (ascii "GET") (ascii "/users/bob") (by decide)

/-- A route with the empty pattern stands before the route found. Its pattern is a prefix of the
path, and `path_matches_prefix` refuses it. -/
theorem empty_pattern_passed :
    (addRoutes [⟨ascii "GET", [], .matchPrefix, .hello, [], []⟩,
        ⟨ascii "GET", ascii "/users/", .matchPrefix, .userByName, [], []⟩] routeTableInit).map
          (fun t => (t.prefixes.map (fun e => (e.method, e.path)),
            (routeTableFind t (ascii "GET") (ascii "/users/bob")).map
              fun result => (result.entry.map (·.path), result.captured)))
        = some ([(ascii "GET", []), (ascii "GET", ascii "/users/")],
            some (some (ascii "/users/"), ascii "bob")) ∧
      [] <+: ascii "/users/bob" :=
  ⟨by decide +kernel, List.nil_prefix⟩

end MiniWeb.Routing
