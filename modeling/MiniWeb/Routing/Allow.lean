import MiniWeb.Routing.Find
import MiniWeb.Routing.Listing

/-!
# 405 and the Allow header

The answer 405 should be given when the method has no route for the path and another method has
one, with a list of those methods. `route_table_find` decides it from the first exact route its
walk meets and from the first prefix route that matches, and lists the methods of that one path
or pattern. `ExactAllow` says when that is right.
-/

namespace MiniWeb.Routing

open Loop CStr

/-- `route_table_find` answers a route. -/
def Answered (t : RouteTable) (method path : CStr) : Prop :=
  ∃ r, routeTableFind t method path = some r ∧ r.entry ≠ none

/-- Some route has the method. -/
def Registered (t : RouteTable) (method : CStr) : Prop :=
  ∃ e ∈ t.exact ++ t.prefixes, e.method = method

/-- What the Allow header of a path should list. -/
def Allowed (t : RouteTable) (path method : CStr) : Prop :=
  Registered t method ∧ Answered t method path

/-- The answer is 405 exactly if the method has no route for the path and another has one, and
then the header lists exactly the methods that have one, each once. -/
def Exact405 (t : RouteTable) (method path : CStr) : Prop :=
  ∃ r, routeTableFind t method path = some r ∧
    (r.is405 = true ↔ r.entry = none ∧ ∃ m, Allowed t path m) ∧
    (r.is405 = true → ∃ methods : List CStr,
      methods.Nodup ∧ (∀ m, m ∈ methods ↔ Allowed t path m) ∧ r.allow = listing methods)

/-- What is written for a path or a pattern fits the buffer. -/
def MethodsFit (t : RouteTable) : Prop :=
  ∀ path,
    (listing (written (methodsAt path .matchExact t.exact) [])).length < maxAllowHeaderLen ∧
    (listing (written (methodsAt path .matchPrefix t.prefixes) [])).length < maxAllowHeaderLen

def TokenMethods (t : RouteTable) : Prop := ∀ e ∈ t.exact ++ t.prefixes, IsToken e.method

/-! ## The condition -/

/-- The methods of the exact routes for the path are those to be listed: the walk of each ends at
its own route, and each other method with a matching prefix route is blocked by an exact one. -/
structure ExactAllow (t : RouteTable) (path : CStr) : Prop where
  hit : ∀ e ∈ t.exact, e.path = path → Hit t e.method path
  blocked : ∀ e ∈ t.prefixes, Matches e path →
    Blocked t e.method path ∨ ∃ e' ∈ t.exact, e'.path = path ∧ e'.method = e.method
  once : WrittenOnce (methodsAt path .matchExact t.exact)

/-- The methods of the prefix routes with the pattern are those to be listed: none of them is
blocked by an exact route, and no other method has a matching prefix route that is not blocked or
an exact route that is hit. -/
structure PrefixAllow (t : RouteTable) (path pattern : CStr) : Prop where
  free : ∀ e ∈ t.prefixes, e.path = pattern → ¬ Blocked t e.method path
  matching : ∀ e ∈ t.prefixes, Matches e path → ¬ Blocked t e.method path →
    ∃ e' ∈ t.prefixes, e'.path = pattern ∧ e'.method = e.method
  exact : ∀ e ∈ t.exact, e.path = path → Hit t e.method path →
    ∃ e' ∈ t.prefixes, e'.path = pattern ∧ e'.method = e.method
  once : WrittenOnce (methodsAt pattern .matchPrefix t.prefixes)

/-- If the walk of the key is blocked, the exact routes for the path are the ones to list. If it
meets none and no prefix route of the method matches, the ones to list are those of the pattern
that matches first, and if no pattern matches there is no exact route for the path. -/
def AllowCondition (t : RouteTable) (method path : CStr) : Prop :=
  (Blocked t method path → ExactAllow t path) ∧
    (Clear t method path → firstOfMethod t method path = none →
      match firstMatch t path with
      | some e => PrefixAllow t path e.path
      | none => ∀ e ∈ t.exact, e.path ≠ path)

/-! ## Which methods have a route -/

section

variable {t : RouteTable} {method path pattern : CStr} {m : CStr}

theorem RouteTable.entry_eq {i : Nat} (h : i < t.exact.length) : t.entry i = t.exact[i] := by
  simp [RouteTable.entry, h]

theorem exists_entry {e : RouteEntry} (h : e ∈ t.exact) :
    ∃ i, i < t.exact.length ∧ t.entry i = e := by
  obtain ⟨i, hi, rfl⟩ := List.getElem_of_mem h
  exact ⟨i, hi, RouteTable.entry_eq hi⟩

theorem Hit.exists_exact (ht : Built t) (h : Hit t m path) :
    ∃ e ∈ t.exact, e.path = path ∧ e.method = m := by
  obtain ⟨j, hj, hm⟩ := h
  have hlt := hj.lt ht
  refine ⟨t.entry j, ?_, hj.onPath, hm⟩
  rw [RouteTable.entry_eq hlt]
  exact List.getElem_mem hlt

/-- The walk of an exact route meets some route. -/
theorem not_clear_of_exact (ht : Built t) {e : RouteEntry} (he : e ∈ t.exact)
    (hpath : e.path = path) : ¬ Clear t e.method path := by
  obtain ⟨i, hi, rfl⟩ := exists_entry he
  obtain ⟨j, hj⟩ := Keyed.meets ⟨hi, hpath, rfl⟩ ht
  exact fun hclear => hclear j hj

/-- The exact route for a path that was added first is hit. -/
theorem exists_hit (ht : Built t) {e : RouteEntry} (he : e ∈ t.exact) (hpath : e.path = path) :
    ∃ m, Hit t m path := by
  obtain ⟨i, hi, rfl⟩ := exists_entry he
  have hex : ∃ j, (t.entry j).path = path ∧ j < t.exact.length := ⟨i, hpath, hi⟩
  classical
  obtain ⟨hfirst, hlt⟩ := Nat.find_spec hex
  have hbefore : ∀ j, j < Nat.find hex → t.onPath path j = false := by
    intro j hj
    apply onPath_eq_false.mpr
    intro hon
    exact Nat.find_min hex hj ⟨hon, by omega⟩
  obtain ⟨k, hk⟩ := ht.filled.probe_first hlt (onPath_iff.mpr hfirst) hbefore
  refine ⟨(t.entry (Nat.find hex)).method, Nat.find hex, meets_iff.mpr ⟨k, ?_⟩, rfl⟩
  rw [RouteTable.home, hfirst] at hk
  exact hk

theorem answered_iff (ht : Built t) : Answered t m path ↔
    Hit t m path ∨ Clear t m path ∧ ∃ e ∈ t.prefixes, Matches e path ∧ e.method = m := by
  rcases hit_or_blocked_or_clear t m path with hhit | hblocked | hclear
  · obtain ⟨e, he⟩ := find_of_hit ht hhit
    exact ⟨fun _ => .inl hhit, fun _ => ⟨_, he, by simp⟩⟩
  · constructor
    · rintro ⟨r, hr, hne⟩
      rw [find_of_blocked ht hblocked] at hr
      cases hr
      exact absurd rfl hne
    · rintro (hhit | ⟨hclear, -⟩)
      · exact absurd hblocked hhit.not_blocked
      · exact absurd hclear hblocked.not_clear
  · cases hfirst : firstOfMethod t m path with
    | some e =>
      obtain ⟨he, hm, hmatch⟩ := firstOfMethod_some hfirst
      have hentry := (scanPrefixes_found (t := t) hfirst ⟨none, [], false, []⟩).1
      exact ⟨fun _ => .inr ⟨hclear, e, he, hmatch, hm⟩,
        fun _ => ⟨_, find_of_clear ht hclear, by rw [hentry]; simp⟩⟩
    | none =>
      have hno := firstOfMethod_none.mp hfirst
      constructor
      · rintro ⟨r, hr, hne⟩
        rw [find_of_clear ht hclear] at hr
        cases hr
        exact absurd (scanPrefixes_missed (t := t) hno ⟨none, [], false, []⟩ rfl).1 hne
      · rintro (hhit | ⟨-, e, he, hmatch, hm⟩)
        · exact absurd hclear hhit.not_clear
        · exact absurd hm (hno e he hmatch)

theorem allowed_iff (ht : Built t) : Allowed t path m ↔
    Hit t m path ∨ Clear t m path ∧ ∃ e ∈ t.prefixes, Matches e path ∧ e.method = m := by
  rw [Allowed, answered_iff ht]
  refine ⟨fun h => h.2, fun h => ⟨?_, h⟩⟩
  rcases h with hhit | ⟨-, e, he, -, hm⟩
  · obtain ⟨e, he, -, hm⟩ := hhit.exists_exact ht
    exact ⟨e, List.mem_append_left _ he, hm⟩
  · exact ⟨e, List.mem_append_right _ he, hm⟩

/-! ## The methods listed -/

theorem mem_methods {list : List RouteEntry} {type : MatchType}
    (htype : ∀ e ∈ list, e.matchType = type) : m ∈ methodsAt path type list ↔
    ∃ e ∈ list, e.path = path ∧ e.method = m := by
  simp only [methodsAt, List.mem_map, List.mem_filter, Bool.and_eq_true, decide_eq_true_eq,
    strcmp_eq_iff]
  constructor
  · rintro ⟨e, ⟨he, -, hpath⟩, hm⟩
    exact ⟨e, he, hpath, hm⟩
  · rintro ⟨e, he, hpath, hm⟩
    exact ⟨e, ⟨he, htype e he, hpath⟩, hm⟩

theorem exactAllow_iff (ht : Built t) : ExactAllow t path ↔
    (written (methodsAt path .matchExact t.exact) []).Nodup ∧
      ∀ m, m ∈ methodsAt path .matchExact t.exact ↔ Allowed t path m := by
  constructor
  · intro h
    refine ⟨(nodup_written_iff _ _).mpr h.once, fun m => ?_⟩
    rw [mem_methods ht.exactType, allowed_iff ht]
    constructor
    · rintro ⟨e, he, hpath, rfl⟩
      exact .inl (h.hit e he hpath)
    · rintro (hhit | ⟨hclear, e, he, hmatch, rfl⟩)
      · exact hhit.exists_exact ht
      · rcases h.blocked e he hmatch with hblocked | hexact
        · exact absurd hclear hblocked.not_clear
        · exact hexact
  · rintro ⟨honce, hmem⟩
    refine ⟨fun e he hpath => ?_, fun e he hmatch => ?_, (nodup_written_iff _ _).mp honce⟩
    · have hallowed := (hmem e.method).mp ((mem_methods ht.exactType).mpr ⟨e, he, hpath, rfl⟩)
      rcases (allowed_iff ht).mp hallowed with hhit | ⟨hclear, -⟩
      · exact hhit
      · exact absurd hclear (not_clear_of_exact ht he hpath)
    · rcases hit_or_blocked_or_clear t e.method path with hhit | hblocked | hclear
      · exact .inr (hhit.exists_exact ht)
      · exact .inl hblocked
      · exact .inr ((mem_methods ht.exactType).mp
          ((hmem e.method).mpr ((allowed_iff ht).mpr (.inr ⟨hclear, e, he, hmatch, rfl⟩))))

theorem prefixAllow_iff (ht : Built t) (hpattern : pattern ≠ [] ∧ pattern <+: path) :
    PrefixAllow t path pattern ↔
      (written (methodsAt pattern .matchPrefix t.prefixes) []).Nodup ∧
        ∀ m, m ∈ methodsAt pattern .matchPrefix t.prefixes ↔ Allowed t path m := by
  constructor
  · intro h
    refine ⟨(nodup_written_iff _ _).mpr h.once, fun m => ?_⟩
    rw [mem_methods ht.prefixType, allowed_iff ht]
    constructor
    · rintro ⟨e, he, hpath, rfl⟩
      have hmatch : Matches e path := by rwa [Matches, hpath]
      rcases hit_or_blocked_or_clear t e.method path with hhit | hblocked | hclear
      · exact .inl hhit
      · exact absurd hblocked (h.free e he hpath)
      · exact .inr ⟨hclear, e, he, hmatch, rfl⟩
    · rintro (hhit | ⟨hclear, e, he, hmatch, rfl⟩)
      · obtain ⟨e, he, hpath, rfl⟩ := hhit.exists_exact ht
        exact h.exact e he hpath hhit
      · exact h.matching e he hmatch fun hblocked => hblocked.not_clear hclear
  · rintro ⟨honce, hmem⟩
    refine ⟨fun e he hpath hblocked => ?_, fun e he hmatch hfree => ?_, fun e he hpath hhit => ?_,
      (nodup_written_iff _ _).mp honce⟩
    · have hallowed := (hmem e.method).mp ((mem_methods ht.prefixType).mpr ⟨e, he, hpath, rfl⟩)
      rcases (allowed_iff ht).mp hallowed with hhit | ⟨hclear, -⟩
      · exact hhit.not_blocked hblocked
      · exact hblocked.not_clear hclear
    · apply (mem_methods ht.prefixType).mp
      apply (hmem e.method).mpr
      rcases hit_or_blocked_or_clear t e.method path with hhit | hblocked | hclear
      · exact (allowed_iff ht).mpr (.inl hhit)
      · exact absurd hblocked hfree
      · exact (allowed_iff ht).mpr (.inr ⟨hclear, e, he, hmatch, rfl⟩)
    · exact (mem_methods ht.prefixType).mp ((hmem e.method).mpr ((allowed_iff ht).mpr (.inl hhit)))

/-! ## The answer -/

theorem MethodsFit.exact (h : MethodsFit t) (path : CStr) :
    buildAllowForPath t path .matchExact =
      listing (written (methodsAt path .matchExact t.exact) []) :=
  writeAllow_eq _ _ _ (h path).1

theorem MethodsFit.prefixed (h : MethodsFit t) (pattern : CStr) :
    buildAllowForPath t pattern .matchPrefix =
      listing (written (methodsAt pattern .matchPrefix t.prefixes) []) :=
  writeAllow_eq _ _ _ (h pattern).2

theorem mem_written_nil {methods : List CStr} : m ∈ written methods [] ↔ m ∈ methods := by
  simp [mem_written]

/-- An answer 405 that lists the right methods. -/
theorem exact405_of_listing {r : FindResult} {methods : List CStr}
    (hr : routeTableFind t method path = some r) (hentry : r.entry = none) (h405 : r.is405 = true)
    (hallow : r.allow = listing (written methods [])) (hm : m ∈ methods)
    (h : (written methods []).Nodup ∧ ∀ m, m ∈ methods ↔ Allowed t path m) :
    Exact405 t method path := by
  refine ⟨r, hr, ⟨fun _ => ⟨hentry, m, (h.2 m).mp hm⟩, fun _ => h405⟩, fun _ => ?_⟩
  exact ⟨written methods [], h.1, fun m => mem_written_nil.trans (h.2 m), hallow⟩

/-- The list is read back from the header. -/
theorem listing_of_exact405 {r : FindResult} {methods : List CStr} (htoken : TokenMethods t)
    (hr : routeTableFind t method path = some r) (h405 : r.is405 = true)
    (hallow : r.allow = listing (written methods []))
    (hmethods : ∀ m ∈ methods, Registered t m) (h : Exact405 t method path) :
    (written methods []).Nodup ∧ ∀ m, m ∈ methods ↔ Allowed t path m := by
  have htoken' : ∀ m, Registered t m → IsToken m := by
    rintro m ⟨e, he, rfl⟩
    exact htoken e he
  obtain ⟨r', hr', -, hlist⟩ := h
  rw [hr] at hr'
  cases hr'
  obtain ⟨l, hnodup, hl, heq⟩ := hlist h405
  have hsame : written methods [] = l := by
    apply listing_inj _ _ (hallow.symm.trans heq)
    · exact fun m hm => htoken' m (hmethods m (mem_written_nil.mp hm))
    · exact fun m hm => htoken' m ((hl m).mp hm).1
  refine ⟨hsame ▸ hnodup, fun m => ?_⟩
  rw [← mem_written_nil, hsame, hl m]

theorem registered_exact (ht : Built t) (hm : m ∈ methodsAt path .matchExact t.exact) :
    Registered t m := by
  obtain ⟨e, he, -, rfl⟩ := (mem_methods ht.exactType).mp hm
  exact ⟨e, List.mem_append_left _ he, rfl⟩

theorem registered_prefix (ht : Built t) (hm : m ∈ methodsAt pattern .matchPrefix t.prefixes) :
    Registered t m := by
  obtain ⟨e, he, -, rfl⟩ := (mem_methods ht.prefixType).mp hm
  exact ⟨e, List.mem_append_right _ he, rfl⟩

/-- An answer with a route is not 405. -/
theorem exact405_of_entry {r : FindResult} {e : RouteEntry}
    (hr : routeTableFind t method path = some r) (hentry : r.entry = some e)
    (h405 : r.is405 = false) : Exact405 t method path := by
  refine ⟨r, hr, ⟨fun h => ?_, fun h => ?_⟩, fun h => ?_⟩
  · rw [h405] at h
    cases h
  · rw [hentry] at h
    cases h.1
  · rw [h405] at h
    cases h

theorem exact405_of_condition (ht : Built t) (hfits : MethodsFit t)
    (h : AllowCondition t method path) : Exact405 t method path := by
  rcases hit_or_blocked_or_clear t method path with hhit | hblocked | hclear
  · obtain ⟨e, he⟩ := find_of_hit ht hhit
    exact exact405_of_entry he rfl rfl
  · have hmeets := hblocked
    obtain ⟨j, hj, -⟩ := hmeets
    have hmem : (t.entry j).method ∈ methodsAt path .matchExact t.exact := by
      apply (mem_methods ht.exactType).mpr
      have hlt := hj.lt ht
      exact ⟨t.entry j, RouteTable.entry_eq hlt ▸ List.getElem_mem hlt, hj.onPath, rfl⟩
    exact exact405_of_listing (find_of_blocked ht hblocked) rfl rfl (hfits.exact path) hmem
      ((exactAllow_iff ht).mp (h.1 hblocked))
  · have hfind := find_of_clear ht hclear
    cases hfirst : firstOfMethod t method path with
    | some e =>
      obtain ⟨hentry, -, h405⟩ := scanPrefixes_found (t := t) hfirst ⟨none, [], false, []⟩
      exact exact405_of_entry hfind hentry h405
    | none =>
      obtain ⟨hentry, hscan⟩ :=
        scanPrefixes_missed (t := t) (firstOfMethod_none.mp hfirst) ⟨none, [], false, []⟩ rfl
      have hcond := h.2 hclear hfirst
      change (match firstMatch t path with | some e => _ | none => _) at hscan
      cases hmatch : firstMatch t path with
      | some e =>
        rw [hmatch] at hscan hcond
        obtain ⟨he, hematch⟩ := firstMatch_some hmatch
        refine exact405_of_listing (m := e.method) hfind hentry hscan.1
          (hscan.2.trans (hfits.prefixed e.path)) ?_ ((prefixAllow_iff ht hematch).mp hcond)
        exact (mem_methods ht.prefixType).mpr ⟨e, he, rfl, rfl⟩
      | none =>
        rw [hmatch] at hscan hcond
        refine ⟨_, hfind, ⟨fun h405 => ?_, fun hboth => ?_⟩, fun h405 => ?_⟩
        · rw [hscan] at h405
          cases h405
        · obtain ⟨-, m, hm⟩ := hboth
          rcases (allowed_iff ht).mp hm with hhit | ⟨-, e, he, hematch, -⟩
          · obtain ⟨e, he, hpath, -⟩ := hhit.exists_exact ht
            exact absurd hpath (hcond e he)
          · exact absurd hematch (firstMatch_none.mp hmatch e he)
        · rw [hscan] at h405
          cases h405

theorem condition_of_exact405 (ht : Built t) (hfits : MethodsFit t) (htoken : TokenMethods t)
    (h : Exact405 t method path) : AllowCondition t method path := by
  constructor
  · intro hblocked
    apply (exactAllow_iff ht).mpr
    exact listing_of_exact405 htoken (find_of_blocked ht hblocked) rfl (hfits.exact path)
      (fun m hm => registered_exact ht hm) h
  · intro hclear hfirst
    have hfind := find_of_clear ht hclear
    obtain ⟨hentry, hscan⟩ :=
      scanPrefixes_missed (t := t) (firstOfMethod_none.mp hfirst) ⟨none, [], false, []⟩ rfl
    change (match firstMatch t path with | some e => _ | none => _) at hscan
    cases hmatch : firstMatch t path with
    | some e =>
      rw [hmatch] at hscan
      apply (prefixAllow_iff ht (firstMatch_some hmatch).2).mpr
      exact listing_of_exact405 htoken hfind hscan.1 (hscan.2.trans (hfits.prefixed e.path))
        (fun m hm => registered_prefix ht hm) h
    | none =>
      rw [hmatch] at hscan
      obtain ⟨r, hr, h405, -⟩ := h
      rw [hfind] at hr
      cases hr
      intro e he hpath
      obtain ⟨m, hhit⟩ := exists_hit ht he hpath
      have htrue := h405.mpr ⟨hentry, m, (allowed_iff ht).mpr (.inl hhit)⟩
      rw [hscan] at htrue
      cases htrue

end

/-- **405 and Allow.** For every table that `route_table_add` builds whose methods fit the
buffer, the answer 405 and its list are exact where the condition holds, and when the methods are
tokens only there. -/
theorem addRoutes_allow_iff (routes : List Route) :
    ∃ t, addRoutes routes routeTableInit = some t ∧ ∀ method path, MethodsFit t →
      (AllowCondition t method path → Exact405 t method path) ∧
      (TokenMethods t → Exact405 t method path → AllowCondition t method path) := by
  obtain ⟨t, ht, hbuilt⟩ := addRoutes_built routes built_init
  exact ⟨t, ht, fun _ _ hfits => ⟨exact405_of_condition hbuilt hfits,
    fun htoken => condition_of_exact405 hbuilt hfits htoken⟩⟩

/-- The walk of `HEAD /` passes `GET /hj` and meets `DELETE /`, the only method of the path. -/
theorem addRoutes_allow_iff_example :
    ∃ t, addRoutes [publicRoute "GET" "/hj" .hello, publicRoute "DELETE" "/" .userDelete]
        routeTableInit = some t ∧ Exact405 t (ascii "HEAD") (ascii "/") := by
  obtain ⟨t, ht, h⟩ := addRoutes_allow_iff
    [publicRoute "GET" "/hj" .hello, publicRoute "DELETE" "/" .userDelete]
  have hget : (addRoutes [publicRoute "GET" "/hj" .hello, publicRoute "DELETE" "/" .userDelete]
      routeTableInit).get (by decide +kernel) = t := Option.get_of_eq_some _ ht
  have hexact : t.exact = [(publicRoute "GET" "/hj" .hello).entry,
      (publicRoute "DELETE" "/" .userDelete).entry] := by
    rw [← hget]
    decide +kernel
  have hprefixes : t.prefixes = [] := by
    rw [← hget]
    decide +kernel
  have hfit : MethodsFit t := by
    intro path
    rw [hexact, hprefixes]
    refine ⟨?_, show 0 < maxAllowHeaderLen by decide⟩
    simp only [methodsAt, List.filter_cons, List.filter_nil]
    split
    · split
      · decide +kernel
      · decide +kernel
    · split
      · decide +kernel
      · decide +kernel
  have hmeets : Meets t (ascii "HEAD") (ascii "/") 1 := by
    refine meets_iff.mpr ⟨97, ?_⟩
    rw [← hget]
    decide +kernel
  have hdelete : Meets t (ascii "DELETE") (ascii "/") 1 := by
    refine meets_iff.mpr ⟨97, ?_⟩
    rw [← hget]
    decide +kernel
  have hentry : (t.entry 1).method = ascii "DELETE" := by
    rw [RouteTable.entry, hexact]
    decide +kernel
  refine ⟨t, ht, (h (ascii "HEAD") (ascii "/") hfit).1 ⟨fun _ => ⟨?_, ?_, ?_⟩, fun hclear => ?_⟩⟩
  · rw [hexact]
    intro e he hpath
    rcases List.mem_pair.mp he with rfl | rfl
    · exact absurd hpath (by decide +kernel)
    · exact ⟨1, hdelete, hentry⟩
  · rw [hprefixes]
    intro e he
    cases he
  · rw [hexact]
    unfold WrittenOnce
    decide +kernel
  · exact absurd hmeets (hclear 1)

/-- `POST /hello` has no route and `GET /hello` has one, but the walk of `POST /hello` ends at an
empty slot, and the answer is not 405. -/
theorem post_hello_not_405 :
    ∃ t, addRoutes [publicRoute "GET" "/hello" .hello] routeTableInit = some t ∧ MethodsFit t ∧
      routeTableFind t (ascii "POST") (ascii "/hello") = some ⟨none, [], false, []⟩ ∧
      Allowed t (ascii "/hello") (ascii "GET") ∧
      ¬ Exact405 t (ascii "POST") (ascii "/hello") := by
  have hfind : routeTableFind ((addRoutes [publicRoute "GET" "/hello" .hello] routeTableInit).get
      (by decide +kernel)) (ascii "POST") (ascii "/hello") = some ⟨none, [], false, []⟩ := by
    decide +kernel
  have hallowed : Allowed ((addRoutes [publicRoute "GET" "/hello" .hello] routeTableInit).get
      (by decide +kernel)) (ascii "/hello") (ascii "GET") := by
    refine ⟨⟨(publicRoute "GET" "/hello" .hello).entry, by decide +kernel, by decide +kernel⟩,
      ⟨some (publicRoute "GET" "/hello" .hello).entry, [], false, []⟩, by decide +kernel,
      by decide +kernel⟩
  refine ⟨_, (Option.some_get (by decide +kernel)).symm, fun path => ?_, hfind, hallowed, ?_⟩
  · have hexact : ((addRoutes [publicRoute "GET" "/hello" .hello] routeTableInit).get
        (by decide +kernel)).exact = [(publicRoute "GET" "/hello" .hello).entry] := by
      decide +kernel
    have hprefixes : ((addRoutes [publicRoute "GET" "/hello" .hello] routeTableInit).get
        (by decide +kernel)).prefixes = [] := by decide +kernel
    rw [hexact, hprefixes]
    refine ⟨?_, show 0 < maxAllowHeaderLen by decide⟩
    simp only [methodsAt, List.filter_cons, List.filter_nil]
    split
    · decide +kernel
    · decide +kernel
  · rintro ⟨r, hr, h405, -⟩
    rw [hfind] at hr
    cases hr
    have htrue := h405.mpr ⟨rfl, _, hallowed⟩
    cases htrue

end MiniWeb.Routing
