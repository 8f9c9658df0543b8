import MiniWeb.Routing.Lookup

/-!
# The slots of the hash

What `g_hash` is after any calls of `route_table_add`, with whatever arguments and results: each
exact route has one slot, the slots from its home up to it are taken, and half of all slots stay
free, so that no walk goes on forever.
-/

namespace MiniWeb.Routing

open Loop CStr

variable {t t' : RouteTable}

/-! ## Calls -/

/-- The arguments of a call of `route_table_add`; `none` is `NULL`. -/
structure RouteArgs where
  method : Option CStr
  path : Option CStr
  matchType : MatchType
  handler : HandlerType
  authRealm : Option CStr
  requiredRole : Option CStr
deriving DecidableEq, Repr

/-- The call: a method or a path that is `NULL` is refused, a realm or a role becomes empty. -/
def RouteArgs.add (args : RouteArgs) (t : RouteTable) : Option (Bool × RouteTable) :=
  match args.method, args.path with
  | some method, some path =>
    routeTableAdd ⟨method, path, args.matchType, args.handler, args.authRealm.getD [],
      args.requiredRole.getD []⟩ t
  | _, _ => some (false, t)

/-- The table after a sequence of calls, whatever they return. -/
def addCalls : List RouteArgs → RouteTable → Option RouteTable
  | [], t => some t
  | args :: calls, t => (args.add t).bind fun (_, t) => addCalls calls t

theorem RouteArgs.add_built (args : RouteArgs) (h : Built t) :
    ∃ ok t', args.add t = some (ok, t') ∧ Built t' := by
  rw [RouteArgs.add]
  cases args.method with
  | none => exact ⟨false, t, rfl, h⟩
  | some method =>
    cases args.path with
    | none => exact ⟨false, t, rfl, h⟩
    | some path => exact routeTableAdd_built h _

theorem addCalls_built (calls : List RouteArgs) (h : Built t) :
    ∃ t', addCalls calls t = some t' ∧ Built t' := by
  induction calls generalizing t with
  | nil => exact ⟨t, rfl, h⟩
  | cons args calls ih =>
    obtain ⟨ok, t₁, hadd, hbuilt⟩ := args.add_built h
    rw [addCalls, hadd, Option.bind_some]
    exact ih hbuilt

/-! ## Calls that fail -/

theorem routeTableAdd_fails {r : Route} (h : routeTableAdd r t = some (false, t')) : t' = t := by
  have hresult := routeTableAdd_result r t
  rw [h] at hresult
  cases hresult with
  | exactRefused => rfl
  | prefixRefused => rfl

/-- A call that returns `-1` changes neither the arrays nor the hash. -/
theorem RouteArgs.add_fails {args : RouteArgs} (h : args.add t = some (false, t')) : t' = t := by
  rw [RouteArgs.add] at h
  cases hmethod : args.method with
  | none =>
    simp only [hmethod] at h
    cases h
    rfl
  | some method =>
    cases hpath : args.path with
    | none =>
      simp only [hmethod, hpath] at h
      cases h
      rfl
    | some path =>
      simp only [hmethod, hpath] at h
      exact routeTableAdd_fails h

/-! ## Slots -/

/-- The slots that are not `-1`. -/
def RouteTable.occupied (t : RouteTable) : Finset (Fin hashSize) :=
  Finset.univ.filter fun h => (t.hash h).isSome

/-- How `g_hash` holds the exact routes. -/
structure SlotsSound (t : RouteTable) : Prop where
  placed : ∀ i, i < t.exact.length → ∃! h, t.hash h = some i
  others : ∀ h, (∀ i, i < t.exact.length → t.hash h ≠ some i) → t.hash h = none
  runs : ∀ h i, t.hash h = some i →
    ∀ k, dist (t.home i) k ≤ dist (t.home i) h → t.hash k ≠ none
  room : t.occupied.card ≤ maxRoutes

theorem Built.slotsSound (h : Built t) : SlotsSound t where
  placed := by
    intro i hi
    obtain ⟨e, he, -⟩ := h.filled.placed hi
    exact ⟨e, he, fun k hk => h.filled.inj hk he⟩
  others := by
    intro k hk
    by_contra hne
    obtain ⟨i, hi⟩ := Option.ne_none_iff_exists'.mp hne
    exact hk i (h.filled.bound hi) hi
  runs := by
    intro e i he k hk
    rcases Nat.lt_or_eq_of_le hk with hlt | heq
    · obtain ⟨e', he', hchain⟩ := h.filled.chained (h.filled.bound he)
      rw [h.filled.inj he' he] at hchain
      exact hchain k hlt
    · rw [dist_inj heq, he]
      exact Option.some_ne_none i
  room := h.filled.card_occupied.trans h.count

/-- The walk of `hash_insert` and that of `hash_lookup` end, whatever is looked for. -/
theorem Built.walks_end (h : Built t) (hit : Nat → Bool) (home : Fin hashSize) :
    Halts (probeStep t.hash hit) home := by
  obtain ⟨k, hk⟩ := h.filled.free (Nat.lt_of_le_of_lt h.count maxRoutes_lt_hashSize)
  rw [probe_halts_iff]
  refine ⟨k, ?_⟩
  rintro ⟨i, hi, -⟩
  rw [hk] at hi
  cases hi

/-- **The hash after any calls.** All calls return, the slots hold the exact routes, every walk
ends, and the next call returns and changes nothing if it fails. -/
theorem addCalls_slotsSound (calls : List RouteArgs) :
    ∃ t, addCalls calls routeTableInit = some t ∧ SlotsSound t ∧
      (∀ method path, Halts (probeStep t.hash fun _ => false) (hashKey method path) ∧
        Halts (probeStep t.hash (t.onPath path)) (hashKey method path)) ∧
      ∀ args : RouteArgs, ∃ ok t', args.add t = some (ok, t') ∧ (ok = false → t' = t) := by
  obtain ⟨t, ht, hbuilt⟩ := addCalls_built calls built_init
  refine ⟨t, ht, hbuilt.slotsSound, fun method path => ?_, fun args => ?_⟩
  · exact ⟨hbuilt.walks_end _ _, hbuilt.walks_end _ _⟩
  · obtain ⟨ok, t', hadd, -⟩ := args.add_built hbuilt
    refine ⟨ok, t', hadd, ?_⟩
    rintro rfl
    exact RouteArgs.add_fails hadd

end MiniWeb.Routing
