import MiniWeb.Routing.Table

/-!
# Exact lookup

Whatever calls of `route_table_add` built it, the hash holds every exact route once, behind
routes added before it (`Built`), so the walk of `hash_lookup` ends. It ends at the first route
for the path it meets (`Meets`), whatever that route's method: a route further on with the right
method is not looked at.
-/

namespace MiniWeb.Routing

open Loop CStr

/-- The hash slot an exact route is put in if it is empty. -/
def RouteTable.home (t : RouteTable) (idx : Nat) : Fin hashSize :=
  hashKey (t.entry idx).method (t.entry idx).path

/-- What holds of a table built by `route_table_add`. -/
structure Built (t : RouteTable) : Prop where
  count : t.exact.length ≤ maxRoutes
  filled : Filled t.home t.exact.length t.hash
  exactType : ∀ e ∈ t.exact, e.matchType = .matchExact
  prefixType : ∀ e ∈ t.prefixes, e.matchType = .matchPrefix

theorem maxRoutes_lt_hashSize : maxRoutes < hashSize := by decide

/-! ## Building -/

theorem built_init : Built routeTableInit := by
  refine ⟨Nat.zero_le _, Filled.empty _, fun e he => ?_, fun e he => ?_⟩
  · cases he
  · cases he

theorem hashInsertFrom_filled {t : RouteTable} (count : Nat) :
    ∀ {start : Nat} {hash : Fin hashSize → Option Nat}, Filled t.home start hash →
      start + count ≤ hashSize → ∃ hash',
        hashInsertFrom (List.range' start count) { t with hash := hash } =
          some { t with hash := hash' } ∧ Filled t.home (start + count) hash' := by
  induction count with
  | zero =>
    intro start hash h _
    exact ⟨hash, rfl, h⟩
  | succ count ih =>
    intro start hash h hle
    obtain ⟨e, he, hfilled⟩ := h.insert (show start < hashSize by omega)
    obtain ⟨hash', hrest, hfilled'⟩ := ih hfilled (by omega)
    refine ⟨hash', ?_, ?_⟩
    · have hinsert : hashInsert start { t with hash := hash } =
          some { t with hash := Function.update hash e (some start) } := by
        have hprobe : probe hash (fun _ => false)
            (hashKey (t.entry start).method (t.entry start).path) = some (e, none) := he
        simp only [hashInsert, RouteTable.entry] at hprobe ⊢
        rw [hprobe, Option.map_some]
      rw [List.range'_succ, hashInsertFrom, hinsert, Option.bind_some, hrest]
    · rwa [show start + (count + 1) = start + 1 + count by omega]

theorem hashRebuild_filled {t : RouteTable} (h : t.exact.length ≤ maxRoutes) :
    ∃ hash, hashRebuild t = some { t with hash := hash } ∧
      Filled t.home t.exact.length hash := by
  have := maxRoutes_lt_hashSize
  obtain ⟨hash, hrun, hfilled⟩ := hashInsertFrom_filled (t := t) t.exact.length
    (Filled.empty t.home) (by omega)
  rw [Nat.zero_add] at hfilled
  refine ⟨hash, ?_, hfilled⟩
  rw [hashRebuild, List.range_eq_range', hrun]

/-- What `route_table_add` returns and leaves: it refuses a route for which the array is full or
which is there already, and else appends it, an exact one with the hash filled anew. -/
inductive AddResult (r : Route) (t : RouteTable) : Option (Bool × RouteTable) → Prop
  | exactRefused (htype : r.matchType = .matchExact)
      (hwhy : maxRoutes ≤ t.exact.length ∨ hasDuplicate r t.exact = true) :
      AddResult r t (some (false, t))
  | prefixRefused (htype : r.matchType = .matchPrefix)
      (hwhy : maxRoutes ≤ t.prefixes.length ∨ hasDuplicate r t.prefixes = true) :
      AddResult r t (some (false, t))
  | exactAdded {hash : Fin hashSize → Option Nat} (htype : r.matchType = .matchExact)
      (hroom : t.exact.length < maxRoutes) (hnew : ¬hasDuplicate r t.exact = true)
      (hfilled : Filled { t with exact := t.exact ++ [r.entry] }.home
        (t.exact ++ [r.entry]).length hash) :
      AddResult r t (some (true, { t with exact := t.exact ++ [r.entry], hash := hash }))
  | prefixAdded (htype : r.matchType = .matchPrefix) (hroom : t.prefixes.length < maxRoutes)
      (hnew : ¬hasDuplicate r t.prefixes = true) :
      AddResult r t (some (true, { t with prefixes := t.prefixes ++ [r.entry] }))

/-- **Adding.** `route_table_add` returns, whatever the table. -/
theorem routeTableAdd_result (r : Route) (t : RouteTable) : AddResult r t (routeTableAdd r t) := by
  rw [routeTableAdd]
  cases htype : r.matchType with
  | matchExact =>
    dsimp only
    by_cases hfull : maxRoutes ≤ t.exact.length
    · rw [if_pos hfull]
      exact .exactRefused htype (Or.inl hfull)
    rw [if_neg hfull]
    by_cases hdup : hasDuplicate r t.exact = true
    · rw [if_pos hdup]
      exact .exactRefused htype (Or.inr hdup)
    rw [if_neg hdup]
    have hroom : t.exact.length < maxRoutes := Nat.lt_of_not_le hfull
    have hcount : (t.exact ++ [r.entry]).length ≤ maxRoutes := by
      rw [List.length_append, List.length_singleton]
      exact hroom
    obtain ⟨hash, hrun, hfilled⟩ :=
      hashRebuild_filled (t := { t with exact := t.exact ++ [r.entry] }) hcount
    rw [hrun]
    exact .exactAdded htype hroom hdup hfilled
  | matchPrefix =>
    dsimp only
    by_cases hfull : maxRoutes ≤ t.prefixes.length
    · rw [if_pos hfull]
      exact .prefixRefused htype (Or.inl hfull)
    rw [if_neg hfull]
    by_cases hdup : hasDuplicate r t.prefixes = true
    · rw [if_pos hdup]
      exact .prefixRefused htype (Or.inr hdup)
    rw [if_neg hdup]
    exact .prefixAdded htype (Nat.lt_of_not_le hfull) hdup

/-- `route_table_add` leaves a built table. -/
theorem routeTableAdd_built {t : RouteTable} (h : Built t) (r : Route) :
    ∃ ok t', routeTableAdd r t = some (ok, t') ∧ Built t' := by
  have hresult := routeTableAdd_result r t
  generalize routeTableAdd r t = result at hresult ⊢
  cases hresult with
  | exactRefused => exact ⟨false, t, rfl, h⟩
  | prefixRefused => exact ⟨false, t, rfl, h⟩
  | exactAdded htype hroom hnew hfilled =>
    refine ⟨true, _, rfl, ?_, hfilled, ?_, h.prefixType⟩
    · rw [List.length_append, List.length_singleton]
      exact hroom
    · intro e he
      rcases List.mem_append.mp he with he | he
      · exact h.exactType e he
      · rw [List.mem_singleton.mp he]
        exact htype
  | prefixAdded htype hroom hnew =>
    refine ⟨true, _, rfl, h.count, h.filled, h.exactType, ?_⟩
    intro e he
    rcases List.mem_append.mp he with he | he
    · exact h.prefixType e he
    · rw [List.mem_singleton.mp he]
      exact htype

/-- **Building.** Every sequence of calls returns and leaves a built table. -/
theorem addRoutes_built (routes : List Route) :
    ∀ {t : RouteTable}, Built t → ∃ t', addRoutes routes t = some t' ∧ Built t' := by
  induction routes with
  | nil => exact fun {t} h => ⟨t, rfl, h⟩
  | cons r routes ih =>
    intro t h
    obtain ⟨ok, t₁, ht₁, h₁⟩ := routeTableAdd_built h r
    obtain ⟨t₂, ht₂, h₂⟩ := ih h₁
    exact ⟨t₂, by rw [addRoutes, ht₁, Option.bind_some]; exact ht₂, h₂⟩

/-! ## Looking up -/

/-- Route `j` is for the path, and the hash slots from the key's own slot up to that of `j` hold
routes for other paths. -/
def Meets (t : RouteTable) (method path : CStr) (j : Nat) : Prop :=
  ∃ h, t.hash h = some j ∧ (t.entry j).path = path ∧
    ∀ k, dist (hashKey method path) k < dist (hashKey method path) h →
      ∃ i, t.hash k = some i ∧ (t.entry i).path ≠ path

/-- What a linear scan of the exact routes looks for. -/
def Keyed (t : RouteTable) (method path : CStr) (i : Nat) : Prop :=
  i < t.exact.length ∧ (t.entry i).path = path ∧ (t.entry i).method = method

section

variable {t : RouteTable} {method path : CStr} {i j : Nat}

@[simp] theorem onPath_iff : t.onPath path i = true ↔ (t.entry i).path = path := by
  simp [RouteTable.onPath]

theorem onPath_eq_false : t.onPath path i = false ↔ (t.entry i).path ≠ path := by
  rw [← Bool.not_eq_true, onPath_iff]

theorem meets_iff : Meets t method path j ↔
    ∃ h, probe t.hash (t.onPath path) (hashKey method path) = some (h, some j) := by
  constructor
  · rintro ⟨h, hj, hpath, hbefore⟩
    refine ⟨h, probe_eq_some_iff.mpr ⟨hj.symm, ?_, fun k hk => ?_⟩⟩
    · rintro ⟨i, hi, hon⟩
      rw [hj] at hi
      cases hi
      exact onPath_eq_false.mp hon hpath
    · obtain ⟨i, hi, hne⟩ := hbefore k hk
      exact ⟨i, hi, onPath_eq_false.mpr hne⟩
  · rintro ⟨h, hp⟩
    obtain ⟨hj, hstop, hpass⟩ := probe_eq_some_iff.mp hp
    refine ⟨h, hj.symm, ?_, fun k hk => ?_⟩
    · by_contra hne
      exact hstop ⟨j, hj.symm, onPath_eq_false.mpr hne⟩
    · obtain ⟨i, hi, hon⟩ := hpass k hk
      exact ⟨i, hi, onPath_eq_false.mp hon⟩

theorem Meets.onPath (h : Meets t method path j) : (t.entry j).path = path := by
  obtain ⟨-, -, hpath, -⟩ := h
  exact hpath

theorem Meets.lt (h : Meets t method path j) (ht : Built t) : j < t.exact.length := by
  obtain ⟨k, hk, -⟩ := h
  exact ht.filled.bound hk

theorem Meets.unique (h : Meets t method path i) (h' : Meets t method path j) : i = j := by
  obtain ⟨k, hk⟩ := meets_iff.mp h
  obtain ⟨l, hl⟩ := meets_iff.mp h'
  rw [hk] at hl
  cases hl
  rfl

/-- The walk of a key that has a route meets some route for the path. -/
theorem Keyed.meets (h : Keyed t method path i) (ht : Built t) :
    ∃ j, Meets t method path j := by
  obtain ⟨hlt, hpath, hmethod⟩ := h
  obtain ⟨e, he, hchain⟩ := ht.filled.chained hlt
  unfold RouteTable.home at hchain
  rw [hpath, hmethod] at hchain
  obtain ⟨k, j, hprobe, -⟩ := hchain.probe he (onPath_iff.mpr hpath)
  exact ⟨j, meets_iff.mpr ⟨k, hprobe⟩⟩

/-- **Lookup.** The walk ends at the first route it meets for the path, or at none. -/
theorem hashLookup_cases (ht : Built t) (method path : CStr) :
    (∃ j, Meets t method path j ∧ (t.entry j).method = method ∧
        hashLookup t method path = some (some j, false)) ∨
      (∃ j, Meets t method path j ∧ (t.entry j).method ≠ method ∧
        hashLookup t method path = some (none, true)) ∨
      (∀ j, ¬ Meets t method path j) ∧ hashLookup t method path = some (none, false) := by
  have hfree := ht.filled.free (Nat.lt_of_le_of_lt ht.count maxRoutes_lt_hashSize)
  obtain ⟨h, hp⟩ := probe_of_free hfree (t.onPath path) (hashKey method path)
  unfold hashLookup
  rw [hp, Option.map_some]
  cases hentry : t.hash h with
  | none =>
    refine .inr (.inr ⟨fun j hj => ?_, rfl⟩)
    obtain ⟨k, hk⟩ := meets_iff.mp hj
    rw [hp, hentry] at hk
    cases hk
  | some j =>
    rw [hentry] at hp
    have hmeets : Meets t method path j := meets_iff.mpr ⟨h, hp⟩
    by_cases hm : (t.entry j).method = method
    · refine .inl ⟨j, hmeets, hm, ?_⟩
      simp only [strcmp_eq_iff, if_pos hm]
    · refine .inr (.inl ⟨j, hmeets, hm, ?_⟩)
      simp only [strcmp_eq_iff, if_neg hm]

theorem hashLookup_some (ht : Built t) :
    (hashLookup t method path).map Prod.fst = some (some i) ↔
      Meets t method path i ∧ (t.entry i).method = method := by
  rcases hashLookup_cases ht method path with
    ⟨j, hj, hm, hl⟩ | ⟨j, hj, hm, hl⟩ | ⟨hno, hl⟩
  · rw [hl]
    constructor
    · intro h
      cases h
      exact ⟨hj, hm⟩
    · rintro ⟨hi, -⟩
      rw [hi.unique hj]
      rfl
  · rw [hl]
    constructor
    · intro h
      cases h
    · rintro ⟨hi, him⟩
      rw [hi.unique hj] at him
      exact absurd him hm
  · rw [hl]
    constructor
    · intro h
      cases h
    · rintro ⟨hi, -⟩
      exact absurd hi (hno i)

end

/-! ## Agreement with the linear scan -/

/-- `hash_lookup` returns an index exactly if a scan of the exact routes finds it. -/
def Agrees (t : RouteTable) (method path : CStr) : Prop :=
  ∀ i, (hashLookup t method path).map Prod.fst = some (some i) ↔ Keyed t method path i

/-- At most one exact route has the method and path, and if one has, then the first route for the
path that the walk meets has the method. -/
def Unambiguous (t : RouteTable) (method path : CStr) : Prop :=
  (∀ i j, Keyed t method path i → Keyed t method path j → i = j) ∧
    ∀ i j, Keyed t method path i → Meets t method path j → (t.entry j).method = method

theorem agrees_iff {t : RouteTable} (ht : Built t) {method path : CStr} :
    Agrees t method path ↔ Unambiguous t method path := by
  constructor
  · intro h
    have hmeets : ∀ i, Keyed t method path i → Meets t method path i := by
      intro i hi
      exact ((hashLookup_some ht).mp ((h i).mpr hi)).1
    refine ⟨fun i j hi hj => (hmeets i hi).unique (hmeets j hj), fun i j hi hj => ?_⟩
    rw [hj.unique (hmeets i hi)]
    exact hi.2.2
  · rintro ⟨huniq, hfirst⟩ i
    rw [hashLookup_some ht]
    constructor
    · rintro ⟨hi, hm⟩
      exact ⟨hi.lt ht, hi.onPath, hm⟩
    · intro hi
      obtain ⟨j, hj⟩ := hi.meets ht
      have hm := hfirst i j hi hj
      rw [huniq i j hi ⟨hj.lt ht, hj.onPath, hm⟩]
      exact ⟨hj, hm⟩

/-- **Hash and scan.** For every table that `route_table_add` builds, the two agree on a method
and path exactly if the key is unambiguous. -/
theorem addRoutes_agrees_iff (routes : List Route) :
    ∃ t, addRoutes routes routeTableInit = some t ∧
      ∀ method path, Agrees t method path ↔ Unambiguous t method path := by
  obtain ⟨t, ht, hbuilt⟩ := addRoutes_built routes built_init
  exact ⟨t, ht, fun _ _ => agrees_iff hbuilt⟩

/-- An exact route without a realm or a role. -/
def publicRoute (method path : String) (handler : HandlerType) : Route :=
  ⟨ascii method, ascii path, .matchExact, handler, [], []⟩

/-- `GET /hj` takes the slot of `HEAD /`, so `HEAD /` is put in the slot of `DELETE /`, and the
lookup of `DELETE /` ends there. -/
theorem delete_root_missed :
    ∃ t, addRoutes [publicRoute "GET" "/hj" .hello, publicRoute "HEAD" "/" .index,
        publicRoute "DELETE" "/" .userDelete] routeTableInit = some t ∧
      Keyed t (ascii "DELETE") (ascii "/") 2 ∧
      hashLookup t (ascii "DELETE") (ascii "/") = some (none, true) ∧
      ¬ Agrees t (ascii "DELETE") (ascii "/") := by
  have hlookup : ((addRoutes [publicRoute "GET" "/hj" .hello, publicRoute "HEAD" "/" .index,
      publicRoute "DELETE" "/" .userDelete] routeTableInit).get (by decide +kernel)).entry 2 =
        (publicRoute "DELETE" "/" .userDelete).entry := by decide +kernel
  refine ⟨_, (Option.some_get (by decide +kernel)).symm, ⟨by decide +kernel, ?_, ?_⟩,
    by decide +kernel, fun h => ?_⟩
  · rw [hlookup]
    decide +kernel
  · rw [hlookup]
    decide +kernel
  · have hkeyed := (h 2).mpr ⟨by decide +kernel, by rw [hlookup]; decide +kernel,
      by rw [hlookup]; decide +kernel⟩
    revert hkeyed
    decide +kernel

end MiniWeb.Routing
