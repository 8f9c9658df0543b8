import MiniWeb.Lib.Slots

/-!
# Tables of handles

A table has `n` places, each with a handle or empty. `entries` lists what is in it, in the order of
the places, each handle written by `f` with its place. A handle put in an empty place, or taken out
of its place, is one entry more or less, up to the order.
-/

namespace MiniWeb.Table

universe u v

variable {η : Type u} {β : Type v} {f : Nat → η → β} {n i : Nat} {table : Nat → Option η} {h : η}

/-- The entries of the first `n` places. -/
def entries (f : Nat → η → β) (n : Nat) (table : Nat → Option η) : List β :=
  (List.range n).filterMap fun i => (table i).map (f i)

theorem mem_entries {b : β} :
    b ∈ entries f n table ↔ ∃ i h, i < n ∧ table i = some h ∧ f i h = b := by
  simp only [entries, List.mem_filterMap, List.mem_range, Option.map_eq_some_iff]
  constructor
  · rintro ⟨i, hi, h, hh, hb⟩
    exact ⟨i, h, hi, hh, hb⟩
  · rintro ⟨i, h, hi, hh, hb⟩
    exact ⟨i, hi, h, hh, hb⟩

theorem entries_succ :
    entries f (n + 1) table = entries f n table ++ ((table n).map (f n)).toList := by
  unfold entries
  rw [List.range_succ, List.filterMap_append]
  cases h : table n <;> simp [h]

/-- A place beyond the table is not listed. -/
theorem entries_beyond {o : Option η} (hi : n ≤ i) :
    entries f n (Function.update table i o) = entries f n table := by
  apply List.filterMap_congr
  intro j hj
  have hne : j ≠ i := by
    have := List.mem_range.mp hj
    omega
  rw [Function.update_of_ne hne]

theorem entries_put (hi : i < n) (hfree : table i = none) :
    (entries f n (Function.update table i (some h))).Perm (f i h :: entries f n table) := by
  induction n with
  | zero => omega
  | succ n ih =>
    rw [entries_succ, entries_succ]
    by_cases hn : i = n
    · subst hn
      rw [entries_beyond (Nat.le_refl _), Function.update_self, hfree, Option.map_some,
        Option.map_none, Option.toList_some, Option.toList_none, List.append_nil]
      exact List.perm_append_singleton ..
    · rw [Function.update_of_ne (Ne.symm hn)]
      exact (ih (by omega)).append_right _

theorem entries_take (hi : i < n) (hh : table i = some h) :
    (entries f n table).Perm (f i h :: entries f n (Function.update table i none)) := by
  have hput : (entries f n (Function.update (Function.update table i none) i (some h))).Perm _ :=
    entries_put hi (Function.update_self ..)
  rwa [Function.update_idem, ← hh, Function.update_eq_self] at hput

theorem map_entries {γ : Type v} {g : β → γ} :
    (entries f n table).map g = entries (fun i h => g (f i h)) n table := by
  unfold entries
  rw [List.map_filterMap]
  apply List.filterMap_congr
  intro i _
  rw [Option.map_map]
  rfl

theorem length_entries :
    (entries f n table).length = Slots.count n fun i => (table i).isSome := by
  unfold entries Slots.count
  rw [List.length_filterMap_eq_countP]
  apply List.countP_congr
  intro i _
  rw [Option.isSome_map]

/-- No handle is in two places of a table whose handles are listed without repetition. -/
theorem unique_of_nodup {j : Nat} (hnodup : (entries (fun _ h => h) n table).Nodup) (hi : i < n)
    (hj : j < n) (hih : table i = some h) (hjh : table j = some h) : i = j := by
  by_contra hne
  have htake := entries_take (f := fun _ h => h) hi hih
  have hmem : h ∈ entries (fun _ h => h) n (Function.update table i none) := by
    rw [mem_entries]
    exact ⟨j, h, hj, by rw [Function.update_of_ne (Ne.symm hne), hjh], rfl⟩
  exact (List.nodup_cons.mp (htake.nodup_iff.mp hnodup)).1 hmem

/-! ## Loops over the places -/

/-- A loop over the places keeps what each of its turns keeps, and what a turn achieves for its
place, if the turns for other places keep it. -/
theorem foldl_range_rule {σ : Type u} {step : σ → Nat → σ} (Inv : σ → Prop)
    (Done : Nat → σ → Prop) {s : σ} (hs : Inv s)
    (hstep : ∀ k s, k < n → Inv s → Inv (step s k) ∧ Done k (step s k) ∧
      ∀ i, i ≠ k → Done i s → Done i (step s k)) :
    Inv ((List.range n).foldl step s) ∧ ∀ i < n, Done i ((List.range n).foldl step s) := by
  induction n with
  | zero => exact ⟨hs, fun i hi => by omega⟩
  | succ n ih =>
    obtain ⟨hinv, hdone⟩ := ih fun k s hk => hstep k s (by omega)
    rw [List.range_succ, List.foldl_append, List.foldl_cons, List.foldl_nil]
    obtain ⟨hinv', hlast, hkept⟩ := hstep n _ (Nat.lt_succ_self n) hinv
    refine ⟨hinv', fun i hi => ?_⟩
    by_cases hin : i = n
    · rw [hin]
      exact hlast
    · exact hkept i hin (hdone i (by omega))

end MiniWeb.Table
