import MiniWeb.Lib.Loop
import Mathlib.Algebra.Group.Fin.Basic
import Mathlib.Data.Fin.Basic
import Mathlib.Data.Fintype.Card
import Mathlib.Logic.Function.Basic
import Mathlib.Tactic.Abel

/-!
# Linear probing

A table of `n` slots holds entries or is empty at a slot. A probe starts at a home slot and
walks upwards, wrapping around, until it meets an empty slot or an entry it is looking for
(`hit`). `dist h k` is the number of steps from `h` to `k`.

`probe_eq_some_iff` says where a probe ends: at the first slot on its way that stops it. A probe
ends if any slot stops it and runs forever otherwise (`probe_halts_iff`); the bound of `n` passes
never cuts a probe short.

An entry is found from its home slot as long as no slot before it is empty (`Chained`). Filling a
slot keeps that; emptying one keeps it for the entries that do not lie behind the slot. A table
that was only filled has no gaps (`Filled`).
-/

namespace MiniWeb.Loop

universe u

variable {n : Nat} {B : Type u}

/-! ## Distances -/

/-- Steps from `h` to `k`. -/
def dist (h k : Fin n) : Nat := (k - h).val

theorem dist_lt (h k : Fin n) : dist h k < n := (k - h).isLt

variable [NeZero n]

@[simp] theorem dist_self (h : Fin n) : dist h h = 0 := by
  simp [dist]

theorem dist_inj {h k l : Fin n} (hd : dist h k = dist h l) : k = l :=
  sub_left_inj.mp (Fin.val_injective hd)

/-- A step towards a slot not yet reached. -/
theorem dist_next {h k : Fin n} (hne : h ≠ k) : dist (h + 1) k + 1 = dist h k := by
  have hne' : k - h ≠ 0 := sub_ne_zero.mpr hne.symm
  have hpos : (k - h).val ≠ 0 := fun h0 => hne' (Fin.ext h0)
  have hstep : (k - h - 1).val = (k - h).val - 1 := Fin.val_sub_one_of_ne_zero hne'
  unfold dist
  rw [sub_add_eq_sub_sub, hstep]
  omega

/-- A step away from the home slot, unless it wraps around to it. -/
theorem dist_succ_le (h k : Fin n) : dist h (k + 1) ≤ dist h k + 1 := by
  have hsum : k + 1 - h = (k - h) + 1 := by abel
  have hone : (1 : Fin n).val ≤ 1 := by
    rw [Fin.val_one']
    exact Nat.mod_le ..
  unfold dist
  rw [hsum, Fin.val_add]
  refine (Nat.mod_le ..).trans ?_
  omega

/-! ## Probes -/

def probeStep (tbl : Fin n → Option B) (hit : B → Bool) (h : Fin n) :
    Step (Fin n) (Fin n × Option B) :=
  match tbl h with
  | none => .done (h, none)
  | some b => if hit b then .done (h, some b) else .next (h + 1)

/-- The slot a probe ends at and the entry found there; `none` when it does not end. -/
def probe (tbl : Fin n → Option B) (hit : B → Bool) (home : Fin n) : Option (Fin n × Option B) :=
  run (probeStep tbl hit) n home

/-- The probe goes on at a slot: it holds an entry that is not looked for. -/
def Passes (tbl : Fin n → Option B) (hit : B → Bool) (h : Fin n) : Prop :=
  ∃ b, tbl h = some b ∧ hit b = false

section

variable {tbl : Fin n → Option B} {hit : B → Bool} {home j : Fin n} {r : Option B}

theorem probeStep_passes {h : Fin n} (hp : Passes tbl hit h) :
    probeStep tbl hit h = .next (h + 1) := by
  obtain ⟨b, hb, hhit⟩ := hp
  simp only [probeStep, hb, hhit]
  rfl

theorem probeStep_stops {h : Fin n} (hp : ¬ Passes tbl hit h) :
    probeStep tbl hit h = .done (h, tbl h) := by
  unfold probeStep
  split
  next hb => rw [hb]
  next b hb =>
    have hhit : hit b = true := by
      by_contra h0
      exact hp ⟨b, hb, by simpa using h0⟩
    rw [if_pos hhit, hb]

/-- A probe ends within `n` passes when some slot stops it. -/
theorem probe_isSome (hstop : ∃ j, ¬ Passes tbl hit j) (home : Fin n) :
    ∃ j, probe tbl hit home = some (j, tbl j) ∧ ¬ Passes tbl hit j := by
  obtain ⟨j, hj⟩ := hstop
  have hstep : ∀ m h, dist h j = m →
      StepOK (fun m h => dist h j = m)
        (fun res => ∃ k, res = (k, tbl k) ∧ ¬ Passes tbl hit k) m (probeStep tbl hit h) := by
    intro m h hm
    by_cases hp : Passes tbl hit h
    · rw [probeStep_passes hp]
      have hne : h ≠ j := fun h0 => hj (h0 ▸ hp)
      have := dist_next hne
      exact ⟨dist (h + 1) j, by omega, rfl⟩
    · rw [probeStep_stops hp]
      exact ⟨h, rfl, hp⟩
  obtain ⟨res, hrun, k, rfl, hk⟩ :=
    run_total (fun m h => dist h j = m) hstep rfl (dist_lt home j)
  exact ⟨k, hrun, hk⟩

/-- What a probe that ends has passed. -/
theorem probe_exit {fuel : Nat} {res : Fin n × Option B}
    (h : run (probeStep tbl hit) fuel home = some res) :
    ∃ j, res = (j, tbl j) ∧ ¬ Passes tbl hit j ∧
      ∀ k, dist home k < dist home j → Passes tbl hit k := by
  obtain ⟨j, hpass, hdone⟩ := run_exit
    (fun j => ∀ k, dist home k < dist home j → Passes tbl hit k)
    (fun j j' hInv hnext k hk => by
      by_cases hp : Passes tbl hit j
      · rw [probeStep_passes hp] at hnext
        cases hnext
        have hle := dist_succ_le home j
        rcases Nat.lt_or_ge (dist home k) (dist home j) with hlt | hge
        · exact hInv k hlt
        · rwa [dist_inj (show dist home k = dist home j by omega)]
      · rw [probeStep_stops hp] at hnext
        cases hnext)
    (fun k hk => absurd hk (by simp)) h
  by_cases hp : Passes tbl hit j
  · rw [probeStep_passes hp] at hdone
    cases hdone
  · rw [probeStep_stops hp] at hdone
    cases hdone
    exact ⟨j, rfl, hp, hpass⟩

/-- **Where a probe ends**: at the first slot from home that does not pass it on. -/
theorem probe_eq_some_iff :
    probe tbl hit home = some (j, r) ↔
      r = tbl j ∧ ¬ Passes tbl hit j ∧ ∀ k, dist home k < dist home j → Passes tbl hit k := by
  constructor
  · intro h
    obtain ⟨k, hres, hk, hpass⟩ := probe_exit h
    cases hres
    exact ⟨rfl, hk, hpass⟩
  · rintro ⟨rfl, hj, hpass⟩
    obtain ⟨k, hrun, hk⟩ := probe_isSome ⟨j, hj⟩ home
    obtain ⟨k', hres, -, hpass'⟩ := probe_exit hrun
    cases hres
    rcases Nat.lt_trichotomy (dist home k) (dist home j) with hlt | heq | hgt
    · exact absurd (hpass k hlt) hk
    · rw [hrun, dist_inj heq]
    · exact absurd (hpass' j hgt) hj

/-- **A probe ends exactly when some slot stops it.** -/
theorem probe_halts_iff : Halts (probeStep tbl hit) home ↔ ∃ j, ¬ Passes tbl hit j := by
  constructor
  · rintro ⟨fuel, h⟩
    obtain ⟨res, hres⟩ := Option.isSome_iff_exists.mp h
    obtain ⟨j, -, hj, -⟩ := probe_exit hres
    exact ⟨j, hj⟩
  · intro h
    obtain ⟨j, hrun, -⟩ := probe_isSome h home
    exact ⟨n, Option.isSome_iff_exists.mpr ⟨_, hrun⟩⟩

/-- A probe depends on the slots it visits and on nothing else. -/
theorem probe_congr {tbl' : Fin n → Option B} {hit' : B → Bool}
    (h : probe tbl hit home = some (j, r))
    (htbl : ∀ k, dist home k ≤ dist home j → tbl' k = tbl k)
    (hhit : ∀ k b, dist home k ≤ dist home j → tbl k = some b → hit' b = hit b) :
    probe tbl' hit' home = some (j, r) := by
  obtain ⟨hr, hstop, hpass⟩ := probe_eq_some_iff.mp h
  apply probe_eq_some_iff.mpr
  refine ⟨?_, ?_, ?_⟩
  · rw [hr, htbl j (Nat.le_refl _)]
  · rintro ⟨b, hb, hb'⟩
    rw [htbl j (Nat.le_refl _)] at hb
    apply hstop
    exact ⟨b, hb, by rw [← hhit j b (Nat.le_refl _) hb, hb']⟩
  · intro k hk
    obtain ⟨b, hb, hb'⟩ := hpass k hk
    exact ⟨b, by rw [htbl k (by omega), hb], by rw [hhit k b (by omega) hb, hb']⟩

/-- A free slot lets every probe end. -/
theorem probe_of_free (hfree : ∃ j, tbl j = none) (hit : B → Bool) (home : Fin n) :
    ∃ j, probe tbl hit home = some (j, tbl j) := by
  obtain ⟨j, hj⟩ := hfree
  have hstop : ¬ Passes tbl hit j := by
    rintro ⟨b, hb, -⟩
    rw [hj] at hb
    cases hb
  obtain ⟨k, hrun, -⟩ := probe_isSome ⟨j, hstop⟩ home
  exact ⟨k, hrun⟩

end

/-! ## Chains -/

/-- No slot before `e` on the way from `home` is empty. -/
def Chained (tbl : Fin n → Option B) (home e : Fin n) : Prop :=
  ∀ k, dist home k < dist home e → tbl k ≠ none

section

variable {tbl : Fin n → Option B} {hit : B → Bool} {home e j : Fin n} {b : B}

/-- The way a probe has gone is a chain. -/
theorem Chained.of_probe {r : Option B} (h : probe tbl hit home = some (j, r)) :
    Chained tbl home j := by
  intro k hk h0
  obtain ⟨b, hb, -⟩ := (probe_eq_some_iff.mp h).2.2 k hk
  rw [h0] at hb
  cases hb

/-- **Search.** With a chain to an entry looked for, the probe ends at an entry looked for, which
comes no later and is chained. -/
theorem Chained.probe (h : Chained tbl home e) (he : tbl e = some b) (hb : hit b = true) :
    ∃ j b', probe tbl hit home = some (j, some b') ∧ tbl j = some b' ∧ hit b' = true ∧
      Chained tbl home j := by
  have hstop : ¬ Passes tbl hit e := by
    rintro ⟨c, hc, hhit⟩
    rw [he] at hc
    cases hc
    rw [hb] at hhit
    cases hhit
  obtain ⟨j, hrun, hj⟩ := probe_isSome ⟨e, hstop⟩ home
  have hle : dist home j ≤ dist home e := by
    by_contra hlt
    exact hstop ((probe_eq_some_iff.mp hrun).2.2 e (by omega))
  have hne : tbl j ≠ none := by
    rcases Nat.lt_or_ge (dist home j) (dist home e) with hlt | hge
    · exact h j hlt
    · rw [dist_inj (show dist home j = dist home e by omega), he]
      exact Option.some_ne_none b
  obtain ⟨b', hb'⟩ := Option.ne_none_iff_exists'.mp hne
  refine ⟨j, b', by rw [hrun, hb'], hb', ?_, .of_probe hrun⟩
  by_contra hhit
  exact hj ⟨b', hb', by simpa using hhit⟩

omit [NeZero n] in
/-- Filling a slot keeps chains. -/
theorem Chained.fill (h : Chained tbl home e) (j : Fin n) (b : B) :
    Chained (Function.update tbl j (some b)) home e := by
  intro k hk
  rw [Function.update_apply]
  split
  · exact Option.some_ne_none b
  · exact h k hk

omit [NeZero n] in
/-- Emptying a slot keeps the chains that do not pass it. -/
theorem Chained.empty (h : Chained tbl home e) (hj : ¬ dist home j < dist home e) :
    Chained (Function.update tbl j none) home e := by
  intro k hk
  rw [Function.update_apply, if_neg]
  · exact h k hk
  · rintro rfl
    exact hj hk

end

/-! ## Tables filled in order -/

/-- The table after the entries `0, …, count - 1` were put in one after another, each at the first
empty slot from its home: all are there once, and the slots an entry was pushed past hold earlier
ones. -/
structure Filled (home : Nat → Fin n) (count : Nat) (tbl : Fin n → Option Nat) : Prop where
  bound : ∀ {h i}, tbl h = some i → i < count
  inj : ∀ {h k i}, tbl h = some i → tbl k = some i → h = k
  placed : ∀ {i}, i < count → ∃ h, tbl h = some i ∧
    ∀ k, dist (home i) k < dist (home i) h → ∃ j, tbl k = some j ∧ j < i

namespace Filled

variable {home : Nat → Fin n} {count : Nat} {tbl : Fin n → Option Nat}

omit [NeZero n] in
theorem empty (home : Nat → Fin n) : Filled home 0 fun _ => none := by
  constructor
  · intro h i hi
    cases hi
  · intro h k i hi
    cases hi
  · intro i hi
    omega

omit [NeZero n] in
/-- Fewer entries than slots leave a slot free. -/
theorem free (h : Filled home count tbl) (hcount : count < n) : ∃ j, tbl j = none := by
  by_contra hfull
  have hsome : ∀ j, ∃ i, tbl j = some i := by
    intro j
    exact Option.ne_none_iff_exists'.mp fun hj => hfull ⟨j, hj⟩
  choose entry hentry using hsome
  have hinj : Function.Injective fun j => (⟨entry j, h.bound (hentry j)⟩ : Fin count) := by
    intro j k hjk
    have hjk' : entry j = entry k := congrArg Fin.val hjk
    exact h.inj (hentry j) (hjk' ▸ hentry k)
  have hle := Fintype.card_le_of_injective _ hinj
  rw [Fintype.card_fin, Fintype.card_fin] at hle
  omega

omit [NeZero n] in
/-- No more slots are taken than there are entries. -/
theorem card_occupied (h : Filled home count tbl) :
    (Finset.univ.filter fun k => (tbl k).isSome).card ≤ count := by
  have hmaps : ∀ k ∈ Finset.univ.filter fun k => (tbl k).isSome,
      (tbl k).getD 0 ∈ Finset.range count := by
    intro k hk
    obtain ⟨i, hi⟩ := Option.isSome_iff_exists.mp (Finset.mem_filter.mp hk).2
    rw [hi, Option.getD_some, Finset.mem_range]
    exact h.bound hi
  have hinj : Set.InjOn (fun k => (tbl k).getD 0)
      (Finset.univ.filter fun k => (tbl k).isSome) := by
    intro k hk l hl hkl
    obtain ⟨i, hi⟩ := Option.isSome_iff_exists.mp (Finset.mem_filter.mp hk).2
    obtain ⟨j, hj⟩ := Option.isSome_iff_exists.mp (Finset.mem_filter.mp hl).2
    simp only [hi, hj, Option.getD_some] at hkl
    rw [hkl] at hi
    exact h.inj hi hj
  have hcard := Finset.card_le_card_of_injOn _ hmaps hinj
  rwa [Finset.card_range] at hcard

omit [NeZero n] in
theorem chained (h : Filled home count tbl) {i : Nat} (hi : i < count) :
    ∃ e, tbl e = some i ∧ Chained tbl (home i) e := by
  obtain ⟨e, he, hbefore⟩ := h.placed hi
  refine ⟨e, he, fun k hk => ?_⟩
  obtain ⟨j, hj, -⟩ := hbefore k hk
  rw [hj]
  exact Option.some_ne_none j

/-- One more entry. -/
theorem insert (h : Filled home count tbl) (hcount : count < n) :
    ∃ e, probe tbl (fun _ => false) (home count) = some (e, none) ∧
      Filled home (count + 1) (Function.update tbl e (some count)) := by
  obtain ⟨e, he⟩ := probe_of_free (h.free hcount) (fun _ => false) (home count)
  obtain ⟨-, hstop, hpass⟩ := probe_eq_some_iff.mp he
  have hnone : tbl e = none := by
    by_contra hne
    obtain ⟨i, hi⟩ := Option.ne_none_iff_exists'.mp hne
    exact hstop ⟨i, hi, rfl⟩
  have hold : ∀ {k i}, tbl k = some i → Function.update tbl e (some count) k = some i := by
    intro k i hk
    rw [Function.update_of_ne, hk]
    rintro rfl
    rw [hnone] at hk
    cases hk
  have hnew : Function.update tbl e (some count) e = some count := by
    rw [Function.update_self]
  have hcases : ∀ {k i}, Function.update tbl e (some count) k = some i →
      k = e ∧ i = count ∨ tbl k = some i := by
    intro k i hk
    by_cases hke : k = e
    · rw [hke, hnew] at hk
      cases hk
      exact .inl ⟨hke, rfl⟩
    · rw [Function.update_of_ne hke] at hk
      exact .inr hk
  rw [hnone] at he
  refine ⟨e, he, ?_, ?_, ?_⟩
  · intro k i hk
    rcases hcases hk with ⟨-, rfl⟩ | hk
    · omega
    · exact Nat.lt_succ_of_lt (h.bound hk)
  · intro k l i hk hl
    rcases hcases hk with ⟨hke, hi⟩ | hk'
    · rcases hcases hl with ⟨hle, -⟩ | hl'
      · rw [hke, hle]
      · have := h.bound hl'
        omega
    · rcases hcases hl with ⟨-, hi⟩ | hl'
      · have := h.bound hk'
        omega
      · exact h.inj hk' hl'
  · intro i hi
    rcases Nat.lt_or_ge i count with hlt | hge
    · obtain ⟨k, hk, hbefore⟩ := h.placed hlt
      refine ⟨k, hold hk, fun l hl => ?_⟩
      obtain ⟨j, hj, hji⟩ := hbefore l hl
      exact ⟨j, hold hj, hji⟩
    · obtain rfl : i = count := by omega
      refine ⟨e, hnew, fun l hl => ?_⟩
      obtain ⟨j, hj, -⟩ := hpass l hl
      exact ⟨j, hold hj, h.bound hj⟩

/-- The first of the entries looked for is found from its own home. -/
theorem probe_first (h : Filled home count tbl) {hit : Nat → Bool} {i : Nat} (hi : i < count)
    (hhit : hit i = true) (hfirst : ∀ j, j < i → hit j = false) :
    ∃ e, probe tbl hit (home i) = some (e, some i) := by
  obtain ⟨e, he, hbefore⟩ := h.placed hi
  refine ⟨e, probe_eq_some_iff.mpr ⟨he.symm, ?_, fun k hk => ?_⟩⟩
  · rintro ⟨j, hj, hjhit⟩
    rw [he] at hj
    cases hj
    rw [hhit] at hjhit
    cases hjhit
  · obtain ⟨j, hj, hji⟩ := hbefore k hk
    exact ⟨j, hj, hfirst j hji⟩

end Filled

end MiniWeb.Loop
