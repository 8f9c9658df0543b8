import Mathlib.Data.List.Basic
import Mathlib.Tactic.Common

/-!
# Searching a text for a pattern

A pattern is a list of classes, one for each symbol it matches. `first?` and `last?` scan a text
from the left and answer the text from the first or the last match on; they stop where fewer than
`m` symbols are left. A symbol that no class but the first contains is a fence: a match that
begins before it ends before it, so a scan over a text with a fence splits there.
-/

namespace MiniWeb.Search

variable {α : Type*} [DecidableEq α] {pat : List (List α)} {m : Nat} {c d : α} {s t x y : List α}

/-- The text begins with one symbol of each class in turn. -/
def matchesAt : List (List α) → List α → Bool
  | [], _ => true
  | _ :: _, [] => false
  | cls :: pat, c :: s => decide (c ∈ cls) && matchesAt pat s

/-- The text from the first match on. -/
def first? (pat : List (List α)) (m : Nat) : List α → Option (List α)
  | [] => none
  | c :: s =>
    if (c :: s).length < m then none
    else if matchesAt pat (c :: s) then some (c :: s)
    else first? pat m s

/-- The text from the last match on. -/
def last? (pat : List (List α)) (m : Nat) : List α → Option (List α)
  | [] => none
  | c :: s =>
    if (c :: s).length < m then none
    else (last? pat m s).or (if matchesAt pat (c :: s) then some (c :: s) else none)

/-! ## Matches -/

theorem length_of_matchesAt (h : matchesAt pat s = true) : pat.length ≤ s.length := by
  induction pat generalizing s with
  | nil => simp
  | cons cls pat ih =>
    cases s with
    | nil => simp [matchesAt] at h
    | cons c s =>
      simp only [matchesAt, Bool.and_eq_true] at h
      have := ih h.2
      simp only [List.length_cons]
      omega

/-- Each class of a match contains the symbol at its place. -/
theorem getElem?_of_matchesAt (h : matchesAt pat s = true) {i : Nat} {cls : List α}
    (hi : pat[i]? = some cls) : ∃ c ∈ cls, s[i]? = some c := by
  induction pat generalizing s i with
  | nil => simp at hi
  | cons cls' pat ih =>
    cases s with
    | nil => simp [matchesAt] at h
    | cons c s =>
      simp only [matchesAt, Bool.and_eq_true, decide_eq_true_eq] at h
      cases i with
      | zero =>
        rw [List.getElem?_cons_zero, Option.some.injEq] at hi
        exact ⟨c, hi ▸ h.1, by simp⟩
      | succ i =>
        rw [List.getElem?_cons_succ] at hi ⊢
        exact ih h.2 hi

/-- A match does not reach a symbol that none of the classes contains. -/
theorem matchesAt_append (hd : ∀ cls ∈ pat, d ∉ cls) :
    matchesAt pat (x ++ d :: y) = matchesAt pat x := by
  induction pat generalizing x with
  | nil => simp [matchesAt]
  | cons cls pat ih =>
    cases x with
    | nil => simp [matchesAt, hd cls (List.mem_cons_self ..)]
    | cons c x =>
      simp only [List.cons_append, matchesAt]
      rw [ih fun cls h => hd cls (List.mem_cons_of_mem _ h)]

/-- What follows a match does not matter. -/
theorem matchesAt_of_start (h : matchesAt pat x = true) : matchesAt pat (x ++ y) = true := by
  induction pat generalizing x with
  | nil => rw [matchesAt]
  | cons cls pat ih =>
    cases x with
    | nil => simp [matchesAt] at h
    | cons c x =>
      rw [matchesAt, Bool.and_eq_true] at h
      rw [List.cons_append, matchesAt, Bool.and_eq_true]
      exact ⟨h.1, ih h.2⟩

/-- A match that begins before a fence ends before it. -/
theorem matchesAt_cons_append (hpat : pat ≠ []) (hd : ∀ cls ∈ pat.tail, d ∉ cls) :
    matchesAt pat (c :: x ++ d :: y) = matchesAt pat (c :: x) := by
  cases pat with
  | nil => exact absurd rfl hpat
  | cons cls pat =>
    have h : matchesAt pat (x ++ d :: y) = matchesAt pat x := matchesAt_append hd
    simp only [List.cons_append, matchesAt, h]

/-! ## Scans -/

theorem first?_short (h : s.length < m) : first? pat m s = none := by
  cases s with
  | nil => rfl
  | cons c s => simp only [first?, if_pos h]

theorem last?_short (h : s.length < m) : last? pat m s = none := by
  cases s with
  | nil => rfl
  | cons c s => simp only [last?, if_pos h]

theorem first?_cons_of_not (h : matchesAt pat (c :: s) = false) :
    first? pat m (c :: s) = first? pat m s := by
  by_cases hm : (c :: s).length < m
  · rw [first?_short hm, first?_short (by simp only [List.length_cons] at hm; omega)]
  · simp only [first?, if_neg hm, h, Bool.false_eq_true, if_false]

theorem last?_cons_of_not (h : matchesAt pat (c :: s) = false) :
    last? pat m (c :: s) = last? pat m s := by
  by_cases hm : (c :: s).length < m
  · rw [last?_short hm, last?_short (by simp only [List.length_cons] at hm; omega)]
  · simp only [last?, if_neg hm, h, Bool.false_eq_true, if_false, Option.or_none]

/-- The answer of a scan is an end of the text, and the pattern matches there. -/
theorem first?_spec (h : first? pat m s = some t) : t <:+ s ∧ matchesAt pat t = true := by
  induction s with
  | nil => simp [first?] at h
  | cons c s ih =>
    rw [first?] at h
    split at h
    · simp at h
    · split at h
      next hc =>
        cases h
        exact ⟨List.suffix_rfl, hc⟩
      next =>
        obtain ⟨hs, ht⟩ := ih h
        exact ⟨hs.trans (List.suffix_cons ..), ht⟩

theorem last?_spec (h : last? pat m s = some t) : t <:+ s ∧ matchesAt pat t = true := by
  induction s with
  | nil => simp [last?] at h
  | cons c s ih =>
    rw [last?] at h
    split at h
    · simp at h
    · cases hl : last? pat m s with
      | some u =>
        rw [hl, Option.some_or] at h
        cases h
        obtain ⟨hs, ht⟩ := ih hl
        exact ⟨hs.trans (List.suffix_cons ..), ht⟩
      | none =>
        rw [hl, Option.none_or] at h
        split at h
        next hc =>
          cases h
          exact ⟨List.suffix_rfl, hc⟩
        next => simp at h

/-- A scan that is not stopped early finds a match if there is one. -/
theorem isSome_last? (hpat : pat ≠ []) (ht : t <:+ s) (h : matchesAt pat t = true) :
    (last? pat 0 s).isSome = true := by
  have hne : t ≠ [] := by
    intro hnil
    have hlen := length_of_matchesAt h
    rw [hnil, List.length_nil, Nat.le_zero, List.length_eq_zero_iff] at hlen
    exact hpat hlen
  induction s with
  | nil => exact absurd (List.suffix_nil.mp ht) hne
  | cons c s ih =>
    rw [last?, if_neg (Nat.not_lt_zero _), Option.isSome_or, Bool.or_eq_true]
    rcases List.suffix_cons_iff.mp ht with rfl | hs
    · rw [if_pos h]
      exact .inr rfl
    · exact .inl (ih hs)

/-- A text matched by classes that `f` takes to one symbol each begins, under `f`, with these. -/
theorem prefix_of_matchesAt {β : Type*} {f : α → β} {key : List β}
    (hkey : List.Forall₂ (fun cls k => ∀ c ∈ cls, f c = k) pat key) (h : matchesAt pat s = true) :
    key <+: s.map f := by
  induction hkey generalizing s with
  | nil => exact List.nil_prefix
  | cons hcls _ ih =>
    cases s with
    | nil => simp [matchesAt] at h
    | cons c s =>
      simp only [matchesAt, Bool.and_eq_true, decide_eq_true_eq] at h
      rw [List.map_cons, hcls c h.1, List.cons_prefix_cons]
      exact ⟨rfl, ih h.2⟩

/-- A fence, or the end of the text, stops a match of two symbols or more at the symbol before. -/
theorem matchesAt_singleton (hpat : 2 ≤ pat.length) : matchesAt pat [c] = false := by
  by_contra h
  rw [Bool.not_eq_false] at h
  have := length_of_matchesAt h
  simp only [List.length_singleton] at this
  omega

/-- No match begins at a symbol before a fence. -/
theorem matchesAt_before (hpat : 2 ≤ pat.length) (hd : ∀ cls ∈ pat.tail, d ∉ cls) :
    matchesAt pat (c :: d :: y) = false := by
  have hne : pat ≠ [] := by
    intro h
    simp [h] at hpat
  have h : matchesAt pat ([c] ++ d :: y) = matchesAt pat [c] := matchesAt_cons_append hne hd
  exact h.trans (matchesAt_singleton hpat)

theorem matchesAt_before_fences (hpat : 2 ≤ pat.length)
    (hx : ∀ d ∈ x, ∀ cls ∈ pat.tail, d ∉ cls) (hy : ∀ d ∈ y.head?, ∀ cls ∈ pat.tail, d ∉ cls) :
    matchesAt pat (c :: (x ++ y)) = false := by
  cases hxy : x ++ y with
  | nil => exact matchesAt_singleton hpat
  | cons d z =>
    apply matchesAt_before hpat
    cases x with
    | nil => exact hy d (by simp_all)
    | cons d' x => exact hx d (by simp_all)

/-- A scan passes over a run of fences with a fence or nothing after it. -/
theorem first?_fences (hpat : 2 ≤ pat.length) (hx : ∀ d ∈ x, ∀ cls ∈ pat.tail, d ∉ cls)
    (hy : ∀ d ∈ y.head?, ∀ cls ∈ pat.tail, d ∉ cls) : first? pat m (x ++ y) = first? pat m y := by
  induction x with
  | nil => rfl
  | cons c x ih =>
    have hx' : ∀ d ∈ x, ∀ cls ∈ pat.tail, d ∉ cls := fun d hd => hx d (List.mem_cons_of_mem _ hd)
    rw [List.cons_append, first?_cons_of_not (matchesAt_before_fences hpat hx' hy)]
    exact ih hx'

theorem last?_fences (hpat : 2 ≤ pat.length) (hx : ∀ d ∈ x, ∀ cls ∈ pat.tail, d ∉ cls)
    (hy : ∀ d ∈ y.head?, ∀ cls ∈ pat.tail, d ∉ cls) : last? pat m (x ++ y) = last? pat m y := by
  induction x with
  | nil => rfl
  | cons c x ih =>
    have hx' : ∀ d ∈ x, ∀ cls ∈ pat.tail, d ∉ cls := fun d hd => hx d (List.mem_cons_of_mem _ hd)
    rw [List.cons_append, last?_cons_of_not (matchesAt_before_fences hpat hx' hy)]
    exact ih hx'

/-! ## Splitting a scan at a fence -/

/-- The test for the length left never stops a scan at a match that begins before the fence. -/
theorem length_cons_append_of_matchesAt (hm : m ≤ pat.length + (d :: y).length)
    (h : matchesAt pat (c :: x) = true) : ¬(c :: x ++ d :: y).length < m := by
  have := length_of_matchesAt h
  simp only [List.length_append, List.length_cons] at hm this ⊢
  omega

theorem first?_append (hpat : pat ≠ []) (hd : ∀ cls ∈ pat.tail, d ∉ cls)
    (hm : m ≤ pat.length + (d :: y).length) :
    first? pat m (x ++ d :: y)
      = ((first? pat 0 x).map (· ++ d :: y)).or (first? pat m (d :: y)) := by
  induction x with
  | nil => simp [first?]
  | cons c x ih =>
    have hc : matchesAt pat (c :: (x ++ d :: y)) = matchesAt pat (c :: x) :=
      matchesAt_cons_append hpat hd
    by_cases h : matchesAt pat (c :: x) = true
    · have hlen := length_cons_append_of_matchesAt hm h
      simp only [List.cons_append] at hlen ⊢
      simp only [first?, if_neg hlen, hc, h, if_true, Nat.not_lt_zero, if_false, Option.map_some,
        List.cons_append, Option.some_or]
    · rw [Bool.not_eq_true] at h
      rw [List.cons_append, first?_cons_of_not (hc.trans h), first?_cons_of_not h, ih]

/-- Where the pattern matches, it is the answer unless it matches further on. -/
theorem last?_cons_of_matchesAt (h : matchesAt pat (c :: s) = true) (hm : ¬(c :: s).length < m) :
    last? pat m (c :: s) = (last? pat m s).or (some (c :: s)) := by
  simp only [last?, if_neg hm, h, if_true]

theorem last?_append (hpat : pat ≠ []) (hd : ∀ cls ∈ pat.tail, d ∉ cls)
    (hm : m ≤ pat.length + (d :: y).length) :
    last? pat m (x ++ d :: y)
      = (last? pat m (d :: y)).or ((last? pat 0 x).map (· ++ d :: y)) := by
  induction x with
  | nil => simp [last?]
  | cons c x ih =>
    have hc : matchesAt pat (c :: (x ++ d :: y)) = matchesAt pat (c :: x) :=
      matchesAt_cons_append hpat hd
    by_cases h : matchesAt pat (c :: x) = true
    · have hlen := length_cons_append_of_matchesAt hm h
      rw [List.cons_append] at hlen ⊢
      rw [last?_cons_of_matchesAt (hc.trans h) hlen, ih,
        last?_cons_of_matchesAt h (Nat.not_lt_zero _), Option.or_assoc]
      cases last? pat 0 x <;> simp
    · rw [Bool.not_eq_true] at h
      rw [List.cons_append, last?_cons_of_not (hc.trans h), last?_cons_of_not h, ih]

end MiniWeb.Search
