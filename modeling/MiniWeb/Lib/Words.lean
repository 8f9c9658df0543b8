import Mathlib.Data.List.TakeWhile
import Mathlib.Tactic.Common

/-!
# Words

The words of a text are what stands between its separators and is not empty. A scanner that skips
separators, takes everything up to the next one and goes on behind it reads the words.
-/

namespace MiniWeb.Words

universe u

variable {α : Type u} {sep : α → Bool} {s w : List α} {c : α}

def words (sep : α → Bool) (s : List α) : List (List α) :=
  (s.splitOnP sep).filter fun w => !w.isEmpty

@[simp] theorem words_nil : words sep [] = [] := rfl

theorem ne_nil_of_mem_words (hw : w ∈ words sep s) : w ≠ [] := by
  rintro rfl
  exact absurd (List.mem_filter.mp hw).2 Bool.false_ne_true

/-- A separator in front. -/
theorem words_sep (hc : sep c = true) : words sep (c :: s) = words sep s := by
  rw [words, List.splitOnP_cons_eq_if_modifyHead, if_pos hc]
  rfl

/-- The first word. -/
theorem words_append_sep (hw : ∀ d ∈ w, sep d = false) (hne : w ≠ []) (hc : sep c = true) :
    words sep (w ++ c :: s) = w :: words sep s := by
  rw [words, List.splitOnP_append_cons _ _ hc, List.splitOnP_eq_singleton hw, List.filter_append,
    List.filter_cons_of_pos (by simpa using hne)]
  rfl

/-- The last word. -/
theorem words_word (hw : ∀ d ∈ w, sep d = false) (hne : w ≠ []) : words sep w = [w] := by
  rw [words, List.splitOnP_eq_singleton hw, List.filter_cons_of_pos (by simpa using hne)]
  rfl

theorem words_dropWhile (s : List α) : words sep (s.dropWhile sep) = words sep s := by
  induction s with
  | nil => rfl
  | cons c s ih =>
    by_cases hc : sep c = true
    · rw [List.dropWhile_cons_of_pos hc, ih, words_sep hc]
    · rw [List.dropWhile_cons_of_neg hc]

/-- What a scanner takes is a word. -/
theorem not_sep_of_mem_takeWhile {d : α} (hd : d ∈ s.takeWhile fun c => !sep c) :
    sep d = false := by
  simpa using List.mem_takeWhile_imp hd

/-- What is left when separators are skipped does not begin with one. -/
theorem head?_dropWhile_sep (p : α → Bool) (s : List α) :
    ∀ d ∈ (s.dropWhile p).head?, p d = false := by
  intro d hd
  have h := List.head?_dropWhile_not p s
  rw [Option.mem_def.mp hd] at h
  exact h

/-- **One step of a scanner** that has skipped the separators: it takes the first word, and the
others are behind it. -/
theorem words_step (hs : s ≠ []) (hhead : ∀ d ∈ s.head?, sep d = false) :
    words sep s = (s.takeWhile fun c => !sep c) :: words sep (s.dropWhile fun c => !sep c) := by
  obtain ⟨d, t, rfl⟩ := List.exists_cons_of_ne_nil hs
  have hd : sep d = false := hhead d rfl
  have hne : ((d :: t).takeWhile fun c => !sep c) ≠ [] := by
    rw [List.takeWhile_cons_of_pos (by simpa using hd)]
    exact List.cons_ne_nil _ _
  have hsplit := List.takeWhile_append_dropWhile (p := fun c => !sep c) (l := d :: t)
  cases hrest : (d :: t).dropWhile fun c => !sep c with
  | nil =>
    rw [hrest, List.append_nil] at hsplit
    rw [words_nil, hsplit]
    exact words_word (fun e he => not_sep_of_mem_takeWhile (hsplit.symm ▸ he)) hs
  | cons c rest =>
    have hc : sep c = true := by
      have h := head?_dropWhile_sep (fun c => !sep c) (d :: t) c (by rw [hrest]; rfl)
      simpa using h
    rw [hrest] at hsplit
    rw [words_sep hc]
    conv_lhs => rw [← hsplit]
    exact words_append_sep (fun e he => not_sep_of_mem_takeWhile he) hne hc

/-- **One step of a scanner.** -/
theorem words_eq (s : List α) : words sep s =
    if s.dropWhile sep = [] then []
    else ((s.dropWhile sep).takeWhile fun c => !sep c) ::
      words sep ((s.dropWhile sep).dropWhile fun c => !sep c) := by
  rw [← words_dropWhile]
  split
  case isTrue hnil => rw [hnil, words_nil]
  case isFalse hne => exact words_step hne (head?_dropWhile_sep sep s)

end MiniWeb.Words
