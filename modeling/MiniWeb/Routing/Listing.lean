import MiniWeb.Routing.Table

/-!
# The text of the Allow header

`build_allow_for_path` writes each method it has not noted, and notes the first sixteen. A list
of methods is read back from the text when the methods are tokens.
-/

namespace MiniWeb.Routing

open CStr

/-! ## What is written -/

def addMethod (buf method : CStr) : CStr :=
  if buf = [] then method else buf ++ ascii ", " ++ method

/-- The text that lists the methods, each after a comma and a blank. -/
def listing (methods : List CStr) : CStr := methods.foldl addMethod []

/-- The methods that are written, when `seen` have been noted. -/
def written : List CStr → List CStr → List CStr
  | [], _ => []
  | method :: methods, seen =>
    if method ∈ seen then written methods seen
    else method :: written methods (if seen.length < 16 then seen ++ [method] else seen)

theorem length_le_addMethod (buf method : CStr) : buf.length ≤ (addMethod buf method).length := by
  unfold addMethod
  split
  next h =>
    rw [h]
    exact Nat.zero_le _
  next =>
    rw [List.length_append, List.length_append]
    omega

theorem length_le_foldl_addMethod (methods : List CStr) (buf : CStr) :
    buf.length ≤ (methods.foldl addMethod buf).length := by
  induction methods generalizing buf with
  | nil => exact Nat.le_refl _
  | cons method methods ih => exact (length_le_addMethod buf method).trans (ih _)

/-- The buffer holds the whole list if it fits. -/
theorem writeAllow_eq {bufsize : Nat} (methods seen : List CStr) (buf : CStr)
    (hfits : ((written methods seen).foldl addMethod buf).length < bufsize) :
    writeAllow bufsize methods seen buf = (written methods seen).foldl addMethod buf := by
  induction methods generalizing seen buf with
  | nil => rfl
  | cons method methods ih =>
    by_cases hseen : method ∈ seen
    · rw [written, if_pos hseen] at hfits ⊢
      rw [writeAllow, if_pos hseen]
      exact ih seen buf hfits
    · rw [written, if_neg hseen, List.foldl_cons] at hfits ⊢
      rw [writeAllow, if_neg hseen]
      have hle := length_le_foldl_addMethod
        (written methods (if seen.length < 16 then seen ++ [method] else seen))
        (addMethod buf method)
      have hshort : ¬ bufsize ≤ (addMethod buf method).length := by omega
      have hstep := ih _ _ hfits
      simp only [addMethod] at hshort hstep ⊢
      rw [if_neg hshort, hstep]

theorem mem_written {m : CStr} (methods seen : List CStr) :
    m ∈ written methods seen ↔ m ∈ methods ∧ m ∉ seen := by
  induction methods generalizing seen with
  | nil => simp [written]
  | cons method methods ih =>
    by_cases hseen : method ∈ seen
    · rw [written, if_pos hseen, ih, List.mem_cons]
      constructor
      · rintro ⟨hm, hm'⟩
        exact ⟨.inr hm, hm'⟩
      · rintro ⟨rfl | hm, hm'⟩
        · exact absurd hseen hm'
        · exact ⟨hm, hm'⟩
    · rw [written, if_neg hseen, List.mem_cons, ih, List.mem_cons]
      by_cases heq : m = method
      · rw [heq]
        simp [hseen]
      · split <;> simp [heq]

/-! ## Each method once -/

/-- The first sixteen different methods, after those of `seen`. -/
def firstSixteen : List CStr → List CStr → List CStr
  | [], seen => seen
  | method :: methods, seen =>
    if method ∈ seen then firstSixteen methods seen
    else firstSixteen methods (if seen.length < 16 then seen ++ [method] else seen)

/-- No method but the first sixteen different ones comes twice. -/
def WrittenOnce (methods : List CStr) : Prop :=
  ∀ m ∈ methods, m ∉ firstSixteen methods [] → methods.count m = 1

theorem subset_firstSixteen {m : CStr} (methods seen : List CStr) (h : m ∈ seen) :
    m ∈ firstSixteen methods seen := by
  induction methods generalizing seen with
  | nil => exact h
  | cons method methods ih =>
    rw [firstSixteen]
    split
    · exact ih seen h
    · split
      · exact ih _ (List.mem_append_left _ h)
      · exact ih seen h

theorem firstSixteen_full (methods seen : List CStr) (h : 16 ≤ seen.length) :
    firstSixteen methods seen = seen := by
  induction methods with
  | nil => rfl
  | cons method methods ih =>
    rw [firstSixteen]
    split
    · exact ih
    · rw [if_neg (by omega)]
      exact ih

theorem nodup_written_iff (methods seen : List CStr) :
    (written methods seen).Nodup ↔
      ∀ m ∈ methods, m ∉ firstSixteen methods seen → methods.count m = 1 := by
  induction methods generalizing seen with
  | nil => simp [written]
  | cons method methods ih =>
    by_cases hseen : method ∈ seen
    · rw [written, if_pos hseen, firstSixteen, if_pos hseen, ih]
      have hin := subset_firstSixteen methods seen hseen
      constructor
      · intro h m hm hout
        have hne : method ≠ m := by
          rintro rfl
          exact hout hin
        rw [List.count_cons_of_ne hne]
        rcases List.mem_cons.mp hm with heq | hm
        · exact absurd heq.symm hne
        · exact h m hm hout
      · intro h m hm hout
        have hne : method ≠ m := by
          rintro rfl
          exact hout hin
        rw [← List.count_cons_of_ne hne]
        exact h m (List.mem_cons_of_mem _ hm) hout
    · rw [written, if_neg hseen, firstSixteen, if_neg hseen, List.nodup_cons, mem_written, ih]
      by_cases hlen : seen.length < 16
      · -- the method is noted, so it is not written again
        rw [if_pos hlen]
        have hin := subset_firstSixteen methods (seen ++ [method]) (m := method) (by simp)
        constructor
        · rintro ⟨-, h⟩ m hm hout
          have hne : method ≠ m := by
            rintro rfl
            exact hout hin
          rw [List.count_cons_of_ne hne]
          rcases List.mem_cons.mp hm with heq | hm
          · exact absurd heq.symm hne
          · exact h m hm hout
        · intro h
          refine ⟨by simp, fun m hm hout => ?_⟩
          have hne : method ≠ m := by
            rintro rfl
            exact hout hin
          rw [← List.count_cons_of_ne hne]
          exact h m (List.mem_cons_of_mem _ hm) hout
      · -- the method is not noted, so it must not come again
        rw [if_neg hlen, firstSixteen_full methods seen (by omega)]
        constructor
        · rintro ⟨hnew, h⟩ m hm hout
          have hnot : method ∉ methods := fun hmem => hnew ⟨hmem, hseen⟩
          by_cases heq : method = m
          · rw [← heq, List.count_cons_self, List.count_eq_zero.mpr hnot]
          · rw [List.count_cons_of_ne heq]
            rcases List.mem_cons.mp hm with heq' | hm
            · exact absurd heq'.symm heq
            · exact h m hm hout
        · intro h
          have hnot : method ∉ methods := by
            have hone := h method List.mem_cons_self hseen
            rw [List.count_cons_self] at hone
            apply List.count_eq_zero.mp
            omega
          refine ⟨fun hnew => hnot hnew.1, fun m hm hout => ?_⟩
          have hne : method ≠ m := by
            rintro rfl
            exact hnot hm
          rw [← List.count_cons_of_ne hne]
          exact h m (List.mem_cons_of_mem _ hm) hout

/-! ## Reading the list back -/

/-- A method as a request line can have it. -/
def IsToken (method : CStr) : Prop := method ≠ [] ∧ (32 : UInt8) ∉ method

theorem listing_concat (methods : List CStr) (method : CStr) :
    listing (methods ++ [method]) = addMethod (listing methods) method := by
  rw [listing, List.foldl_append]
  rfl

theorem listing_eq_nil {methods : List CStr} (h : ∀ m ∈ methods, IsToken m) :
    listing methods = [] ↔ methods = [] := by
  constructor
  · intro hnil
    rcases List.eq_nil_or_concat methods with rfl | ⟨init, last, rfl⟩
    · rfl
    · have hlast : last ≠ [] := (h last (by simp)).1
      rw [List.concat_eq_append, listing_concat, addMethod] at hnil
      split at hnil
      · exact absurd hnil hlast
      · simp [hlast] at hnil
  · rintro rfl
    rfl

/-- The text after the last blank, when it has none itself. -/
theorem append_blank_inj {s s' m m' : CStr} (hm : (32 : UInt8) ∉ m) (hm' : (32 : UInt8) ∉ m')
    (h : s ++ 32 :: m = s' ++ 32 :: m') : s = s' ∧ m = m' := by
  rcases List.append_eq_append_iff.mp h with ⟨c, rfl, hc⟩ | ⟨c, rfl, hc⟩
  · cases c with
    | nil => exact ⟨by simp, by simpa using hc⟩
    | cons b c =>
      injection hc with hb hc
      exact absurd (hc ▸ (by simp)) hm
  · cases c with
    | nil => exact ⟨by simp, by simpa using hc.symm⟩
    | cons b c =>
      injection hc with hb hc
      exact absurd (hc ▸ (by simp)) hm'

theorem addMethod_of_ne {buf : CStr} (h : buf ≠ []) (method : CStr) :
    addMethod buf method = (buf ++ [44]) ++ 32 :: method := by
  rw [addMethod, if_neg h]
  simp [ascii]

theorem listing_inj {l l' : List CStr} (hl : ∀ m ∈ l, IsToken m) (hl' : ∀ m ∈ l', IsToken m)
    (h : listing l = listing l') : l = l' := by
  induction l using List.reverseRecOn generalizing l' with
  | nil => exact ((listing_eq_nil hl').mp h.symm).symm
  | append_singleton l m ih =>
    rcases List.eq_nil_or_concat l' with rfl | ⟨l', m', rfl⟩
    · exact (listing_eq_nil hl).mp h
    · rw [List.concat_eq_append] at h hl' ⊢
      have hinit : ∀ a ∈ l, IsToken a := fun a ha => hl a (List.mem_append_left _ ha)
      have hinit' : ∀ a ∈ l', IsToken a := fun a ha => hl' a (List.mem_append_left _ ha)
      have hm : (32 : UInt8) ∉ m := (hl m (by simp)).2
      have hm' : (32 : UInt8) ∉ m' := (hl' m' (by simp)).2
      rw [listing_concat, listing_concat] at h
      by_cases hnil : listing l = []
      · by_cases hnil' : listing l' = []
        · rw [(listing_eq_nil hinit).mp hnil, (listing_eq_nil hinit').mp hnil']
          rw [hnil, hnil'] at h
          exact congrArg _ (congrArg (· :: []) h)
        · rw [hnil, addMethod_of_ne hnil', addMethod, if_pos rfl] at h
          exact absurd (h ▸ (by simp)) hm
      · by_cases hnil' : listing l' = []
        · rw [hnil', addMethod_of_ne hnil, addMethod, if_pos rfl] at h
          exact absurd (h ▸ (by simp)) hm'
        · rw [addMethod_of_ne hnil, addMethod_of_ne hnil'] at h
          obtain ⟨hbuf, rfl⟩ := append_blank_inj hm hm' h
          rw [ih hinit hinit' (List.append_cancel_right hbuf)]

end MiniWeb.Routing
