import MiniWeb.Lib.CText
import MiniWeb.UserStore.Store

/-!
# The members of a CSV line

`parse_csv_line` takes a line apart with `strtok`, which sees a run of commas as one. The tokens
are the nonempty fields, so a field stays in its place exactly as long as no field before it is
empty.
-/

namespace MiniWeb.UserStore

open CStr

/-- The fields of a line: what stands between its commas. -/
def csvFields (line : CStr) : List CStr := line.splitOn 44

/-- The tokens are the fields that are not empty. -/
theorem strtok_eq (line : CStr) : strtok 44 line = (csvFields line).filter (· ≠ []) :=
  strtok_eq_filter ..

/-- Member `i` of `ElemType`, counted from 0. -/
def ElemType.member (elem : ElemType) : Nat → CStr
  | 0 => elem.name
  | 1 => elem.password
  | 2 => elem.birthdate
  | 3 => elem.phone
  | 4 => elem.mobile
  | 5 => elem.email
  | _ => []

/-- `sizeof` of member `i`. -/
def memberSize : Nat → Nat
  | 0 => 64
  | 1 => 64
  | 2 => 16
  | 3 => 32
  | 4 => 32
  | 5 => 64
  | _ => 1

theorem member_zero (i : Nat) : ElemType.zero.member i = [] := by
  unfold ElemType.member
  split <;> rfl

theorem member_setField (elem : ElemType) (field i : Nat) (token : CStr) :
    (setField elem field token).member i =
      if i = field then cut (memberSize i) token else elem.member i := by
  by_cases h : i = field
  · rw [if_pos h, h]
    match field with
    | 0 | 1 | 2 | 3 | 4 | 5 => rfl
    | _ + 6 => rfl
  · rw [if_neg h]
    match field with
    | 0 | 1 | 2 | 3 | 4 | 5 =>
      match i with
      | 0 | 1 | 2 | 3 | 4 | 5 => first | rfl | exact absurd rfl h
      | _ + 6 => rfl
    | _ + 6 => rfl

/-- The loop of `parse_csv_line` from token number `n` on. -/
theorem member_setFields (tokens : List CStr) (n i : Nat) (elem : ElemType) :
    ((tokens.zipIdx n).foldl (fun elem tf => setField elem tf.2 tf.1) elem).member i =
      if n ≤ i ∧ i < n + tokens.length then cut (memberSize i) (tokens.getD (i - n) [])
      else elem.member i := by
  induction tokens generalizing n elem with
  | nil =>
    rw [if_neg (by simp)]
    rfl
  | cons token tokens ih =>
    rw [List.zipIdx_cons, List.foldl_cons, ih, member_setField, List.length_cons]
    by_cases hi : i = n
    · rw [if_neg (by omega), if_pos hi, if_pos (by omega), hi, Nat.sub_self]
      rfl
    · rw [if_neg hi]
      by_cases hin : n + 1 ≤ i ∧ i < n + 1 + tokens.length
      · obtain ⟨k, hk⟩ : ∃ k, i - n = k + 1 := ⟨i - n - 1, by omega⟩
        have hk' : i - (n + 1) = k := by omega
        rw [if_pos hin, if_pos (by omega), hk, hk']
        rfl
      · rw [if_neg hin, if_neg (by omega)]

/-- The record of a line: member `i` holds token `i`. -/
theorem parseCsvLine_eq (line : CStr) :
    (parseCsvLine line = none ∧ (strtok 44 line).length < 3) ∨
      ∃ elem, parseCsvLine line = some elem ∧ 3 ≤ (strtok 44 line).length ∧
        ∀ i, elem.member i = cut (memberSize i) ((strtok 44 line).getD i []) := by
  rw [parseCsvLine]
  by_cases hlen : (strtok 44 line).length < 3
  · exact Or.inl ⟨if_pos hlen, hlen⟩
  · refine Or.inr ⟨_, if_neg hlen, by omega, ?_⟩
    intro i
    rw [member_setFields, member_zero, Nat.zero_add, Nat.sub_zero]
    by_cases hi : i < (strtok 44 line).length
    · rw [if_pos ⟨Nat.zero_le i, hi⟩]
    · rw [if_neg (by omega), List.getD_eq_getElem?_getD, List.getElem?_eq_none (by omega)]
      exact List.take_nil.symm

/-! ## Fields in their places -/

/-- Members and fields are in the same order, and a member without a field is empty. -/
def InPlace (line : CStr) (elem : ElemType) : Prop :=
  ∀ i < 6, elem.member i = cut (memberSize i) ((csvFields line).getD i [])

/-- The first three fields are not empty, and only empty fields follow an empty one of the first
six. -/
def Filled (line : CStr) : Prop :=
  (∀ i < 3, (csvFields line).getD i [] ≠ []) ∧
    ∀ i < 6, (csvFields line).getD i [] = [] → ∀ j, i < j → (csvFields line).getD j [] = []

theorem cut_memberSize_eq_nil {i : Nat} (hi : i < 6) {s : CStr} :
    cut (memberSize i) s = [] ↔ s = [] := by
  have hsize : memberSize i - 1 ≠ 0 := by
    match i with
    | 0 | 1 | 2 | 3 | 4 | 5 => decide
  rw [cut, List.take_eq_nil_iff, or_iff_right hsize]

/-- The fields before the first empty one are the first tokens. Behind them there is another token
unless all further fields are empty. -/
theorem leading_tokens (fields : List CStr) :
    let tokens := fields.filter (· ≠ [])
    ∃ m, fields.getD m [] = [] ∧
      (∀ i < m, fields.getD i [] ≠ [] ∧ tokens.getD i [] = fields.getD i []) ∧
      ((tokens.length = m ∧ ∀ j, m ≤ j → fields.getD j [] = []) ∨
        tokens.getD m [] ≠ [] ∧ ∃ j, m < j ∧ fields.getD j [] ≠ []) := by
  induction fields with
  | nil => exact ⟨0, rfl, fun i hi => absurd hi (Nat.not_lt_zero i), Or.inl ⟨rfl, fun _ _ => rfl⟩⟩
  | cons f fields ih =>
    by_cases hf : f = []
    · refine ⟨0, hf, fun i hi => absurd hi (Nat.not_lt_zero i), ?_⟩
      rw [List.filter_cons_of_neg (by simpa using hf)]
      cases htokens : fields.filter (· ≠ []) with
      | nil =>
        refine Or.inl ⟨rfl, fun j _ => ?_⟩
        rw [List.filter_eq_nil_iff] at htokens
        cases j with
        | zero => exact hf
        | succ j =>
          rw [List.getD_cons_succ, List.getD_eq_getElem?_getD]
          cases hj : fields[j]? with
          | none => rfl
          | some g => simpa using htokens g (List.mem_of_getElem? hj)
      | cons g tokens =>
        have hg : g ∈ fields.filter (· ≠ []) := htokens ▸ List.mem_cons_self
        have hne : g ≠ [] := by simpa using (List.mem_filter.mp hg).2
        obtain ⟨j, hj⟩ := List.mem_iff_getElem?.mp (List.mem_filter.mp hg).1
        refine Or.inr ⟨hne, j + 1, Nat.succ_pos j, ?_⟩
        rw [List.getD_cons_succ, List.getD_eq_getElem?_getD, hj]
        exact hne
    · obtain ⟨m, hm, hlead, hrest⟩ := ih
      rw [List.filter_cons_of_pos (by simpa using hf)]
      refine ⟨m + 1, hm, fun i hi => ?_, ?_⟩
      · cases i with
        | zero => exact ⟨hf, rfl⟩
        | succ i => exact hlead i (by omega)
      · rcases hrest with ⟨hlen, hnil⟩ | ⟨hne, j, hmj, hj⟩
        · refine Or.inl ⟨by rw [List.length_cons, hlen], fun j hj => ?_⟩
          obtain ⟨j, rfl⟩ : ∃ k, j = k + 1 := ⟨j - 1, by omega⟩
          exact hnil j (by omega)
        · exact Or.inr ⟨hne, j + 1, Nat.succ_lt_succ hmj, hj⟩

theorem lt_of_getD_ne {fields : List CStr} {i : Nat} (h : fields.getD i [] ≠ []) :
    i < fields.length := by
  by_contra hlt
  rw [List.getD_eq_getElem?_getD, List.getElem?_eq_none (by omega)] at h
  exact h rfl

/-- **Fields keep their places** exactly if the first three are not empty and none of the first
six is skipped. -/
theorem parseCsvLine_inPlace_iff (line : CStr) :
    (∃ elem, parseCsvLine line = some elem ∧ InPlace line elem) ↔ Filled line := by
  obtain ⟨m, hm, hlead, hrest⟩ := leading_tokens (csvFields line)
  rw [← strtok_eq] at hlead hrest
  constructor
  · rintro ⟨elem, hparse, hplace⟩
    rcases parseCsvLine_eq line with ⟨hnone, -⟩ | ⟨elem', hsome, hlen, hmem⟩
    · rw [hnone] at hparse
      cases hparse
    obtain rfl := Option.some.inj (hsome.symm.trans hparse)
    -- where the fields have a gap, the tokens have ended
    have hend : m < 6 → (strtok 44 line).length = m ∧
        ∀ j, m ≤ j → (csvFields line).getD j [] = [] := by
      intro hm6
      rcases hrest with hend | ⟨hne, -⟩
      · exact hend
      · have hcut := (hmem m).symm.trans (hplace m hm6)
        rw [hm, (cut_memberSize_eq_nil hm6).mpr rfl, cut_memberSize_eq_nil hm6] at hcut
        exact absurd hcut hne
    have hm3 : 3 ≤ m := by
      by_contra hlt
      have := (hend (by omega)).1
      omega
    refine ⟨fun i hi => (hlead i (by omega)).1, fun i hi hnil j hij => ?_⟩
    have hmi : m ≤ i := by
      by_contra hlt
      exact (hlead i (by omega)).1 hnil
    exact (hend (by omega)).2 j (by omega)
  · rintro ⟨hthree, hskip⟩
    have hm3 : 3 ≤ m := by
      by_contra hlt
      exact hthree m (by omega) hm
    have hlen : 3 ≤ (strtok 44 line).length := by
      have hlt : 2 < (strtok 44 line).length := by
        apply lt_of_getD_ne
        rw [(hlead 2 (by omega)).2]
        exact (hlead 2 (by omega)).1
      omega
    rcases parseCsvLine_eq line with ⟨-, hshort⟩ | ⟨elem, hsome, -, hmem⟩
    · omega
    refine ⟨elem, hsome, fun i hi => ?_⟩
    rw [hmem]
    by_cases him : i < m
    · rw [(hlead i him).2]
    rcases hrest with ⟨hT, hnil⟩ | ⟨-, j, hmj, hj⟩
    · rw [hnil i (by omega), List.getD_eq_getElem?_getD, List.getElem?_eq_none (by omega)]
      rfl
    · exact absurd (hskip m (by omega) hm j hmj) hj

/-- A record without a password. -/
def noPassword : CStr := ascii "bob,,1990-01-01,5550100"

/-- The date of birth becomes the password. -/
theorem noPassword_shifted :
    3 ≤ (csvFields noPassword).length ∧ (csvFields noPassword).headD [] ≠ [] ∧
      (parseCsvLine noPassword).map ElemType.password = some (ascii "1990-01-01") ∧
      ¬∃ elem, parseCsvLine noPassword = some elem ∧ InPlace noPassword elem := by
  refine ⟨by decide, by decide, by decide, ?_⟩
  rw [parseCsvLine_inPlace_iff]
  rintro ⟨hthree, -⟩
  exact hthree 1 (by decide) rfl

end MiniWeb.UserStore
