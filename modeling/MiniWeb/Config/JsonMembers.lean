import MiniWeb.Config.JsonObjects
import MiniWeb.Lib.JsonText

/-!
# Looking up a key

What `json_find_key` answers for a JSON text: which strings it reads as they are meant, which values
it passes over, and so when it finds the first member with a name.
-/

namespace MiniWeb.Config

open CStr JsonText

variable {p q x key rest : CStr} {left right : UInt8} {us : List StringUnit} {m : Member}
  {ms : List Member} {n : Nat}

/-! ## Strings -/

/-- The bytes that `json_get_string` stores for a unit. -/
def storedUnit : StringUnit → CStr
  | .plain c => [c]
  | .short letter => [unescape letter]
  | .hex a b c d => [117, a, b, c, d]

def stored (us : List StringUnit) : CStr := us.flatMap storedUnit

theorem hexDigit_plain {c : UInt8} (h : isHexDigit c = true) : c ≠ 34 ∧ c ≠ 92 := by
  constructor
  · rintro rfl
    exact absurd h (by decide)
  · rintro rfl
    exact absurd h (by decide)

theorem readsAs_unit {u : StringUnit} (hu : u.isValid = true) : ReadsAs u.text (storedUnit u) := by
  cases u with
  | plain c =>
    rw [StringUnit.isValid, decide_eq_true_eq] at hu
    exact readsAs_plain hu.2.1 hu.2.2
  | short letter => exact readsAs_escape letter
  | hex a b c d =>
    simp only [StringUnit.isValid, Bool.and_eq_true] at hu
    have hdigits : ∀ x ∈ [a, b, c, d], isHexDigit x = true := by
      simpa [and_assoc] using hu
    have hread : ReadsAs ([a, b, c, d].flatMap fun x => [x]) [a, b, c, d] := by
      refine readsAs_bytes fun x hx => ?_
      exact readsAs_plain (hexDigit_plain (hdigits x hx)).1 (hexDigit_plain (hdigits x hx)).2
    exact (readsAs_escape 117).append hread

theorem jsonGetString_quoted (hus : ∀ u ∈ us, u.isValid = true) (hlen : (stored us).length < n)
    (rest : CStr) : jsonGetString (quoted us ++ rest) n = some (stored us, rest) := by
  have hopen : quoted us ++ rest = 34 :: (unitsText us ++ 34 :: rest) := by simp [quoted]
  have hreads : ReadsAs (unitsText us) (stored us) :=
    ReadsAs.flatMap fun u hu => readsAs_unit (hus u hu)
  rw [hopen]
  exact hreads.jsonGetString hlen rest

/-! ## Brackets -/

/-- No prefix closes more brackets than it opens, and all are closed. -/
structure BracketsMatch (left right : UInt8) (x : CStr) : Prop where
  opened : ∀ pre, pre <+: x → pre.count right ≤ pre.count left
  closed : x.count left = x.count right

theorem skipNested_count (hne : right ≠ left) (depth : Nat)
    (hopened : ∀ pre, pre <+: x → pre.count right ≤ depth + pre.count left) (rest : CStr) :
    skipNested left right (depth + 1) (x ++ rest) =
      skipNested left right (depth + 1 + x.count left - x.count right) rest := by
  induction x generalizing depth with
  | nil => rfl
  | cons c x ih =>
    have htail : ∀ pre, pre <+: x → (c :: pre).count right ≤ depth + (c :: pre).count left :=
      fun pre hpre => hopened (c :: pre) (List.cons_prefix_cons.mpr ⟨rfl, hpre⟩)
    rw [List.cons_append, skipNested]
    by_cases hleft : c = left
    · subst hleft
      have hcount : ∀ s : CStr, (c :: s).count c = s.count c + 1 ∧
          (c :: s).count right = s.count right := fun s =>
        ⟨List.count_cons_self, List.count_cons_of_ne (Ne.symm hne)⟩
      rw [if_pos rfl, ih (depth + 1) ?_, (hcount x).1, (hcount x).2]
      · congr 1
        omega
      · intro pre hpre
        have hle := htail pre hpre
        rw [(hcount pre).1, (hcount pre).2] at hle
        omega
    · rw [if_neg hleft]
      by_cases hright : c = right
      · subst hright
        have hcount : ∀ s : CStr, (c :: s).count c = s.count c + 1 ∧
            (c :: s).count left = s.count left := fun s =>
          ⟨List.count_cons_self, List.count_cons_of_ne hne⟩
        have hfirst := htail [] List.nil_prefix
        rw [(hcount []).1, (hcount []).2] at hfirst
        obtain ⟨less, rfl⟩ : ∃ less, depth = less + 1 := ⟨depth - 1, by simp at hfirst; omega⟩
        rw [if_pos rfl, ih less ?_, (hcount x).1, (hcount x).2]
        · congr 1
          omega
        · intro pre hpre
          have hle := htail pre hpre
          rw [(hcount pre).1, (hcount pre).2] at hle
          omega
      · have hcount : ∀ s : CStr, (c :: s).count left = s.count left ∧
            (c :: s).count right = s.count right := fun s =>
          ⟨List.count_cons_of_ne hleft, List.count_cons_of_ne hright⟩
        rw [if_neg hright, ih depth ?_, (hcount x).1, (hcount x).2]
        intro pre hpre
        have hle := htail pre hpre
        rwa [(hcount pre).1, (hcount pre).2] at hle

/-- A value whose brackets match is passed over. -/
theorem BracketsMatch.skip (h : BracketsMatch left right x) (hne : right ≠ left) (rest : CStr) :
    skipNested left right 1 (x ++ right :: rest) = rest := by
  have hopened : ∀ pre, pre <+: x → pre.count right ≤ 0 + pre.count left := by
    intro pre hpre
    rw [Nat.zero_add]
    exact h.opened pre hpre
  rw [skipNested_count hne 0 hopened, h.closed, Nat.add_sub_cancel, skipNested, if_neg hne,
    if_pos rfl, skipNested]

/-! ## Values -/

/-- What a value must be like to be passed over: a string short enough for the buffer, an array and
an object whose brackets match when those in strings are counted too. -/
structure Passable (v : CStr) : Prop where
  string : ∀ us, (∀ u ∈ us, u.isValid = true) → v = quoted us → (stored us).length < 256
  array : ∀ x, v = 91 :: (x ++ [93]) → BracketsMatch 91 93 x
  object : ∀ x, v = 123 :: (x ++ [125]) → BracketsMatch 123 125 x

theorem jsonSkipWs_gap {trail : CStr} {c : UInt8} (htrail : IsGap trail)
    (hc : c = 44 ∨ c = 125) : jsonSkipWs (trail ++ c :: rest) = c :: rest := by
  have hspace : isJsonSpace c = false := by
    rcases hc with rfl | rfl
    · decide
    · decide
  rw [jsonSkipWs_append htrail, jsonSkipWs_cons hspace]

/-- The loop over a number or a literal stops at the end of its line or behind the white space. -/
theorem jsonSkipWs_bare {trail : CStr} {c : UInt8} (htrail : IsGap trail)
    (hc : c = 44 ∨ c = 125) :
    jsonSkipWs ((trail ++ c :: rest).dropWhile fun d => d ≠ 44 ∧ d ≠ 125 ∧ d ≠ 10) =
      c :: rest := by
  induction trail with
  | nil =>
    have hstop : (c :: rest).dropWhile (fun d => d ≠ 44 ∧ d ≠ 125 ∧ d ≠ 10) = c :: rest := by
      rcases hc with rfl | rfl
      · rfl
      · rfl
    rw [List.nil_append, hstop]
    exact jsonSkipWs_gap (List.forall_mem_nil _) hc
  | cons d trail ih =>
    by_cases hline : d = 10
    · subst hline
      have hgap : jsonSkipWs (10 :: trail ++ c :: rest) = c :: rest := jsonSkipWs_gap htrail hc
      exact hgap
    · have hd := htrail d List.mem_cons_self
      have hgo : decide (d ≠ 44 ∧ d ≠ 125 ∧ d ≠ 10) = true := by
        refine decide_eq_true ⟨?_, ?_, hline⟩
        · rintro rfl
          exact absurd hd (by decide)
        · rintro rfl
          exact absurd hd (by decide)
      rw [List.cons_append,
        List.dropWhile_cons_of_pos (p := fun e => decide (e ≠ 44 ∧ e ≠ 125 ∧ e ≠ 10)) hgo]
      exact ih fun e he => htrail e (List.mem_cons_of_mem _ he)

theorem jsonSkipValue_bare {v trail : CStr} {c : UInt8} (hv : IsBare v) (htrail : IsGap trail)
    (hc : c = 44 ∨ c = 125) :
    jsonSkipWs (jsonSkipValue (v ++ (trail ++ c :: rest))) = c :: rest := by
  have hgo : ∀ d ∈ v, decide (d ≠ 44 ∧ d ≠ 125 ∧ d ≠ 10) = true := by
    intro d hd
    have hplain := hv.plain d hd
    refine decide_eq_true ⟨?_, ?_, ?_⟩
    · rintro rfl
      exact hplain (by decide)
    · rintro rfl
      exact hplain (by decide)
    · rintro rfl
      exact hplain (by decide)
  obtain ⟨d, more, rfl⟩ := List.exists_cons_of_ne_nil hv.ne_nil
  have hplain := hv.plain d List.mem_cons_self
  have hkind : d ≠ 34 ∧ d ≠ 123 ∧ d ≠ 91 := by
    refine ⟨?_, ?_, ?_⟩
    · rintro rfl
      exact hplain (by decide)
    · rintro rfl
      exact hplain (by decide)
    · rintro rfl
      exact hplain (by decide)
  have hskip : jsonSkipValue (d :: more ++ (trail ++ c :: rest)) =
      (d :: more ++ (trail ++ c :: rest)).dropWhile fun e => e ≠ 44 ∧ e ≠ 125 ∧ e ≠ 10 := by
    rw [List.cons_append, jsonSkipValue]
    simp only [if_neg hkind.1, if_neg hkind.2.1, if_neg hkind.2.2]
  rw [hskip, List.dropWhile_append_of_pos hgo]
  exact jsonSkipWs_bare htrail hc

/-- Behind a value comes the white space in front of a comma or of the closing brace. -/
theorem jsonSkipValue_value {v trail : CStr} {c : UInt8} (hv : IsValue v) (hpass : Passable v)
    (htrail : IsGap trail) (hc : c = 44 ∨ c = 125) :
    jsonSkipWs (jsonSkipValue (v ++ (trail ++ c :: rest))) = c :: rest := by
  cases hv with
  | @string us hus =>
    have hread := jsonGetString_quoted hus (hpass.string us hus rfl) (trail ++ c :: rest)
    have hskip : jsonSkipValue (quoted us ++ (trail ++ c :: rest)) = trail ++ c :: rest := by
      have hopen : quoted us ++ (trail ++ c :: rest) =
          34 :: (unitsText us ++ 34 :: (trail ++ c :: rest)) := by simp [quoted]
      rw [hopen] at hread ⊢
      rw [jsonSkipValue, if_pos rfl, hread]
      rfl
    rw [hskip]
    exact jsonSkipWs_gap htrail hc
  | number hs => exact jsonSkipValue_bare hs.bare htrail hc
  | literal hs => exact jsonSkipValue_bare (isBare_of_literal hs) htrail hc
  | @array gap es hgap hspaced hvalues =>
    have hmatch := hpass.array (separated gap (es.map Element.text)) rfl
    have hskip : jsonSkipValue (arrayOf gap es ++ (trail ++ c :: rest)) = trail ++ c :: rest := by
      rw [arrayOf, List.cons_append, List.append_assoc, List.singleton_append, jsonSkipValue]
      exact hmatch.skip (by decide) _
    rw [hskip]
    exact jsonSkipWs_gap htrail hc
  | @object gap ms hgap hspaced hvalues =>
    have hmatch := hpass.object (separated gap (ms.map Member.text)) rfl
    have hskip : jsonSkipValue (objectOf gap ms ++ (trail ++ c :: rest)) = trail ++ c :: rest := by
      rw [objectOf, List.cons_append, List.append_assoc, List.singleton_append, jsonSkipValue]
      exact hmatch.skip (by decide) _
    rw [hskip]
    exact jsonSkipWs_gap htrail hc

/-! ## Members -/

theorem value_starts {v : CStr} (hv : IsValue v) : ∃ c t, v = c :: t ∧ isJsonSpace c = false := by
  have hbare : IsBare v → ∃ c t, v = c :: t ∧ isJsonSpace c = false := by
    intro h
    obtain ⟨c, t, rfl⟩ := List.exists_cons_of_ne_nil h.ne_nil
    refine ⟨c, t, rfl, ?_⟩
    by_contra hspace
    rw [Bool.not_eq_false, isJsonSpace, decide_eq_true_eq] at hspace
    apply h.plain c List.mem_cons_self
    rcases hspace with rfl | rfl | rfl | rfl
    · decide
    · decide
    · decide
    · decide
  cases hv with
  | string hus => exact ⟨34, _, rfl, by decide⟩
  | number hs => exact hbare hs.bare
  | literal hs => exact hbare (isBare_of_literal hs)
  | array hgap hspaced hvalues => exact ⟨91, _, rfl, by decide⟩
  | object hgap hspaced hvalues => exact ⟨123, _, rfl, by decide⟩

/-- A member whose name fits the buffer is read as one. -/
theorem jsonMember_member (hm : m.Spaced) (hv : IsValue m.value)
    (hlen : (stored m.name).length < 128) (rest : CStr) :
    jsonMember (quoted m.name ++ (m.beforeColon ++ 58 :: (m.afterColon ++ (m.value ++ rest)))) =
      some (stored m.name, m.value ++ rest) := by
  obtain ⟨c, t, hvalue, hc⟩ := value_starts hv
  have hcolon : jsonSkipWs (m.beforeColon ++ 58 :: (m.afterColon ++ (m.value ++ rest))) =
      58 :: (m.afterColon ++ (m.value ++ rest)) := by
    rw [jsonSkipWs_append hm.beforeColon, jsonSkipWs_cons (by decide)]
  have hstart : jsonSkipWs (m.afterColon ++ (m.value ++ rest)) = m.value ++ rest := by
    rw [jsonSkipWs_append hm.afterColon, hvalue, List.cons_append, jsonSkipWs_cons hc]
  rw [jsonMember, jsonGetString_quoted hm.name hlen]
  simp only [hcolon, hstart]

theorem findMember_member (hm : m.Spaced) (hv : IsValue m.value)
    (hlen : (stored m.name).length < 128) (rest : CStr) :
    findMember key (m.text ++ rest) =
      if stored m.name = key then some (m.value ++ (m.trail ++ rest))
      else findMember key (jsonSkipValue (m.value ++ (m.trail ++ rest))) := by
  have htext : m.text ++ rest = m.lead ++ (quoted m.name ++
      (m.beforeColon ++ 58 :: (m.afterColon ++ (m.value ++ (m.trail ++ rest))))) := by
    simp [Member.text]
  have hmember := jsonMember_member hm hv hlen (m.trail ++ rest)
  obtain ⟨q, hq⟩ : ∃ q, quoted m.name ++
      (m.beforeColon ++ 58 :: (m.afterColon ++ (m.value ++ (m.trail ++ rest)))) = 34 :: q :=
    ⟨_, rfl⟩
  have hskip : jsonSkipWs (34 :: q) = 34 :: q := jsonSkipWs_cons (by decide)
  rw [hq] at hmember
  rw [htext, findMember_sep fun c hc => Or.inl (hm.lead c hc), hq,
    findMember_other (by simp [hskip]), hskip, hmember]
  simp

/-- The members behind one, and what follows the object. -/
def behind (ms : List Member) (rest : CStr) : CStr :=
  ms.flatMap (fun m => 44 :: m.text) ++ 125 :: rest

theorem behind_starts (ms : List Member) (rest : CStr) :
    ∃ c t, behind ms rest = c :: t ∧ (c = 44 ∨ c = 125) := by
  cases ms with
  | nil => exact ⟨125, rest, rfl, Or.inr rfl⟩
  | cons m ms => exact ⟨44, _, rfl, Or.inl rfl⟩

/-- The text from the first value whose member has the property. -/
def firstValue (named : Member → Bool) : List Member → CStr → Option CStr
  | [], _ => none
  | m :: ms, rest =>
    if named m then some (m.value ++ (m.trail ++ behind ms rest)) else firstValue named ms rest

def isRead (key : CStr) (m : Member) : Bool := stored m.name = key

def isNamed (key : CStr) (m : Member) : Bool := decode m.name = key

/-- Up to the first member that is read as the key, names fit their buffer and values are passed
over. -/
def StaysInStep (key : CStr) : List Member → Prop
  | [] => True
  | m :: ms => (stored m.name).length < 128 ∧
      (isRead key m = true ∨ Passable m.value ∧ StaysInStep key ms)

/-- The first member that is read as the key is the first one with the name. -/
def ReadsNames (key : CStr) : List Member → Prop
  | [] => True
  | m :: ms => isRead key m = isNamed key m ∧ (isRead key m = true ∨ ReadsNames key ms)

theorem findMember_behind (hms : ∀ m ∈ ms, m.Spaced ∧ IsValue m.value)
    (hstep : StaysInStep key ms) (rest : CStr) :
    findMember key (behind ms rest) = firstValue (isRead key) ms rest := by
  induction ms with
  | nil =>
    have hclose := findMember_close (List.forall_mem_nil _) key rest
    exact hclose
  | cons m ms ih =>
    obtain ⟨hspaced, hvalue⟩ := hms m List.mem_cons_self
    have htext : behind (m :: ms) rest = 44 :: (m.text ++ behind ms rest) := by simp [behind]
    rw [htext, findMember_comma (jsonSkipWs_cons (by decide)),
      findMember_member hspaced hvalue hstep.1, firstValue]
    by_cases hread : stored m.name = key
    · have hfound : isRead key m = true := decide_eq_true hread
      rw [if_pos hread, if_pos hfound]
    · have hother : ¬isRead key m = true := fun h => hread (of_decide_eq_true h)
      have hpass := hstep.2.resolve_left hother
      obtain ⟨c, t, hbehind, hc⟩ := behind_starts ms rest
      have hskip : jsonSkipWs (jsonSkipValue (m.value ++ (m.trail ++ c :: t))) = c :: t :=
        jsonSkipValue_value hvalue hpass.1 hspaced.trail hc
      rw [← hbehind] at hskip
      have hcongr : findMember key (jsonSkipValue (m.value ++ (m.trail ++ behind ms rest))) =
          findMember key (behind ms rest) := by
        apply findMember_congr
        rw [hskip, hbehind]
        exact (jsonSkipWs_gap (List.forall_mem_nil _) hc).symm
      rw [if_neg hread, if_neg hother, hcongr]
      exact ih (fun m' hm' => hms m' (List.mem_cons_of_mem _ hm')) hpass.2

/-! ## Texts -/

/-- The text of an object, with white space in front of it and anything behind. -/
structure LookupText where
  lead : CStr
  gap : CStr
  members : List Member
  rest : CStr
  lead_gap : IsGap lead
  gap_gap : IsGap gap
  spaced : ∀ m ∈ members, m.Spaced
  values : ∀ m ∈ members, IsValue m.value

def LookupText.text (t : LookupText) : CStr := t.lead ++ (objectOf t.gap t.members ++ t.rest)

/-- `json_find_key` answers the start of the value of the first member with the name, or `NULL`. -/
def LookupText.Finds (t : LookupText) (key : CStr) : Prop :=
  jsonFindKey t.text key = firstValue (isNamed key) t.members t.rest

/-- The first value is found by what is read, as long as the scan stays in step. -/
theorem jsonFindKey_text (t : LookupText) (hstep : StaysInStep key t.members) :
    jsonFindKey t.text key = firstValue (isRead key) t.members t.rest := by
  have hms : ∀ m ∈ t.members, m.Spaced ∧ IsValue m.value := fun m hm =>
    ⟨t.spaced m hm, t.values m hm⟩
  have hopen : ∀ q, jsonFindKey (t.lead ++ 123 :: q) key = findMember key q := by
    intro q
    have hskip : jsonSkipWs (t.lead ++ 123 :: q) = 123 :: q := by
      rw [jsonSkipWs_append t.lead_gap, jsonSkipWs_cons (by decide)]
    simp only [jsonFindKey, hskip]
  rw [← findMember_behind hms hstep t.rest]
  cases hmembers : t.members with
  | nil =>
    have htext : t.text = t.lead ++ 123 :: (t.gap ++ 125 :: t.rest) := by
      simp [LookupText.text, objectOf, separated, hmembers]
    have hclose := findMember_close t.gap_gap key t.rest
    have hnone := findMember_close (List.forall_mem_nil _) key t.rest
    rw [htext, hopen, hclose]
    exact hnone.symm
  | cons m ms =>
    have htext : t.text = t.lead ++ 123 :: (m.text ++ behind ms t.rest) := by
      simp [LookupText.text, objectOf, separated, behind, hmembers, List.flatMap_map]
    have hbehind : behind (m :: ms) t.rest = 44 :: (m.text ++ behind ms t.rest) := by
      simp [behind]
    rw [htext, hopen, hbehind]
    exact (findMember_comma (jsonSkipWs_cons (by decide))).symm

/-- The values of later members start later. -/
theorem length_firstValue {named : Member → Bool} {rest v : CStr}
    (h : firstValue named ms rest = some v) : v.length < (behind ms rest).length := by
  induction ms with
  | nil => cases h
  | cons m ms ih =>
    have hbehind : (behind (m :: ms) rest).length =
        m.text.length + 1 + (behind ms rest).length := by
      simp [behind]
      omega
    have htext : m.value.length + m.trail.length ≤ m.text.length := by
      simp [Member.text]
      omega
    rw [firstValue] at h
    by_cases hnamed : named m = true
    · rw [if_pos hnamed] at h
      cases h
      rw [hbehind, List.length_append, List.length_append]
      omega
    · rw [if_neg hnamed] at h
      have hlt := ih h
      omega

theorem firstValue_eq_iff (rest : CStr) :
    firstValue (isRead key) ms rest = firstValue (isNamed key) ms rest ↔ ReadsNames key ms := by
  induction ms with
  | nil => exact iff_of_true rfl trivial
  | cons m ms ih =>
    have hlater : ∀ {named : Member → Bool},
        firstValue named ms rest ≠ some (m.value ++ (m.trail ++ behind ms rest)) := by
      intro named heq
      have hlt := length_firstValue heq
      rw [List.length_append, List.length_append] at hlt
      omega
    rw [firstValue, firstValue, ReadsNames]
    cases hread : isRead key m with
    | true =>
      cases hnamed : isNamed key m with
      | true => simp
      | false => simpa using hlater.symm
    | false =>
      cases hnamed : isNamed key m with
      | true => simpa using hlater
      | false => simpa using ih

/-- While the scan stays in step, the first member with the name is found exactly when names are
read as they are meant up to it. -/
theorem finds_iff (t : LookupText) (key : CStr) (hstep : StaysInStep key t.members) :
    t.Finds key ↔ ReadsNames key t.members := by
  rw [LookupText.Finds, jsonFindKey_text t hstep]
  exact firstValue_eq_iff t.rest

def tightText (ms : List Member) (hspaced : ∀ m ∈ ms, m.Spaced)
    (hvalues : ∀ m ∈ ms, IsValue m.value) : LookupText where
  lead := []
  gap := []
  members := ms
  rest := []
  lead_gap := List.forall_mem_nil _
  gap_gap := List.forall_mem_nil _
  spaced := hspaced
  values := hvalues

theorem isValue_one : IsValue (ascii "1") := by
  refine .number ⟨[], ascii "1", [], [], rfl, Or.inl rfl, by decide, Or.inl rfl, Or.inl rfl⟩

theorem unit_valid {c : UInt8} (h : (StringUnit.plain c).isValid = true) :
    ∀ u ∈ [StringUnit.plain c], u.isValid = true := List.forall_mem_singleton.mpr h

/-- `"a":v,"b":1`. -/
def twoMembers (v : CStr) : List Member :=
  [tightMember [.plain 97] v, tightMember [.plain 98] (ascii "1")]

theorem twoMembers_spaced (v : CStr) : ∀ m ∈ twoMembers v, m.Spaced := by
  refine List.forall_mem_cons.mpr ⟨?_, List.forall_mem_singleton.mpr ?_⟩
  · exact tightMember_spaced (unit_valid (by decide)) v
  · exact tightMember_spaced (unit_valid (by decide)) (ascii "1")

theorem twoMembers_values {v : CStr} (hv : IsValue v) : ∀ m ∈ twoMembers v, IsValue m.value :=
  List.forall_mem_cons.mpr ⟨hv, List.forall_mem_singleton.mpr isValue_one⟩

def twoText (v : CStr) (hv : IsValue v) : LookupText :=
  tightText (twoMembers v) (twoMembers_spaced v) (twoMembers_values hv)

/-- `{"b":{"b":"x"}}`. -/
def nestedValue : CStr :=
  objectOf []
    [tightMember [.plain 98] (objectOf [] [tightMember [.plain 98] (quoted [.plain 120])])]

theorem isValue_nestedValue : IsValue nestedValue := by
  have hname : ∀ u ∈ [StringUnit.plain 98], u.isValid = true := unit_valid (by decide)
  have hinner : IsValue (objectOf [] [tightMember [.plain 98] (quoted [.plain 120])]) := by
    refine .object (List.forall_mem_nil _) ?_ ?_
    · exact List.forall_mem_singleton.mpr (tightMember_spaced hname _)
    · exact List.forall_mem_singleton.mpr (.string (unit_valid (by decide)))
  refine .object (List.forall_mem_nil _) ?_ ?_
  · exact List.forall_mem_singleton.mpr (tightMember_spaced hname _)
  · exact List.forall_mem_singleton.mpr hinner

theorem passable_nestedValue : Passable nestedValue := by
  constructor
  · intro us _ heq
    cases heq
  · intro x heq
    cases heq
  · intro x heq
    obtain rfl : x = ascii "\"b\":\x7b\"b\":\"x\"\x7d" :=
      List.append_cancel_right (List.cons.inj heq).2.symm
    refine ⟨fun pre hpre => ?_, by decide⟩
    have hall : ∀ pre ∈ (ascii "\"b\":\x7b\"b\":\"x\"\x7d").inits,
        pre.count 125 ≤ pre.count 123 := by decide
    exact hall pre ((List.mem_inits _ _).mpr hpre)

/-- The second member is found behind an object with a member of the same name. -/
theorem finds_iff_nested : (twoText nestedValue isValue_nestedValue).Finds (ascii "b") := by
  have hshort : ∀ c : UInt8, (stored [.plain c]).length < 128 := fun c => Nat.lt_of_sub_eq_succ rfl
  have hstep : StaysInStep (ascii "b") (twoMembers nestedValue) :=
    ⟨hshort 97, Or.inr ⟨passable_nestedValue, hshort 98, Or.inl rfl⟩⟩
  refine (finds_iff (twoText nestedValue isValue_nestedValue) (ascii "b") hstep).mpr ?_
  exact ⟨by decide, Or.inr ⟨by decide, Or.inl (by decide)⟩⟩

/-- `["]"]`. -/
def closingString : CStr := arrayOf [] [⟨[], quoted [.plain 93], []⟩]

theorem isValue_closingString : IsValue closingString := by
  refine .array (List.forall_mem_nil _) ?_ ?_
  · exact List.forall_mem_singleton.mpr ⟨List.forall_mem_nil _, List.forall_mem_nil _⟩
  · exact List.forall_mem_singleton.mpr (.string (unit_valid (by decide)))

/-- Behind a bracket in a string the second member is not found. -/
theorem closingString_hides : ¬(twoText closingString isValue_closingString).Finds (ascii "b") := by
  rw [LookupText.Finds]
  decide +kernel

end MiniWeb.Config
