import MiniWeb.Lib.CString

/-!
# JSON texts

The grammar of JSON over bytes: strings with their escapes, numbers, literals, and arrays and
objects with any white space between the tokens. A string is the list of its units, which say both
how it is written and which bytes it stands for.
-/

namespace MiniWeb.JsonText

open CStr

/-! ## White space -/

def isGap (c : UInt8) : Bool := c = 32 ∨ c = 9 ∨ c = 10 ∨ c = 13

def IsGap (s : CStr) : Prop := ∀ c ∈ s, isGap c = true

/-! ## Strings -/

/-- One byte as it is, an escape with a letter, or one with four hexadecimal digits. -/
inductive StringUnit
  | plain (c : UInt8)
  | short (letter : UInt8)
  | hex (a b c d : UInt8)
deriving DecidableEq, Repr

def isHexDigit (c : UInt8) : Bool := 48 ≤ c ∧ c ≤ 57 ∨ 65 ≤ c ∧ c ≤ 70 ∨ 97 ≤ c ∧ c ≤ 102

/-- The letters that may stand behind a backslash. -/
def escapeLetters : List UInt8 := [34, 92, 47, 98, 102, 110, 114, 116]

def StringUnit.isValid : StringUnit → Bool
  | .plain c => 32 ≤ c ∧ c ≠ 34 ∧ c ≠ 92
  | .short letter => letter ∈ escapeLetters
  | .hex a b c d => isHexDigit a && isHexDigit b && isHexDigit c && isHexDigit d

def StringUnit.text : StringUnit → CStr
  | .plain c => [c]
  | .short letter => [92, letter]
  | .hex a b c d => [92, 117, a, b, c, d]

def unitsText (us : List StringUnit) : CStr := us.flatMap StringUnit.text

/-- A string in quotes. -/
def quoted (us : List StringUnit) : CStr := 34 :: (unitsText us ++ [34])

/-! ### What a string stands for -/

def hexValue (c : UInt8) : Nat :=
  if c ≤ 57 then c.toNat - 48 else if c ≤ 70 then c.toNat - 55 else c.toNat - 87

def codeUnit (a b c d : UInt8) : Nat :=
  4096 * hexValue a + 256 * hexValue b + 16 * hexValue c + hexValue d

/-- The bytes of a code point. -/
def utf8 (n : Nat) : CStr :=
  if n < 128 then [n.toUInt8]
  else if n < 2048 then [(192 + n / 64).toUInt8, (128 + n % 64).toUInt8]
  else if n < 65536 then
    [(224 + n / 4096).toUInt8, (128 + n / 64 % 64).toUInt8, (128 + n % 64).toUInt8]
  else
    [(240 + n / 262144).toUInt8, (128 + n / 4096 % 64).toUInt8, (128 + n / 64 % 64).toUInt8,
      (128 + n % 64).toUInt8]

def isHighSurrogate (n : Nat) : Bool := 55296 ≤ n ∧ n < 56320
def isLowSurrogate (n : Nat) : Bool := 56320 ≤ n ∧ n < 57344

/-- The byte for the letter of an escape. -/
def escapeByte (letter : UInt8) : UInt8 :=
  if letter = 98 then 8
  else if letter = 102 then 12
  else if letter = 110 then 10
  else if letter = 114 then 13
  else if letter = 116 then 9
  else letter

def StringUnit.bytes : StringUnit → CStr
  | .plain c => [c]
  | .short letter => [escapeByte letter]
  | .hex a b c d => utf8 (codeUnit a b c d)

/-- The bytes that a string stands for. Two surrogates in a row are one code point. -/
def decode : List StringUnit → CStr
  | [] => []
  | [u] => u.bytes
  | u :: u' :: us =>
    match u, u' with
    | .hex a b c d, .hex a' b' c' d' =>
      let high := codeUnit a b c d
      let low := codeUnit a' b' c' d'
      if isHighSurrogate high && isLowSurrogate low then
        utf8 (65536 + 1024 * (high - 55296) + (low - 56320)) ++ decode us
      else u.bytes ++ decode (u' :: us)
    | _, _ => u.bytes ++ decode (u' :: us)

/-! ## Numbers and literals -/

def isDigits (s : CStr) : Bool := s ≠ [] && s.all fun c => 48 ≤ c ∧ c ≤ 57

/-- No leading zeros. -/
def isInteger (s : CStr) : Bool := isDigits s && (s.head? ≠ some 48 || s.length = 1)

/-- Nothing, or a point and digits. -/
def IsFraction (s : CStr) : Prop := s = [] ∨ ∃ ds, isDigits ds = true ∧ s = 46 :: ds

/-- Nothing, or the letter, a sign or none, and digits. -/
def IsExponent (s : CStr) : Prop :=
  s = [] ∨ ∃ e sign ds, (e = 101 ∨ e = 69) ∧ (sign = [] ∨ sign = [43] ∨ sign = [45]) ∧
    isDigits ds = true ∧ s = e :: (sign ++ ds)

def IsNumber (s : CStr) : Prop :=
  ∃ sign int frac exp, s = sign ++ int ++ frac ++ exp ∧ (sign = [] ∨ sign = [45]) ∧
    isInteger int = true ∧ IsFraction frac ∧ IsExponent exp

def literals : List CStr := [ascii "true", ascii "false", ascii "null"]

/-! ## Values -/

/-- A value of an array, with the white space around it. -/
structure Element where
  lead : CStr
  value : CStr
  trail : CStr
deriving DecidableEq, Repr

/-- A name and a value of an object, with the white space around them. -/
structure Member where
  lead : CStr
  name : List StringUnit
  beforeColon : CStr
  afterColon : CStr
  value : CStr
  trail : CStr
deriving DecidableEq, Repr

def Element.text (e : Element) : CStr := e.lead ++ e.value ++ e.trail

def Member.text (m : Member) : CStr :=
  m.lead ++ quoted m.name ++ m.beforeColon ++ 58 :: (m.afterColon ++ m.value ++ m.trail)

structure Element.Spaced (e : Element) : Prop where
  lead : IsGap e.lead
  trail : IsGap e.trail

/-- The name is a string and there is nothing but white space around the tokens. -/
structure Member.Spaced (m : Member) : Prop where
  lead : IsGap m.lead
  name : ∀ u ∈ m.name, u.isValid = true
  beforeColon : IsGap m.beforeColon
  afterColon : IsGap m.afterColon
  trail : IsGap m.trail

/-- Texts with a comma between each two, or white space if there are none. -/
def separated (gap : CStr) : List CStr → CStr
  | [] => gap
  | s :: ss => s ++ ss.flatMap (44 :: ·)

def arrayOf (gap : CStr) (es : List Element) : CStr :=
  91 :: (separated gap (es.map Element.text) ++ [93])

def objectOf (gap : CStr) (ms : List Member) : CStr :=
  123 :: (separated gap (ms.map Member.text) ++ [125])

inductive IsValue : CStr → Prop
  | string {us : List StringUnit} (hus : ∀ u ∈ us, u.isValid = true) : IsValue (quoted us)
  | number {s : CStr} (hs : IsNumber s) : IsValue s
  | literal {s : CStr} (hs : s ∈ literals) : IsValue s
  | array {gap : CStr} {es : List Element} (hgap : IsGap gap) (hspaced : ∀ e ∈ es, e.Spaced)
      (hvalues : ∀ e ∈ es, IsValue e.value) : IsValue (arrayOf gap es)
  | object {gap : CStr} {ms : List Member} (hgap : IsGap gap) (hspaced : ∀ m ∈ ms, m.Spaced)
      (hvalues : ∀ m ∈ ms, IsValue m.value) : IsValue (objectOf gap ms)

/-! ### Values of a kind -/

def IsText (v : CStr) : Prop := ∃ us : List StringUnit, (∀ u ∈ us, u.isValid = true) ∧ v = quoted us

/-- An array of values with a property. -/
def IsArrayOf (P : CStr → Prop) (v : CStr) : Prop :=
  ∃ gap es, IsGap gap ∧ (∀ e : Element, e ∈ es → e.Spaced ∧ P e.value) ∧ v = arrayOf gap es

/-- An object whose names and values are related. -/
def IsObjectOf (field : CStr → CStr → Prop) (v : CStr) : Prop :=
  ∃ gap ms, IsGap gap ∧ (∀ m : Member, m ∈ ms → m.Spaced ∧ field (decode m.name) m.value) ∧
    v = objectOf gap ms

/-- A member without white space. -/
def tightMember (name : List StringUnit) (value : CStr) : Member := ⟨[], name, [], [], value, []⟩

theorem isGap_nil : IsGap [] := List.forall_mem_nil _

theorem tightMember_spaced {name : List StringUnit} (h : ∀ u ∈ name, u.isValid = true)
    (value : CStr) : (tightMember name value).Spaced :=
  ⟨isGap_nil, h, isGap_nil, isGap_nil, isGap_nil⟩

theorem isArrayOf_one {P : CStr → Prop} {v : CStr} (hv : P v) :
    IsArrayOf P (arrayOf [] [⟨[], v, []⟩]) :=
  ⟨[], _, isGap_nil, List.forall_mem_singleton.mpr ⟨⟨isGap_nil, isGap_nil⟩, hv⟩, rfl⟩

theorem isObjectOf_one {field : CStr → CStr → Prop} {name : List StringUnit} {v : CStr}
    (h : ∀ u ∈ name, u.isValid = true) (hv : field (decode name) v) :
    IsObjectOf field (objectOf [] [tightMember name v]) :=
  ⟨[], _, isGap_nil, List.forall_mem_singleton.mpr ⟨tightMember_spaced h v, hv⟩, rfl⟩

theorem IsText.isValue {v : CStr} (h : IsText v) : IsValue v := by
  obtain ⟨us, hus, rfl⟩ := h
  exact .string hus

theorem IsArrayOf.isValue {P : CStr → Prop} {v : CStr} (h : IsArrayOf P v)
    (hP : ∀ v, P v → IsValue v) : IsValue v := by
  obtain ⟨gap, es, hgap, hes, rfl⟩ := h
  exact .array hgap (fun e he => (hes e he).1) fun e he => hP _ (hes e he).2

theorem IsObjectOf.isValue {field : CStr → CStr → Prop} {v : CStr} (h : IsObjectOf field v)
    (hfield : ∀ name v, field name v → IsValue v) : IsValue v := by
  obtain ⟨gap, ms, hgap, hms, rfl⟩ := h
  exact .object hgap (fun m hm => (hms m hm).1) fun m hm => hfield _ _ (hms m hm).2

/-! ### Bytes of numbers and literals -/

/-- White space, quotes, commas and brackets. -/
def tokenEnds : List UInt8 := [9, 10, 13, 32, 34, 44, 91, 93, 123, 125]

/-- A text of one token that is no string and no bracket. -/
structure IsBare (s : CStr) : Prop where
  ne_nil : s ≠ []
  plain : ∀ c ∈ s, c ∉ tokenEnds

variable {s t : CStr}

theorem IsBare.append (hs : IsBare s) (ht : t = [] ∨ IsBare t) : IsBare (s ++ t) where
  ne_nil := List.append_ne_nil_of_left_ne_nil hs.ne_nil t
  plain := by
    intro c hc
    rcases List.mem_append.mp hc with hleft | hright
    · exact hs.plain c hleft
    · rcases ht with rfl | ht
      · cases hright
      · exact ht.plain c hright

theorem IsBare.cons {c : UInt8} (hc : c ∉ tokenEnds) (hs : IsBare s) : IsBare (c :: s) where
  ne_nil := List.cons_ne_nil c s
  plain := List.forall_mem_cons.mpr ⟨hc, hs.plain⟩

theorem isBare_of_digits (h : isDigits s = true) : IsBare s := by
  have hends : ∀ c ∈ tokenEnds, ¬(48 ≤ c ∧ c ≤ 57) := by decide
  rw [isDigits, Bool.and_eq_true, decide_eq_true_eq, List.all_eq_true] at h
  exact ⟨h.1, fun c hc hend => hends c hend (of_decide_eq_true (h.2 c hc))⟩

theorem IsFraction.bare (h : IsFraction s) : s = [] ∨ IsBare s := by
  rcases h with hnil | ⟨ds, hds, rfl⟩
  · exact Or.inl hnil
  · exact Or.inr ((isBare_of_digits hds).cons (by decide))

theorem IsExponent.bare (h : IsExponent s) : s = [] ∨ IsBare s := by
  rcases h with hnil | ⟨e, sign, ds, he, hsign, hds, rfl⟩
  · exact Or.inl hnil
  · have hdigits := isBare_of_digits hds
    have hsigned : IsBare (sign ++ ds) := by
      rcases hsign with rfl | rfl | rfl
      · exact hdigits
      · exact hdigits.cons (by decide)
      · exact hdigits.cons (by decide)
    rcases he with rfl | rfl
    · exact Or.inr (hsigned.cons (by decide))
    · exact Or.inr (hsigned.cons (by decide))

theorem IsNumber.bare (h : IsNumber s) : IsBare s := by
  obtain ⟨sign, int, frac, exp, rfl, hsign, hint, hfrac, hexp⟩ := h
  rw [isInteger, Bool.and_eq_true] at hint
  have hdigits := isBare_of_digits hint.1
  have hsigned : IsBare (sign ++ int) := by
    rcases hsign with rfl | rfl
    · exact hdigits
    · exact hdigits.cons (by decide)
  exact (hsigned.append hfrac.bare).append hexp.bare

theorem isBare_of_literal (h : s ∈ literals) : IsBare s := by
  have hall : ∀ s ∈ literals, s ≠ [] ∧ ∀ c ∈ s, c ∉ tokenEnds := by decide
  exact ⟨(hall s h).1, (hall s h).2⟩

/-! ### Tokens -/

inductive IsToken : CStr → Prop
  | mark {c : UInt8} (hc : c ∈ [44, 58, 91, 93, 123, 125]) : IsToken [c]
  | string {us : List StringUnit} (hus : ∀ u ∈ us, u.isValid = true) : IsToken (quoted us)
  | number {s : CStr} (hs : IsNumber s) : IsToken s
  | literal {s : CStr} (hs : s ∈ literals) : IsToken s

/-- Tokens with white space between them. -/
inductive IsTokens : CStr → Prop
  | nil : IsTokens []
  | gap {c : UInt8} {s : CStr} (hc : isGap c = true) (h : IsTokens s) : IsTokens (c :: s)
  | token {t s : CStr} (ht : IsToken t) (h : IsTokens s) : IsTokens (t ++ s)

theorem IsToken.tokens (h : IsToken s) : IsTokens s := by
  rw [← List.append_nil s]
  exact .token h .nil

theorem IsTokens.append (hs : IsTokens s) (ht : IsTokens t) : IsTokens (s ++ t) := by
  induction hs with
  | nil => exact ht
  | gap hc _ ih => exact .gap hc ih
  | token htoken _ ih =>
    rw [List.append_assoc]
    exact .token htoken ih

theorem IsGap.tokens (h : IsGap s) : IsTokens s := by
  induction s with
  | nil => exact .nil
  | cons c s ih =>
    exact .gap (h c List.mem_cons_self) (ih fun d hd => h d (List.mem_cons_of_mem _ hd))

theorem tokens_flatMap {ss : List CStr} (h : ∀ s ∈ ss, IsTokens s) :
    IsTokens (ss.flatMap (44 :: ·)) := by
  induction ss with
  | nil => exact .nil
  | cons s ss ih =>
    have hmark : IsTokens [44] := (IsToken.mark (by decide)).tokens
    rw [List.flatMap_cons]
    exact (hmark.append (h s List.mem_cons_self)).append
      (ih fun r hr => h r (List.mem_cons_of_mem _ hr))

theorem tokens_separated {gap : CStr} {ss : List CStr} (hgap : IsGap gap)
    (h : ∀ s ∈ ss, IsTokens s) : IsTokens (separated gap ss) := by
  cases ss with
  | nil => exact hgap.tokens
  | cons s ss =>
    exact (h s List.mem_cons_self).append
      (tokens_flatMap fun r hr => h r (List.mem_cons_of_mem _ hr))

/-- A value is made of tokens. -/
theorem IsValue.tokens (h : IsValue s) : IsTokens s := by
  have hbracket : ∀ {left right : UInt8} {inner : CStr}, left ∈ [44, 58, 91, 93, 123, 125] →
      right ∈ [44, 58, 91, 93, 123, 125] → IsTokens inner → IsTokens (left :: (inner ++ [right])) :=
    fun hleft hright hinner =>
      (IsToken.mark hleft).tokens.append (hinner.append (IsToken.mark hright).tokens)
  induction h with
  | string hus => exact (IsToken.string hus).tokens
  | number hs => exact (IsToken.number hs).tokens
  | literal hs => exact (IsToken.literal hs).tokens
  | array hgap hspaced _ ih =>
    refine hbracket (by decide) (by decide) (tokens_separated hgap ?_)
    intro t ht
    obtain ⟨e, he, rfl⟩ := List.mem_map.mp ht
    exact ((hspaced e he).lead.tokens.append (ih e he)).append (hspaced e he).trail.tokens
  | object hgap hspaced _ ih =>
    refine hbracket (by decide) (by decide) (tokens_separated hgap ?_)
    intro t ht
    obtain ⟨m, hm, rfl⟩ := List.mem_map.mp ht
    have hm' := hspaced m hm
    have hname := (hm'.lead.tokens.append (IsToken.string hm'.name).tokens).append
      hm'.beforeColon.tokens
    have hvalue := (hm'.afterColon.tokens.append (ih m hm)).append hm'.trail.tokens
    exact hname.append ((IsToken.mark (by decide)).tokens.append hvalue)

/-- A byte that begins a token, after the sign of a number. -/
def startsToken (c : UInt8) : Bool :=
  48 ≤ c ∧ c ≤ 57 ∨ c ∈ [34, 44, 58, 91, 93, 102, 110, 116, 123, 125]

theorem digits_start (h : isDigits s = true) : ∃ c rest, s = c :: rest ∧ startsToken c = true := by
  cases s with
  | nil => cases h
  | cons c rest =>
    rw [isDigits, Bool.and_eq_true, List.all_cons, Bool.and_eq_true, decide_eq_true_eq] at h
    exact ⟨c, rest, rfl, decide_eq_true (Or.inl (of_decide_eq_true h.2.1))⟩

theorem IsToken.starts (h : IsToken t) :
    ∃ c rest, (t = c :: rest ∨ t = 45 :: c :: rest) ∧ startsToken c = true := by
  cases h with
  | @mark c hc =>
    have hstarts : ∀ c ∈ [44, 58, 91, 93, 123, 125], startsToken c = true := by decide
    exact ⟨c, [], Or.inl rfl, hstarts c hc⟩
  | string hus => exact ⟨34, _, Or.inl rfl, by decide⟩
  | number hs =>
    obtain ⟨sign, int, frac, exp, rfl, hsign, hint, -, -⟩ := hs
    rw [isInteger, Bool.and_eq_true] at hint
    obtain ⟨c, rest, rfl, hc⟩ := digits_start hint.1
    refine ⟨c, rest ++ frac ++ exp, ?_, hc⟩
    rcases hsign with rfl | rfl
    · exact Or.inl (by simp)
    · exact Or.inr (by simp)
  | literal hs =>
    have hstarts : ∀ s ∈ literals, ∃ c rest, s = c :: rest ∧ startsToken c = true := by
      intro s hs
      simp only [literals, List.mem_cons, List.not_mem_nil, or_false] at hs
      rcases hs with rfl | rfl | rfl
      · exact ⟨116, _, rfl, by decide⟩
      · exact ⟨102, _, rfl, by decide⟩
      · exact ⟨110, _, rfl, by decide⟩
    obtain ⟨c, rest, hcons, hc⟩ := hstarts t hs
    exact ⟨c, rest, Or.inl hcons, hc⟩

theorem unit_oneLine {u : StringUnit} (hu : u.isValid = true) : 10 ∉ u.text := by
  intro h
  cases u with
  | plain c =>
    rw [StringUnit.isValid, decide_eq_true_eq] at hu
    cases List.mem_singleton.mp h
    exact absurd hu.1 (by decide)
  | short letter =>
    rw [StringUnit.isValid, decide_eq_true_eq] at hu
    simp only [StringUnit.text, List.mem_cons, List.not_mem_nil, or_false] at h
    rcases h with h92 | rfl
    · cases h92
    · exact absurd hu (by decide)
  | hex a b c d =>
    have hnot : ∀ x : UInt8, isHexDigit x = true → 10 ≠ x := by
      rintro x hx rfl
      exact absurd hx (by decide)
    simp only [StringUnit.isValid, Bool.and_eq_true] at hu
    simp only [StringUnit.text, List.mem_cons, List.not_mem_nil, or_false] at h
    rcases h with h | h | h | h | h | h
    · cases h
    · cases h
    · exact hnot a hu.1.1.1 h
    · exact hnot b hu.1.1.2 h
    · exact hnot c hu.1.2 h
    · exact hnot d hu.2 h

theorem IsToken.oneLine (h : IsToken s) : 10 ∉ s := by
  intro h10
  cases h with
  | mark hc =>
    cases List.mem_singleton.mp h10
    exact absurd hc (by decide)
  | string hus =>
    rw [quoted, List.mem_cons, List.mem_append, List.mem_singleton] at h10
    rcases h10 with h34 | hunits | h34
    · cases h34
    · obtain ⟨u, hu, hmem⟩ := List.mem_flatMap.mp hunits
      exact unit_oneLine (hus u hu) hmem
    · cases h34
  | number hs => exact hs.bare.plain 10 h10 (by decide)
  | literal hs => exact (isBare_of_literal hs).plain 10 h10 (by decide)

/-- What stands behind a line end is made of tokens, too. -/
theorem IsTokens.behind_line (h : IsTokens s) {pre post : CStr} (hs : s = pre ++ 10 :: post) :
    IsTokens post := by
  induction h generalizing pre with
  | nil => exact absurd hs.symm (by simp)
  | @gap c s hc htail ih =>
    cases pre with
    | nil =>
      cases hs
      exact htail
    | cons d pre =>
      cases hs
      exact ih rfl
  | @token t s ht htail ih =>
    rcases List.append_eq_append_iff.mp hs with ⟨more, hpre, hrest⟩ | ⟨more, htoken, hrest⟩
    · exact ih hrest
    · cases more with
      | nil =>
        have hnil : s = [] ++ 10 :: post := hrest.symm
        exact ih hnil
      | cons d more =>
        have hd : d = 10 := (List.cons.inj hrest).1.symm
        refine absurd ?_ ht.oneLine
        rw [htoken, hd]
        exact List.mem_append_right _ List.mem_cons_self

end MiniWeb.JsonText
