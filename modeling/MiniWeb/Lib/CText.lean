import Mathlib.Algebra.Group.Int.Defs
import Mathlib.Algebra.Group.Nat.Defs
import Mathlib.Data.List.TakeWhile
import MiniWeb.Lib.CString
import MiniWeb.Lib.Search

/-!
# Text and numbers in C strings

The character classes of `<ctype.h>` in the "C" locale, `atoi`, and `strstr` as a scan.
-/

namespace MiniWeb.CStr

open Search

variable {lit x y z : CStr} {d : UInt8}

def isSpace (c : UInt8) : Bool := c = 32 ∨ 9 ≤ c ∧ c ≤ 13

def isDigit (c : UInt8) : Bool := 48 ≤ c ∧ c ≤ 57

/-- The end of a line on the wire. -/
def crlf : List UInt8 := [13, 10]

def toUpper (c : UInt8) : UInt8 := if 97 ≤ c ∧ c ≤ 122 then c - 32 else c

/-! ## Numbers -/

/-- The number written by the leading digits. -/
def digits (s : CStr) : Nat := (s.takeWhile isDigit).foldl (fun n c => 10 * n + (c.toNat - 48)) 0

/-- The sign and the digits that `strtol` reads after the white space. -/
def signed : CStr → Int
  | 45 :: s => -(digits s : Int)
  | 43 :: s => digits s
  | s => digits s

/-- `strtol(s, NULL, 10)`, which answers the nearest `long` for a number that does not fit. -/
def strtol (s : CStr) : Int := max (-2 ^ 63) (min (signed (s.dropWhile isSpace)) (2 ^ 63 - 1))

/-- `atoi`, that is `(int) strtol(s, NULL, 10)`. -/
def atoi (s : CStr) : Int := (strtol s).bmod (2 ^ 32)

/-- A byte that is no digit ends the number. -/
theorem digits_append (hd : isDigit d = false) : digits (x ++ d :: y) = digits x := by
  have h : (x ++ d :: y).takeWhile isDigit = x.takeWhile isDigit := by
    induction x with
    | nil => simp [hd]
    | cons c x ih =>
      simp only [List.cons_append, List.takeWhile_cons, ih]
  rw [digits, digits, h]

theorem signed_append (hd : isDigit d = false) {c : UInt8} :
    signed (c :: x ++ d :: y) = signed (c :: x) := by
  have h : digits (c :: x ++ d :: y) = digits (c :: x) := digits_append hd
  rw [List.cons_append] at h ⊢
  unfold signed
  split
  next h' => cases h'; simp [digits_append hd]
  next h' => cases h'; simp [digits_append hd]
  next h₁ h₂ =>
    split
    next h' => exact absurd rfl (by cases h'; exact h₁ _)
    next h' => exact absurd rfl (by cases h'; exact h₂ _)
    next => rw [h]

/-- Once a byte that is no white space is there, what follows a byte that is no digit is not
read. -/
theorem atoi_append (hx : ¬x.all isSpace = true) (hd : isDigit d = false) :
    atoi (x ++ d :: y) = atoi x := by
  have h : signed ((x ++ d :: y).dropWhile isSpace) = signed (x.dropWhile isSpace) := by
    induction x with
    | nil => simp at hx
    | cons c x ih =>
      by_cases hc : isSpace c = true
      · rw [List.cons_append, List.dropWhile_cons_of_pos hc, List.dropWhile_cons_of_pos hc]
        apply ih
        simpa [hc] using hx
      · rw [List.cons_append, List.dropWhile_cons_of_neg hc, List.dropWhile_cons_of_neg hc]
        exact signed_append hd
  rw [atoi, atoi, strtol, strtol, h]

/-- White space before a number is skipped. -/
theorem atoi_space_append (hx : x.all isSpace = true) : atoi (x ++ y) = atoi y := by
  rw [atoi, atoi, strtol, strtol, List.dropWhile_append_of_pos fun c hc => ?_]
  exact List.all_eq_true.1 hx c hc

theorem atoi_of_space (hx : x.all isSpace = true) : atoi x = 0 := by
  rw [← List.append_nil x, atoi_space_append hx]
  decide

theorem isDigit_of_isSpace (h : isSpace d = true) : isDigit d = false := by
  simp only [isSpace, isDigit, decide_eq_true_eq, decide_eq_false_iff_not, UInt8.le_iff_toNat_le,
    ← UInt8.toNat_inj] at h ⊢
  simp at h ⊢
  omega

/-- White space after a number is not read. -/
theorem atoi_append_space (hy : y.all isSpace = true) : atoi (x ++ y) = atoi x := by
  cases y with
  | nil => rw [List.append_nil]
  | cons d y =>
    by_cases hx : x.all isSpace = true
    · rw [atoi_space_append hx, atoi_of_space hx, atoi_of_space hy]
    · simp only [List.all_cons, Bool.and_eq_true] at hy
      exact atoi_append hx (isDigit_of_isSpace hy.1)

/-- The last digits of a number, as many as `fuel` says at most. -/
def decimalFrom : Nat → Nat → CStr
  | 0, n => [48 + (n % 10).toUInt8]
  | fuel + 1, n =>
    if n < 10 then [48 + n.toUInt8] else decimalFrom fuel (n / 10) ++ [48 + (n % 10).toUInt8]

/-- The bytes `%d` writes for a number that is not negative. -/
def decimal (n : Nat) : CStr := decimalFrom n n

theorem toNat_digit {n : Nat} (h : n < 10) : (48 + n.toUInt8).toNat = 48 + n := by
  have h48 : UInt8.toNat 48 = 48 := rfl
  rw [UInt8.toNat_add, Nat.toUInt8_eq, UInt8.toNat_ofNat', h48]
  omega

theorem isDigit_digit {n : Nat} (h : n < 10) : isDigit (48 + n.toUInt8) = true := by
  have := toNat_digit h
  simp only [isDigit, decide_eq_true_eq, UInt8.le_iff_toNat_le, this]
  simp
  omega

theorem isDigit_of_mem_decimalFrom {fuel n : Nat} {c : UInt8} (hc : c ∈ decimalFrom fuel n) :
    isDigit c = true := by
  have hmod : n % 10 < 10 := Nat.mod_lt _ (by omega)
  induction fuel generalizing n with
  | zero =>
    rw [decimalFrom, List.mem_singleton] at hc
    exact hc ▸ isDigit_digit hmod
  | succ fuel ih =>
    rw [decimalFrom] at hc
    by_cases h : n < 10
    · rw [if_pos h, List.mem_singleton] at hc
      exact hc ▸ isDigit_digit h
    · rw [if_neg h, List.mem_append, List.mem_singleton] at hc
      rcases hc with hc | rfl
      · exact ih hc (Nat.mod_lt _ (by omega))
      · exact isDigit_digit hmod

theorem isDigit_of_mem_decimal {n : Nat} {c : UInt8} (hc : c ∈ decimal n) : isDigit c = true :=
  isDigit_of_mem_decimalFrom hc

theorem foldl_decimalFrom {fuel n : Nat} (h : n ≤ fuel) :
    (decimalFrom fuel n).foldl (fun n c => 10 * n + (c.toNat - 48)) 0 = n := by
  induction fuel generalizing n with
  | zero =>
    have hn : n = 0 := by omega
    subst hn
    rfl
  | succ fuel ih =>
    rw [decimalFrom]
    by_cases h10 : n < 10
    · rw [if_pos h10, List.foldl_cons, List.foldl_nil, toNat_digit h10]
      omega
    · rw [if_neg h10, List.foldl_append, ih (by omega), List.foldl_cons, List.foldl_nil,
        toNat_digit (Nat.mod_lt _ (by omega))]
      omega

/-- A number written is read back. -/
theorem digits_decimal (n : Nat) : digits (decimal n) = n := by
  have htake : (decimal n).takeWhile isDigit = decimal n :=
    List.takeWhile_eq_self_iff.2 fun c hc => isDigit_of_mem_decimal hc
  rw [digits, htake]
  exact foldl_decimalFrom (le_refl n)

theorem decimal_ne_nil (n : Nat) : decimal n ≠ [] := by
  cases n with
  | zero => exact List.cons_ne_nil _ _
  | succ n =>
    rw [decimal, decimalFrom]
    split
    · exact List.cons_ne_nil _ _
    · exact List.append_ne_nil_of_right_ne_nil _ (List.cons_ne_nil _ _)

theorem length_decimalFrom {fuel n k : Nat} (h : n < 10 ^ (k + 1)) :
    (decimalFrom fuel n).length ≤ k + 1 := by
  induction fuel generalizing n k with
  | zero => exact Nat.succ_le_succ (Nat.zero_le k)
  | succ fuel ih =>
    rw [decimalFrom]
    by_cases h10 : n < 10
    · rw [if_pos h10]
      exact Nat.succ_le_succ (Nat.zero_le k)
    · cases k with
      | zero => omega
      | succ k =>
        have hdiv : n / 10 < 10 ^ (k + 1) := by
          rw [pow_succ] at h
          omega
        rw [if_neg h10, List.length_append]
        exact Nat.succ_le_succ (ih hdiv)

/-- A number below `10 ^ (k + 1)` has `k + 1` digits at most. -/
theorem length_decimal_le {n k : Nat} (h : n < 10 ^ (k + 1)) : (decimal n).length ≤ k + 1 :=
  length_decimalFrom h

/-- A digit is neither white space nor a sign. -/
theorem isDigit_only {c : UInt8} (h : isDigit c = true) : isSpace c = false ∧ c ≠ 45 ∧ c ≠ 43 := by
  have hspace : isSpace c = false := by
    by_contra hs
    rw [Bool.not_eq_false] at hs
    rw [isDigit_of_isSpace hs] at h
    exact Bool.false_ne_true h
  refine ⟨hspace, ?_, ?_⟩
  · rintro rfl
    exact absurd h (by decide)
  · rintro rfl
    exact absurd h (by decide)

/-- A text of digits only is the number it states. -/
theorem atoi_digits {s : CStr} (hne : s ≠ []) (hdigit : ∀ c ∈ s, isDigit c = true)
    (hlt : digits s < 2147483648) : atoi s = digits s := by
  cases s with
  | nil => exact absurd rfl hne
  | cons c s =>
    obtain ⟨hspace, hminus, hplus⟩ := isDigit_only (hdigit c List.mem_cons_self)
    have hsigned : signed (c :: s) = digits (c :: s) := by
      unfold signed
      split
      next heq => exact absurd (List.cons.inj heq).1 hminus
      next heq => exact absurd (List.cons.inj heq).1 hplus
      next => rfl
    have hlong : max (-2 ^ 63) (min (digits (c :: s) : Int) (2 ^ 63 - 1)) = digits (c :: s) := by
      omega
    rw [atoi, strtol, List.dropWhile_cons_of_neg (by simp [hspace]), hsigned, hlong]
    exact Int.bmod_eq_of_le (by omega) (by omega)

theorem atoi_decimal {n : Nat} (hn : n < 2147483648) : atoi (decimal n) = n := by
  have hdigits := digits_decimal n
  have h := atoi_digits (decimal_ne_nil n) (fun _ hc => isDigit_of_mem_decimal hc)
    (hdigits.symm ▸ hn)
  rw [h, hdigits]

/-! ## The text in a buffer -/

theorem ofBuffer_append (hx : 0 ∉ x) : ofBuffer (x ++ y) = x ++ ofBuffer y := by
  apply List.takeWhile_append_of_pos
  intro c hc
  rw [decide_eq_true_eq]
  intro h
  exact hx (h ▸ hc)

theorem ofBuffer_of_notMem (hx : 0 ∉ x) : ofBuffer x = x := by
  rw [← List.append_nil x, ofBuffer_append hx]
  rfl

/-- What follows a NUL is not part of the text. -/
theorem ofBuffer_append_of_mem (hx : 0 ∈ x) : ofBuffer (x ++ y) = ofBuffer x := by
  induction x with
  | nil => simp at hx
  | cons c x ih =>
    by_cases hc : c = 0
    · simp [ofBuffer, hc]
    · have := ih (by simpa [Ne.symm hc] using hx)
      rw [List.cons_append, ofBuffer, ofBuffer, List.takeWhile_cons, List.takeWhile_cons,
        ← ofBuffer, ← ofBuffer, this]

theorem notMem_ofBuffer (x : List UInt8) : 0 ∉ ofBuffer x := by
  intro h
  simpa using List.mem_takeWhile_imp h

theorem ofBuffer_append_nul (x y : List UInt8) : ofBuffer (x ++ 0 :: y) = ofBuffer x := by
  by_cases hx : 0 ∈ x
  · exact ofBuffer_append_of_mem hx
  · rw [ofBuffer_append hx, ofBuffer_of_notMem hx]
    simp [ofBuffer]

theorem ofBuffer_eq_nil_iff : ofBuffer x = [] ↔ ∀ c ∈ x.head?, c = 0 := by
  cases x with
  | nil => simp [ofBuffer]
  | cons c x =>
    by_cases hc : c = 0
    · simp [ofBuffer, hc]
    · simp [ofBuffer, hc]

theorem ofBuffer_append_eq_iff : ofBuffer (x ++ y) = x ↔ 0 ∉ x ∧ ∀ c ∈ y.head?, c = 0 := by
  constructor
  · intro h
    have h0 : 0 ∉ x := by
      rw [← h]
      exact notMem_ofBuffer _
    rw [ofBuffer_append h0, List.append_right_eq_self, ofBuffer_eq_nil_iff] at h
    exact ⟨h0, h⟩
  · rintro ⟨h0, hy⟩
    rw [ofBuffer_append h0, ofBuffer_eq_nil_iff.2 hy, List.append_nil]

/-! ## Lines of a file -/

/-- The lines with their ends. -/
def unlines (lines : List CStr) : List UInt8 := lines.flatMap (· ++ [10])

theorem unlines_append (xs ys : List CStr) : unlines (xs ++ ys) = unlines xs ++ unlines ys :=
  List.flatMap_append

theorem fgetsFrom_line {size : Nat} {buf rest : List UInt8} (hx : 10 ∉ x)
    (hsize : buf.length + x.length + 2 ≤ size) :
    fgetsFrom size buf (x ++ 10 :: rest) = (buf ++ x ++ [10]) :: fgetsFrom size [] rest := by
  induction x generalizing buf with
  | nil => simp [fgetsFrom]
  | cons c x ih =>
    rw [List.mem_cons, not_or] at hx
    rw [List.length_cons] at hsize
    rw [List.cons_append, fgetsFrom, if_neg (by rintro (h | h); exact hx.1 h.symm; omega),
      ih hx.2 (by simp; omega), List.append_assoc buf, List.singleton_append]

/-- A line that fits the buffer. -/
theorem fgets_line {size : Nat} {rest : List UInt8} (hx : 10 ∉ x) (hsize : x.length + 2 ≤ size) :
    fgets size (x ++ 10 :: rest) = (x ++ [10]) :: fgets size rest := by
  rw [fgets, fgetsFrom_line hx (by simpa using hsize), List.nil_append, fgets]

/-- A line that does not fit is read in parts. -/
theorem fgetsFrom_long {size : Nat} {buf rest : List UInt8} (hx : 10 ∉ x) (hbuf : x ≠ [])
    (hsize : buf.length + x.length + 1 = size) :
    fgetsFrom size buf (x ++ rest) = (buf ++ x) :: fgetsFrom size [] rest := by
  induction x generalizing buf with
  | nil => exact absurd rfl hbuf
  | cons c x ih =>
    rw [List.mem_cons, not_or] at hx
    rw [List.length_cons] at hsize
    by_cases hnil : x = []
    · subst hnil
      rw [List.cons_append, fgetsFrom, if_pos (Or.inr (by simp at hsize; omega))]
      rfl
    · have hpos := List.length_pos_iff.2 hnil
      rw [List.cons_append, fgetsFrom, if_neg (by rintro (h | h); exact hx.1 h.symm; omega),
        ih hx.2 hnil (by simp; omega), List.append_assoc buf, List.singleton_append]

theorem fgets_unlines {size : Nat} {lines : List CStr} {rest : List UInt8}
    (h : ∀ l ∈ lines, 10 ∉ l ∧ l.length + 2 ≤ size) :
    fgets size (unlines lines ++ rest) = lines.map (· ++ [10]) ++ fgets size rest := by
  induction lines with
  | nil => rfl
  | cons l lines ih =>
    obtain ⟨h10, hsize⟩ := h l (List.mem_cons_self ..)
    have hsplit : unlines (l :: lines) ++ rest = l ++ 10 :: (unlines lines ++ rest) := by
      simp [unlines]
    rw [hsplit, fgets_line h10 hsize, ih fun m hm => h m (List.mem_cons_of_mem _ hm)]
    rfl

theorem fgetsFrom_append {size : Nat} {buf rest : List UInt8} :
    fgetsFrom size buf (x ++ 10 :: rest) =
      fgetsFrom size buf (x ++ [10]) ++ fgetsFrom size [] rest := by
  induction x generalizing buf with
  | nil => simp [fgetsFrom]
  | cons c x ih =>
    rw [List.cons_append, List.cons_append, fgetsFrom, fgetsFrom]
    split
    · rw [ih, List.cons_append]
    · exact ih

theorem fgets_line_append {size : Nat} (x : CStr) (rest : List UInt8) :
    fgets size (x ++ 10 :: rest) = fgets size (x ++ [10]) ++ fgets size rest :=
  fgetsFrom_append

/-- Lines are read by themselves, however long they are. -/
theorem fgets_unlines_append {size : Nat} (lines : List CStr) (rest : List UInt8) :
    fgets size (unlines lines ++ rest) = fgets size (unlines lines) ++ fgets size rest := by
  induction lines with
  | nil => rfl
  | cons l lines ih =>
    have hcons : unlines (l :: lines) ++ rest = l ++ 10 :: (unlines lines ++ rest) := by
      simp [unlines]
    have hline : unlines (l :: lines) = l ++ 10 :: unlines lines := by
      simp [unlines]
    rw [hcons, hline, fgets_line_append l (unlines lines ++ rest), ih,
      fgets_line_append l (unlines lines), List.append_assoc]

/-! ## `strstr` -/

/-- The pattern that matches a literal only. -/
def literal (lit : CStr) : List (List UInt8) := lit.map fun c => [c]

theorem matchesAt_literal {s : CStr} : matchesAt (literal lit) s = lit.isPrefixOf s := by
  induction lit generalizing s with
  | nil => simp [literal, matchesAt]
  | cons c lit ih =>
    cases s with
    | nil => simp [literal, matchesAt]
    | cons b s =>
      rw [literal, List.map_cons, matchesAt, List.isPrefixOf, ← ih, ← literal]
      by_cases h : b = c
      · simp [h]
      · simp [h, Ne.symm h]

theorem strstr_eq_first? (hlit : lit ≠ []) {s : CStr} :
    strstr s lit = first? (literal lit) 0 s := by
  induction s with
  | nil => simp [strstr, first?, hlit]
  | cons c s ih =>
    simp only [strstr, first?, Nat.not_lt_zero, if_false, matchesAt_literal]
    rw [ih]

/-- A search splits at a byte that the literal has in no place but its first. -/
theorem strstr_append (hlit : lit ≠ []) (hd : d ∉ lit.tail) :
    strstr (x ++ d :: y) lit = ((strstr x lit).map (· ++ d :: y)).or (strstr (d :: y) lit) := by
  rw [strstr_eq_first? hlit, strstr_eq_first? hlit, strstr_eq_first? hlit]
  apply first?_append
  · simpa [literal] using hlit
  · intro cls hcls
    rw [literal, ← List.map_tail] at hcls
    obtain ⟨c, hc, rfl⟩ := List.mem_map.1 hcls
    rw [List.mem_singleton]
    intro h
    subst h
    exact hd hc
  · omega

theorem strstr_short {s : CStr} (h : s.length < lit.length) : strstr s lit = none := by
  have hlit : lit ≠ [] := by
    intro h0
    simp [h0] at h
  cases hv : strstr s lit with
  | none => rfl
  | some v =>
    rw [strstr_eq_first? hlit] at hv
    obtain ⟨hs, hm⟩ := first?_spec hv
    have h₁ := length_of_matchesAt hm
    have h₂ := hs.length_le
    rw [literal, List.length_map] at h₁
    omega

/-- A byte of the literal that the text does not have. -/
theorem strstr_eq_none {s : CStr} (hlit : d ∈ lit) (hs : d ∉ s) : strstr s lit = none := by
  have hne : lit ≠ [] := List.ne_nil_of_mem hlit
  cases hv : strstr s lit with
  | none => rfl
  | some v =>
    rw [strstr_eq_first? hne] at hv
    obtain ⟨hsuf, hm⟩ := first?_spec hv
    rw [matchesAt_literal, List.isPrefixOf_iff_prefix] at hm
    exact absurd (hsuf.subset (hm.subset hlit)) hs

/-- An answer is an end of the text and begins with the literal. -/
theorem strstr_spec {s v : CStr} (hlit : lit ≠ []) (h : strstr s lit = some v) :
    v <:+ s ∧ lit <+: v := by
  rw [strstr_eq_first? hlit] at h
  obtain ⟨hs, hm⟩ := first?_spec h
  rw [matchesAt_literal, List.isPrefixOf_iff_prefix] at hm
  exact ⟨hs, hm⟩

/-- A search passes over a byte that the literal does not have. -/
theorem strstr_cons (hlit : lit ≠ []) (hd : d ∉ lit) : strstr (d :: y) lit = strstr y lit := by
  rw [strstr_eq_first? hlit, strstr_eq_first? hlit, first?_cons_of_not]
  rw [matchesAt_literal]
  cases lit with
  | nil => exact absurd rfl hlit
  | cons c lit =>
    have : c ≠ d := fun h => hd (h ▸ List.mem_cons_self ..)
    simp [List.isPrefixOf, this]

/-- A search in a text with a byte that the literal does not have is one in each part. -/
theorem strstr_split (hlit : lit ≠ []) (hd : d ∉ lit) :
    strstr (x ++ d :: y) lit = ((strstr x lit).map (· ++ d :: y)).or (strstr y lit) := by
  rw [strstr_append hlit fun h => hd (List.mem_of_mem_tail h), strstr_cons hlit hd]

/-- A search succeeds where the text holds the literal. -/
theorem isSome_strstr_iff (hlit : lit ≠ []) {s : CStr} :
    (strstr s lit).isSome = true ↔ lit <:+: s := by
  induction s with
  | nil => simp [strstr, hlit]
  | cons c s ih =>
    rw [strstr, List.infix_cons_iff]
    by_cases hpre : lit.isPrefixOf (c :: s) = true
    · rw [if_pos hpre]
      exact iff_of_true rfl (Or.inl (List.isPrefixOf_iff_prefix.mp hpre))
    · rw [if_neg hpre, ih]
      exact (or_iff_right fun h => hpre (List.isPrefixOf_iff_prefix.mpr h)).symm

/-- What stands in front of the first `d` is determined by the text. -/
theorem prefix_unique {x' y' : CStr} (hx : d ∉ x) (hx' : d ∉ x')
    (h : x ++ d :: y = x' ++ d :: y') : x = x' := by
  have hfront := congrArg (List.takeWhile (· ≠ d)) h
  rwa [List.takeWhile_append_of_pos, List.takeWhile_append_of_pos,
    List.takeWhile_cons_of_neg (by simp), List.takeWhile_cons_of_neg (by simp), List.append_nil,
    List.append_nil] at hfront
  · exact fun c hc => decide_eq_true fun h => hx' (h ▸ hc)
  · exact fun c hc => decide_eq_true fun h => hx (h ▸ hc)

/-- A search for a key and the byte that ends it: in a text of one such byte it succeeds at the end
of the part in front of the byte, or else behind the byte. -/
theorem strstr_key {key : CStr} (hkey : d ∉ key) (hx : d ∉ x) :
    strstr (x ++ d :: y) (key ++ [d]) =
      if key <:+ x then some (key ++ d :: y) else strstr y (key ++ [d]) := by
  induction x with
  | nil =>
    cases key with
    | nil => simp [strstr]
    | cons c key =>
      have hne : c ≠ d := fun h => hkey (h ▸ List.mem_cons_self)
      rw [List.nil_append, List.cons_append, strstr, if_neg, if_neg (by simp)]
      simp [hne]
  | cons c x ih =>
    have hstart : (key ++ [d]).isPrefixOf (c :: (x ++ d :: y)) = true ↔ key = c :: x := by
      rw [List.isPrefixOf_iff_prefix]
      constructor
      · rintro ⟨t, ht⟩
        rw [List.append_assoc, List.singleton_append, ← List.cons_append] at ht
        exact prefix_unique hkey hx ht
      · rintro rfl
        exact ⟨y, by simp⟩
    rw [List.cons_append, strstr]
    by_cases hkeyx : key = c :: x
    · rw [if_pos (hstart.mpr hkeyx), if_pos (List.suffix_cons_iff.mpr (.inl hkeyx)), hkeyx,
        List.cons_append]
    · rw [if_neg fun h => hkeyx (hstart.mp h), ih (List.not_mem_of_not_mem_cons hx)]
      simp only [List.suffix_cons_iff, hkeyx, false_or]

/-! ## Tokens -/

theorem strtokFrom_eq (delim : UInt8) (tok s : CStr) :
    strtokFrom delim tok s = ((s.splitOn delim).modifyHead (tok ++ ·)).filter (· ≠ []) := by
  induction s generalizing tok with
  | nil =>
    by_cases htok : tok = []
    · simp [strtokFrom, htok]
    · simp [strtokFrom, htok]
  | cons c s ih =>
    rw [List.splitOn, List.splitOnP_cons_eq_if_modifyHead, strtokFrom]
    by_cases hc : c = delim
    · have hrest : strtokFrom delim [] s = (s.splitOn delim).filter (· ≠ []) := by
        rw [ih]
        cases s.splitOn delim <;> rfl
      rw [if_pos hc, if_pos (beq_iff_eq.mpr hc), List.modifyHead_cons, List.append_nil, hrest]
      by_cases htok : tok = []
      · rw [if_pos htok, htok]
        rfl
      · rw [if_neg htok, List.filter_cons_of_pos (by simpa using htok)]
        rfl
    · rw [if_neg hc, if_neg (mt beq_iff_eq.mp hc), ih, List.splitOn, List.modifyHead_modifyHead]
      congr 2
      funext x
      simp

/-- The tokens of `strtok` are what stands between the delimiters and is not empty. -/
theorem strtok_eq_filter (delim : UInt8) (s : CStr) :
    strtok delim s = (s.splitOn delim).filter (· ≠ []) := by
  rw [strtok, strtokFrom_eq]
  cases s.splitOn delim <;> rfl

end MiniWeb.CStr
