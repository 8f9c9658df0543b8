import MiniWeb.Lib.Base64
import MiniWeb.Lib.Buffer
import MiniWeb.RequestHandler.Dispatch

/-!
# Base64 decoding

`base64_decode` collects four values at a time and writes the bytes that fit. Here it is compared
with the encoding of RFC 4648, and modelled on the array it writes to, with its indices. It undoes
the encoding, but it takes more than encodings: it stops at the first `=` without a look at what
has been collected or at what follows.
-/

namespace MiniWeb.RequestHandler

open Loop CStr Buffer Base64 Routing

/-! ## Blanks -/

/-- The characters that are skipped. -/
def IsBlank (c : UInt8) : Prop := c = 32 ∨ c = 9 ∨ c = 13 ∨ c = 10

instance (c : UInt8) : Decidable (IsBlank c) := inferInstanceAs (Decidable (_ ∨ _))

def stripBlanks (src : CStr) : CStr := src.filter fun c => ¬ IsBlank c

/-- Neither a symbol nor padding nor skipped. -/
def IsInvalid (c : UInt8) : Prop := ¬ IsBlank c ∧ c ≠ 61 ∧ base64Value c = none

instance (c : UInt8) : Decidable (IsInvalid c) := inferInstanceAs (Decidable (_ ∧ _))

/-- An invalid character stands in front of the first `=`. -/
def MeetsInvalid (src : CStr) : Prop := ∃ x c y, src = x ++ c :: y ∧ 61 ∉ x ∧ IsInvalid c

/-- Without its blanks the string is the encoding of some bytes. -/
def IsBase64 (src : CStr) : Prop := ∃ s, stripBlanks src = encode s

/-- The bytes written for what is left in `buf` behind the loop. -/
def base64Tail (dstSize : Nat) : List UInt8 × List UInt8 → List UInt8
  | (b₀ :: b₁ :: rest, dst) =>
    let dst := dst ++ [byte₀ b₀ b₁]
    match rest with
    | b₂ :: _ => putByte dstSize dst (byte₁ b₁ b₂)
    | [] => dst
  | (_, dst) => dst

theorem base64Decode_eq (src : CStr) (dstSize : Nat) :
    base64Decode src dstSize = (base64Loop dstSize src [] []).map (base64Tail dstSize) := rfl

section

variable {n : Nat} {c v b₀ b₁ b₂ : UInt8} {src buf dst s : List UInt8}

/-! ## One character -/

theorem symbol_spec (h : v < 64) :
    base64Value (symbol v) = some v ∧ symbol v ≠ 61 ∧ ¬ IsBlank (symbol v) := by
  have hall : ∀ i : Fin 64, base64Value (symbol (UInt8.ofNat i)) = some (UInt8.ofNat i) ∧
      symbol (UInt8.ofNat i) ≠ 61 ∧ ¬ IsBlank (symbol (UInt8.ofNat i)) := by
    decide +kernel
  have hv := hall ⟨v.toNat, h⟩
  rwa [UInt8.ofNat_toNat] at hv

/-- The bytes of a group that fit. -/
def putGroup (n : Nat) (dst : List UInt8) (b₀ b₁ b₂ v : UInt8) : List UInt8 :=
  putByte n (putByte n (dst ++ [byte₀ b₀ b₁]) (byte₁ b₁ b₂)) (byte₂ b₂ v)

/-- A symbol is collected, and a fourth one completes a group. -/
def collect (n : Nat) (buf dst : List UInt8) (v : UInt8) : List UInt8 × List UInt8 :=
  match buf with
  | [b₀, b₁, b₂] => ([], putGroup n dst b₀ b₁ b₂ v)
  | buf => (buf ++ [v], dst)

theorem base64Loop_cons : base64Loop n (c :: src) buf dst =
    if n - 1 ≤ dst.length then some (buf, dst)
    else if IsBlank c then base64Loop n src buf dst
    else if c = 61 then some (buf, dst)
    else
      match base64Value c with
      | none => none
      | some v => base64Loop n src (collect n buf dst v).1 (collect n buf dst v).2 := by
  rw [base64Loop]
  refine if_congr Iff.rfl rfl (if_congr Iff.rfl rfl (if_congr Iff.rfl rfl ?_))
  cases base64Value c with
  | none => rfl
  | some v =>
    match buf with
    | [] => rfl
    | [_] => rfl
    | [_, _] => rfl
    | [_, _, _] => rfl
    | _ :: _ :: _ :: _ :: _ => rfl

theorem collect_few (h : buf.length < 3) : collect n buf dst v = (buf ++ [v], dst) := by
  match buf with
  | [] => rfl
  | [_] => rfl
  | [_, _] => rfl

theorem base64Loop_full (h : n - 1 ≤ dst.length) :
    base64Loop n src buf dst = some (buf, dst) := by
  cases src with
  | nil => rw [base64Loop]
  | cons c src => rw [base64Loop_cons, if_pos h]

theorem base64Loop_blank (hc : IsBlank c) :
    base64Loop n (c :: src) buf dst = base64Loop n src buf dst := by
  by_cases hfull : n - 1 ≤ dst.length
  · rw [base64Loop_full hfull, base64Loop_full hfull]
  · rw [base64Loop_cons, if_neg hfull, if_pos hc]

theorem base64Loop_pad : base64Loop n (61 :: src) buf dst = some (buf, dst) := by
  by_cases hfull : n - 1 ≤ dst.length
  · exact base64Loop_full hfull
  · have hblank : ¬ IsBlank 61 := by decide
    rw [base64Loop_cons, if_neg hfull, if_neg hblank, if_pos rfl]

theorem base64Loop_invalid (hroom : dst.length < n - 1) (hc : IsInvalid c) :
    base64Loop n (c :: src) buf dst = none := by
  obtain ⟨hblank, hpad, hvalue⟩ := hc
  rw [base64Loop_cons, if_neg (Nat.not_le_of_lt hroom), if_neg hblank, if_neg hpad, hvalue]

theorem base64Loop_collect (hroom : dst.length < n - 1) (hvalue : base64Value c = some v)
    (hpad : c ≠ 61) (hblank : ¬ IsBlank c) :
    base64Loop n (c :: src) buf dst =
      base64Loop n src (collect n buf dst v).1 (collect n buf dst v).2 := by
  rw [base64Loop_cons, if_neg (Nat.not_le_of_lt hroom), if_neg hblank, if_neg hpad, hvalue]

theorem base64Loop_strip :
    base64Loop n src buf dst = base64Loop n (stripBlanks src) buf dst := by
  induction src generalizing buf dst with
  | nil => rfl
  | cons c src ih =>
    by_cases hblank : IsBlank c
    · have hstrip : stripBlanks (c :: src) = stripBlanks src :=
        List.filter_cons_of_neg (by simpa using hblank)
      rw [base64Loop_blank hblank, hstrip]
      exact ih
    have hstrip : stripBlanks (c :: src) = c :: stripBlanks src :=
      List.filter_cons_of_pos (by simpa using hblank)
    rw [hstrip]
    by_cases hfull : n - 1 ≤ dst.length
    · rw [base64Loop_full hfull, base64Loop_full hfull]
    have hroom : dst.length < n - 1 := Nat.lt_of_not_le hfull
    by_cases hpad : c = 61
    · rw [hpad, base64Loop_pad, base64Loop_pad]
    cases hvalue : base64Value c with
    | none =>
      rw [base64Loop_invalid hroom ⟨hblank, hpad, hvalue⟩,
        base64Loop_invalid hroom ⟨hblank, hpad, hvalue⟩]
    | some v =>
      rw [base64Loop_collect hroom hvalue hpad hblank,
        base64Loop_collect hroom hvalue hpad hblank]
      exact ih

/-! ## Decoding an encoding -/

theorem putByte_eq (h : dst.length ≤ n - 1) : putByte n dst c = (dst ++ [c]).take (n - 1) := by
  unfold putByte
  split
  case isTrue hroom =>
    rw [List.take_of_length_le]
    rw [List.length_append, List.length_singleton]
    exact hroom
  case isFalse hfull => rw [List.take_append_of_le_length (by omega), List.take_of_length_le h]

theorem take_append_take (m : Nat) (x y : List UInt8) :
    (x.take m ++ y).take m = (x ++ y).take m := by
  rcases Nat.le_total x.length m with h | h
  · rw [List.take_of_length_le h]
  · rw [List.take_append_of_le_length h, List.take_append_of_le_length (by simp [h]),
      List.take_take, Nat.min_self]

theorem putGroup_eq (h : dst.length < n - 1) :
    putGroup n dst b₀ b₁ b₂ v =
      (dst ++ [byte₀ b₀ b₁, byte₁ b₁ b₂, byte₂ b₂ v]).take (n - 1) := by
  have hone : (dst ++ [byte₀ b₀ b₁]).length ≤ n - 1 := by
    rw [List.length_append, List.length_singleton]
    exact h
  rw [putGroup, putByte_eq hone, putByte_eq (by rw [List.length_take]; omega), take_append_take,
    List.append_assoc, List.append_assoc]
  rfl

/-- One of the first three symbols of a group is read. -/
theorem base64Loop_symbol (hroom : dst.length < n - 1) (hv : v < 64) (hbuf : buf.length < 3) :
    base64Loop n (symbol v :: src) buf dst = base64Loop n src (buf ++ [v]) dst := by
  obtain ⟨hvalue, hpad, hblank⟩ := symbol_spec hv
  rw [base64Loop_collect hroom hvalue hpad hblank, collect_few hbuf]

/-- The last symbol of a group is read. -/
theorem base64Loop_fourth (hroom : dst.length < n - 1) (hv : v < 64) :
    base64Loop n (symbol v :: src) [b₀, b₁, b₂] dst =
      base64Loop n src [] ((dst ++ [byte₀ b₀ b₁, byte₁ b₁ b₂, byte₂ b₂ v]).take (n - 1)) := by
  obtain ⟨hvalue, hpad, hblank⟩ := symbol_spec hv
  rw [base64Loop_collect hroom hvalue hpad hblank, ← putGroup_eq hroom]
  rfl

/-- Without room nothing more is decoded. -/
theorem base64Loop_stopped (h : dst.length ≤ n - 1) (hfull : n - 1 ≤ dst.length) :
    (base64Loop n src [] dst).map (base64Tail n) = some ((dst ++ s).take (n - 1)) := by
  rw [base64Loop_full hfull, List.take_append_of_le_length hfull, List.take_of_length_le h]
  rfl

/-- From a border between groups an encoding is decoded as far as there is room. -/
theorem base64Loop_encode (h : dst.length ≤ n - 1) :
    (base64Loop n (encode s) [] dst).map (base64Tail n) = some ((dst ++ s).take (n - 1)) := by
  induction s using encode.induct generalizing dst with
  | case1 a b c s ih =>
    by_cases hfull : n - 1 ≤ dst.length
    · exact base64Loop_stopped h hfull
    have hroom : dst.length < n - 1 := Nat.lt_of_not_le hfull
    rw [encode, base64Loop_symbol hroom value₀_lt (by simp),
      base64Loop_symbol hroom value₁_lt (by simp), base64Loop_symbol hroom value₂_lt (by simp)]
    simp only [List.nil_append, List.cons_append]
    rw [base64Loop_fourth hroom value₃_lt, byte₀_value, byte₁_value, byte₂_value]
    rw [ih (by rw [List.length_take]; omega), take_append_take, List.append_assoc]
    rfl
  | case2 a b =>
    by_cases hfull : n - 1 ≤ dst.length
    · exact base64Loop_stopped h hfull
    have hroom : dst.length < n - 1 := Nat.lt_of_not_le hfull
    have hone : (dst ++ [a]).length ≤ n - 1 := by
      rw [List.length_append, List.length_singleton]
      exact hroom
    rw [encode, base64Loop_symbol hroom value₀_lt (by simp),
      base64Loop_symbol hroom value₁_lt (by simp), base64Loop_symbol hroom value₂_lt (by simp),
      base64Loop_pad]
    simp only [List.nil_append, List.cons_append, Option.map_some, base64Tail, byte₀_value,
      byte₁_value, putByte_eq hone, List.append_assoc]
  | case3 a =>
    by_cases hfull : n - 1 ≤ dst.length
    · exact base64Loop_stopped h hfull
    have hroom : dst.length < n - 1 := Nat.lt_of_not_le hfull
    rw [encode, base64Loop_symbol hroom value₀_lt (by simp),
      base64Loop_symbol hroom value₁_lt (by simp), base64Loop_pad]
    simp only [List.nil_append, List.cons_append, Option.map_some, base64Tail, byte₀_value]
    rw [List.take_of_length_le]
    rw [List.length_append, List.length_singleton]
    exact hroom
  | case4 =>
    rw [encode, base64Loop, List.append_nil, List.take_of_length_le h]
    rfl

/-- The bytes decoded from any spelling of an encoding. -/
theorem base64Decode_encode (h : stripBlanks src = encode s) :
    base64Decode src n = some (s.take (n - 1)) := by
  rw [base64Decode_eq, base64Loop_strip, h]
  exact base64Loop_encode (Nat.zero_le _)

end

/-! ## The arrays of `base64_decode` -/

/-- `i`, `j`, the values collected in `buf`, and the array written to. -/
structure Base64Cursor where
  i : Nat
  j : Nat
  buf : List UInt8
  dst : List UInt8

/-- `if (j < dst_size - 1) dst[j++] = c`. -/
def putAt (dstSize j : Nat) (dst : List UInt8) (c : UInt8) : Option (Nat × List UInt8) :=
  if j < dstSize - 1 then do
    let dst ← store dst j c
    pure (j + 1, dst)
  else pure (j, dst)

/-- The bytes left in `buf`. -/
def putTail (dstSize : Nat) (s : Base64Cursor) : Option (Nat × List UInt8) :=
  match s.buf with
  | b₀ :: b₁ :: rest => do
    let dst ← store s.dst s.j (byte₀ b₀ b₁)
    match rest with
    | b₂ :: _ => putAt dstSize (s.j + 1) dst (byte₁ b₁ b₂)
    | [] => pure (s.j + 1, dst)
  | _ => pure (s.j, s.dst)

/-- What follows the loop: the bytes left in `buf`, the NUL and the answer. -/
def finishBase64 (dstSize : Nat) (s : Base64Cursor) : Option (Int × List UInt8) := do
  let (j, dst) ← putTail dstSize s
  let dst ← store dst j 0
  pure (j, dst)

/-- The writes of a full group. -/
def putGroupAt (dstSize j : Nat) (dst : List UInt8) (b₀ b₁ b₂ v : UInt8) :
    Option (Nat × List UInt8) := do
  let dst ← store dst j (byte₀ b₀ b₁)
  let (j, dst) ← putAt dstSize (j + 1) dst (byte₁ b₁ b₂)
  putAt dstSize j dst (byte₂ b₂ v)

/-- One pass of the loop of `base64_decode`. -/
def base64Step (src : List UInt8) (dstSize : Nat) (s : Base64Cursor) :
    Option (Step Base64Cursor (Int × List UInt8)) := do
  let c ← load src s.i
  if c ≠ 0 ∧ s.j < dstSize - 1 then
    if IsBlank c then pure (.next { s with i := s.i + 1 })
    else if c = 61 then (finishBase64 dstSize s).map .done
    else
      match base64Value c with
      | none => pure (.done (-1, s.dst))
      | some v =>
        match s.buf with
        | [b₀, b₁, b₂] =>
          (putGroupAt dstSize s.j s.dst b₀ b₁ b₂ v).map fun (j, dst) => .next ⟨s.i + 1, j, [], dst⟩
        | buf => pure (.next ⟨s.i + 1, s.j, buf ++ [v], s.dst⟩)
  else (finishBase64 dstSize s).map .done

/-- `base64_decode` on the arrays that `src` and `dst` point to. -/
def base64DecodeIn (src dst : List UInt8) (dstSize : Nat) : Option (Int × List UInt8) :=
  if dstSize = 0 then some (-1, dst)
  else (run (pass (base64Step src dstSize)) (src.length + 1) ⟨0, 0, [], dst⟩).join

/-- The arrays after the call: the bytes and a NUL are written, or the answer is -1. -/
def Answers (dst : List UInt8) : Option (List UInt8) → Option (Int × List UInt8) → Prop
  | some bytes, a => a = some ((bytes.length : Int), overlay (bytes ++ [0]) dst)
  | none, a => ∃ dst', a = some (-1, dst')

/-- Between the passes there is room for the NUL, and for a byte more while values are collected. -/
structure HasRoom (dstSize : Nat) (buf written : List UInt8) : Prop where
  nul : written.length + 1 ≤ dstSize
  byte : buf ≠ [] → written.length + 1 < dstSize

section

variable {n i : Nat} {c v b₀ b₁ b₂ : UInt8} {pre src rest buf written dst : List UInt8}

theorem length_putByte (h : written.length + 1 ≤ n) : (putByte n written c).length + 1 ≤ n := by
  unfold putByte
  split
  · rw [List.length_append, List.length_singleton]
    omega
  · exact h

theorem putAt_overlay (hdst : n ≤ dst.length) :
    putAt n written.length (overlay written dst) c =
      some ((putByte n written c).length, overlay (putByte n written c) dst) := by
  unfold putAt putByte
  split
  case isTrue hroom =>
    rw [store_overlay (by omega)]
    simp
  case isFalse => rfl

theorem putAt_snoc (hdst : n ≤ dst.length) (a : UInt8) :
    putAt n (written.length + 1) (overlay (written ++ [a]) dst) c =
      some ((putByte n (written ++ [a]) c).length, overlay (putByte n (written ++ [a]) c) dst) := by
  rw [← putAt_overlay hdst, List.length_append, List.length_singleton]

theorem putTail_overlay (hdst : n ≤ dst.length) (h : HasRoom n buf written) :
    putTail n ⟨i, written.length, buf, overlay written dst⟩ =
      some ((base64Tail n (buf, written)).length, overlay (base64Tail n (buf, written)) dst) := by
  match buf with
  | [] => rfl
  | [_] => rfl
  | [b₀, b₁] =>
    have hroom := h.byte (List.cons_ne_nil _ _)
    simp only [putTail, Option.bind_eq_bind]
    rw [store_overlay (by omega), Option.bind_some]
    simp [base64Tail]
  | b₀ :: b₁ :: b₂ :: buf =>
    have hroom := h.byte (List.cons_ne_nil _ _)
    simp only [putTail, Option.bind_eq_bind]
    rw [store_overlay (by omega), Option.bind_some, putAt_snoc hdst]
    rfl

theorem length_base64Tail (h : HasRoom n buf written) :
    (base64Tail n (buf, written)).length + 1 ≤ n := by
  match buf with
  | [] => exact h.nul
  | [_] => exact h.nul
  | [b₀, b₁] =>
    have hroom := h.byte (List.cons_ne_nil _ _)
    simp only [base64Tail, List.length_append, List.length_singleton]
    omega
  | b₀ :: b₁ :: b₂ :: buf =>
    have hroom := h.byte (List.cons_ne_nil _ _)
    apply length_putByte
    rw [List.length_append, List.length_singleton]
    omega

theorem finishBase64_overlay (hdst : n ≤ dst.length) (h : HasRoom n buf written) :
    finishBase64 n ⟨i, written.length, buf, overlay written dst⟩ =
      some (((base64Tail n (buf, written)).length : Int),
        overlay (base64Tail n (buf, written) ++ [0]) dst) := by
  have hlen := length_base64Tail h
  simp only [finishBase64, putTail_overlay hdst h, Option.bind_eq_bind, Option.bind_some]
  rw [store_overlay (by omega)]
  rfl

theorem putGroupAt_overlay (hdst : n ≤ dst.length) (hroom : written.length + 1 < n) :
    putGroupAt n written.length (overlay written dst) b₀ b₁ b₂ v =
      some ((putGroup n written b₀ b₁ b₂ v).length,
        overlay (putGroup n written b₀ b₁ b₂ v) dst) := by
  simp only [putGroupAt, Option.bind_eq_bind]
  rw [store_overlay (by omega), Option.bind_some, putAt_snoc hdst, Option.bind_some]
  exact putAt_overlay hdst

/-- What a pass does with a symbol. -/
theorem base64Step_symbol (hdst : n ≤ dst.length) (hroom : written.length + 1 < n) (hc : c ≠ 0)
    (hvalue : base64Value c = some v) (hpad : c ≠ 61) (hblank : ¬ IsBlank c) :
    base64Step (pre ++ c :: rest) n ⟨pre.length, written.length, buf, overlay written dst⟩ =
      some (.next ⟨(pre ++ [c]).length, (collect n buf written v).2.length,
        (collect n buf written v).1, overlay (collect n buf written v).2 dst⟩) := by
  have hstay : c ≠ 0 ∧ written.length < n - 1 := ⟨hc, by omega⟩
  rw [base64Step, load_append]
  simp only [Option.bind_eq_bind, Option.bind_some, if_pos hstay, if_neg hblank, if_neg hpad,
    hvalue, List.length_append, List.length_singleton]
  match buf with
  | [] => rfl
  | [_] => rfl
  | [_, _] => rfl
  | [b₀, b₁, b₂] =>
    simp only [putGroupAt_overlay hdst hroom]
    rfl
  | _ :: _ :: _ :: _ :: _ => rfl

theorem HasRoom.collect (h : written.length + 1 < n) :
    HasRoom n (collect n buf written v).1 (collect n buf written v).2 := by
  have hgroup : ∀ b₀ b₁ b₂, (putGroup n written b₀ b₁ b₂ v).length + 1 ≤ n := by
    intro b₀ b₁ b₂
    apply length_putByte
    apply length_putByte
    rw [List.length_append, List.length_singleton]
    omega
  have hmore : HasRoom n (buf ++ [v]) written := ⟨Nat.le_of_lt h, fun _ => h⟩
  match buf with
  | [] => exact hmore
  | [_] => exact hmore
  | [_, _] => exact hmore
  | [b₀, b₁, b₂] => exact ⟨hgroup b₀ b₁ b₂, fun hne => absurd rfl hne⟩
  | _ :: _ :: _ :: _ :: _ => exact hmore

/-- The loop is left at the NUL, when `dst` is full, and at the padding. -/
theorem base64Step_leave (hdst : n ≤ dst.length) (h : HasRoom n buf written)
    (hleave : c = 0 ∨ n ≤ written.length + 1 ∨ c = 61) :
    base64Step (pre ++ c :: rest) n ⟨pre.length, written.length, buf, overlay written dst⟩ =
      some (.done (((base64Tail n (buf, written)).length : Int),
        overlay (base64Tail n (buf, written) ++ [0]) dst)) := by
  rw [base64Step, load_append]
  simp only [Option.bind_eq_bind, Option.bind_some]
  split
  case isTrue hstay =>
    have hpad : c = 61 := by
      rcases hleave with h0 | hfull | hpad
      · exact absurd h0 hstay.1
      · omega
      · exact hpad
    have hblank : ¬ IsBlank 61 := by decide
    subst hpad
    rw [if_neg hblank, if_pos rfl, finishBase64_overlay hdst h]
    rfl
  case isFalse =>
    rw [finishBase64_overlay hdst h]
    rfl

theorem base64Step_blank (hroom : written.length + 1 < n) (hc : IsBlank c) :
    base64Step (pre ++ c :: rest) n ⟨pre.length, written.length, buf, overlay written dst⟩ =
      some (.next ⟨(pre ++ [c]).length, written.length, buf, overlay written dst⟩) := by
  have hne : c ≠ 0 := by
    rintro rfl
    revert hc
    decide
  have hstay : c ≠ 0 ∧ written.length < n - 1 := ⟨hne, by omega⟩
  rw [base64Step, load_append]
  simp only [Option.bind_eq_bind, Option.bind_some, if_pos hstay, if_pos hc, List.length_append,
    List.length_singleton]
  rfl

theorem base64Step_invalid (hroom : written.length + 1 < n) (hne : c ≠ 0) (hc : IsInvalid c) :
    base64Step (pre ++ c :: rest) n ⟨pre.length, written.length, buf, overlay written dst⟩ =
      some (.done (-1, overlay written dst)) := by
  obtain ⟨hblank, hpad, hvalue⟩ := hc
  have hstay : c ≠ 0 ∧ written.length < n - 1 := ⟨hne, by omega⟩
  rw [base64Step, load_append]
  simp only [Option.bind_eq_bind, Option.bind_some, if_pos hstay, if_neg hblank, if_neg hpad,
    hvalue]
  rfl

/-- **On the arrays.** From a state with room the loop answers what `base64Loop` says, and no write
is outside `dst`. -/
theorem run_base64 (rest : List UInt8) (hdst : n ≤ dst.length) (fuel : Nat) :
    ∀ (src pre buf written : List UInt8), 0 ∉ src → src.length < fuel → HasRoom n buf written →
      ∃ a, run (pass (base64Step (pre ++ (src ++ 0 :: rest)) n)) fuel
          ⟨pre.length, written.length, buf, overlay written dst⟩ = some a ∧
        Answers dst ((base64Loop n src buf written).map (base64Tail n)) a := by
  induction fuel with
  | zero => exact fun _ _ _ _ _ hlt => absurd hlt (Nat.not_lt_zero _)
  | succ fuel ih =>
    intro src pre buf written hnul hlt h
    cases src with
    | nil =>
      refine ⟨_, run_pass_done (base64Step_leave hdst h (.inl rfl)), ?_⟩
      rw [base64Loop]
      rfl
    | cons c src =>
      have hc : c ≠ 0 := fun h => hnul (h ▸ List.mem_cons_self)
      have hnul' : 0 ∉ src := List.not_mem_of_not_mem_cons hnul
      have hlt' : src.length < fuel := by simpa using hlt
      rw [List.cons_append]
      by_cases hfull : n ≤ written.length + 1
      · refine ⟨_, run_pass_done (base64Step_leave hdst h (.inr (.inl hfull))), ?_⟩
        rw [base64Loop_full (by omega)]
        rfl
      have hroom : written.length + 1 < n := Nat.lt_of_not_le hfull
      by_cases hpad : c = 61
      · refine ⟨_, run_pass_done (base64Step_leave hdst h (.inr (.inr hpad))), ?_⟩
        rw [hpad, base64Loop_pad]
        rfl
      by_cases hblank : IsBlank c
      · obtain ⟨a, hrun, ha⟩ := ih src (pre ++ [c]) buf written hnul' hlt' h
        rw [List.append_assoc] at hrun
        refine ⟨a, ?_, ?_⟩
        · rw [run_pass_next (base64Step_blank hroom hblank)]
          exact hrun
        · rw [base64Loop_blank hblank]
          exact ha
      cases hvalue : base64Value c with
      | none =>
        have hinvalid : IsInvalid c := ⟨hblank, hpad, hvalue⟩
        refine ⟨_, run_pass_done (base64Step_invalid hroom hc hinvalid), ?_⟩
        rw [base64Loop_invalid (by omega) hinvalid]
        exact ⟨_, rfl⟩
      | some v =>
        obtain ⟨a, hrun, ha⟩ := ih src (pre ++ [c]) (collect n buf written v).1
          (collect n buf written v).2 hnul' hlt' (HasRoom.collect hroom)
        rw [List.append_assoc] at hrun
        refine ⟨a, ?_, ?_⟩
        · rw [run_pass_next (base64Step_symbol hdst hroom hc hvalue hpad hblank)]
          exact hrun
        · rw [base64Loop_collect (by omega) hvalue hpad hblank]
          exact ha

/-- The arrays hold what the model of strings gives. -/
theorem base64DecodeIn_answers {src : List UInt8} (rest : List UInt8) (hnul : 0 ∉ src)
    (hpos : 0 < n) (hdst : n ≤ dst.length) :
    Answers dst (base64Decode src n) (base64DecodeIn (src ++ 0 :: rest) dst n) := by
  obtain ⟨a, hrun, ha⟩ := run_base64 rest hdst _ src [] [] [] hnul (length_lt_fuel src 0 rest)
    ⟨hpos, fun hne => absurd rfl hne⟩
  rw [base64DecodeIn, if_neg (Nat.ne_of_gt hpos)]
  change run (pass (base64Step (src ++ 0 :: rest) n)) _ ⟨0, 0, [], dst⟩ = _ at hrun
  rw [hrun]
  exact ha

end

/-! ## The round trip -/

section

variable {src s : List UInt8} {dstSize : Nat}

theorem notMem_of_encode (h : stripBlanks src = encode s) : 0 ∉ src := by
  have hblank : ¬ IsBlank 0 := by decide
  have hvalue : base64Value 0 = none := by decide
  intro hmem
  have hkept : 0 ∈ stripBlanks src := List.mem_filter.mpr ⟨hmem, decide_eq_true hblank⟩
  rw [h] at hkept
  rcases mem_encode hkept with h0 | ⟨v, hv, h0⟩
  · exact absurd h0 (by decide)
  · have hsymbol := (symbol_spec hv).1
    rw [← h0, hvalue] at hsymbol
    cases hsymbol

/-- **Decoding undoes encoding.** Whatever blanks stand in the encoding, the bytes that fit are
written with a NUL behind them. An array of `dst_size` bytes is enough, so no index at or beyond
`dst_size` is written. -/
theorem base64DecodeIn_encode (s src rest dst : List UInt8) (dstSize : Nat) (hpos : 0 < dstSize)
    (hdst : dstSize ≤ dst.length) (h : stripBlanks src = encode s) :
    base64DecodeIn (src ++ 0 :: rest) dst dstSize =
      some (((min s.length (dstSize - 1) : Nat) : Int),
        s.take (dstSize - 1) ++ 0 :: dst.drop (min s.length (dstSize - 1) + 1)) := by
  have hanswers := base64DecodeIn_answers rest (notMem_of_encode h) hpos hdst
  rw [base64Decode_encode h] at hanswers
  rw [hanswers, overlay, List.length_append, List.length_take, List.length_singleton,
    Nat.min_comm (dstSize - 1), List.append_assoc, List.singleton_append]

/-- `A:B` is decoded into an array of three bytes. -/
theorem base64DecodeIn_encode_pair :
    base64DecodeIn (ascii "QT\r\n pC" ++ [0]) [7, 7, 7] 3 = some (2, [65, 58, 0]) :=
  base64DecodeIn_encode (ascii "A:B") (ascii "QT\r\n pC") [] [7, 7, 7] 3 (by decide) (by decide)
    (by decide)

end

/-! ## What is accepted -/

section

variable {n : Nat} {c v : UInt8} {src buf dst : List UInt8}

theorem meetsInvalid_cons : MeetsInvalid (c :: src) ↔ IsInvalid c ∨ c ≠ 61 ∧ MeetsInvalid src := by
  constructor
  · rintro ⟨x, d, y, hsplit, hx, hd⟩
    cases x with
    | nil =>
      obtain ⟨rfl, -⟩ := List.cons.inj hsplit
      exact .inl hd
    | cons b x =>
      obtain ⟨rfl, hrest⟩ := List.cons.inj hsplit
      exact .inr ⟨fun h => hx (h ▸ List.mem_cons_self),
        x, d, y, hrest, List.not_mem_of_not_mem_cons hx, hd⟩
  · rintro (hc | ⟨hne, x, d, y, rfl, hx, hd⟩)
    · exact ⟨[], c, src, rfl, List.not_mem_nil, hc⟩
    · exact ⟨c :: x, d, y, rfl, List.not_mem_cons_of_ne_of_not_mem (Ne.symm hne) hx, hd⟩

theorem length_putByte_le : (putByte n dst c).length ≤ dst.length + 1 := by
  unfold putByte
  split
  · simp
  · omega

theorem length_collect (n : Nat) (buf dst : List UInt8) (v : UInt8) :
    (collect n buf dst v).2.length + (collect n buf dst v).1.length
      ≤ dst.length + buf.length + 1 := by
  have hgroup : ∀ b₀ b₁ b₂, (putGroup n dst b₀ b₁ b₂ v).length ≤ dst.length + 3 := by
    intro b₀ b₁ b₂
    refine Nat.le_trans length_putByte_le (Nat.succ_le_succ ?_)
    refine Nat.le_trans length_putByte_le (Nat.succ_le_succ ?_)
    simp
  match buf with
  | [] => exact Nat.le_refl _
  | [_] => exact Nat.le_refl _
  | [_, _] => exact Nat.le_refl _
  | [b₀, b₁, b₂] => exact Nat.le_succ_of_le (hgroup b₀ b₁ b₂)
  | _ :: _ :: _ :: _ :: _ => simp [collect]; omega

/-- With room for every symbol the loop fails only at an invalid character. -/
theorem base64Loop_eq_none_iff (h : dst.length + buf.length + src.length < n) :
    base64Loop n src buf dst = none ↔ MeetsInvalid src := by
  induction src generalizing buf dst with
  | nil =>
    rw [base64Loop]
    refine iff_of_false nofun ?_
    rintro ⟨x, c, y, hsplit, -⟩
    exact List.append_ne_nil_of_right_ne_nil x (List.cons_ne_nil c y) hsplit.symm
  | cons c src ih =>
    rw [List.length_cons] at h
    have hroom : dst.length < n - 1 := by omega
    rw [meetsInvalid_cons]
    by_cases hinvalid : IsInvalid c
    · exact iff_of_true (base64Loop_invalid hroom hinvalid) (.inl hinvalid)
    rw [or_iff_right hinvalid]
    by_cases hpad : c = 61
    · rw [hpad, base64Loop_pad]
      exact iff_of_false nofun fun h => h.1 rfl
    rw [and_iff_right hpad]
    by_cases hblank : IsBlank c
    · rw [base64Loop_blank hblank]
      exact ih (by omega)
    · obtain ⟨v, hvalue⟩ := Option.ne_none_iff_exists'.mp fun hno => hinvalid ⟨hblank, hpad, hno⟩
      rw [base64Loop_collect hroom hvalue hpad hblank]
      have hlen := length_collect n buf dst v
      exact ih (by omega)

theorem base64Decode_eq_none_iff (h : src.length < n) :
    base64Decode src n = none ↔ MeetsInvalid src := by
  rw [base64Decode_eq, Option.map_eq_none_iff]
  exact base64Loop_eq_none_iff (by simpa using h)

/-- Symbols, padding and blanks only. -/
theorem IsBase64.not_meetsInvalid (h : IsBase64 src) : ¬ MeetsInvalid src := by
  rintro ⟨x, c, y, rfl, -, hblank, hpad, hvalue⟩
  obtain ⟨s, hs⟩ := h
  have hkept : c ∈ stripBlanks (x ++ c :: y) :=
    List.mem_filter.mpr ⟨by simp, decide_eq_true hblank⟩
  rw [hs] at hkept
  rcases mem_encode hkept with h61 | ⟨v, hv, rfl⟩
  · exact hpad h61
  · rw [(symbol_spec hv).1] at hvalue
    cases hvalue

end

/-- What is wanted of `base64_decode` with a `dst` that is large enough: the encodings of `n` bytes
are answered with `n`, and everything else with -1. -/
def DecodesStrictly (src : CStr) : Prop :=
  ∀ dst dstSize, src.length < dstSize → dstSize ≤ dst.length →
    (∀ n : Nat, (∃ dst', base64DecodeIn (src ++ [0]) dst dstSize = some ((n : Int), dst')) ↔
      ∃ s, s.length = n ∧ stripBlanks src = encode s) ∧
    (¬ IsBase64 src → ∃ dst', base64DecodeIn (src ++ [0]) dst dstSize = some (-1, dst'))

/-- What is wanted of an `Authorization` header with that value, on a route that requires a role
and without a session: 400 if it is not Base64. -/
def RefusesMalformed (src : CStr) : Prop :=
  ∀ rt creds req now sessions sessions' result e, req.authorization.length < 256 →
    isBasic req.authorization = true → req.authorization.drop 6 = src →
    routeTableFind rt req.method req.path = some result → result.is405 = false →
    result.entry = some e → e.requiredRole ≠ [] →
    cookieRole req.cookie now sessions = some (none, sessions') → ¬ IsBase64 src →
    requestHandlerProcessHttp rt creds req now sessions = some (.badRequest, sessions')

section

variable {src : CStr}

/-- An encoding is longer than what it encodes. -/
theorem length_le_of_encode {s : List UInt8} {dstSize : Nat} (h : stripBlanks src = encode s)
    (hlen : src.length < dstSize) : s.length ≤ dstSize - 1 := by
  have hshort : (stripBlanks src).length ≤ src.length := List.length_filter_le _ _
  rw [h, length_encode] at hshort
  omega

theorem decodesStrictly_of_isBase64 (h : IsBase64 src) : DecodesStrictly src := by
  obtain ⟨s, hs⟩ := h
  intro dst dstSize hlen hdst
  have hdecode := base64Decode_encode (n := dstSize) hs
  have hall : s.length ≤ dstSize - 1 := length_le_of_encode hs hlen
  have hanswers := base64DecodeIn_answers [] (notMem_of_encode hs) (Nat.zero_lt_of_lt hlen) hdst
  rw [hdecode, List.take_of_length_le hall] at hanswers
  refine ⟨fun n => ⟨?_, ?_⟩, fun hno => absurd ⟨s, hs⟩ hno⟩
  · rintro ⟨dst', hdst'⟩
    rw [hanswers] at hdst'
    obtain ⟨hn, -⟩ := Prod.mk.inj (Option.some.inj hdst')
    exact ⟨s, Int.ofNat_inj.mp hn, hs⟩
  · rintro ⟨s', hn, hs'⟩
    have hsame := base64Decode_encode (n := dstSize) hs'
    have hall' : s'.length ≤ dstSize - 1 := length_le_of_encode hs' hlen
    rw [hdecode, List.take_of_length_le hall, List.take_of_length_le hall', Option.some_inj]
      at hsame
    rw [← hn, ← hsame]
    exact ⟨_, hanswers⟩

theorem decodesStrictly_of_meetsInvalid (hnul : 0 ∉ src) (h : MeetsInvalid src) :
    DecodesStrictly src := by
  intro dst dstSize hlen hdst
  have hanswers := base64DecodeIn_answers [] hnul (Nat.zero_lt_of_lt hlen) hdst
  rw [(base64Decode_eq_none_iff hlen).mpr h] at hanswers
  obtain ⟨dst', hdst'⟩ := hanswers
  refine ⟨fun n => iff_of_false ?_ ?_, fun _ => ⟨dst', hdst'⟩⟩
  · rintro ⟨dst'', hn⟩
    rw [hdst'] at hn
    obtain ⟨hneg, -⟩ := Prod.mk.inj (Option.some.inj hn)
    omega
  · rintro ⟨s, -, hs⟩
    exact IsBase64.not_meetsInvalid ⟨s, hs⟩ h

/-- Without an invalid character in front of the padding something is decoded. -/
theorem not_decodesStrictly (hnul : 0 ∉ src) (hno : ¬ IsBase64 src) (h : DecodesStrictly src) :
    MeetsInvalid src := by
  obtain ⟨-, hrefused⟩ := h (List.replicate (src.length + 1) 0) (src.length + 1)
    (Nat.lt_succ_self _) (by simp)
  obtain ⟨dst', hdst'⟩ := hrefused hno
  have hanswers := base64DecodeIn_answers [] hnul (Nat.succ_pos src.length)
    (show src.length + 1 ≤ (List.replicate (src.length + 1) (0 : UInt8)).length by simp)
  apply (base64Decode_eq_none_iff (Nat.lt_succ_self src.length)).mp
  cases hdecode : base64Decode src (src.length + 1) with
  | none => rfl
  | some bytes =>
    rw [hdecode, hdst'] at hanswers
    obtain ⟨hneg, -⟩ := Prod.mk.inj (Option.some.inj hanswers)
    omega

theorem refusesMalformed_of (h : IsBase64 src ∨ MeetsInvalid src) : RefusesMalformed src := by
  intro rt creds req now sessions sessions' result e hlen hbasic hdrop hfind h405 hentry hrole
    hcookie hno
  have hinvalid : MeetsInvalid src := h.resolve_left hno
  have hshort : src.length < 256 := by
    rw [← hdrop, List.length_drop]
    omega
  have huser : basicUser req.authorization = none := by
    rw [basicUser, if_pos hbasic, hdrop, (base64Decode_eq_none_iff hshort).mpr hinvalid]
    rfl
  rw [requestHandlerProcessHttp, hfind, Option.bind_some]
  simp only [h405, hentry, if_pos hrole, authGate, hcookie, basicRole, huser]
  rfl

end

/-- **Only Base64 is accepted** exactly if the string is Base64 or has an invalid character in
front of the first `=`. -/
theorem base64_strict_iff (src : CStr) (hnul : 0 ∉ src) :
    DecodesStrictly src ∧ RefusesMalformed src ↔ IsBase64 src ∨ MeetsInvalid src := by
  constructor
  · rintro ⟨h, -⟩
    by_cases hbase : IsBase64 src
    · exact .inl hbase
    · exact .inr (not_decodesStrictly hnul hbase h)
  · intro h
    refine ⟨?_, refusesMalformed_of h⟩
    cases h with
    | inl h => exact decodesStrictly_of_isBase64 h
    | inr h => exact decodesStrictly_of_meetsInvalid hnul h

/-- An encoding of two bytes. -/
theorem base64_strict_padded :
    DecodesStrictly (ascii "QUI=") ∧ RefusesMalformed (ascii "QUI=") :=
  (base64_strict_iff (ascii "QUI=") (by decide)).mpr (.inl ⟨ascii "AB", by decide⟩)

/-- One byte is decoded from two symbols without padding, which is no encoding. -/
theorem unpadded_accepted :
    base64DecodeIn (ascii "QQ" ++ [0]) [0, 0, 0] 3 = some (1, [65, 0, 0]) ∧
      ¬ IsBase64 (ascii "QQ") := by
  refine ⟨by decide, ?_⟩
  rintro ⟨s, hs⟩
  have hlen := congrArg List.length hs
  rw [length_encode] at hlen
  have htwo : (stripBlanks (ascii "QQ")).length = 2 := by decide
  omega

end MiniWeb.RequestHandler
