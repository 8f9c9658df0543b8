import MiniWeb.Lib.Buffer
import MiniWeb.RequestHandler.DeleteForm

/-!
# The two URL decoders

`url_decode` copies a form value into another buffer, `url_decode_path` decodes a path segment in
the buffer it reads. Both are modelled on the arrays they are given, with their indices, and shown
to leave there what `urlDecodeLoop` and `urlDecodeBytes` say; a source that ends at its NUL
suffices, so nothing behind the NUL is read.
-/

namespace MiniWeb.RequestHandler

open Loop CStr Buffer

/-! ## Encodings -/

/-- The byte `%XX` stands for. -/
def hexByte (high low : UInt8) : UInt8 := 16 * xdigitValue high + xdigitValue low

/-- `e` encodes `s`: each byte is written as it is, though not `%`, or as `%XX` with digits of
either case. In a form `+` and `&` are not written as they are, and `+` stands for a blank. -/
inductive UrlEncodes (form : Bool) : CStr → CStr → Prop where
  | nil : UrlEncodes form [] []
  | literal {c : UInt8} {s e : CStr} (hpercent : c ≠ 37)
      (hform : form = true → c ≠ 43 ∧ c ≠ 38) (h : UrlEncodes form s e) :
      UrlEncodes form (c :: s) (c :: e)
  | escape {high low : UInt8} {s e : CStr} (hhigh : isXDigit high = true)
      (hlow : isXDigit low = true) (h : UrlEncodes form s e) :
      UrlEncodes form (hexByte high low :: s) (37 :: high :: low :: e)
  | plus {s e : CStr} (hform : form = true) (h : UrlEncodes form s e) :
      UrlEncodes form (32 :: s) (43 :: e)

/-- Two hex digits come first. -/
def startsWithHex : CStr → Bool
  | high :: low :: _ => isXDigit high && isXDigit low
  | _ => false

/-- Some `%` is not followed by two hex digits. -/
def HasBadEscape (s : CStr) : Prop := ∃ x y, s = x ++ 37 :: y ∧ startsWithHex y = false

/-- The part of a form in front of the next parameter. -/
def formPart (src : CStr) : CStr := src.takeWhile (· ≠ 38)

section

variable {c high low : UInt8} {s e tail rest : CStr}

theorem isXDigit_ne {d : UInt8} (h : isXDigit c = true) (hd : isXDigit d = false) : c ≠ d := by
  rintro rfl
  rw [h] at hd
  cases hd

theorem startsWithHex_iff {y : CStr} : startsWithHex y = true ↔
    ∃ high low rest, y = high :: low :: rest ∧ isXDigit high = true ∧ isXDigit low = true := by
  match y with
  | [] => simp [startsWithHex]
  | [_] => simp [startsWithHex]
  | high :: low :: rest => simp [startsWithHex]

/-! ## Bytes of a path -/

theorem urlDecodeBytes_escape (hhigh : isXDigit high = true) (hlow : isXDigit low = true) :
    urlDecodeBytes (37 :: high :: low :: rest) = hexByte high low :: urlDecodeBytes rest := by
  rw [urlDecodeBytes, if_pos ⟨rfl, hhigh, hlow⟩, hexByte]

theorem urlDecodeBytes_copy (h : c = 37 → startsWithHex rest = false) :
    urlDecodeBytes (c :: rest) = c :: urlDecodeBytes rest := by
  match rest with
  | [] => rfl
  | [_] => rfl
  | high :: low :: rest =>
    rw [urlDecodeBytes, if_neg]
    rintro ⟨hc, hhigh, hlow⟩
    have hbad := h hc
    rw [startsWithHex, hhigh, hlow] at hbad
    cases hbad

theorem UrlEncodes.path (h : UrlEncodes false s e) : urlDecodeBytes e = s := by
  induction h with
  | nil => rfl
  | literal hpercent _ _ ih => rw [urlDecodeBytes_copy fun hc => absurd hc hpercent, ih]
  | escape hhigh hlow _ ih => rw [urlDecodeBytes_escape hhigh hlow, ih]
  | plus hform => cases hform

/-- A `%` starts anew: what is in front of it and what follows are decoded apart. -/
theorem urlDecodeBytes_append (x y : CStr) :
    urlDecodeBytes (x ++ 37 :: y) = urlDecodeBytes x ++ urlDecodeBytes (37 :: y) := by
  induction x using urlDecodeBytes.induct with
  | case1 c high low rest hesc ih =>
    obtain ⟨rfl, hhigh, hlow⟩ := hesc
    rw [urlDecodeBytes_escape hhigh hlow, List.cons_append, List.cons_append, List.cons_append,
      urlDecodeBytes_escape hhigh hlow, ih, List.cons_append]
  | case2 c high low rest hesc ih =>
    have hcopy : ∀ rest', c = 37 → startsWithHex (high :: low :: rest') = false := by
      intro rest' hc
      rw [startsWithHex, Bool.and_eq_false_iff, ← Bool.not_eq_true, ← Bool.not_eq_true]
      tauto
    rw [urlDecodeBytes_copy (hcopy rest), List.cons_append, List.cons_append, List.cons_append,
      urlDecodeBytes_copy (hcopy _), List.cons_append]
    rw [List.cons_append, List.cons_append] at ih
    rw [ih]
  | case3 x hshort =>
    have hpercent : isXDigit 37 = false := by decide
    match x with
    | [] => rfl
    | [c] =>
      rw [List.singleton_append, urlDecodeBytes_copy]
      · rfl
      · intro _
        cases y with
        | nil => rfl
        | cons b y => rw [startsWithHex, hpercent, Bool.false_and]
    | [c, d] =>
      rw [List.cons_append, List.singleton_append, urlDecodeBytes_copy, urlDecodeBytes_copy]
      · rfl
      · intro _
        cases y with
        | nil => rfl
        | cons b y => rw [startsWithHex, hpercent, Bool.false_and]
      · intro _
        rw [startsWithHex, hpercent, Bool.and_false]
    | c :: high :: low :: rest => exact absurd rfl (hshort c high low rest)

/-- A bad `%` of a path is copied. -/
theorem urlDecodeBytes_bad {x y : CStr} (h : startsWithHex y = false) :
    urlDecodeBytes (x ++ 37 :: y) = urlDecodeBytes x ++ 37 :: urlDecodeBytes y := by
  rw [urlDecodeBytes_append, urlDecodeBytes_copy fun _ => h]

/-! ## Bytes of a form value -/

theorem formBytes_escape (hhigh : isXDigit high = true) (hlow : isXDigit low = true) :
    formBytes (37 :: high :: low :: rest) =
      (hexByte high low :: (formBytes rest).1, (formBytes rest).2) := by
  rw [formBytes, if_pos rfl, if_pos ⟨hhigh, hlow⟩, hexByte]

theorem formBytes_bad (h : startsWithHex rest = false) :
    formBytes (37 :: rest) = ([], false) := by
  match rest with
  | [] => decide
  | [_] =>
    rw [formBytes, if_pos rfl]
    intro _ _ _ hcons
    cases hcons
  | high :: low :: rest =>
    have hdigits : ¬(isXDigit high = true ∧ isXDigit low = true) := by
      rw [← Bool.and_eq_true]
      exact Bool.eq_false_iff.mp h
    rw [formBytes, if_pos rfl, if_neg hdigits]

theorem formBytes_plus :
    formBytes (43 :: rest) = (32 :: (formBytes rest).1, (formBytes rest).2) := by
  rw [formBytes.eq_def (43 :: rest)]
  rfl

theorem formBytes_end : formBytes (38 :: rest) = ([], true) := by
  rw [formBytes.eq_def]
  rfl

theorem formBytes_copy (hpercent : c ≠ 37) (hplus : c ≠ 43) (hend : c ≠ 38) :
    formBytes (c :: rest) = (c :: (formBytes rest).1, (formBytes rest).2) := by
  rw [formBytes.eq_def (c :: rest)]
  simp only [if_neg hpercent, if_neg hplus, if_neg hend]

/-- A form value ends at the end of the body or at the next parameter. -/
theorem UrlEncodes.value (h : UrlEncodes true s e) (htail : ∀ c ∈ tail.head?, c = 38) :
    formBytes (e ++ tail) = (s, true) := by
  induction h with
  | nil =>
    cases tail with
    | nil => rfl
    | cons c tail =>
      rw [htail c rfl]
      exact formBytes_end
  | literal hpercent hform _ ih =>
    obtain ⟨hplus, hend⟩ := hform rfl
    rw [List.cons_append, formBytes_copy hpercent hplus hend, ih]
  | escape hhigh hlow _ ih =>
    rw [List.cons_append, List.cons_append, List.cons_append, formBytes_escape hhigh hlow, ih]
  | plus _ _ ih => rw [List.cons_append, formBytes_plus, ih]

/-! ## Bad escapes -/

theorem not_hasBadEscape_nil : ¬ HasBadEscape [] := by
  rintro ⟨x, y, hsplit, -⟩
  exact List.append_ne_nil_of_right_ne_nil x (List.cons_ne_nil 37 y) hsplit.symm

theorem hasBadEscape_cons (h : c = 37 → startsWithHex s = true) :
    HasBadEscape (c :: s) ↔ HasBadEscape s := by
  constructor
  · rintro ⟨x, y, hsplit, hbad⟩
    cases x with
    | nil =>
      obtain ⟨hc, hs⟩ := List.cons.inj hsplit
      rw [← hs, h hc] at hbad
      cases hbad
    | cons b x => exact ⟨x, y, (List.cons.inj hsplit).2, hbad⟩
  · rintro ⟨x, y, rfl, hbad⟩
    exact ⟨c :: x, y, rfl, hbad⟩

theorem hasBadEscape_escape (hhigh : isXDigit high = true) (hlow : isXDigit low = true) :
    HasBadEscape (37 :: high :: low :: s) ↔ HasBadEscape s := by
  have hpercent : isXDigit 37 = false := by decide
  have hstart : startsWithHex (high :: low :: s) = true := by
    rw [startsWithHex, hhigh, hlow]
    rfl
  rw [hasBadEscape_cons fun _ => hstart,
    hasBadEscape_cons fun hc => absurd hc (isXDigit_ne hhigh hpercent),
    hasBadEscape_cons fun hc => absurd hc (isXDigit_ne hlow hpercent)]

theorem hasBadEscape_bad (h : startsWithHex s = false) : HasBadEscape (37 :: s) := ⟨[], s, rfl, h⟩

theorem formPart_cons (h : c ≠ 38) : formPart (c :: s) = c :: formPart s :=
  List.takeWhile_cons_of_pos (decide_eq_true h)

theorem formPart_end : formPart (38 :: s) = [] := rfl

/-- A `&` is not a hex digit. -/
theorem startsWithHex_formPart : startsWithHex (formPart s) = startsWithHex s := by
  have hend : isXDigit 38 = false := by decide
  match s with
  | [] => rfl
  | [c] =>
    by_cases hc : c = 38
    · rw [hc]
      rfl
    · rw [formPart_cons hc]
      rfl
  | high :: low :: rest =>
    by_cases hh : high = 38
    · rw [hh, formPart_end, startsWithHex, hend]
      rfl
    rw [formPart_cons hh]
    by_cases hl : low = 38
    · rw [hl, formPart_end, startsWithHex, hend, Bool.and_false]
      rfl
    rw [formPart_cons hl]
    rfl

theorem refused_bad (h : startsWithHex rest = false) :
    ((formBytes (37 :: rest)).2 = false ↔ HasBadEscape (formPart (37 :: rest))) ∧
      ((formBytes (37 :: rest)).2 = false →
        (formBytes (37 :: rest)).1.length < (urlDecodeBytes (formPart (37 :: rest))).length) := by
  rw [← startsWithHex_formPart] at h
  rw [formPart_cons (by decide), formBytes_bad (startsWithHex_formPart ▸ h),
    urlDecodeBytes_copy fun _ => h]
  exact ⟨iff_of_true rfl (hasBadEscape_bad h), fun _ => Nat.succ_pos _⟩

/-- A value is refused for a bad escape, and the bytes in front of it are then fewer than those
of the whole part. -/
theorem formBytes_refused (src : CStr) :
    ((formBytes src).2 = false ↔ HasBadEscape (formPart src)) ∧
      ((formBytes src).2 = false →
        (formBytes src).1.length < (urlDecodeBytes (formPart src)).length) := by
  have hend : isXDigit 38 = false := by decide
  have hgood : ¬true = false := by decide
  induction src using formBytes.induct with
  | case1 =>
    rw [formBytes]
    exact ⟨iff_of_false hgood not_hasBadEscape_nil, fun h => absurd h hgood⟩
  | case2 high low rest hdigits ih =>
    obtain ⟨hhigh, hlow⟩ := hdigits
    have hpart : formPart (37 :: high :: low :: rest) = 37 :: high :: low :: formPart rest := by
      rw [formPart_cons (by decide), formPart_cons (isXDigit_ne hhigh hend),
        formPart_cons (isXDigit_ne hlow hend)]
    rw [hpart, formBytes_escape hhigh hlow, hasBadEscape_escape hhigh hlow,
      urlDecodeBytes_escape hhigh hlow]
    exact ⟨ih.1, fun h => Nat.succ_lt_succ (ih.2 h)⟩
  | case3 high low rest hdigits =>
    have hbad : startsWithHex (high :: low :: rest) = false := by
      rw [startsWithHex, Bool.eq_false_iff, ne_eq, Bool.and_eq_true]
      exact hdigits
    exact refused_bad hbad
  | case4 rest hshort =>
    have hbad : startsWithHex rest = false := by
      rw [Bool.eq_false_iff, ne_eq, startsWithHex_iff]
      rintro ⟨high, low, tail, hrest, -⟩
      exact hshort high low tail hrest
    exact refused_bad hbad
  | case5 rest _ ih =>
    have hplus : (43 : UInt8) ≠ 37 := by decide
    rw [formPart_cons (by decide), formBytes_plus, hasBadEscape_cons fun hc => absurd hc hplus,
      urlDecodeBytes_copy fun hc => absurd hc hplus]
    exact ⟨ih.1, fun h => Nat.succ_lt_succ (ih.2 h)⟩
  | case6 rest =>
    rw [formPart_end, formBytes_end]
    exact ⟨iff_of_false hgood not_hasBadEscape_nil, fun h => absurd h hgood⟩
  | case7 c rest hpercent hplus hamp ih =>
    rw [formPart_cons hamp, formBytes_copy hpercent hplus hamp,
      hasBadEscape_cons fun hc => absurd hc hpercent,
      urlDecodeBytes_copy fun hc => absurd hc hpercent]
    exact ⟨ih.1, fun h => Nat.succ_lt_succ (ih.2 h)⟩

end

/-! ## The arrays of `url_decode_path` -/

/-- `isxdigit(p[1]) && isxdigit(p[2])`; the second byte is not read if the first is no digit. -/
def hexDigitsAt (buf : List UInt8) (p : Nat) : Option Bool := do
  let high ← load buf (p + 1)
  if isXDigit high then
    let low ← load buf (p + 2)
    pure (isXDigit low)
  else pure false

/-- `*p == '%' && isxdigit(p[1]) && isxdigit(p[2])`. -/
def escapeAt (buf : List UInt8) (p : Nat) : Option Bool := do
  let c ← load buf p
  if c = 37 then hexDigitsAt buf p else pure false

/-- `strtol(hex, NULL, 16)` on `p[1]` and `p[2]`. -/
def hexByteAt (buf : List UInt8) (p : Nat) : Option UInt8 := do
  let high ← load buf (p + 1)
  let low ← load buf (p + 2)
  pure (hexByte high low)

/-- The buffer and the two pointers into it. -/
structure PathCursor where
  buf : List UInt8
  p : Nat
  q : Nat

/-- One pass of the loop of `url_decode_path`, with the NUL written at the end, on an object that
is written by `put`. -/
def urlDecodePathStep (put : List UInt8 → Nat → UInt8 → Option (List UInt8)) (s : PathCursor) :
    Option (Step PathCursor (List UInt8)) := do
  let c ← load s.buf s.p
  if c = 0 then
    let buf ← put s.buf s.q 0
    pure (.done buf)
  else
    let escape ← escapeAt s.buf s.p
    if escape then
      let byte ← hexByteAt s.buf s.p
      let buf ← put s.buf s.q byte
      pure (.next ⟨buf, s.p + 3, s.q + 1⟩)
    else
      let buf ← put s.buf s.q c
      pure (.next ⟨buf, s.p + 1, s.q + 1⟩)

/-- `url_decode_path` on an object. -/
def urlDecodePathOn (put : List UInt8 → Nat → UInt8 → Option (List UInt8)) (buf : List UInt8) :
    Option (List UInt8) :=
  (run (pass (urlDecodePathStep put)) (buf.length + 1) ⟨buf, 0, 0⟩).join

/-- `url_decode_path` on the array that `src` points to. -/
def urlDecodePathIn (buf : List UInt8) : Option (List UInt8) := urlDecodePathOn store buf

section

variable {c high low byte : UInt8} {x src rest written gap : List UInt8}

/-- The two bytes behind a `%` are read only as far as digits go, so a NUL ends it. -/
theorem hexDigitsAt_append (x src rest : List UInt8) :
    hexDigitsAt (x ++ 37 :: (src ++ 0 :: rest)) x.length = some (startsWithHex src) := by
  have hzero : isXDigit 0 = false := by decide
  unfold hexDigitsAt
  rw [load_add, load_add]
  match src with
  | [] => rfl
  | [high] => simp [load, startsWithHex, hzero]
  | high :: low :: src => cases hhigh : isXDigit high <;> simp [load, startsWithHex, hhigh]

theorem escapeAt_copy (hcopy : c = 37 → startsWithHex src = false) :
    escapeAt (x ++ c :: (src ++ 0 :: rest)) x.length = some false := by
  rw [escapeAt, load_append, Option.bind_eq_bind, Option.bind_some]
  by_cases h : c = 37
  · rw [if_pos h, h, hexDigitsAt_append x src rest, hcopy h]
  · rw [if_neg h]
    rfl

theorem escapeAt_escape (hhigh : isXDigit high = true) (hlow : isXDigit low = true) :
    escapeAt (x ++ 37 :: high :: low :: (src ++ 0 :: rest)) x.length = some true := by
  have h := hexDigitsAt_append x (high :: low :: src) rest
  rw [startsWithHex, hhigh, hlow] at h
  rw [escapeAt, load_append, Option.bind_eq_bind, Option.bind_some, if_pos rfl]
  exact h

theorem hexByteAt_append :
    hexByteAt (x ++ 37 :: high :: low :: rest) x.length = some (hexByte high low) := by
  unfold hexByteAt
  rw [load_add, load_add]
  rfl

/-- The write pointer is not ahead of the read pointer: what is still to be read stays. -/
theorem store_gap (written gap rest : List UInt8) (byte : UInt8) {tok : List UInt8}
    (htok : tok ≠ []) :
    ∃ gap', gap'.length + 1 = gap.length + tok.length ∧
      gap' ++ rest = (gap ++ (tok ++ rest)).tail ∧
      store (written ++ gap ++ (tok ++ rest)) written.length byte
        = some (written ++ [byte] ++ gap' ++ rest) := by
  obtain ⟨b, gap', hsplit⟩ :=
    List.exists_cons_of_ne_nil (List.append_ne_nil_of_right_ne_nil gap htok)
  refine ⟨gap', ?_, ?_, ?_⟩
  · rw [← List.length_append, hsplit, List.length_cons]
  · rw [← List.append_assoc gap, hsplit, List.cons_append, List.tail_cons]
  · rw [List.append_assoc, ← List.append_assoc gap, hsplit, List.cons_append, store_append]
    simp

theorem urlDecodePathStep_end :
    urlDecodePathStep store ⟨written ++ gap ++ 0 :: rest, (written ++ gap).length, written.length⟩
      = some (.done (written ++ 0 :: (gap ++ 0 :: rest).tail)) := by
  obtain ⟨gap', -, htail, hstore⟩ :=
    store_gap written gap rest 0 (List.cons_ne_nil 0 [])
  rw [List.singleton_append] at htail hstore
  rw [urlDecodePathStep, load_append]
  simp only [Option.bind_eq_bind, Option.bind_some, if_true, hstore, ← htail]
  simp

theorem urlDecodePathStep_copy (written gap rest : List UInt8) (hc : c ≠ 0)
    (hcopy : c = 37 → startsWithHex src = false) :
    ∃ gap', gap'.length = gap.length ∧
      gap' ++ (src ++ 0 :: rest) = (gap ++ c :: (src ++ 0 :: rest)).tail ∧
      urlDecodePathStep store ⟨written ++ gap ++ c :: (src ++ 0 :: rest), (written ++ gap).length,
          written.length⟩
        = some (.next ⟨written ++ [c] ++ gap' ++ (src ++ 0 :: rest),
          (written ++ [c] ++ gap').length, (written ++ [c]).length⟩) := by
  obtain ⟨gap', hlen, htail, hstore⟩ :=
    store_gap written gap (src ++ 0 :: rest) c (List.cons_ne_nil c [])
  rw [List.singleton_append] at htail hstore
  refine ⟨gap', by simpa using hlen, htail, ?_⟩
  rw [urlDecodePathStep, load_append]
  simp only [Option.bind_eq_bind, Option.bind_some, if_neg hc, escapeAt_copy hcopy, hstore]
  simp at hlen ⊢
  omega

theorem urlDecodePathStep_escape (written gap src rest : List UInt8)
    (hhigh : isXDigit high = true) (hlow : isXDigit low = true) :
    ∃ gap', gap'.length = gap.length + 2 ∧
      gap' ++ (src ++ 0 :: rest) = (gap ++ 37 :: high :: low :: (src ++ 0 :: rest)).tail ∧
      urlDecodePathStep store ⟨written ++ gap ++ 37 :: high :: low :: (src ++ 0 :: rest),
          (written ++ gap).length, written.length⟩
        = some (.next ⟨written ++ [hexByte high low] ++ gap' ++ (src ++ 0 :: rest),
          (written ++ [hexByte high low] ++ gap').length,
          (written ++ [hexByte high low]).length⟩) := by
  obtain ⟨gap', hlen, htail, hstore⟩ := store_gap written gap (src ++ 0 :: rest)
    (hexByte high low) (List.cons_ne_nil 37 [high, low])
  have hpercent : (37 : UInt8) ≠ 0 := by decide
  simp only [List.cons_append, List.nil_append] at htail hstore
  refine ⟨gap', by simpa using hlen, htail, ?_⟩
  rw [urlDecodePathStep, load_append]
  simp only [Option.bind_eq_bind, Option.bind_some, if_neg hpercent, if_true,
    escapeAt_escape hhigh hlow, hexByteAt_append, hstore]
  simp at hlen ⊢
  omega

/-- **In place.** The loop leaves the decoded bytes and a NUL, and the bytes behind are kept. -/
theorem run_urlDecodePath (rest : List UInt8) (fuel : Nat) :
    ∀ (src written gap : List UInt8), 0 ∉ src → src.length < fuel →
    run (pass (urlDecodePathStep store)) fuel
        ⟨written ++ gap ++ (src ++ 0 :: rest), (written ++ gap).length, written.length⟩
      = some (some (written ++ urlDecodeBytes src ++
          0 :: (gap ++ (src ++ 0 :: rest)).drop ((urlDecodeBytes src).length + 1))) := by
  induction fuel with
  | zero => exact fun _ _ _ _ hlt => absurd hlt (Nat.not_lt_zero _)
  | succ fuel ih =>
    intro src written gap hnul hlt
    cases src with
    | nil =>
      rw [List.nil_append, run_pass_done urlDecodePathStep_end, urlDecodeBytes, List.append_nil,
        List.length_nil, List.drop_one]
      all_goals nofun
    | cons c src =>
      have hc : c ≠ 0 := fun h => hnul (h ▸ List.mem_cons_self)
      by_cases hcopy : c = 37 → startsWithHex src = false
      · obtain ⟨gap', -, htail, hstep⟩ := urlDecodePathStep_copy written gap rest hc hcopy
        rw [List.cons_append, run_pass_next hstep,
          ih src (written ++ [c]) gap' (List.not_mem_of_not_mem_cons hnul) (by simpa using hlt),
          urlDecodeBytes_copy hcopy, htail, List.drop_tail]
        simp
      · obtain ⟨rfl, hhex⟩ := Classical.not_imp.mp hcopy
        rw [Bool.not_eq_false] at hhex
        obtain ⟨high, low, src, rfl, hhigh, hlow⟩ := startsWithHex_iff.mp hhex
        obtain ⟨gap', -, htail, hstep⟩ :=
          urlDecodePathStep_escape written gap src rest hhigh hlow
        have hnul' : 0 ∉ src := fun h => hnul (by simp [h])
        rw [List.cons_append, List.cons_append, List.cons_append, run_pass_next hstep,
          ih src (written ++ [hexByte high low]) gap' hnul' (by simp at hlt; omega),
          urlDecodeBytes_escape hhigh hlow, htail, List.drop_tail]
        simp

/-- What `url_decode_path` leaves in an array that holds a string. -/
theorem urlDecodePathIn_eq (hnul : 0 ∉ src) :
    urlDecodePathIn (src ++ 0 :: rest) = some (urlDecodeBytes src ++
      0 :: (src ++ 0 :: rest).drop ((urlDecodeBytes src).length + 1)) := by
  have h := run_urlDecodePath rest _ src [] [] hnul (length_lt_fuel src 0 rest)
  simp only [List.nil_append, List.length_nil] at h
  rw [urlDecodePathIn, urlDecodePathOn, h]
  rfl

end

/-! ## The arrays of `url_decode` -/

/-- The two indices and the buffer written to. -/
structure ValueCursor where
  i : Nat
  j : Nat
  dst : List UInt8

/-- One pass of the loop of `url_decode`, with the NUL written at the end. -/
def urlDecodeStep (src : List UInt8) (dstSize : Nat) (s : ValueCursor) :
    Option (Step ValueCursor (Int × List UInt8)) := do
  let c ← load src s.i
  if c ≠ 0 ∧ s.j < dstSize - 1 then
    if c = 37 then
      let digits ← hexDigitsAt src s.i
      if digits then
        let byte ← hexByteAt src s.i
        let dst ← store s.dst s.j byte
        pure (.next ⟨s.i + 3, s.j + 1, dst⟩)
      else pure (.done (-1, s.dst))
    else if c = 43 then
      let dst ← store s.dst s.j 32
      pure (.next ⟨s.i + 1, s.j + 1, dst⟩)
    else if c = 38 then
      let dst ← store s.dst s.j 0
      pure (.done (0, dst))
    else
      let dst ← store s.dst s.j c
      pure (.next ⟨s.i + 1, s.j + 1, dst⟩)
  else
    let dst ← store s.dst s.j 0
    pure (.done (0, dst))

/-- `url_decode` on the arrays that `src` and `dst` point to. -/
def urlDecodeIn (src dst : List UInt8) (dstSize : Nat) : Option (Int × List UInt8) :=
  if dstSize = 0 then some (-1, dst)
  else (run (pass (urlDecodeStep src dstSize)) (src.length + 1) ⟨0, 0, dst⟩).join

/-- The answer for what the loop writes, and the buffer: the NUL is written unless the loop met a
bad escape. -/
def valueResult (written junk : List UInt8) (r : List UInt8 × Bool) : Int × List UInt8 :=
  if r.2 then (0, written ++ r.1 ++ 0 :: junk.drop (r.1.length + 1))
  else (-1, written ++ r.1 ++ junk.drop r.1.length)

section

variable {c high low b : UInt8} {pre src rest written junk : List UInt8} {dstSize : Nat}

theorem valueResult_cons (r : List UInt8 × Bool) :
    valueResult written (b :: junk) (c :: r.1, r.2) = valueResult (written ++ [c]) junk r := by
  cases hr : r.2 <;> simp [valueResult, hr]

theorem urlDecodeStep_end (h : c = 0 ∨ dstSize ≤ written.length + 1) :
    urlDecodeStep (pre ++ c :: rest) dstSize ⟨pre.length, written.length, written ++ b :: junk⟩
      = some (.done (valueResult written (b :: junk) ([], true))) := by
  have hleave : ¬(c ≠ 0 ∧ written.length < dstSize - 1) := by
    rcases h with h | h
    · exact fun hstay => hstay.1 h
    · omega
  rw [urlDecodeStep, load_append]
  simp only [Option.bind_eq_bind, Option.bind_some, if_neg hleave, store_append]
  simp [valueResult]

theorem urlDecodeStep_amp (hroom : written.length + 1 < dstSize) :
    urlDecodeStep (pre ++ 38 :: rest) dstSize ⟨pre.length, written.length, written ++ b :: junk⟩
      = some (.done (valueResult written (b :: junk) ([], true))) := by
  have hstay : (38 : UInt8) ≠ 0 ∧ written.length < dstSize - 1 := ⟨by decide, by omega⟩
  have hpercent : (38 : UInt8) ≠ 37 := by decide
  have hplus : (38 : UInt8) ≠ 43 := by decide
  rw [urlDecodeStep, load_append]
  simp only [Option.bind_eq_bind, Option.bind_some, if_pos hstay, if_neg hpercent, if_neg hplus,
    store_append]
  simp [valueResult]

theorem urlDecodeStep_bad (hroom : written.length + 1 < dstSize)
    (hbad : startsWithHex src = false) :
    urlDecodeStep (pre ++ 37 :: (src ++ 0 :: rest)) dstSize
        ⟨pre.length, written.length, written ++ junk⟩
      = some (.done (valueResult written junk ([], false))) := by
  have hstay : (37 : UInt8) ≠ 0 ∧ written.length < dstSize - 1 := ⟨by decide, by omega⟩
  rw [urlDecodeStep, load_append]
  simp only [Option.bind_eq_bind, Option.bind_some, if_pos hstay, if_true, hexDigitsAt_append,
    hbad]
  simp [valueResult]

theorem urlDecodeStep_escape (hroom : written.length + 1 < dstSize)
    (hhigh : isXDigit high = true) (hlow : isXDigit low = true) :
    urlDecodeStep (pre ++ 37 :: high :: low :: (src ++ 0 :: rest)) dstSize
        ⟨pre.length, written.length, written ++ b :: junk⟩
      = some (.next ⟨(pre ++ [37, high, low]).length, (written ++ [hexByte high low]).length,
          written ++ [hexByte high low] ++ junk⟩) := by
  have hstay : (37 : UInt8) ≠ 0 ∧ written.length < dstSize - 1 := ⟨by decide, by omega⟩
  have hdigits := hexDigitsAt_append pre (high :: low :: src) rest
  rw [startsWithHex, hhigh, hlow, List.cons_append, List.cons_append] at hdigits
  rw [urlDecodeStep, load_append]
  simp only [Option.bind_eq_bind, Option.bind_some, if_pos hstay, if_true, hdigits,
    hexByteAt_append, store_append]
  simp

/-- The byte written for one that is not `%` or `&`. -/
def plainByte (c : UInt8) : UInt8 := if c = 43 then 32 else c

theorem urlDecodeStep_plain (hroom : written.length + 1 < dstSize) (hc : c ≠ 0)
    (hpercent : c ≠ 37) (hend : c ≠ 38) :
    urlDecodeStep (pre ++ c :: rest) dstSize ⟨pre.length, written.length, written ++ b :: junk⟩
      = some (.next ⟨(pre ++ [c]).length, (written ++ [plainByte c]).length,
          written ++ [plainByte c] ++ junk⟩) := by
  have hstay : c ≠ 0 ∧ written.length < dstSize - 1 := ⟨hc, by omega⟩
  rw [urlDecodeStep, load_append]
  simp only [Option.bind_eq_bind, Option.bind_some, if_pos hstay, if_neg hpercent, if_neg hend,
    store_append]
  by_cases hplus : c = 43
  · simp [hplus, plainByte]
  · simp [hplus, plainByte]

theorem urlDecodeLoop_plain {room : Nat} (hpercent : c ≠ 37) (hend : c ≠ 38) :
    urlDecodeLoop (room + 1) (c :: src)
      = (plainByte c :: (urlDecodeLoop room src).1, (urlDecodeLoop room src).2) := by
  rw [urlDecodeLoop.eq_def]
  simp only [if_neg hpercent, if_neg hend, plainByte]
  by_cases hplus : c = 43
  · simp only [if_pos hplus]
  · simp only [if_neg hplus]

theorem urlDecodeLoop_escape {room : Nat} (hhigh : isXDigit high = true)
    (hlow : isXDigit low = true) :
    urlDecodeLoop (room + 1) (37 :: high :: low :: src)
      = (hexByte high low :: (urlDecodeLoop room src).1, (urlDecodeLoop room src).2) := by
  rw [urlDecodeLoop, if_pos rfl, if_pos ⟨hhigh, hlow⟩]
  rfl

theorem urlDecodeLoop_bad {room : Nat} (hbad : startsWithHex src = false) :
    urlDecodeLoop (room + 1) (37 :: src) = ([], false) := by
  rw [urlDecodeLoop_eq, formBytes_bad hbad]
  rfl

/-- **Into another buffer.** The loop leaves the decoded bytes that fit and, unless it meets a bad
escape, a NUL, and the bytes behind are kept. -/
theorem run_urlDecode (rest : List UInt8) (dstSize fuel : Nat) :
    ∀ (room : Nat) (pre src written junk : List UInt8), 0 ∉ src → src.length < fuel →
      written.length + room + 1 = dstSize → room < junk.length →
      run (pass (urlDecodeStep (pre ++ (src ++ 0 :: rest)) dstSize)) fuel
          ⟨pre.length, written.length, written ++ junk⟩
        = some (some (valueResult written junk (urlDecodeLoop room src))) := by
  induction fuel with
  | zero => exact fun _ _ _ _ _ _ hlt => absurd hlt (Nat.not_lt_zero _)
  | succ fuel ih =>
    intro room pre src written junk hnul hlt hsize hjunk
    obtain ⟨b, junk, rfl⟩ := List.exists_cons_of_length_pos (Nat.zero_lt_of_lt hjunk)
    rw [List.length_cons] at hjunk
    cases room with
    | zero =>
      obtain ⟨c, tail, hsplit⟩ := List.exists_cons_of_ne_nil
        (List.append_ne_nil_of_right_ne_nil src (List.cons_ne_nil 0 rest))
      rw [hsplit, run_pass_done (urlDecodeStep_end (.inr (by omega))), urlDecodeLoop]
    | succ room =>
      cases src with
      | nil => rw [List.nil_append, run_pass_done (urlDecodeStep_end (.inl rfl)), urlDecodeLoop]
      | cons c src =>
        have hroom : written.length + 1 < dstSize := by omega
        have hc : c ≠ 0 := fun h => hnul (h ▸ List.mem_cons_self)
        rw [List.length_cons] at hlt
        by_cases hend : c = 38
        · rw [hend, List.cons_append, run_pass_done (urlDecodeStep_amp hroom), urlDecodeLoop_eq,
            formBytes_end]
          rfl
        by_cases hpercent : c = 37
        · subst hpercent
          by_cases hbad : startsWithHex src = false
          · rw [List.cons_append, run_pass_done (urlDecodeStep_bad hroom hbad),
              urlDecodeLoop_bad hbad]
          · rw [Bool.not_eq_false] at hbad
            obtain ⟨high, low, src, rfl, hhigh, hlow⟩ := startsWithHex_iff.mp hbad
            have hnul' : 0 ∉ src := fun h => hnul (by simp [h])
            have h := ih room (pre ++ [37, high, low]) src (written ++ [hexByte high low]) junk
              hnul' (by simp only [List.length_cons] at hlt; omega)
              (by rw [List.length_append, List.length_singleton]; omega) (by omega)
            rw [List.append_assoc] at h
            rw [List.cons_append, List.cons_append, List.cons_append,
              run_pass_next (urlDecodeStep_escape hroom hhigh hlow),
              urlDecodeLoop_escape hhigh hlow, valueResult_cons]
            exact h
        · have h := ih room (pre ++ [c]) src (written ++ [plainByte c]) junk
            (List.not_mem_of_not_mem_cons hnul) (by omega)
            (by rw [List.length_append, List.length_singleton]; omega) (by omega)
          rw [List.append_assoc] at h
          rw [List.cons_append, run_pass_next (urlDecodeStep_plain hroom hc hpercent hend),
            urlDecodeLoop_plain hpercent hend, valueResult_cons]
          exact h

/-- What `url_decode` answers and leaves in `dst`. -/
theorem urlDecodeIn_eq (hnul : 0 ∉ src) (hpos : 0 < dstSize) {dst : List UInt8}
    (hdst : dstSize ≤ dst.length) :
    urlDecodeIn (src ++ 0 :: rest) dst dstSize
      = some (valueResult [] dst (urlDecodeLoop (dstSize - 1) src)) := by
  have hroom : 0 + (dstSize - 1) + 1 = dstSize := by omega
  have h := run_urlDecode rest dstSize _ (dstSize - 1) [] src [] dst hnul
    (length_lt_fuel src 0 rest) hroom (by omega)
  rw [urlDecodeIn, if_neg (Nat.ne_of_gt hpos)]
  simp only [List.nil_append, List.length_nil] at h
  rw [h]
  rfl

end

/-! ## Decoding undoes encoding -/

section

variable {s e src rest tail x y dst : List UInt8} {dstSize : Nat}

theorem isXDigit_ne_zero {c : UInt8} (h : isXDigit c = true) : 0 ≠ c :=
  Ne.symm (isXDigit_ne h (by decide))

theorem UrlEncodes.notMem {form : Bool} (h : UrlEncodes form s e) (hnul : 0 ∉ s) : 0 ∉ e := by
  induction h with
  | nil => exact List.not_mem_nil
  | literal _ _ _ ih =>
    exact List.not_mem_cons_of_ne_of_not_mem (fun h => hnul (h ▸ List.mem_cons_self))
      (ih (List.not_mem_of_not_mem_cons hnul))
  | escape hhigh hlow _ ih =>
    have hrest := ih (List.not_mem_of_not_mem_cons hnul)
    simp [isXDigit_ne_zero hhigh, isXDigit_ne_zero hlow, hrest]
  | plus _ _ ih =>
    exact List.not_mem_cons_of_ne_of_not_mem (by decide) (ih (List.not_mem_of_not_mem_cons hnul))

/-- The array holds the string that the model of strings gives. -/
theorem urlDecodePathIn_string (hnul : 0 ∉ src) :
    (urlDecodePathIn (src ++ 0 :: rest)).map ofBuffer = some (urlDecodePath src) := by
  rw [urlDecodePathIn_eq hnul, Option.map_some, urlDecodePath]
  by_cases hbytes : 0 ∈ urlDecodeBytes src
  · rw [ofBuffer_append_of_mem hbytes]
  · rw [ofBuffer_append hbytes, ofBuffer_of_notMem hbytes]
    exact congrArg some (List.append_nil _)

/-- The answer, and the string in the buffer if there is no bad escape. -/
theorem urlDecodeIn_string (rest : List UInt8) (hnul : 0 ∉ src) (hpos : 0 < dstSize)
    (hdst : dstSize ≤ dst.length) :
    ∃ dst', urlDecodeIn (src ++ 0 :: rest) dst dstSize
        = some ((urlDecode src dstSize).1, dst') ∧
      ((urlDecode src dstSize).1 = 0 → ofBuffer dst' = (urlDecode src dstSize).2) := by
  rw [urlDecodeIn_eq hnul hpos hdst, valueResult, urlDecode]
  generalize urlDecodeLoop (dstSize - 1) src = r
  cases hr : r.2 with
  | false =>
    have hminus : (-1 : Int) ≠ 0 := by decide
    exact ⟨_, rfl, fun h => absurd h hminus⟩
  | true =>
    refine ⟨_, rfl, fun _ => ?_⟩
    by_cases hbytes : 0 ∈ r.1
    · rw [List.nil_append, ofBuffer_append_of_mem hbytes]
    · rw [List.nil_append, ofBuffer_append hbytes, ofBuffer_of_notMem hbytes]
      exact List.append_nil _

theorem UrlEncodes.urlDecodePathIn (h : UrlEncodes false s e) (hnul : 0 ∉ s) :
    (urlDecodePathIn (e ++ 0 :: rest)).map ofBuffer = some s := by
  rw [urlDecodePathIn_string (h.notMem hnul), urlDecodePath, h.path, ofBuffer_of_notMem hnul]

theorem UrlEncodes.urlDecode (h : UrlEncodes true s e) (htail : ∀ c ∈ tail.head?, c = 38)
    (hnul : 0 ∉ s) (hfits : s.length < dstSize) :
    RequestHandler.urlDecode (e ++ tail) dstSize = (0, s) := by
  rw [RequestHandler.urlDecode, urlDecodeLoop_eq, h.value htail]
  simp only [Bool.true_or, if_true]
  rw [List.take_of_length_le (by omega), ofBuffer_of_notMem hnul]

/-- With room for the whole part of the form, only a bad escape is refused. -/
theorem urlDecode_refused (hfits : (urlDecodeBytes (formPart src)).length < dstSize) :
    (urlDecode src dstSize).1 = -1 ↔ HasBadEscape (formPart src) := by
  obtain ⟨hiff, hshort⟩ := formBytes_refused src
  rw [urlDecode, urlDecodeLoop_eq, ← hiff]
  cases hbad : (formBytes src).2 with
  | true => simp
  | false =>
    have hlt := hshort hbad
    have hroom : ¬ dstSize - 1 ≤ (formBytes src).1.length := by omega
    simp [hroom]

end

/-- **URL decoding.** Both decoders undo the encoding, on the arrays themselves; with enough room
`url_decode` refuses exactly the values with a bad escape, and `url_decode_path` copies a bad `%`;
an array that ends at the NUL is enough for either. -/
theorem url_decoding :
    (∀ s e rest, 0 ∉ s → UrlEncodes false s e →
      (urlDecodePathIn (e ++ 0 :: rest)).map ofBuffer = some s) ∧
    (∀ s e tail rest dst dstSize, 0 ∉ s → UrlEncodes true s e → 0 ∉ tail →
      (∀ c ∈ tail.head?, c = 38) → s.length < dstSize → dstSize ≤ dst.length →
      ∃ dst', urlDecodeIn (e ++ tail ++ 0 :: rest) dst dstSize = some (0, dst') ∧
        ofBuffer dst' = s) ∧
    (∀ src rest dst dstSize, 0 ∉ src → (urlDecodeBytes (formPart src)).length < dstSize →
      dstSize ≤ dst.length →
      ∃ ret dst', urlDecodeIn (src ++ 0 :: rest) dst dstSize = some (ret, dst') ∧
        (ret = -1 ↔ HasBadEscape (formPart src))) ∧
    (∀ x y rest, 0 ∉ x ++ 37 :: y → startsWithHex y = false →
      ∃ behind, urlDecodePathIn (x ++ 37 :: y ++ 0 :: rest)
        = some (urlDecodeBytes x ++ 37 :: urlDecodeBytes y ++ 0 :: behind)) ∧
    ∀ src dst dstSize, 0 ∉ src → dstSize ≤ dst.length →
      (urlDecodePathIn (src ++ [0])).isSome ∧ (urlDecodeIn (src ++ [0]) dst dstSize).isSome := by
  refine ⟨fun s e rest hnul h => h.urlDecodePathIn hnul, ?_, ?_, ?_, ?_⟩
  · intro s e tail rest dst dstSize hnul h htailNul htail hfits hdst
    have hsrc : 0 ∉ e ++ tail := by simp [h.notMem hnul, htailNul]
    obtain ⟨dst', hrun, hstring⟩ :=
      urlDecodeIn_string rest hsrc (Nat.zero_lt_of_lt hfits) hdst
    rw [h.urlDecode htail hnul hfits] at hrun hstring
    exact ⟨dst', hrun, hstring rfl⟩
  · intro src rest dst dstSize hnul hfits hdst
    obtain ⟨dst', hrun, -⟩ :=
      urlDecodeIn_string rest hnul (Nat.zero_lt_of_lt hfits) hdst
    exact ⟨_, dst', hrun, urlDecode_refused hfits⟩
  · intro x y rest hnul hbad
    rw [urlDecodePathIn_eq hnul, urlDecodeBytes_bad hbad]
    exact ⟨_, rfl⟩
  · intro src dst dstSize hnul hdst
    refine ⟨by rw [urlDecodePathIn_eq hnul]; rfl, ?_⟩
    by_cases hpos : dstSize = 0
    · rw [urlDecodeIn, if_pos hpos]
      rfl
    · rw [urlDecodeIn_eq hnul (Nat.pos_of_ne_zero hpos) hdst]
      rfl

/-- `a b` written as `a+%62`, with a parameter behind it, is decoded into four bytes. -/
theorem url_decoding_blank :
    ∃ dst', urlDecodeIn (ascii "a+%62" ++ ascii "&x" ++ [0]) [1, 1, 1, 1, 1] 4 = some (0, dst') ∧
      ofBuffer dst' = ascii "a b" := by
  have hlast : UrlEncodes true [hexByte 54 50] [37, 54, 50] := .escape (by decide) (by decide) .nil
  have hencodes : UrlEncodes true (ascii "a b") (ascii "a+%62") :=
    .literal (by decide) (by decide) (.plus rfl hlast)
  exact url_decoding.2.1 (ascii "a b") (ascii "a+%62") (ascii "&x") [] [1, 1, 1, 1, 1] 4 (by decide)
    hencodes (by decide +kernel) (by decide +kernel) (by decide) (by decide)

end MiniWeb.RequestHandler
