import MiniWeb.FrontEnd.Modes

/-!
# What the header section decides

A header section ends with the first empty line, and its last byte is a `\n`. The scans do not
stop there, so the bytes of the body are searched as well: they count as headers as soon as they
have room for a header's name. A field is `Constant` where no body of a given length changes it;
there is one such theorem for each scan, and `decides_iff` puts them together.
-/

namespace MiniWeb.FrontEnd

open CStr Search Config

/-- The bytes of a request up to and including the first empty line. -/
def IsHeaderSection (h : List UInt8) : Prop :=
  first? (literal (ascii "\r\n\r\n")) 0 h = some (ascii "\r\n\r\n")

instance (h : List UInt8) : Decidable (IsHeaderSection h) :=
  inferInstanceAs (Decidable (_ = _))

/-- What a front end takes from the headers. -/
structure HeaderValues where
  contentType : CStr
  contentLengthHdr : Int
  cookie : CStr
  authorization : CStr
  host : CStr
  keepAlive : Bool
deriving DecidableEq, Repr

/-- The values in a request that is handed on, and the host looked up for it. -/
def Reading.headers (host : CStr) : Reading → Option HeaderValues
  | .request req => some
      { contentType := req.contentType
        contentLengthHdr := req.contentLengthHdr
        cookie := req.cookie
        authorization := req.authorization
        host := host
        keepAlive := req.keepAlive }
  | _ => none

def epollHeaders (config : Option ServerConfig) (recvBuf : List UInt8) : Option HeaderValues :=
  (epollRead config recvBuf).headers (hostBuf recvBuf)

def connectionHeaders (recvBuf : List UInt8) : Option HeaderValues :=
  (connectionRead recvBuf).headers (hostBuf (extractBody recvBuf).2)

/-- `RECV_BUF_SIZE - 1`, the most one `recv` answers. -/
def recvMax : Nat := 8191

/-- Two requests with this header section, each received in one `recv`, have the same values. -/
def Decides (headers : List UInt8 → Option HeaderValues) (h : List UInt8) : Prop :=
  ∀ b₁ b₂, (h ++ b₁).length ≤ recvMax → (h ++ b₂).length ≤ recvMax →
    ∀ v₁ ∈ headers (h ++ b₁), ∀ v₂ ∈ headers (h ++ b₂), v₁ = v₂

/-- A header section behind which `n` bytes of body change no value. -/
structure Closed (h : List UInt8) (n : Nat) : Prop where
  room : n < 14
  contentLength : n = 0 ∨
    ∀ p ∈ last? contentLengthPattern 15 h, (p.drop 16).all isSpace = false
  host : n < 6 ∨ (first? hostPattern 7 h).isSome = true
  cookie : 0 ∈ h ∨ (strstr h (ascii "Cookie:")).isSome = true ∨ n < 7 ∨
    n = 7 ∧ ∀ p ∈ strstr h (ascii "cookie:"), BlankValue (p.drop 7)

/-- A header section behind which `n` bytes of body do not change the decision to keep the
connection. -/
def KeepAliveClosed (h : List UInt8) (n : Nat) : Prop :=
  0 ∈ h ∨ n < 8 ∨ (strstr h (ascii "HTTP/1.0")).isSome = true ∨ hasClose h = !hasKeepAlive h

/-- The field is the same behind all bodies of at most `n` bytes. -/
def Constant {β : Type} (field : List UInt8 → β) (h : List UInt8) (n : Nat) : Prop :=
  ∀ b₁ b₂, b₁.length ≤ n → b₂.length ≤ n → field (h ++ b₁) = field (h ++ b₂)

theorem Constant.of_eq {β : Type} {field : List UInt8 → β} {h : List UInt8} {n : Nat} {v : β}
    (heq : ∀ b, b.length ≤ n → field (h ++ b) = v) : Constant field h n :=
  fun b₁ b₂ h₁ h₂ => (heq b₁ h₁).trans (heq b₂ h₂).symm

/-! ## Scans behind a line end -/

section Scans

variable {β : Type} {f : List UInt8 → β} {pat : List (List UInt8)} {m k : Nat} {t b : List UInt8}

theorem drop_newline {v : List UInt8} (hk : k ≤ pat.length) (hv : matchesAt pat v = true) :
    (v ++ 10 :: b).drop k = v.drop k ++ 10 :: b :=
  List.drop_append_of_le_length (hk.trans (length_of_matchesAt hv))

/-- The last match of a scan: one in the body, or else one in the header section. -/
theorem last?_section (hpat : LinePattern pat) (hm : m ≤ pat.length + 1) :
    last? pat m (t ++ [10] ++ b)
      = (last? pat m (10 :: b)).or ((last? pat 0 t).map (· ++ 10 :: b)) := by
  rw [List.append_assoc, List.singleton_append, last?_append hpat.ne_nil (hpat.fence (by decide))
    (by rw [List.length_cons]; omega)]

/-- What it gives. -/
theorem map_last?_section (hpat : LinePattern pat) (hm : m ≤ pat.length + 1)
    (hk : k ≤ pat.length) :
    (last? pat m (t ++ [10] ++ b)).map (fun p => f (p.drop k))
      = ((last? pat m (10 :: b)).map fun p => f (p.drop k)).or
        ((last? pat 0 t).map fun v => f (v.drop k ++ 10 :: b)) := by
  rw [last?_section hpat hm]
  cases last? pat m (10 :: b) with
  | some p => rfl
  | none =>
    cases hv : last? pat 0 t with
    | none => rfl
    | some v =>
      simp only [Option.map_some, Option.none_or, Option.map_none]
      rw [drop_newline hk (last?_spec hv).2]

/-- A body that is too short for a match. -/
theorem map_last?_newline (hpat : LinePattern pat) (hb : b.length + 1 < m)
    (hm : m ≤ pat.length + 1) (hk : k ≤ pat.length) :
    (last? pat m (t ++ [10] ++ b)).map (fun p => f (p.drop k))
      = (last? pat 0 t).map fun v => f (v.drop k ++ 10 :: b) := by
  rw [map_last?_section hpat hm hk, last?_short (by rw [List.length_cons]; omega),
    Option.map_none, Option.none_or]

theorem map_first?_newline (hpat : LinePattern pat) (hm : m ≤ pat.length + 1)
    (hk : k ≤ pat.length) :
    (first? pat m (t ++ [10] ++ b)).map (fun p => f (p.drop k))
      = ((first? pat 0 t).map fun v => f (v.drop k ++ 10 :: b)).or
        ((first? pat m (10 :: b)).map fun p => f (p.drop k)) := by
  rw [List.append_assoc, List.singleton_append, first?_append hpat.ne_nil
    (hpat.fence (by decide)) (by rw [List.length_cons]; omega)]
  cases hv : first? pat 0 t with
  | none => rfl
  | some v =>
    simp only [Option.map_some, Option.some_or]
    rw [drop_newline hk (first?_spec hv).2]

/-- A match in the body is the last one. -/
theorem last?_body (hpat : LinePattern pat) (hm : m ≤ pat.length + 1) {p : List UInt8}
    (hp : last? pat m (10 :: b) = some p) : last? pat m (t ++ [10] ++ b) = some p := by
  rw [last?_section hpat hm, hp, Option.some_or]

theorem strstr_newline {lit : CStr} (hlit : lit ≠ []) (hd : 10 ∉ lit) (ht : 0 ∉ t) :
    strstr (ofBuffer (t ++ [10] ++ b)) lit
      = ((strstr t lit).map (· ++ 10 :: ofBuffer b)).or (strstr (ofBuffer b) lit) := by
  have h0 : (0 : UInt8) ∉ t ++ [10] := by simpa using ht
  rw [ofBuffer_append h0, List.append_assoc, List.singleton_append, strstr_split hlit hd]

theorem length_ofBuffer_le (b : List UInt8) : (ofBuffer b).length ≤ b.length :=
  (List.takeWhile_prefix _).length_le

end Scans

/-! ## The content type -/

variable {t : List UInt8} {n : Nat}

theorem contentType_constant_iff : Constant contentType (t ++ [10]) n ↔ n < 14 := by
  constructor
  · intro h
    by_contra hn
    have hx : contentType (t ++ [10] ++ ascii "Content-Type:x") = ascii "x" := by
      rw [contentType_eq, last?_body linePattern_contentType (by decide)
        (p := ascii "\nContent-Type:x") (by decide +kernel)]
      decide +kernel
    have hy : contentType (t ++ [10] ++ ascii "Content-Type:y") = ascii "y" := by
      rw [contentType_eq, last?_body linePattern_contentType (by decide)
        (p := ascii "\nContent-Type:y") (by decide +kernel)]
      decide +kernel
    have := h (ascii "Content-Type:x") (ascii "Content-Type:y") (not_lt.1 hn) (not_lt.1 hn)
    rw [hx, hy] at this
    exact absurd this (by decide)
  · intro hn
    apply Constant.of_eq
      (v := ((last? contentTypePattern 0 t).map fun v => trimEnd (lineValue 64 (v.drop 14))).getD [])
    intro b hb
    rw [contentType_eq]
    have hvalue := map_last?_newline (f := fun p => trimEnd (lineValue 64 p)) (m := 15) (k := 14)
      (t := t) (b := b) linePattern_contentType (by omega) (by decide) (by decide)
    simp only [lineValue_append (d := 10) (by decide)] at hvalue
    exact congrArg (·.getD []) hvalue

/-! ## The content length -/

/-- A number that is not missing ends with its line. -/
theorem atoi_newline {w b : List UInt8} (hw : w.all isSpace = false) :
    atoi (ofBuffer (w ++ 10 :: b)) = atoi (ofBuffer w) := by
  by_cases h0 : 0 ∈ w
  · rw [ofBuffer_append_of_mem h0]
  · rw [ofBuffer_append h0, ofBuffer_of_notMem h0]
    show atoi (w ++ 10 :: ofBuffer b) = atoi w
    exact atoi_append (by simp [hw]) (by decide)

/-- Where it is missing, `atoi` reads on in the body. -/
theorem atoi_missing {w b : List UInt8} (hw : w.all isSpace = true) :
    atoi (ofBuffer (w ++ 10 :: b)) = atoi (ofBuffer (10 :: b)) := by
  have h0 : 0 ∉ w := by
    intro h
    exact absurd (List.all_eq_true.1 hw 0 h) (by decide)
  rw [ofBuffer_append h0, atoi_space_append hw]

theorem contentLengthHdr_newline (hn : n < 14) {b : List UInt8} (hb : b.length ≤ n) :
    contentLengthHdr (t ++ [10] ++ b) = ((last? contentLengthPattern 0 t).map
      fun v => max (atoi (ofBuffer (v.drop 16 ++ 10 :: b))) 0).getD (-1) := by
  rw [contentLengthHdr_eq]
  have hvalue := map_last?_newline (f := fun p => max (atoi (ofBuffer p)) 0) (m := 15) (k := 16)
    (t := t) (b := b) linePattern_contentLength (by omega) (by decide) (by decide)
  exact congrArg (·.getD (-1)) hvalue

theorem contentLength_line : (last? contentLengthPattern 15 (t ++ [10])).map (·.drop 16)
    = (last? contentLengthPattern 0 t).map fun v => v.drop 16 ++ [10] := by
  have h := map_last?_newline (f := id) (m := 15) (k := 16) (t := t) (b := [])
    linePattern_contentLength (by decide) (by decide) (by decide)
  rwa [List.append_nil] at h

theorem contentLength_constant_iff (hn : n < 14) : Constant contentLengthHdr (t ++ [10]) n
    ↔ n = 0 ∨ ∀ p ∈ last? contentLengthPattern 15 (t ++ [10]), (p.drop 16).all isSpace = false := by
  have hline := contentLength_line (t := t)
  cases hv : last? contentLengthPattern 0 t with
  | none =>
    rw [hv, Option.map_none, Option.map_eq_none_iff] at hline
    constructor
    · intro _
      right
      simp [hline]
    · intro _
      apply Constant.of_eq (v := -1)
      intro b hb
      rw [contentLengthHdr_newline hn hb, hv]
      rfl
  | some v =>
    rw [hv, Option.map_some, Option.map_eq_some_iff] at hline
    obtain ⟨p, hp, hpv⟩ := hline
    have hall : (p.drop 16).all isSpace = (v.drop 16).all isSpace := by
      rw [hpv, List.all_append]
      simp [isSpace]
    constructor
    · intro h
      by_cases hn0 : n = 0
      · exact Or.inl hn0
      · right
        intro p' hp'
        rw [hp, Option.mem_def, Option.some.injEq] at hp'
        subst hp'
        rw [hall]
        by_contra hw
        rw [Bool.not_eq_false] at hw
        have heq := h (ascii "1") [] (by simp [ascii]; omega) (Nat.zero_le _)
        rw [contentLengthHdr_newline hn (by simp [ascii]; omega),
          contentLengthHdr_newline hn (Nat.zero_le _), hv, Option.map_some, Option.map_some,
          atoi_missing hw, atoi_missing hw] at heq
        exact absurd heq (by decide)
    · rintro (rfl | h)
      · intro b₁ b₂ h₁ h₂
        rw [List.length_eq_zero_iff.1 (Nat.le_zero.1 h₁), List.length_eq_zero_iff.1
          (Nat.le_zero.1 h₂)]
      · apply Constant.of_eq (v := max (atoi (ofBuffer (v.drop 16))) 0)
        intro b hb
        rw [contentLengthHdr_newline hn hb, hv, Option.map_some, Option.getD_some,
          atoi_newline (hall ▸ h p hp)]

/-! ## The host -/

theorem host_line : (first? hostPattern 7 (t ++ [10])).isSome = (first? hostPattern 0 t).isSome := by
  have h := map_first?_newline (f := id) (m := 7) (k := 6) (t := t) (b := []) linePattern_host
    (by decide) (by decide)
  have h10 : first? hostPattern 7 [10] = none := by decide
  rw [List.append_nil, h10, Option.map_none, Option.or_none] at h
  have := congrArg Option.isSome h
  rwa [Option.isSome_map, Option.isSome_map] at this

theorem hostBuf_newline (b : List UInt8) : hostBuf (t ++ [10] ++ b)
    = (((first? hostPattern 0 t).map
        fun v => (trimEnd (lineValue 256 (v.drop 6))).takeWhile (· ≠ 58)).or
      ((first? hostPattern 7 (10 :: b)).map
        fun p => (trimEnd (lineValue 256 (p.drop 6))).takeWhile (· ≠ 58))).getD [] := by
  rw [hostBuf_eq]
  have h := map_first?_newline (m := 7) (k := 6) (t := t) (b := b)
    (f := fun p => (trimEnd (lineValue 256 p)).takeWhile (· ≠ 58)) linePattern_host
    (by decide) (by decide)
  simp only [lineValue_append (d := 10) (by decide)] at h
  exact congrArg (·.getD []) h

theorem host_constant_iff : Constant hostBuf (t ++ [10]) n
    ↔ n < 6 ∨ (first? hostPattern 7 (t ++ [10])).isSome = true := by
  rw [host_line]
  cases hv : first? hostPattern 0 t with
  | some v =>
    constructor
    · intro _
      exact Or.inr rfl
    · intro _
      apply Constant.of_eq (v := (trimEnd (lineValue 256 (v.drop 6))).takeWhile (· ≠ 58))
      intro b _
      rw [hostBuf_newline, hv, Option.map_some, Option.some_or, Option.getD_some]
  | none =>
    constructor
    · intro h
      left
      by_contra hn
      have heq := h (ascii "Host:x") (ascii "Host:y") (not_lt.1 hn) (not_lt.1 hn)
      rw [hostBuf_newline, hostBuf_newline, hv, Option.map_none, Option.none_or,
        Option.none_or] at heq
      exact absurd heq (by decide +kernel)
    · rintro (hn | h)
      · apply Constant.of_eq (v := [])
        intro b hb
        rw [hostBuf_newline, hv, first?_short (by rw [List.length_cons]; omega)]
        rfl
      · exact absurd h (by decide)

/-! ## The cookie -/

theorem blankValue_append {x y : List UInt8} {d : UInt8} (hd : inLine d = false) :
    BlankValue (x ++ d :: y) ↔ BlankValue x := by
  rw [← lineValue_eq_nil_iff (le_refl 2), lineValue_append hd, lineValue_eq_nil_iff (le_refl 2)]

/-- The cookie at the name found. -/
def cookieFrom (found : Option CStr) : CStr :=
  match found.map (·.drop 7) with
  | some ck => lineValue 512 ck
  | none => []

theorem cookie_eq (recvBuf : List UInt8) : cookie recvBuf
    = cookieFrom ((strstr (ofBuffer recvBuf) (ascii "Cookie:")).or
      (strstr (ofBuffer recvBuf) (ascii "cookie:"))) := rfl

theorem cookie_newline (ht : 0 ∉ t) (b : List UInt8) : cookie (t ++ [10] ++ b)
    = cookieFrom ((((strstr t (ascii "Cookie:")).map (· ++ 10 :: ofBuffer b)).or
        (strstr (ofBuffer b) (ascii "Cookie:"))).or
      (((strstr t (ascii "cookie:")).map (· ++ 10 :: ofBuffer b)).or
        (strstr (ofBuffer b) (ascii "cookie:")))) := by
  rw [cookie_eq, strstr_newline (by decide) (by decide) ht,
    strstr_newline (by decide) (by decide) ht]

/-- A value found before the end of the section ends there. -/
theorem cookieFrom_line {lit : CStr} (hlen : lit.length = 7) {v y : CStr}
    (hv : strstr t lit = some v) : cookieFrom (some (v ++ 10 :: y)) = lineValue 512 (v.drop 7) := by
  have hlit : lit ≠ [] := by
    intro h
    simp [h] at hlen
  have h7 := (strstr_spec hlit hv).2.length_le
  have hdrop : (v ++ 10 :: y).drop 7 = v.drop 7 ++ 10 :: y :=
    List.drop_append_of_le_length (by omega)
  simp only [cookieFrom, Option.map_some, hdrop]
  exact lineValue_append (by decide)

/-- A name that fills the body has no value. -/
theorem cookieFrom_body {lit y v : CStr} (hlen : lit.length = 7) (hy : y.length ≤ 7)
    (hv : strstr y lit = some v) : cookieFrom (some v) = [] := by
  have hlit : lit ≠ [] := by
    intro h
    simp [h] at hlen
  have h7 := (strstr_spec hlit hv).1.length_le
  have hdrop : v.drop 7 = [] := List.drop_eq_nil_of_le (by omega)
  simp only [cookieFrom, Option.map_some, hdrop]
  rfl

theorem strstr_line {lit : CStr} (hlit : lit ≠ []) (hd : 10 ∉ lit) :
    strstr (t ++ [10]) lit = (strstr t lit).map (· ++ [10]) := by
  have hnil : strstr [] lit = none := by simp [strstr, hlit]
  rw [strstr_split hlit hd, hnil, Option.or_none]

theorem blank_line {lit : CStr} (hlen : lit.length = 7) (hd : 10 ∉ lit) :
    (∀ p ∈ strstr (t ++ [10]) lit, BlankValue (p.drop 7))
      ↔ ∀ v ∈ strstr t lit, lineValue 512 (v.drop 7) = [] := by
  have hlit : lit ≠ [] := by
    intro h
    simp [h] at hlen
  rw [strstr_line hlit hd]
  cases hv : strstr t lit with
  | none => simp
  | some v =>
    have h7 := (strstr_spec hlit hv).2.length_le
    have hdrop : (v ++ [10]).drop 7 = v.drop 7 ++ [10] :=
      List.drop_append_of_le_length (by omega)
    simp [hdrop, blankValue_append (d := 10) (by decide), lineValue_eq_nil_iff]

/-- Without a `Cookie:` in the section, the body may bring one, and a `cookie:` in the section
counts only as long as it does not. -/
theorem cookie_absent_constant_iff (ht : 0 ∉ t) (hC : strstr t (ascii "Cookie:") = none) :
    Constant cookie (t ++ [10]) n
      ↔ n < 7 ∨ n = 7 ∧ ∀ v ∈ strstr t (ascii "cookie:"), lineValue 512 (v.drop 7) = [] := by
  have hvalue : ∀ b, cookie (t ++ [10] ++ b)
      = cookieFrom ((strstr (ofBuffer b) (ascii "Cookie:")).or
        (((strstr t (ascii "cookie:")).map (· ++ 10 :: ofBuffer b)).or
          (strstr (ofBuffer b) (ascii "cookie:")))) := by
    intro b
    rw [cookie_newline ht, hC, Option.map_none, Option.none_or]
  constructor
  · intro h
    by_cases h7 : n < 7
    · exact Or.inl h7
    · right
      have hfull : cookie (t ++ [10] ++ ascii "Cookie:") = [] := by
        have hfound : strstr (ofBuffer (ascii "Cookie:")) (ascii "Cookie:")
            = some (ascii "Cookie:") := by decide
        rw [hvalue, hfound]
        rfl
      have h8 : n ≤ 7 := by
        -- one byte more is room for a value
        by_contra h8
        have heq := h (ascii "Cookie:x") (ascii "Cookie:") (not_le.1 h8) (not_lt.1 h7)
        have hfound : strstr (ofBuffer (ascii "Cookie:x")) (ascii "Cookie:")
            = some (ascii "Cookie:x") := by decide
        rw [hfull, hvalue, hfound, Option.some_or] at heq
        exact absurd heq (by decide)
      refine ⟨by omega, ?_⟩
      intro v hv
      have heq := h [] (ascii "Cookie:") (Nat.zero_le _) (not_lt.1 h7)
      have hnone : strstr (ofBuffer []) (ascii "Cookie:") = none := by decide
      rw [hfull, hvalue, hnone, Option.none_or, Option.mem_def.1 hv, Option.map_some,
        Option.some_or, cookieFrom_line (by decide) (Option.mem_def.1 hv)] at heq
      exact heq
  · rintro (h | ⟨h7, hblank⟩)
    · apply Constant.of_eq
        (v := ((strstr t (ascii "cookie:")).map fun v => lineValue 512 (v.drop 7)).getD [])
      intro b hb
      have hshort : ∀ lit : CStr, lit.length = 7 → strstr (ofBuffer b) lit = none := by
        intro lit hlit
        apply strstr_short
        have := length_ofBuffer_le b
        omega
      rw [hvalue, hshort _ (by decide), hshort _ (by decide), Option.none_or, Option.or_none]
      cases hc : strstr t (ascii "cookie:") with
      | none => rfl
      | some v => exact cookieFrom_line (by decide) hc
    · apply Constant.of_eq (v := [])
      intro b hb
      have hb' : (ofBuffer b).length ≤ 7 := (length_ofBuffer_le b).trans (h7 ▸ hb)
      rw [hvalue]
      cases hB : strstr (ofBuffer b) (ascii "Cookie:") with
      | some v => exact cookieFrom_body (by decide) hb' hB
      | none =>
        cases hc : strstr t (ascii "cookie:") with
        | some v =>
          rw [Option.none_or, Option.map_some, Option.some_or, cookieFrom_line (by decide) hc]
          exact hblank v hc
        | none =>
          cases hb : strstr (ofBuffer b) (ascii "cookie:") with
          | none => rfl
          | some v => exact cookieFrom_body (by decide) hb' hb

theorem cookie_constant_iff : Constant cookie (t ++ [10]) n
    ↔ 0 ∈ t ++ [10] ∨ (strstr (t ++ [10]) (ascii "Cookie:")).isSome = true ∨ n < 7 ∨
      n = 7 ∧ ∀ p ∈ strstr (t ++ [10]) (ascii "cookie:"), BlankValue (p.drop 7) := by
  rw [blank_line (by decide) (by decide), strstr_line (by decide) (by decide), Option.isSome_map]
  by_cases h0 : 0 ∈ t ++ [10]
  · constructor
    · intro _
      exact Or.inl h0
    · intro _
      apply Constant.of_eq (v := cookie (t ++ [10]))
      intro b _
      rw [cookie_eq, cookie_eq, ofBuffer_append_of_mem h0]
  · have ht : 0 ∉ t := fun h => h0 (List.mem_append_left _ h)
    cases hC : strstr t (ascii "Cookie:") with
    | some v =>
      constructor
      · intro _
        exact Or.inr (Or.inl rfl)
      · intro _
        apply Constant.of_eq (v := lineValue 512 (v.drop 7))
        intro b _
        rw [cookie_newline ht, hC, Option.map_some, Option.some_or, Option.some_or,
          cookieFrom_line (by decide) hC]
    | none =>
      rw [cookie_absent_constant_iff ht hC]
      simp only [h0, false_or, Option.isSome_none, Bool.false_eq_true]

/-! ## The authorization -/

theorem authorization_congr {x y : List UInt8} (h : ofBuffer x = ofBuffer y) :
    authorization x = authorization y := by
  simp only [authorization, authorizationStart, h]

/-- The name has no room in the body. -/
theorem authorization_constant (hn : n < 14) : Constant authorization (t ++ [10]) n := by
  by_cases h0 : 0 ∈ t ++ [10]
  · apply Constant.of_eq (v := authorization (t ++ [10]))
    intro b _
    exact authorization_congr (ofBuffer_append_of_mem h0)
  · have ht : 0 ∉ t := fun h => h0 (List.mem_append_left _ h)
    apply Constant.of_eq (v := (((strstr t (ascii "Authorization:")).or
      (strstr t (ascii "authorization:"))).map
        fun v => trimEnd (lineValue 256 (v.drop 14))).getD [])
    intro b hb
    have hshort : ∀ lit : CStr, lit.length = 14 → strstr (ofBuffer b) lit = none := by
      intro lit hlit
      apply strstr_short
      have := length_ofBuffer_le b
      omega
    have hline : ∀ lit : CStr, lit.length = 14 → ∀ v, strstr t lit = some v →
        lineValue 256 ((v ++ 10 :: ofBuffer b).drop 14) = lineValue 256 (v.drop 14) := by
      intro lit hlen v hv
      have hlit : lit ≠ [] := by
        intro h
        simp [h] at hlen
      have h14 := (strstr_spec hlit hv).2.length_le
      rw [List.drop_append_of_le_length (by omega), lineValue_append (by decide)]
    rw [authorization, authorizationStart, strstr_newline (by decide) (by decide) ht,
      strstr_newline (by decide) (by decide) ht, hshort _ (by decide), hshort _ (by decide),
      Option.or_none, Option.or_none]
    cases hA : strstr t (ascii "Authorization:") with
    | some v => exact congrArg trimEnd (hline _ (by decide) v hA)
    | none =>
      cases ha : strstr t (ascii "authorization:") with
      | none => rfl
      | some v => exact congrArg trimEnd (hline _ (by decide) v ha)

/-! ## The connection -/

theorem isSome_newline {lit : CStr} (hlit : lit ≠ []) (hd : 10 ∉ lit) (ht : 0 ∉ t)
    (b : List UInt8) : (strstr (ofBuffer (t ++ [10] ++ b)) lit).isSome
      = ((strstr t lit).isSome || (strstr (ofBuffer b) lit).isSome) := by
  rw [strstr_newline hlit hd ht]
  cases strstr t lit <;> simp

/-- A name that has no room in the body is found in the section or not at all. -/
theorem isSome_section {lit : CStr} (hd : 10 ∉ lit) (ht : 0 ∉ t) {b : List UInt8}
    (hb : b.length < lit.length) :
    (strstr (ofBuffer (t ++ [10] ++ b)) lit).isSome = (strstr t lit).isSome := by
  have hlit : lit ≠ [] := by
    intro h
    simp [h] at hb
  rw [isSome_newline hlit hd ht, strstr_short ((length_ofBuffer_le b).trans_lt hb),
    Option.isSome_none, Bool.or_false]

theorem hasClose_section (ht : 0 ∉ t) {b : List UInt8} (hb : b.length < 14) :
    hasClose (ofBuffer (t ++ [10] ++ b)) = hasClose t := by
  have h : ∀ lit : CStr, lit.length = 17 → 10 ∉ lit →
      (strstr (ofBuffer (t ++ [10] ++ b)) lit).isSome = (strstr t lit).isSome :=
    fun lit hlen hd => isSome_section hd ht (by omega)
  simp only [hasClose]
  rw [h _ (by decide) (by decide), h _ (by decide) (by decide), h _ (by decide) (by decide),
    h _ (by decide) (by decide)]

theorem hasKeepAlive_section (ht : 0 ∉ t) {b : List UInt8} (hb : b.length < 14) :
    hasKeepAlive (ofBuffer (t ++ [10] ++ b)) = hasKeepAlive t := by
  have h : ∀ lit : CStr, lit.length = 22 → 10 ∉ lit →
      (strstr (ofBuffer (t ++ [10] ++ b)) lit).isSome = (strstr t lit).isSome :=
    fun lit hlen hd => isSome_section hd ht (by omega)
  simp only [hasKeepAlive]
  rw [h _ (by decide) (by decide), h _ (by decide) (by decide), h _ (by decide) (by decide),
    h _ (by decide) (by decide)]

theorem keepAlive_newline (ht : 0 ∉ t) {b : List UInt8} (hb : b.length < 14) :
    keepAlive (t ++ [10] ++ b)
      = !(if ((strstr t (ascii "HTTP/1.0")).isSome
            || (strstr (ofBuffer b) (ascii "HTTP/1.0")).isSome) = true
          then !hasKeepAlive t else hasClose t) := by
  simp only [keepAlive]
  rw [isSome_newline (by decide) (by decide) ht, hasKeepAlive_section ht hb,
    hasClose_section ht hb]

theorem keepAliveClosed_line (ht : 0 ∉ t) : KeepAliveClosed (t ++ [10]) n
    ↔ n < 8 ∨ (strstr t (ascii "HTTP/1.0")).isSome = true ∨ hasClose t = !hasKeepAlive t := by
  have h0 : 0 ∉ t ++ [10] := by simpa using ht
  have htext : ofBuffer (t ++ [10] ++ []) = t ++ [10] := by
    rw [List.append_nil, ofBuffer_of_notMem h0]
  have hclose := hasClose_section ht (b := []) (by decide)
  have hka := hasKeepAlive_section ht (b := []) (by decide)
  rw [htext] at hclose hka
  rw [KeepAliveClosed, hclose, hka, strstr_line (by decide) (by decide), Option.isSome_map]
  simp only [h0, false_or]

theorem keepAlive_constant_iff (hn : n < 14) :
    Constant keepAlive (t ++ [10]) n ↔ KeepAliveClosed (t ++ [10]) n := by
  by_cases h0 : 0 ∈ t ++ [10]
  · constructor
    · intro _
      exact Or.inl h0
    · intro _
      apply Constant.of_eq (v := keepAlive (t ++ [10]))
      intro b _
      simp only [keepAlive]
      rw [ofBuffer_append_of_mem h0]
  · have ht : 0 ∉ t := fun h => h0 (List.mem_append_left _ h)
    rw [keepAliveClosed_line ht]
    constructor
    · intro h
      by_cases h8 : n < 8
      · exact Or.inl h8
      · right
        cases hv : (strstr t (ascii "HTTP/1.0")).isSome with
        | true => exact Or.inl rfl
        | false =>
          right
          have heq := h [] (ascii "HTTP/1.0") (Nat.zero_le _) (not_lt.1 h8)
          have hnone : (strstr (ofBuffer []) (ascii "HTTP/1.0")).isSome = false := by decide
          have hsome : (strstr (ofBuffer (ascii "HTTP/1.0")) (ascii "HTTP/1.0")).isSome = true := by
            decide
          rw [keepAlive_newline ht (by decide), keepAlive_newline ht (by decide), hv, hnone,
            hsome] at heq
          simpa using heq
    · rintro (h | h | h)
      · apply Constant.of_eq (v := keepAlive (t ++ [10]))
        intro b hb
        have hshort : strstr (ofBuffer b) (ascii "HTTP/1.0") = none := by
          apply strstr_short
          have := length_ofBuffer_le b
          have : (ascii "HTTP/1.0").length = 8 := by decide
          omega
        have hnil : strstr (ofBuffer []) (ascii "HTTP/1.0") = none := by decide
        have hempty := keepAlive_newline ht (b := []) (by decide)
        rw [List.append_nil] at hempty
        rw [keepAlive_newline ht (by omega), hempty, hshort, hnil]
      · apply Constant.of_eq (v := hasKeepAlive t)
        intro b hb
        rw [keepAlive_newline ht (by omega), h]
        simp
      · apply Constant.of_eq (v := !hasClose t)
        intro b hb
        rw [keepAlive_newline ht (by omega), h]
        simp

/-! ## The request line -/

theorem takeWhile_take_append {s x : List UInt8} {k : Nat} :
    ((s ++ 13 :: x).take k).takeWhile (· ≠ 13) = (s.take k).takeWhile (· ≠ 13) := by
  induction s generalizing k with
  | nil => cases k <;> simp
  | cons c s ih =>
    cases k with
    | zero => rfl
    | succ k =>
      simp only [List.cons_append, List.take_succ_cons, List.takeWhile_cons]
      rw [ih]

/-- The request line ends before the body. -/
theorem lineCopy_append {s x : List UInt8} : lineCopy (s ++ 13 :: x) = lineCopy s := by
  unfold lineCopy cut
  by_cases h0 : 0 ∈ s
  · rw [ofBuffer_append_of_mem h0]
  · rw [ofBuffer_append h0, ofBuffer_of_notMem h0]
    have h13 : ofBuffer (13 :: x) = 13 :: ofBuffer x := rfl
    rw [h13, takeWhile_take_append]

theorem IsHeaderSection.exists_eq {h : List UInt8} (hsec : IsHeaderSection h) :
    ∃ s, h = s ++ [13, 10, 13, 10] := by
  obtain ⟨s, hs⟩ := (first?_spec hsec).1
  exact ⟨s, hs.symm⟩

theorem IsHeaderSection.lineCopy_eq {h : List UInt8} (hsec : IsHeaderSection h) (b : List UInt8) :
    lineCopy (h ++ b) = lineCopy h := by
  obtain ⟨s, rfl⟩ := hsec.exists_eq
  rw [List.append_assoc]
  show lineCopy (s ++ 13 :: (10 :: 13 :: 10 :: b)) = lineCopy (s ++ 13 :: [10, 13, 10])
  rw [lineCopy_append, lineCopy_append]

/-! ## All values -/

/-- The header values in a buffer; `keep` is the decision to keep the connection. -/
def headerValues (keep : List UInt8 → Bool) (recvBuf : List UInt8) : HeaderValues where
  contentType := contentType recvBuf
  contentLengthHdr := contentLengthHdr recvBuf
  cookie := cookie recvBuf
  authorization := authorization recvBuf
  host := hostBuf recvBuf
  keepAlive := keep recvBuf

theorem headerValues_constant_iff {h : List UInt8} (hsec : IsHeaderSection h)
    (keep : List UInt8 → Bool) :
    Constant (headerValues keep) h n ↔ Closed h n ∧ Constant keep h n := by
  obtain ⟨s, hs⟩ := hsec.exists_eq
  have hline : h = (s ++ [13, 10, 13]) ++ [10] := by simp [hs]
  rw [hline]
  constructor
  · intro hc
    have field : ∀ {β : Type} (f : HeaderValues → β),
        Constant (fun buf => f (headerValues keep buf)) ((s ++ [13, 10, 13]) ++ [10]) n :=
      fun f b₁ b₂ h₁ h₂ => congrArg f (hc b₁ b₂ h₁ h₂)
    have hn : n < 14 := contentType_constant_iff.1 (field (·.contentType))
    refine ⟨⟨hn, ?_, ?_, ?_⟩, field (·.keepAlive)⟩
    · exact (contentLength_constant_iff hn).1 (field (·.contentLengthHdr))
    · exact host_constant_iff.1 (field (·.host))
    · exact cookie_constant_iff.1 (field (·.cookie))
  · rintro ⟨hclosed, hkeep⟩ b₁ b₂ h₁ h₂
    unfold headerValues
    rw [contentType_constant_iff.2 hclosed.room b₁ b₂ h₁ h₂,
      (contentLength_constant_iff hclosed.room).2 hclosed.contentLength b₁ b₂ h₁ h₂,
      cookie_constant_iff.2 hclosed.cookie b₁ b₂ h₁ h₂,
      authorization_constant hclosed.room b₁ b₂ h₁ h₂,
      host_constant_iff.2 hclosed.host b₁ b₂ h₁ h₂, hkeep b₁ b₂ h₁ h₂]

/-- Where the values are read up to a size and not at all above it, the section decides them
exactly when no body within the size changes them. -/
theorem decides_iff_constant {headers : List UInt8 → Option HeaderValues}
    {values : List UInt8 → HeaderValues} {h : List UInt8} {limit : Nat}
    (hsome : ∀ b, (h ++ b).length ≤ min recvMax limit → headers (h ++ b) = some (values (h ++ b)))
    (hnone : ∀ b, (h ++ b).length ≤ recvMax → limit < (h ++ b).length →
      headers (h ++ b) = none) :
    Decides headers h ↔ Constant values h (min recvMax limit - h.length) := by
  constructor
  · intro hd b₁ b₂ h₁ h₂
    by_cases hlen : h.length ≤ min recvMax limit
    · have hb₁ : (h ++ b₁).length ≤ min recvMax limit := by rw [List.length_append]; omega
      have hb₂ : (h ++ b₂).length ≤ min recvMax limit := by rw [List.length_append]; omega
      exact hd b₁ b₂ (hb₁.trans (min_le_left ..)) (hb₂.trans (min_le_left ..)) _ (hsome b₁ hb₁) _
        (hsome b₂ hb₂)
    · rw [List.length_eq_zero_iff.1 (by omega : b₁.length = 0),
        List.length_eq_zero_iff.1 (by omega : b₂.length = 0)]
  · intro hc b₁ b₂ h₁ h₂ v₁ hv₁ v₂ hv₂
    have within : ∀ b v, (h ++ b).length ≤ recvMax → v ∈ headers (h ++ b) →
        (h ++ b).length ≤ min recvMax limit := by
      intro b v hb hv
      by_contra hlen
      rw [hnone b hb (by omega)] at hv
      exact absurd hv (by simp)
    have hb₁ := within b₁ v₁ h₁ hv₁
    have hb₂ := within b₂ v₂ h₂ hv₂
    rw [hsome b₁ hb₁, Option.mem_def, Option.some.injEq] at hv₁
    rw [hsome b₂ hb₂, Option.mem_def, Option.some.injEq] at hv₂
    rw [List.length_append] at hb₁ hb₂
    rw [← hv₁, ← hv₂, hc b₁ b₂ (by omega) (by omega)]

theorem decides_of_none {headers : List UInt8 → Option HeaderValues} {h : List UInt8}
    (hnone : ∀ b, headers (h ++ b) = none) : Decides headers h := by
  intro b₁ b₂ _ _ v₁ hv₁
  rw [hnone b₁] at hv₁
  exact absurd hv₁ (by simp)

/-! ## The front ends -/

/-- The request line of a section makes `epoll_server_run` read a request. -/
def EpollAccepts (h : List UInt8) : Prop :=
  firstWord (lineCopy h) ∈ httpMethods ∧ (parseHttpRequestLine (lineCopy h)).isSome = true

/-- The request line of a section makes `request_handler_handle_connection` read a request. -/
def ConnectionAccepts (h : List UInt8) : Prop :=
  (parseHttpRequestLine (lineCopy h)).isSome = true

theorem epoll_decides_iff (config : Option ServerConfig) {h : List UInt8}
    (hsec : IsHeaderSection h) :
    Decides (epollHeaders config) h ↔ ¬EpollAccepts h ∨
      Closed h (min recvMax (maxBytes config).toNat - h.length) ∧
        KeepAliveClosed h (min recvMax (maxBytes config).toNat - h.length) := by
  by_cases hacc : EpollAccepts h
  · obtain ⟨hword, hpath⟩ := hacc
    obtain ⟨⟨method, path⟩, hpath'⟩ := Option.isSome_iff_exists.1 hpath
    have hconst : Decides (epollHeaders config) h ↔
        Constant (headerValues keepAlive) h
          (min recvMax (maxBytes config).toNat - h.length) := by
      apply decides_iff_constant
      · intro b hb
        have hsize : ((h ++ b).length : Int) ≤ maxBytes config := by
          have := hb.trans (min_le_right ..)
          have hpos : 0 < h.length := by
            obtain ⟨s, rfl⟩ := hsec.exists_eq
            simp
          rw [List.length_append] at this ⊢
          omega
        rw [epollHeaders, epollRead_eq hsize (hsec.lineCopy_eq b ▸ hword)
          (hsec.lineCopy_eq b ▸ hpath')]
        rfl
      · intro b _ hb
        rw [epollHeaders, epollRead_tooLarge (by omega)]
        rfl
    rw [hconst, headerValues_constant_iff hsec]
    have hacc : EpollAccepts h := ⟨hword, hpath⟩
    simp only [hacc, not_true, false_or]
    apply and_congr_right
    intro hclosed
    obtain ⟨s, hs⟩ := hsec.exists_eq
    have hline : h = (s ++ [13, 10, 13]) ++ [10] := by simp [hs]
    generalize min recvMax (maxBytes config).toNat - h.length = n at hclosed ⊢
    rw [hline]
    exact keepAlive_constant_iff hclosed.room
  · have hnone : ∀ b, epollHeaders config (h ++ b) = none := by
      intro b
      unfold epollHeaders epollRead
      rw [hsec.lineCopy_eq b]
      by_cases hsize : maxBytes config < (h ++ b).length
      · rw [if_pos hsize]
        rfl
      · rw [if_neg hsize]
        by_cases hword : firstWord (lineCopy h) ∈ httpMethods
        · have hpath : parseHttpRequestLine (lineCopy h) = none := by
            rw [← Option.not_isSome_iff_eq_none]
            exact fun hpath => hacc ⟨hword, hpath⟩
          simp only [hword, not_true, if_false, hpath]
          rfl
        · simp only [hword, not_false_eq_true, if_true]
          rfl
    simp only [hacc, not_false_eq_true, true_or, iff_true]
    exact decides_of_none hnone

theorem connection_decides_iff {h : List UInt8} (hsec : IsHeaderSection h) :
    Decides connectionHeaders h ↔ ¬ConnectionAccepts h ∨ Closed h (recvMax - h.length) := by
  by_cases hacc : ConnectionAccepts h
  · obtain ⟨⟨method, path⟩, hpath⟩ := Option.isSome_iff_exists.1 hacc
    have hsome : ∀ b, connectionHeaders (h ++ b)
        = some (headerValues (fun _ => false) (h ++ b)) := by
      intro b
      rw [connectionHeaders, connectionRead_eq (hsec.lineCopy_eq b ▸ hpath), hostBuf_extractBody]
      rfl
    have hconst : Decides connectionHeaders h ↔
        Constant (headerValues fun _ => false) h (min recvMax recvMax - h.length) := by
      apply decides_iff_constant
      · exact fun b _ => hsome b
      · exact fun b hb hb' => absurd hb (not_le.2 hb')
    rw [hconst, headerValues_constant_iff hsec, min_self]
    simp only [hacc, not_true, false_or, and_iff_left_iff_imp]
    intro _ _ _ _ _
    rfl
  · have hnone : ∀ b, connectionHeaders (h ++ b) = none := by
      intro b
      have hpath : parseHttpRequestLine (lineCopy h) = none := by
        rw [← Option.not_isSome_iff_eq_none]
        exact hacc
      unfold connectionHeaders connectionRead
      rw [hsec.lineCopy_eq b, hpath]
      rfl
    simp only [hacc, not_false_eq_true, true_or, iff_true]
    exact decides_of_none hnone

/-- For every header section: the values read from two requests with this section are the same
for all bodies exactly when the section is closed for the bytes the buffer and the limit leave
to a body. -/
theorem headerSection_decides_iff (config : Option ServerConfig) {h : List UInt8}
    (hsec : IsHeaderSection h) :
    (Decides (epollHeaders config) h ↔ ¬EpollAccepts h ∨
      Closed h (min recvMax (maxBytes config).toNat - h.length) ∧
        KeepAliveClosed h (min recvMax (maxBytes config).toNat - h.length)) ∧
      (Decides connectionHeaders h ↔ ¬ConnectionAccepts h ∨ Closed h (recvMax - h.length)) :=
  ⟨epoll_decides_iff config hsec, connection_decides_iff hsec⟩

/-- With a limit of 20 bytes, two bytes of body are left. -/
theorem headerSection_decides_example :
    Decides (epollHeaders (some ⟨[], 20⟩)) (ascii "GET / HTTP/1.1\r\n\r\n") := by
  apply (headerSection_decides_iff (some ⟨[], 20⟩) (by decide)).1.2
  right
  have hnone : last? contentLengthPattern 15 (ascii "GET / HTTP/1.1\r\n\r\n") = none := by
    decide +kernel
  refine ⟨⟨by decide, ?_, Or.inl (by decide), Or.inr (Or.inr (Or.inl (by decide)))⟩,
    Or.inr (Or.inl (by decide))⟩
  right
  simp [hnone]

/-- With the default limit, a body brings a session cookie that the header section does not
have. -/
theorem body_brings_cookie :
    ¬Decides (epollHeaders none) (ascii "POST /users HTTP/1.1\r\nHost: a\r\n\r\n") ∧
      ¬Decides connectionHeaders (ascii "POST /users HTTP/1.1\r\nHost: a\r\n\r\n") := by
  constructor
  · intro h
    have heq := h [] (ascii "Cookie: session_id=1") (by decide) (by decide) _
      (by decide +kernel : epollHeaders none (ascii "POST /users HTTP/1.1\r\nHost: a\r\n\r\n")
        = some ⟨[], -1, [], [], ascii "a", true⟩) _
      (by decide +kernel : epollHeaders none
        (ascii "POST /users HTTP/1.1\r\nHost: a\r\n\r\n" ++ ascii "Cookie: session_id=1")
        = some ⟨[], -1, ascii "session_id=1", [], ascii "a", true⟩)
    exact absurd heq (by decide)
  · intro h
    have heq := h [] (ascii "Cookie: session_id=1") (by decide) (by decide) _
      (by decide +kernel : connectionHeaders (ascii "POST /users HTTP/1.1\r\nHost: a\r\n\r\n")
        = some ⟨[], -1, [], [], ascii "a", false⟩) _
      (by decide +kernel : connectionHeaders
        (ascii "POST /users HTTP/1.1\r\nHost: a\r\n\r\n" ++ ascii "Cookie: session_id=1")
        = some ⟨[], -1, ascii "session_id=1", [], ascii "a", false⟩)
    exact absurd heq (by decide)

end MiniWeb.FrontEnd
