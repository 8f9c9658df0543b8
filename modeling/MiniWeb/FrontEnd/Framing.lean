import MiniWeb.FrontEnd.Reply

/-!
# The framing of replies

A client that reads a reply by its header consumes the bytes sent exactly when the header declares
the length of the bytes behind it. For each kind of reply this comes down to a condition on its
data: the places with a length counted by hand never meet it, a reply to `HEAD` must have no text,
the patch of `epoll_server_run` must not reach the text, and with `strlen` in `select_server_run`
the text must end where it is written to end (`framed_reply_iff`).
-/

namespace MiniWeb.FrontEnd

open CStr HttpReply SessionStore

/-- The header field as patched. -/
def closeText : CStr := ascii "Connection: close     "

/-! ## Header lines -/

/-- A line that is read as written, declares no length and is no target of the patch. -/
structure PlainLine (l : CStr) : Prop where
  ne_nil : l ≠ []
  noCr : 13 ∉ l
  noNul : 0 ∉ l
  noLength : contentLengthOf l = none
  noKeepAlive : strstr l keepAliveText = none

theorem plainLine_iff {l : CStr} : PlainLine l ↔ l ≠ [] ∧ 13 ∉ l ∧ 0 ∉ l ∧
    contentLengthOf l = none ∧ strstr l keepAliveText = none :=
  ⟨fun h => ⟨h.ne_nil, h.noCr, h.noNul, h.noLength, h.noKeepAlive⟩,
    fun ⟨h₁, h₂, h₃, h₄, h₅⟩ => ⟨h₁, h₂, h₃, h₄, h₅⟩⟩

instance (l : CStr) : Decidable (PlainLine l) := decidable_of_iff _ plainLine_iff.symm

theorem Status.plainLine (status : Status) : PlainLine status.line := by
  cases status <;> decide +kernel

theorem ContentType.plainLine (contentType : ContentType) :
    PlainLine (ascii "Content-Type: " ++ contentType.text) := by
  cases contentType <;> decide +kernel

theorem Server.plainLine (server : Server) : PlainLine server.plainText := by
  cases server <;> decide +kernel

/-- A line that does not begin with a `c` declares no length. -/
theorem contentLengthOf_cons {c : UInt8} {l : CStr} (h : lowerByte c ≠ 99) :
    contentLengthOf (c :: l) = none := by
  have hlit : ascii "content-length:" = 99 :: ascii "ontent-length:" := by decide
  have hpre : (ascii "content-length:").isPrefixOf ((c :: l).map lowerByte) = false := by
    rw [hlit, List.map_cons, List.isPrefixOf]
    simp [Ne.symm h]
  rw [contentLengthOf, hpre]
  rfl

theorem HttpDate.plainLine (date : HttpDate) : PlainLine (ascii "Date: " ++ date.text) := by
  have hnot : ∀ d : UInt8, isDateChar d = false → d ∉ ascii "Date: " →
      d ∉ ascii "Date: " ++ date.text := by
    intro d hd hpre hmem
    rcases List.mem_append.1 hmem with h | h
    · exact hpre h
    · rw [date.chars d h] at hd
      exact absurd hd (by decide)
  refine ⟨by simp [ascii], hnot 13 (by decide) (by decide), hnot 0 (by decide) (by decide), ?_, ?_⟩
  · have hcons : ascii "Date: " ++ date.text = 68 :: (ascii "ate: " ++ date.text) := rfl
    rw [hcons, contentLengthOf_cons (by decide)]
  · exact strstr_eq_none (d := 45) (by decide) (hnot 45 (by decide) (by decide))

/-- A digit of `hexEncode`. -/
theorem mem_hexEncode {bytes : List UInt8} {c : UInt8} (h : c ∈ hexEncode bytes) :
    c ≠ 13 ∧ c ≠ 0 ∧ c ≠ 75 := by
  have hdigits : ∀ k : Fin 256, ∀ c ∈ [hexDigit (UInt8.ofNat k.val >>> 4),
      hexDigit (UInt8.ofNat k.val &&& 15)], c ≠ 13 ∧ c ≠ 0 ∧ c ≠ 75 := by decide +kernel
  rw [hexEncode, List.mem_flatMap] at h
  obtain ⟨b, -, hc⟩ := h
  have hb := hdigits ⟨b.toNat, b.toNat_lt⟩ c
  rw [UInt8.ofNat_toNat] at hb
  exact hb hc

theorem plainLine_setCookie (bytes : List UInt8) :
    PlainLine (ascii "Set-Cookie: session_id=" ++ hexEncode bytes ++
      ascii "; Path=/; HttpOnly; Max-Age=3600; SameSite=Lax") := by
  have hnot : ∀ d : UInt8, d = 13 ∨ d = 0 ∨ d = 75 →
      d ∉ ascii "Set-Cookie: session_id=" ++ hexEncode bytes ++
        ascii "; Path=/; HttpOnly; Max-Age=3600; SameSite=Lax" := by
    intro d hd hmem
    have hfixed : d ∉ ascii "Set-Cookie: session_id=" ∧
        d ∉ ascii "; Path=/; HttpOnly; Max-Age=3600; SameSite=Lax" := by
      rcases hd with rfl | rfl | rfl <;> decide
    rw [List.mem_append, List.mem_append] at hmem
    rcases hmem with (h | h) | h
    · exact hfixed.1 h
    · have := mem_hexEncode h
      rcases hd with rfl | rfl | rfl
      · exact this.1 rfl
      · exact this.2.1 rfl
      · exact this.2.2 rfl
    · exact hfixed.2 h
  refine ⟨by simp [ascii], hnot 13 (by decide), hnot 0 (by decide), ?_, ?_⟩
  · have hcons : ascii "Set-Cookie: session_id=" ++ hexEncode bytes ++
        ascii "; Path=/; HttpOnly; Max-Age=3600; SameSite=Lax"
        = 83 :: (ascii "et-Cookie: session_id=" ++ hexEncode bytes ++
          ascii "; Path=/; HttpOnly; Max-Age=3600; SameSite=Lax") := rfl
    rw [hcons, contentLengthOf_cons (by decide)]
  · exact strstr_eq_none (d := 75) (by decide) (hnot 75 (by decide))

/-! ## The declared length -/

theorem contentLengthOf_line (n : Nat) : contentLengthOf (contentLengthLine n) = some n := by
  have hlower : (contentLengthLine n).map lowerByte
      = ascii "content-length:" ++ 32 :: (decimal n).map lowerByte := by
    rw [contentLengthLine, List.map_append]
    rfl
  have hpre : (ascii "content-length:").isPrefixOf ((contentLengthLine n).map lowerByte) = true := by
    rw [hlower, List.isPrefixOf_iff_prefix]
    exact List.prefix_append ..
  have hdrop : (contentLengthLine n).drop 15 = 32 :: decimal n := rfl
  have hspace : (32 :: decimal n).dropWhile isSpace = decimal n := by
    rw [List.dropWhile_cons_of_pos (by decide)]
    cases hd : decimal n with
    | nil => rfl
    | cons c s =>
      have hc : isDigit c = true := isDigit_of_mem_decimal (hd ▸ List.mem_cons_self ..)
      apply List.dropWhile_cons_of_neg
      intro hs
      rw [isDigit_of_isSpace hs] at hc
      exact absurd hc (by decide)
  rw [contentLengthOf, if_pos hpre, hdrop, hspace, digits_decimal]

theorem notMem_contentLengthLine {d : UInt8} (hd : isDigit d = false)
    (hpre : d ∉ ascii "Content-Length: ") (n : Nat) : d ∉ contentLengthLine n := by
  intro hmem
  rcases List.mem_append.1 hmem with h | h
  · exact hpre h
  · rw [isDigit_of_mem_decimal h] at hd
    exact absurd hd (by decide)

/-- The lines are read as written and declare `n`. -/
structure Heads (n : Nat) (lines : List CStr) : Prop where
  ne_nil : ∀ l ∈ lines, l ≠ []
  noCr : ∀ l ∈ lines, 13 ∉ l
  declares : ∃ l ∈ lines, contentLengthOf l = some n
  agrees : ∀ l ∈ lines, ∀ k ∈ contentLengthOf l, k = n

/-- A line of a reply whose header declares `n`: a plain one, the declaration, or the line on the
connection, also as patched. -/
def ReplyLine (n : Nat) (l : CStr) : Prop :=
  PlainLine l ∨ l = contentLengthLine n ∨ l = keepAliveText ∨ l = closeText

theorem heads_of_replyLines {n : Nat} {lines : List CStr} (h : ∀ l ∈ lines, ReplyLine n l)
    (hn : contentLengthLine n ∈ lines) : Heads n lines := by
  have hline : ∀ l, ReplyLine n l → l ≠ [] ∧ 13 ∉ l ∧ ∀ k ∈ contentLengthOf l, k = n := by
    rintro l (hl | rfl | rfl | rfl)
    · refine ⟨hl.ne_nil, hl.noCr, ?_⟩
      intro k hk
      rw [hl.noLength] at hk
      exact absurd hk (by simp)
    · refine ⟨by simp [contentLengthLine, ascii],
        notMem_contentLengthLine (by decide) (by decide) n, ?_⟩
      intro k hk
      rw [contentLengthOf_line, Option.mem_def, Option.some.injEq] at hk
      exact hk.symm
    · refine ⟨by decide, by decide, ?_⟩
      have : contentLengthOf keepAliveText = none := by decide
      simp [this]
    · refine ⟨by decide, by decide, ?_⟩
      have : contentLengthOf closeText = none := by decide
      simp [this]
  exact {
    ne_nil := fun l hl => (hline l (h l hl)).1
    noCr := fun l hl => (hline l (h l hl)).2.1
    declares := ⟨_, hn, contentLengthOf_line n⟩
    agrees := fun l hl => (hline l (h l hl)).2.2 }

theorem Heads.framed_iff {n : Nat} {lines : List CStr} (h : Heads n lines) {head : Bool}
    {sent text : List UInt8} : Framed head (headerText lines ++ sent) text ↔
      if head then sent = [] else n = sent.length ∧ sent = text := by
  have hpieces : ∀ l ∈ lines, pieces l = [l] := fun l hl => pieces_line (h.noCr l hl)
  have hempty : ∀ l ∈ lines, [] ∉ pieces l := by
    intro l hl
    rw [hpieces l hl, List.mem_singleton]
    exact fun h0 => h.ne_nil l hl h0.symm
  have hflat : lines.flatMap pieces = lines := by
    have hcongr : lines.flatMap pieces = lines.flatMap fun l => [l] :=
      List.flatMap_congr hpieces
    rw [hcongr, List.flatMap_singleton']
  rw [HttpReply.framed_iff hempty, hflat, (declaredLength_eq_some_iff).2 ⟨h.declares, h.agrees⟩]
  simp

/-! ## The patch -/

/-- Bytes the search of the patch passes over. -/
structure Skipped (x : List UInt8) : Prop where
  noNul : 0 ∉ x
  skip : ∀ s, strstr (x ++ s) keepAliveText = strstr s keepAliveText

theorem Skipped.append {x y : List UInt8} (hx : Skipped x) (hy : Skipped y) : Skipped (x ++ y) where
  noNul := by simpa using ⟨hx.noNul, hy.noNul⟩
  skip s := by rw [List.append_assoc, hx.skip, hy.skip]

theorem skipped_nil : Skipped [] := ⟨by simp, fun _ => rfl⟩

theorem skipped_crlf : Skipped crlf where
  noNul := by decide
  skip s := by
    show strstr (13 :: 10 :: s) keepAliveText = _
    rw [strstr_cons (by decide) (by decide), strstr_cons (by decide) (by decide)]

theorem skipped_line {l : CStr} (h0 : 0 ∉ l) (hl : strstr l keepAliveText = none) :
    Skipped (l ++ crlf) where
  noNul := by simpa [crlf] using h0
  skip s := by
    have hsplit : l ++ crlf ++ s = l ++ 13 :: (10 :: s) := by simp [crlf]
    rw [hsplit, strstr_split (by decide) (by decide), hl, Option.map_none, Option.none_or,
      strstr_cons (by decide) (by decide)]

/-- The lines are no target of the patch. -/
def Unpatched (lines : List CStr) : Prop := ∀ l ∈ lines, 0 ∉ l ∧ strstr l keepAliveText = none

theorem Unpatched.skipped {lines : List CStr} (h : Unpatched lines) :
    Skipped (lines.flatMap (· ++ crlf)) := by
  induction lines with
  | nil => exact skipped_nil
  | cons l lines ih =>
    obtain ⟨h0, hl⟩ := h l (List.mem_cons_self ..)
    rw [List.flatMap_cons]
    exact (skipped_line h0 hl).append (ih fun m hm => h m (List.mem_cons_of_mem _ hm))

theorem Unpatched.skipped_header {lines : List CStr} (h : Unpatched lines) :
    Skipped (headerText lines) :=
  h.skipped.append skipped_crlf

theorem closePatch_append {x : List UInt8} (hx : Skipped x) (y : List UInt8) :
    closePatch (x ++ y) = x ++ closePatch y := by
  unfold closePatch
  rw [ofBuffer_append hx.noNul, hx.skip]
  cases hka : strstr (ofBuffer y) keepAliveText with
  | none => rfl
  | some ka =>
    have hlen := (strstr_spec (by decide) hka).1.length_le
    have hi : (x ++ ofBuffer y).length - ka.length
        = x.length + ((ofBuffer y).length - ka.length) := by
      rw [List.length_append]
      omega
    simp only [hi, Nat.add_assoc, List.take_length_add_append, List.drop_length_add_append,
      List.append_assoc]

theorem closePatch_of_none {y : List UInt8} (h : strstr (ofBuffer y) keepAliveText = none) :
    closePatch y = y := by
  rw [closePatch, h]

/-- Where the patch finds what it looks for. -/
def patchPlace (bytes : List UInt8) : Option Nat :=
  (strstr (ofBuffer bytes) keepAliveText).map fun ka => (ofBuffer bytes).length - ka.length

/-- Where the search succeeds, the patch replaces what it found. -/
theorem closePatch_of_some {y ka : List UInt8}
    (h : strstr (ofBuffer y) keepAliveText = some ka) :
    ∃ x rest, patchPlace y = some x.length ∧ y = x ++ (keepAliveText ++ rest) ∧
      closePatch y = x ++ (closeText ++ rest) := by
  obtain ⟨⟨x, hx⟩, ⟨rest, hrest⟩⟩ := strstr_spec (by decide) h
  obtain ⟨z, hz⟩ : ofBuffer y <+: y := List.takeWhile_prefix _
  have hy : y = x ++ (keepAliveText ++ (rest ++ z)) := by
    rw [← hz, ← hx, ← hrest]
    simp
  have hi : (ofBuffer y).length - ka.length = x.length := by
    rw [← hx, List.length_append]
    omega
  refine ⟨x, rest ++ z, by rw [patchPlace, h, Option.map_some, hi], hy, ?_⟩
  have htake : (keepAliveText ++ (rest ++ z)).take 12 = ascii "Connection: " := rfl
  have hdrop : (keepAliveText ++ (rest ++ z)).drop 22 = rest ++ z := rfl
  have hclose : closeText = ascii "Connection: " ++ ascii "close     " := by decide
  rw [closePatch, h]
  simp only [hi]
  rw [hy, List.take_length_add_append, List.drop_length_add_append, htake, hdrop, hclose]
  simp

/-- Two lists that part behind `p` have the same first elements up to there. -/
theorem take_append_cons_eq_iff {p u v : List UInt8} {a b : UInt8} (hab : a ≠ b) {n : Nat} :
    (p ++ a :: u).take n = (p ++ b :: v).take n ↔ n ≤ p.length := by
  constructor
  · intro h
    by_contra hlt
    rw [not_le] at hlt
    have hat : ((p ++ a :: u).take n)[p.length]? = ((p ++ b :: v).take n)[p.length]? := by rw [h]
    simp only [List.getElem?_take_of_lt hlt, List.getElem?_append_right (Nat.le_refl _),
      Nat.sub_self, List.getElem?_cons_zero, Option.some.injEq] at hat
    exact hab hat
  · intro h
    rw [List.take_append_of_le_length h, List.take_append_of_le_length h]

/-- Behind a NUL nothing is found. -/
theorem closePatch_terminated (y stale : List UInt8) :
    closePatch (y ++ 0 :: stale) = closePatch y ++ 0 :: stale := by
  have hbuffer : ofBuffer (y ++ 0 :: stale) = ofBuffer y := ofBuffer_append_nul y stale
  cases hka : strstr (ofBuffer y) keepAliveText with
  | none => rw [closePatch_of_none hka, closePatch_of_none (by rw [hbuffer, hka])]
  | some ka =>
    have h22 := (strstr_spec (by decide) hka).2.length_le
    have hka_le := (strstr_spec (by decide) hka).1.length_le
    have hlen : keepAliveText.length = 22 := by decide
    have hy : (ofBuffer y).length ≤ y.length := (List.takeWhile_prefix _).length_le
    rw [closePatch, closePatch, hbuffer, hka]
    simp only
    rw [List.take_append_of_le_length (by omega), List.drop_append_of_le_length (by omega)]
    simp

theorem length_closePatch (y : List UInt8) : (closePatch y).length = y.length := by
  cases hka : strstr (ofBuffer y) keepAliveText with
  | none => rw [closePatch_of_none hka]
  | some ka =>
    obtain ⟨x, rest, -, hy, hpatch⟩ := closePatch_of_some hka
    rw [hpatch]
    conv_rhs => rw [hy]
    have hlen : closeText.length = keepAliveText.length := by decide
    simp only [List.length_append, hlen]

theorem take_closePatch_terminated (y stale : List UInt8) :
    (closePatch (y ++ 0 :: stale)).take y.length = closePatch y := by
  rw [closePatch_terminated, ← length_closePatch y, List.take_left']
  rfl

/-- The first bytes are left alone exactly if what is overwritten lies behind them. -/
theorem take_closePatch_eq_iff {text behind : List UInt8} :
    (closePatch (text ++ behind)).take text.length = text ↔
      ∀ i ∈ patchPlace (text ++ behind), text.length ≤ i + 12 := by
  cases hka : strstr (ofBuffer (text ++ behind)) keepAliveText with
  | none => simp [closePatch_of_none hka, patchPlace, hka]
  | some ka =>
    obtain ⟨x, rest, hplace, hy, hpatch⟩ := closePatch_of_some hka
    -- the two differ first at the `K` of `Keep-Alive`
    have hold : text ++ behind =
        (x ++ ascii "Connection: ") ++ 75 :: (ascii "eep-Alive" ++ rest) := by
      rw [hy, List.append_assoc]
      rfl
    have hnew : closePatch (text ++ behind)
        = (x ++ ascii "Connection: ") ++ 99 :: (ascii "lose     " ++ rest) := by
      rw [hpatch, List.append_assoc]
      rfl
    have hlen : (x ++ ascii "Connection: ").length = x.length + 12 := by
      rw [List.length_append]
      rfl
    have htext : text = (text ++ behind).take text.length := List.take_left.symm
    rw [hplace]
    simp only [Option.mem_some_iff, forall_eq']
    conv_lhs => rhs; rw [htext]
    rw [hnew, hold, take_append_cons_eq_iff (by decide), hlen]

theorem closePatch_keepAlive (y : List UInt8) :
    closePatch (keepAliveText ++ y) = closeText ++ y := by
  have h0 : 0 ∉ keepAliveText := by decide
  have hfound : strstr (ofBuffer (keepAliveText ++ y)) keepAliveText
      = some (keepAliveText ++ ofBuffer y) := by
    have hcons : keepAliveText ++ ofBuffer y
        = 67 :: (ascii "onnection: Keep-Alive" ++ ofBuffer y) := rfl
    have hpre : keepAliveText.isPrefixOf (keepAliveText ++ ofBuffer y) = true := by
      rw [List.isPrefixOf_iff_prefix]
      exact List.prefix_append ..
    rw [ofBuffer_append h0, hcons, strstr, ← hcons, if_pos hpre]
  have hi : (ofBuffer (keepAliveText ++ y)).length - (keepAliveText ++ ofBuffer y).length = 0 := by
    rw [ofBuffer_append h0, Nat.sub_self]
  rw [closePatch, hfound]
  simp only [hi, Nat.zero_add]
  have htake : (keepAliveText ++ y).take 12 = ascii "Connection: " := rfl
  have hdrop : (keepAliveText ++ y).drop 22 = y := rfl
  have hclose : closeText = ascii "Connection: " ++ ascii "close     " := by decide
  rw [htake, hdrop, hclose]

/-- The patch of a header that keeps the connection. -/
theorem closePatch_keep {a b : List CStr} (ha : Unpatched a) (content : List UInt8) :
    closePatch (headerText (a ++ keepAliveText :: b) ++ content)
      = headerText (a ++ closeText :: b) ++ content := by
  have hsplit : ∀ l : CStr, headerText (a ++ l :: b) ++ content
      = a.flatMap (· ++ crlf) ++ (l ++ (crlf ++ (headerText b ++ content))) := by
    intro l
    simp [headerText]
  rw [hsplit, hsplit, closePatch_append ha.skipped, closePatch_keepAlive]

/-- The patch of a header that closes it looks in the text. -/
theorem closePatch_close {lines : List CStr} (h : Unpatched lines) (content : List UInt8) :
    closePatch (headerText lines ++ content) = headerText lines ++ closePatch content :=
  closePatch_append h.skipped_header content

/-- The patch of a header with a line that quotes a text looks in that line, too. -/
theorem closePatch_quoted {a b : List CStr} {q : CStr} (ha : Unpatched a) (hb : Unpatched b)
    (hq : 0 ∉ q) :
    closePatch (headerText (a ++ q :: b)) = headerText (a ++ closePatch q :: b) := by
  have hsplit : ∀ l : CStr, headerText (a ++ l :: b)
      = a.flatMap (· ++ crlf) ++ (l ++ (crlf ++ headerText b)) := by
    intro l
    simp [headerText]
  rw [hsplit, hsplit, closePatch_append ha.skipped]
  congr 1
  cases hka : strstr q keepAliveText with
  | none =>
    have htext : closePatch q = q := closePatch_of_none (by rw [ofBuffer_of_notMem hq, hka])
    have htail : closePatch (headerText b) = headerText b := by
      have h := closePatch_close hb []
      rwa [List.append_nil, closePatch_of_none (y := []) (by decide), List.append_nil] at h
    have hskip := (skipped_line hq hka)
    rw [htext, ← List.append_assoc, closePatch_append hskip, htail, List.append_assoc]
  | some ka =>
    -- the match in the line is the first in the header, and it ends in the line
    have htext : ofBuffer (q ++ (crlf ++ headerText b)) = q ++ (crlf ++ headerText b) := by
      have h0 := hb.skipped_header.noNul
      apply ofBuffer_of_notMem
      simpa [crlf] using ⟨hq, h0⟩
    have hsearch : strstr (q ++ (crlf ++ headerText b)) keepAliveText
        = some (ka ++ (crlf ++ headerText b)) := by
      have hsplit : strstr (q ++ 13 :: 10 :: headerText b) keepAliveText = _ :=
        strstr_split (by decide) (by decide)
      rw [hka, Option.map_some, Option.some_or] at hsplit
      exact hsplit
    have hlen := (strstr_spec (by decide) hka).1.length_le
    have h22 := (strstr_spec (by decide) hka).2.length_le
    have hkl : keepAliveText.length = 22 := by decide
    rw [closePatch, closePatch, htext, hsearch, ofBuffer_of_notMem hq, hka]
    have hi : (q ++ (crlf ++ headerText b)).length - (ka ++ (crlf ++ headerText b)).length
        = q.length - ka.length := by
      simp only [List.length_append]
      omega
    simp only [hi]
    rw [List.take_append_of_le_length (by omega), List.drop_append_of_le_length (by omega)]
    simp

end MiniWeb.FrontEnd
