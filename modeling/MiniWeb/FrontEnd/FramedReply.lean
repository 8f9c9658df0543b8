import MiniWeb.FrontEnd.Framing

/-!
# Which replies are framed

The header of every reply but two is made of plain lines, the declared length and the line on the
connection (`Header`). The other two quote a text of the configuration. What is sent behind the
header is the content as the front end passes it to `send`.
-/

namespace MiniWeb.FrontEnd

open CStr HttpReply SessionStore

/-! ## Headers -/

/-- A line of a header that declares `n`. -/
def HeaderLine (n : Nat) (l : CStr) : Prop := PlainLine l ∨ l = contentLengthLine n

theorem HeaderLine.unpatched {n : Nat} {l : CStr} (h : HeaderLine n l) :
    0 ∉ l ∧ strstr l keepAliveText = none := by
  rcases h with h | rfl
  · exact ⟨h.noNul, h.noKeepAlive⟩
  · exact ⟨notMem_contentLengthLine (by decide) (by decide) n,
      strstr_eq_none (d := 75) (by decide) (notMem_contentLengthLine (by decide) (by decide) n)⟩

theorem HeaderLine.replyLine {n : Nat} {l : CStr} (h : HeaderLine n l) : ReplyLine n l :=
  h.imp id Or.inl

/-- A header that declares `n` and keeps the connection or not. -/
structure Header (n : Nat) (keep : Bool) (lines : List CStr) : Prop where
  split : ∃ a b, lines = a ++ connectionLine keep :: b ∧ (∀ l ∈ a ++ b, HeaderLine n l) ∧
    contentLengthLine n ∈ a ++ b

theorem plainLine_close : PlainLine (connectionLine false) := by decide +kernel

/-- The header is read as written, whatever line on the connection it has. -/
theorem heads_with {n : Nat} {a b : List CStr} {l : CStr}
    (h : ∀ m ∈ a ++ b, HeaderLine n m) (hn : contentLengthLine n ∈ a ++ b) (hl : ReplyLine n l) :
    Heads n (a ++ l :: b) := by
  have hperm : ∀ m, m ∈ a ++ l :: b ↔ m = l ∨ m ∈ a ++ b := by
    intro m
    simp only [List.mem_append, List.mem_cons]
    tauto
  apply heads_of_replyLines
  · intro m hm
    rcases (hperm m).1 hm with rfl | hm
    · exact hl
    · exact (h m hm).replyLine
  · exact (hperm _).2 (Or.inr hn)

theorem replyLine_connection (n : Nat) (keep : Bool) : ReplyLine n (connectionLine keep) := by
  cases keep with
  | true => exact Or.inr (Or.inr (Or.inl rfl))
  | false => exact Or.inl plainLine_close

theorem Header.heads {n : Nat} {keep : Bool} {lines : List CStr} (h : Header n keep lines) :
    Heads n lines := by
  obtain ⟨a, b, rfl, hab, hn⟩ := h.split
  exact heads_with hab hn (replyLine_connection n keep)

theorem Header.noNul {n : Nat} {keep : Bool} {lines : List CStr} (h : Header n keep lines) :
    0 ∉ headerText lines := by
  obtain ⟨a, b, rfl, hab, -⟩ := h.split
  have hkeep : 0 ∉ connectionLine keep := by cases keep <;> decide
  have hcrlf : 0 ∉ crlf := by decide
  intro hmem
  rw [headerText, List.mem_append, List.mem_flatMap] at hmem
  rcases hmem with ⟨l, hl, hc⟩ | hc
  · rcases List.mem_append.1 hc with hc | hc
    · rw [List.mem_append, List.mem_cons] at hl
      rcases hl with hl | rfl | hl
      · exact (hab l (List.mem_append_left _ hl)).unpatched.1 hc
      · exact hkeep hc
      · exact (hab l (List.mem_append_right _ hl)).unpatched.1 hc
    · exact hcrlf hc
  · exact hcrlf hc

/-! ## What is sent behind the header -/

/-- The content as it is sent; `keep` says whether the header keeps the connection. -/
def sentContent (server : Server) (keepAlive : Bool) (stale : List UInt8) (path : ReplyPath)
    (keep : Bool) (content : List UInt8) : List UInt8 :=
  match server with
  | .connection => content
  | .epoll =>
    if path.early || keepAlive || keep then content
    else (closePatch (content ++ path.behind stale)).take content.length
  | .select => ofBuffer (content ++ path.behind stale)

theorem Header.sent {n : Nat} {keep : Bool} {w : Written} (h : Header n keep w.lines)
    (server : Server) (keepAlive : Bool) (stale : List UInt8) (path : ReplyPath) :
    ∃ lines, Heads n lines ∧ sentBytes server keepAlive stale path w
      = headerText lines ++ sentContent server keepAlive stale path keep w.content := by
  cases server with
  | connection => exact ⟨w.lines, h.heads, rfl⟩
  | select =>
    refine ⟨w.lines, h.heads, ?_⟩
    rw [sentBytes, sentContent, Written.bytes, List.append_assoc, ofBuffer_append h.noNul]
  | epoll =>
    by_cases hgo : (path.early || keepAlive) = true
    · refine ⟨w.lines, h.heads, ?_⟩
      rw [sentBytes, sentContent, if_pos hgo, hgo, Bool.true_or, if_pos rfl]
      rfl
    · obtain ⟨a, b, hlines, hab, hn⟩ := h.split
      have ha : Unpatched a := fun l hl => (hab l (List.mem_append_left _ hl)).unpatched
      rw [sentBytes, sentContent, if_neg hgo, Written.bytes, List.append_assoc]
      rw [Bool.not_eq_true] at hgo
      rw [hgo, Bool.false_or]
      cases keep with
      | true =>
        refine ⟨a ++ closeText :: b, heads_with hab hn (Or.inr (Or.inr (Or.inr rfl))), ?_⟩
        have hlen : (headerText (a ++ closeText :: b)).length
            = (headerText (a ++ connectionLine true :: b)).length := by
          have : closeText.length = (connectionLine true).length := by decide
          simp [headerText, this]
        rw [if_pos rfl, hlines]
        show (closePatch (headerText (a ++ keepAliveText :: b) ++ _)).take _ = _
        rw [closePatch_keep ha, ← List.append_assoc, List.length_append, ← hlen,
          ← List.length_append, List.take_left]
      | false =>
        refine ⟨w.lines, h.heads, ?_⟩
        have hall : Unpatched w.lines := by
          intro l hl
          rw [hlines, List.mem_append, List.mem_cons] at hl
          rcases hl with hl | rfl | hl
          · exact ha l hl
          · exact ⟨plainLine_close.noNul, plainLine_close.noKeepAlive⟩
          · exact (hab l (List.mem_append_right _ hl)).unpatched
        rw [if_neg Bool.false_ne_true, closePatch_close hall, List.length_append,
          List.take_length_add_append]

theorem Header.framed_iff {n : Nat} {keep : Bool} {w : Written} (h : Header n keep w.lines)
    {server : Server} {keepAlive head : Bool} {stale text : List UInt8} {path : ReplyPath} :
    Framed head (sentBytes server keepAlive stale path w) text ↔
      if head then sentContent server keepAlive stale path keep w.content = []
      else n = (sentContent server keepAlive stale path keep w.content).length ∧
        sentContent server keepAlive stale path keep w.content = text := by
  obtain ⟨lines, hlines, hsent⟩ := h.sent server keepAlive stale path
  rw [hsent, hlines.framed_iff]

/-! ## The headers of the paths -/

/-- The length is counted by hand and wrong, or the bytes copied are not the text. -/
def ReplyPath.wrongLength : ReplyPath → Bool
  | .searchFailed | .malformed | .tooLarge _ | .internalError => true
  | _ => false

/-- The header line that quotes a text of the configuration. -/
def ReplyPath.quoted : ReplyPath → Option CStr
  | .unauthorized realm => some (realmLine realm.text)
  | .methodNotAllowed allow => some (allowLine allow.text)
  | _ => none

/-- The header keeps the connection. -/
def ReplyPath.keeps (keepAlive : Bool) : ReplyPath → Bool
  | .document _ _ _ keep => keep
  | .index .. => keepAlive
  | .text .. | .blogRedirect | .loggedIn _ | .loggedOut => true
  | _ => false

theorem Written.eq_of_fit {size : Nat} {w w' : Written} (h : Written.fit size w = some w') :
    w' = w := by
  unfold Written.fit at h
  by_cases hsize : size ≤ w.bytes.length
  · rw [if_pos hsize] at h
    exact absurd h (by simp)
  · rw [if_neg hsize, Option.some.injEq] at h
    exact h.symm

theorem header_httpHeader (status : Status) (contentType : ContentType) (n : Nat) (keep : Bool)
    (date : HttpDate) : Header n keep (httpHeader status contentType n keep date) := by
  refine ⟨[status.line, ascii "Server: MiniWeb/1.4", ascii "Date: " ++ date.text,
    ascii "Content-Type: " ++ contentType.text, contentLengthLine n], [], rfl, ?_, by simp⟩
  have hserver : PlainLine (ascii "Server: MiniWeb/1.4") := by decide +kernel
  simp only [List.append_nil, List.forall_mem_cons]
  exact ⟨Or.inl status.plainLine, Or.inl hserver, Or.inl date.plainLine,
    Or.inl contentType.plainLine, Or.inr rfl, by simp⟩

section

variable {server : Server} {date : HttpDate} {keepAlive : Bool} {path : ReplyPath} {w : Written}

/-- A path that counts the length of its text writes a header that declares it, and the text. -/
theorem write_header (hw : path.write server date keepAlive = some w)
    (hlen : path.wrongLength = false) (hq : path.quoted = none) :
    Header path.builtText.length (path.keeps keepAlive) w.lines ∧ w.content = path.builtText := by
  have hplain : PlainLine (ascii "Content-Type: text/plain; charset=utf-8") := by decide +kernel
  have hhtml : PlainLine (ascii "Content-Type: text/html; charset=utf-8") := by decide +kernel
  have hserver4 : PlainLine (ascii "Server: MiniWeb/1.4") := by decide +kernel
  have hserver7 : PlainLine (ascii "Server: MiniWeb/1.7") := by decide +kernel
  have hfound : PlainLine (ascii "HTTP/1.1 302 Found") := by decide +kernel
  have hlogin : PlainLine (ascii "Location: /login") := by decide +kernel
  cases path with
  | searchFailed => exact absurd hlen (by simp [ReplyPath.wrongLength])
  | malformed => exact absurd hlen (by simp [ReplyPath.wrongLength])
  | tooLarge => exact absurd hlen (by simp [ReplyPath.wrongLength])
  | internalError => exact absurd hlen (by simp [ReplyPath.wrongLength])
  | unauthorized => exact absurd hq (by simp [ReplyPath.quoted])
  | methodNotAllowed => exact absurd hq (by simp [ReplyPath.quoted])
  | text status body =>
    rw [Written.eq_of_fit hw]
    refine ⟨⟨[status.line, _, _], [], rfl, ?_, by simp [ReplyPath.builtText]⟩, rfl⟩
    simp only [List.append_nil, List.forall_mem_cons]
    exact ⟨Or.inl status.plainLine, Or.inl hplain, Or.inr rfl, by simp⟩
  | document status contentType body keep =>
    rw [Written.eq_of_fit hw]
    exact ⟨header_httpHeader .., List.take_length⟩
  | index contentType file nonempty =>
    rw [Written.eq_of_fit hw]
    have hok : PlainLine (ascii "HTTP/1.1 200 OK") := by decide +kernel
    have hcache : PlainLine (ascii "Cache-Control: no-cache, no-store, must-revalidate") := by
      decide +kernel
    have hpragma : PlainLine (ascii "Pragma: no-cache") := by decide +kernel
    have hexpires : PlainLine (ascii "Expires: 0") := by decide +kernel
    refine ⟨⟨[_, _, _, _], [_, _, _], rfl, ?_, by simp [ReplyPath.builtText]⟩, rfl⟩
    simp only [List.cons_append, List.nil_append, List.forall_mem_cons]
    exact ⟨Or.inl hok, Or.inl hserver7, Or.inl contentType.plainLine, Or.inr rfl, Or.inl hcache,
      Or.inl hpragma, Or.inl hexpires, by simp⟩
  | blogRedirect =>
    rw [Written.eq_of_fit hw]
    have hmoved : PlainLine (ascii "HTTP/1.1 301 MOVED PERMANENTLY") := by decide +kernel
    have hblog : PlainLine (ascii "Location: " ++ ascii "/blog/") := by decide +kernel
    refine ⟨⟨[_, _, _, _, _, _], [], rfl, ?_, by simp [ReplyPath.builtText]⟩, rfl⟩
    simp only [List.append_nil, List.forall_mem_cons]
    exact ⟨Or.inl hmoved, Or.inl hserver4, Or.inl date.plainLine, Or.inl hhtml, Or.inr rfl,
      Or.inl hblog, by simp⟩
  | loggedIn randomBytes =>
    cases hw
    have hhome : PlainLine (ascii "Location: /") := by decide +kernel
    refine ⟨⟨[_, _, _, _, _], [], rfl, ?_, by simp [ReplyPath.builtText]⟩, rfl⟩
    simp only [List.append_nil, List.forall_mem_cons]
    exact ⟨Or.inl hfound, Or.inl hserver7, Or.inl (plainLine_setCookie _), Or.inl hhome,
      Or.inr rfl, by simp⟩
  | loggedOut =>
    cases hw
    have hcookie : PlainLine
        (ascii "Set-Cookie: session_id=; Path=/; HttpOnly; Max-Age=0; SameSite=Lax") := by
      decide +kernel
    refine ⟨⟨[_, _, _, _, _], [], rfl, ?_, by simp [ReplyPath.builtText]⟩, rfl⟩
    simp only [List.append_nil, List.forall_mem_cons]
    exact ⟨Or.inl hfound, Or.inl hserver7, Or.inl hcookie, Or.inl hlogin, Or.inr rfl, by simp⟩
  | redirectToLogin =>
    cases hw
    refine ⟨⟨[_, _, _, _], [], rfl, ?_, by simp [ReplyPath.builtText]⟩, rfl⟩
    simp only [List.append_nil, List.forall_mem_cons]
    exact ⟨Or.inl hfound, Or.inl hserver7, Or.inl hlogin, Or.inr rfl, by simp⟩

/-! ## Wrong lengths -/

theorem sentContent_ne_nil {keep : Bool} {stale : List UInt8} {c : UInt8} {content : List UInt8}
    (hc : c ≠ 0) : sentContent server keepAlive stale path keep (c :: content) ≠ [] := by
  cases server with
  | connection => simp [sentContent]
  | epoll =>
    rw [sentContent]
    by_cases h : (path.early || keepAlive || keep) = true
    · rw [if_pos h]
      simp
    · rw [if_neg h, ← List.length_pos_iff, List.length_take, length_closePatch]
      simp
  | select => simp [sentContent, ofBuffer, hc]

/-- A header that declares another length than the text's is not framed. -/
theorem Header.not_framed {n : Nat} {keep : Bool} (h : Header n keep w.lines) {c : UInt8}
    {content text : List UInt8} (hcontent : w.content = c :: content) (hc : c ≠ 0)
    (hn : n ≠ text.length) {head : Bool} {stale : List UInt8} :
    ¬Framed head (sentBytes server keepAlive stale path w) text := by
  rw [h.framed_iff, hcontent]
  cases head with
  | true =>
    rw [if_pos rfl]
    exact sentContent_ne_nil hc
  | false =>
    rw [if_neg Bool.false_ne_true]
    rintro ⟨hlen, htext⟩
    rw [htext] at hlen
    exact hn hlen

theorem header_plain (server : Server) (status : CStr) (hstatus : PlainLine status) (n : Nat) :
    Header n false [status, server.plainText, contentLengthLine n, connectionLine false] := by
  refine ⟨[status, server.plainText, contentLengthLine n], [], rfl, ?_, by simp⟩
  simp only [List.append_nil, List.forall_mem_cons]
  exact ⟨Or.inl hstatus, Or.inl server.plainLine, Or.inr rfl, by simp⟩

/-- The page of the 413 reply is overwritten by the header. -/
theorem tooLarge_not_framed {maxBytes : Nat} (hw : tooLargeReply maxBytes date = some w)
    {head : Bool} {stale : List UInt8} :
    ¬Framed head (sentBytes server keepAlive stale (.tooLarge maxBytes) w)
      (tooLargePage maxBytes) := by
  have hw' := Written.eq_of_fit hw
  obtain ⟨page, hpage⟩ : ∃ page, tooLargePage maxBytes = 60 :: page := ⟨_, rfl⟩
  obtain ⟨header, hheader⟩ : ∃ header, headerText (httpHeader .payloadTooLarge .html
      (tooLargePage maxBytes).length false date) = 72 :: header := ⟨_, rfl⟩
  obtain ⟨content, hcontent⟩ : ∃ content, w.content = 72 :: content := by
    rw [hw', hheader, hpage, List.cons_append, List.length_cons]
    exact ⟨_, List.take_succ_cons⟩
  have hlines : Header (tooLargePage maxBytes).length false w.lines := by
    rw [hw']
    exact header_httpHeader ..
  rw [hlines.framed_iff, hcontent]
  cases head with
  | true =>
    rw [if_pos rfl]
    exact sentContent_ne_nil (by decide)
  | false =>
    rw [if_neg Bool.false_ne_true]
    rintro ⟨-, htext⟩
    have hfirst : ∀ rest, 72 :: rest ≠ tooLargePage maxBytes := by
      intro rest h
      rw [hpage] at h
      exact absurd (List.cons.inj h).1 (by decide)
    cases server with
    | connection => exact hfirst _ htext
    | epoll => exact hfirst _ htext
    | select => exact hfirst _ htext

theorem wrongLength_not_framed (hw : path.write server date keepAlive = some w)
    (hlen : path.wrongLength = true) {head : Bool} {stale : List UInt8} :
    ¬Framed head (sentBytes server keepAlive stale path w) path.builtText := by
  cases path with
  | text => exact absurd hlen (by simp [ReplyPath.wrongLength])
  | document => exact absurd hlen (by simp [ReplyPath.wrongLength])
  | index => exact absurd hlen (by simp [ReplyPath.wrongLength])
  | blogRedirect => exact absurd hlen (by simp [ReplyPath.wrongLength])
  | loggedIn => exact absurd hlen (by simp [ReplyPath.wrongLength])
  | loggedOut => exact absurd hlen (by simp [ReplyPath.wrongLength])
  | redirectToLogin => exact absurd hlen (by simp [ReplyPath.wrongLength])
  | unauthorized => exact absurd hlen (by simp [ReplyPath.wrongLength])
  | methodNotAllowed => exact absurd hlen (by simp [ReplyPath.wrongLength])
  | searchFailed =>
    rw [Written.eq_of_fit hw]
    exact (header_httpHeader .internalServerError .plain 25 false date).not_framed
      (c := 53) rfl (by decide) (by decide)
  | malformed =>
    cases hw
    exact (header_plain server _ (by decide +kernel) 17).not_framed (c := 52) rfl (by decide)
      (by decide)
  | internalError =>
    cases hw
    exact (header_plain server _ (by decide +kernel) 25).not_framed (c := 53) rfl (by decide)
      (by decide)
  | tooLarge maxBytes => exact tooLarge_not_framed hw

/-! ## Quoted texts -/

/-- The lines a client sees in the line are not empty, and none declares a length but 0. -/
def Harmless (line : CStr) : Prop :=
  ∀ piece ∈ pieces line, piece ≠ [] ∧ ∀ k ∈ contentLengthOf piece, k = 0

/-- A quoting line as it is sent. -/
def sentLine (server : Server) (keepAlive : Bool) (line : CStr) : CStr :=
  match server with
  | .epoll => if keepAlive then line else closePatch line
  | .connection | .select => line

/-- A reply without a body, with a line that quotes a text. -/
structure QuotingHeader (q : CStr) (w : Written) : Prop where
  noNul : 0 ∉ q
  content : w.content = []
  split : ∃ a b, w.lines = a ++ q :: b ∧ (∀ l ∈ a ++ b, HeaderLine 0 l) ∧
    contentLengthLine 0 ∈ a ++ b

theorem framed_quoting_iff {a b : List CStr} {q : CStr} (hab : ∀ l ∈ a ++ b, HeaderLine 0 l)
    (hn : contentLengthLine 0 ∈ a ++ b) {head : Bool} :
    Framed head (headerText (a ++ q :: b)) [] ↔ Harmless q := by
  have hmem : ∀ l, l ∈ a ++ q :: b ↔ l = q ∨ l ∈ a ++ b := by
    intro l
    simp only [List.mem_append, List.mem_cons]
    tauto
  have hother := heads_of_replyLines (fun l hl => (hab l hl).replyLine) hn
  have hpieces : ∀ l ∈ a ++ b, pieces l = [l] := fun l hl => pieces_line (hother.noCr l hl)
  have hread : ∀ p, p ∈ (a ++ q :: b).flatMap pieces ↔ p ∈ pieces q ∨ p ∈ a ++ b := by
    intro p
    rw [List.mem_flatMap]
    constructor
    · rintro ⟨l, hl, hp⟩
      rcases (hmem l).1 hl with rfl | hl
      · exact Or.inl hp
      · rw [hpieces l hl, List.mem_singleton] at hp
        exact Or.inr (hp ▸ hl)
    · rintro (hp | hp)
      · exact ⟨q, (hmem q).2 (Or.inl rfl), hp⟩
      · exact ⟨p, (hmem p).2 (Or.inr hp), by simp [hpieces p hp]⟩
  have hempty : [] ∉ pieces q → ∀ l ∈ a ++ q :: b, [] ∉ pieces l := by
    intro hq l hl
    rcases (hmem l).1 hl with rfl | hl
    · exact hq
    · rw [hpieces l hl, List.mem_singleton]
      exact fun h0 => hother.ne_nil l hl h0.symm
  rw [← List.append_nil (headerText (a ++ q :: b))]
  constructor
  · intro h
    have hq : [] ∉ pieces q := by
      intro hq
      exact not_framed_of_empty ⟨q, (hmem q).2 (Or.inl rfl), hq⟩ (le_refl _) h
    obtain ⟨n, hdeclared, -⟩ := (HttpReply.framed_iff (hempty hq)).1 h
    obtain ⟨-, hagree⟩ := declaredLength_eq_some_iff.1 hdeclared
    have hn0 : 0 = n := hagree _ ((hread _).2 (Or.inr hn)) 0 (contentLengthOf_line 0)
    intro piece hpiece
    refine ⟨fun h0 => hq (h0 ▸ hpiece), ?_⟩
    intro k hk
    rw [hagree piece ((hread piece).2 (Or.inl hpiece)) k hk, hn0]
  · intro h
    have hq : [] ∉ pieces q := fun hq => (h [] hq).1 rfl
    rw [HttpReply.framed_iff (hempty hq)]
    refine ⟨0, declaredLength_eq_some_iff.2 ⟨⟨_, (hread _).2 (Or.inr hn),
      contentLengthOf_line 0⟩, ?_⟩, by simp⟩
    intro piece hpiece k hk
    rcases (hread piece).1 hpiece with hp | hp
    · exact (h piece hp).2 k hk
    · exact hother.agrees piece hp k hk

theorem QuotingHeader.framed_iff {q : CStr} (h : QuotingHeader q w) (hearly : path.early = false)
    (hterm : path.terminated = true) {head : Bool} {stale : List UInt8} :
    Framed head (sentBytes server keepAlive stale path w) []
      ↔ Harmless (sentLine server keepAlive q) := by
  obtain ⟨a, b, hlines, hab, hn⟩ := h.split
  have ha : Unpatched a := fun l hl => (hab l (List.mem_append_left _ hl)).unpatched
  have hb : Unpatched b := fun l hl => (hab l (List.mem_append_right _ hl)).unpatched
  have hbytes : w.bytes = headerText (a ++ q :: b) := by
    rw [Written.bytes, h.content, hlines, List.append_nil]
  have hsent : sentBytes server keepAlive stale path w
      = headerText (a ++ sentLine server keepAlive q :: b) := by
    cases server with
    | connection => exact hbytes
    | epoll =>
      rw [sentBytes, sentLine, hearly, Bool.false_or, hbytes]
      cases keepAlive with
      | true => simp
      | false =>
        rw [if_neg Bool.false_ne_true, if_neg Bool.false_ne_true, ReplyPath.behind, if_pos hterm,
          take_closePatch_terminated]
        exact closePatch_quoted ha hb h.noNul
    | select =>
      have h0 : 0 ∉ headerText (a ++ q :: b) := by
        have hsplit : headerText (a ++ q :: b)
            = a.flatMap (· ++ crlf) ++ (q ++ (crlf ++ headerText b)) := by
          simp [headerText]
        have hcrlf : 0 ∉ crlf := by decide
        rw [hsplit]
        simp only [List.mem_append, not_or]
        exact ⟨ha.skipped.noNul, h.noNul, hcrlf, hb.skipped_header.noNul⟩
      rw [sentBytes, ReplyPath.behind, hterm, hbytes, ofBuffer_append h0, if_pos rfl]
      simp [sentLine, ofBuffer]
  rw [hsent, framed_quoting_iff hab hn]

theorem write_quoting (hw : path.write server date keepAlive = some w) {q : CStr}
    (hq : path.quoted = some q) : QuotingHeader q w := by
  have hplain : PlainLine (ascii "Content-Type: text/plain; charset=utf-8") := by decide +kernel
  cases path with
  | unauthorized realm =>
    cases hw
    cases hq
    have hstatus : PlainLine (ascii "HTTP/1.1 401 Unauthorized") := by decide +kernel
    have hserver : PlainLine (ascii "Server: MiniWeb/1.7") := by decide +kernel
    have h0 : 0 ∉ ascii "WWW-Authenticate: Basic realm=\"" := by decide
    refine ⟨by simpa [realmLine, ascii] using realm.noNul, rfl, [_, _], [_, _, _], rfl, ?_, by simp⟩
    simp only [List.cons_append, List.nil_append, List.forall_mem_cons]
    exact ⟨Or.inl hstatus, Or.inl hserver, Or.inl hplain, Or.inr rfl, Or.inl plainLine_close,
      by simp⟩
  | methodNotAllowed allow =>
    rw [Written.eq_of_fit hw]
    cases hq
    have hstatus : PlainLine (ascii "HTTP/1.1 405 METHOD NOT ALLOWED") := by decide +kernel
    have hserver : PlainLine (ascii "Server: MiniWeb/1.5") := by decide +kernel
    refine ⟨by simpa [allowLine, ascii] using allow.noNul, rfl, [_, _, _, _], [_], rfl, ?_, by simp⟩
    simp only [List.cons_append, List.nil_append, List.forall_mem_cons]
    exact ⟨Or.inl hstatus, Or.inl hserver, Or.inl hplain, Or.inr rfl, Or.inl plainLine_close,
      by simp⟩
  | text => exact absurd hq (by simp [ReplyPath.quoted])
  | document => exact absurd hq (by simp [ReplyPath.quoted])
  | searchFailed => exact absurd hq (by simp [ReplyPath.quoted])
  | index => exact absurd hq (by simp [ReplyPath.quoted])
  | blogRedirect => exact absurd hq (by simp [ReplyPath.quoted])
  | loggedIn => exact absurd hq (by simp [ReplyPath.quoted])
  | loggedOut => exact absurd hq (by simp [ReplyPath.quoted])
  | redirectToLogin => exact absurd hq (by simp [ReplyPath.quoted])
  | malformed => exact absurd hq (by simp [ReplyPath.quoted])
  | tooLarge => exact absurd hq (by simp [ReplyPath.quoted])
  | internalError => exact absurd hq (by simp [ReplyPath.quoted])

/-! ## The condition -/

/-- When the reply is framed. A length counted by hand is wrong, a client that sent `HEAD` expects
no body, what the patch overwrites must lie behind the text, and `strlen` must find its end. -/
structure FramedWhen (server : Server) (head keepAlive : Bool) (stale : List UInt8)
    (path : ReplyPath) : Prop where
  counted : path.wrongLength = false
  quoted : ∀ q ∈ path.quoted, Harmless (sentLine server keepAlive q)
  bodiless : head = true →
    path.builtText = [] ∨ server = .select ∧ path.builtText.head? = some 0
  unpatched : head = false → server = .epoll → keepAlive = false → path.keeps keepAlive = false →
    ∀ i ∈ patchPlace (path.builtText ++ path.behind stale), path.builtText.length ≤ i + 12
  ended : head = false → server = .select →
    0 ∉ path.builtText ∧ (path.terminated = false → ∀ c ∈ stale.head?, c = 0)

theorem ReplyPath.early_of_counted (h : path.wrongLength = false) : path.early = false := by
  cases path with
  | malformed => exact absurd h (by simp [ReplyPath.wrongLength])
  | tooLarge => exact absurd h (by simp [ReplyPath.wrongLength])
  | _ => rfl

/-- Only a file is sent without a NUL behind it, and it has bytes. -/
theorem ReplyPath.terminated_of_empty (h : path.builtText = []) : path.terminated = true := by
  cases path with
  | index contentType file nonempty => exact absurd h nonempty
  | _ => rfl

theorem ReplyPath.builtText_of_quoted {q : CStr} (h : path.quoted = some q) :
    path.builtText = [] := by
  cases path with
  | unauthorized => rfl
  | methodNotAllowed => rfl
  | _ => exact absurd h (by simp [ReplyPath.quoted])

theorem sentContent_eq_nil_iff {keep : Bool} {stale : List UInt8} :
    sentContent server keepAlive stale path keep path.builtText = [] ↔
      path.builtText = [] ∨ server = .select ∧ path.builtText.head? = some 0 := by
  cases server with
  | connection => simp [sentContent]
  | epoll =>
    rw [sentContent]
    by_cases h : (path.early || keepAlive || keep) = true
    · rw [if_pos h]
      simp
    · rw [if_neg h, ← List.length_eq_zero_iff, List.length_take, length_closePatch]
      simp
  | select =>
    rw [sentContent, ofBuffer_eq_nil_iff]
    by_cases htext : path.builtText = []
    · rw [htext, ReplyPath.behind, ReplyPath.terminated_of_empty htext]
      simp
    · obtain ⟨c, t, hct⟩ := List.exists_cons_of_ne_nil htext
      rw [hct]
      simp

theorem sentContent_eq_self_iff {keep : Bool} {stale : List UInt8} (hearly : path.early = false) :
    sentContent server keepAlive stale path keep path.builtText = path.builtText ↔
      (server = .epoll → keepAlive = false → keep = false →
        ∀ i ∈ patchPlace (path.builtText ++ path.behind stale), path.builtText.length ≤ i + 12) ∧
      (server = .select →
        0 ∉ path.builtText ∧ (path.terminated = false → ∀ c ∈ stale.head?, c = 0)) := by
  cases server with
  | connection => simp [sentContent]
  | epoll =>
    rw [sentContent, hearly, Bool.false_or]
    by_cases h : (keepAlive || keep) = true
    · rw [if_pos h]
      cases keepAlive with
      | true => simp
      | false =>
        rw [Bool.false_or] at h
        simp [h]
    · rw [if_neg h, take_closePatch_eq_iff]
      rw [Bool.not_eq_true, Bool.or_eq_false_iff] at h
      simp [h.1, h.2]
  | select =>
    rw [sentContent, ofBuffer_append_eq_iff, ReplyPath.behind]
    cases path.terminated <;> simp

/-- A reply is framed exactly under the condition. -/
theorem framed_reply_iff {head : Bool} {stale : List UInt8}
    (hw : path.write server date keepAlive = some w) :
    Framed head (sentBytes server keepAlive stale path w) path.builtText ↔
      FramedWhen server head keepAlive stale path := by
  by_cases hlen : path.wrongLength = true
  · apply iff_of_false (wrongLength_not_framed hw hlen)
    intro h
    exact absurd (hlen.symm.trans h.counted) (by decide)
  rw [Bool.not_eq_true] at hlen
  have hearly := ReplyPath.early_of_counted hlen
  cases hq : path.quoted with
  | some q =>
    have htext := ReplyPath.builtText_of_quoted hq
    have hterm := ReplyPath.terminated_of_empty htext
    rw [htext, (write_quoting hw hq).framed_iff hearly hterm]
    constructor
    · intro h
      refine ⟨hlen, ?_, fun _ => Or.inl htext, ?_, ?_⟩
      · intro q' hq'
        rw [hq, Option.mem_some_iff] at hq'
        rwa [← hq']
      · intro _ _ _ _
        simp [htext]
      · intro _ _
        rw [htext, hterm]
        simp
    · intro h
      exact h.quoted q hq
  | none =>
    obtain ⟨hheader, hcontent⟩ := write_header hw hlen hq
    rw [hheader.framed_iff, hcontent]
    have hnone : ∀ q ∈ path.quoted, Harmless (sentLine server keepAlive q) := by simp [hq]
    cases head with
    | true =>
      rw [if_pos rfl, sentContent_eq_nil_iff]
      constructor
      · intro h
        exact ⟨hlen, hnone, fun _ => h, by simp, by simp⟩
      · intro h
        exact h.bodiless rfl
    | false =>
      have hiff : path.builtText.length
            = (sentContent server keepAlive stale path (path.keeps keepAlive)
                path.builtText).length ∧
          sentContent server keepAlive stale path (path.keeps keepAlive) path.builtText
            = path.builtText ↔
          sentContent server keepAlive stale path (path.keeps keepAlive) path.builtText
            = path.builtText :=
        and_iff_right_of_imp fun h => (congrArg List.length h).symm
      rw [if_neg Bool.false_ne_true, hiff, sentContent_eq_self_iff hearly]
      constructor
      · intro h
        exact ⟨hlen, hnone, by simp, fun _ => h.1, fun _ => h.2⟩
      · intro h
        exact ⟨h.unpatched rfl, h.ended rfl⟩

end

/-- The page of a small handler, as the connection servers send it. -/
theorem framed_reply_greeting : ∃ w,
    (ReplyPath.text .ok (ascii "Hello\n")).write .connection
      ⟨ascii "Thu, 01 Jan 1970 00:00:00 GMT", by decide +kernel, by decide +kernel⟩ false = some w ∧
    Framed false (sentBytes .connection false [] (.text .ok (ascii "Hello\n")) w)
      (ascii "Hello\n") := by
  have hw : (ReplyPath.text .ok (ascii "Hello\n")).write .connection
      ⟨ascii "Thu, 01 Jan 1970 00:00:00 GMT", by decide +kernel, by decide +kernel⟩ false
        = some _ := rfl
  refine ⟨_, hw, (framed_reply_iff hw).2 ?_⟩
  refine ⟨rfl, ?_, ?_, ?_, ?_⟩
  · intro q hq
    cases hq
  · intro h
    cases h
  · intro _ h
    cases h
  · intro _ h
    cases h

/-- A request line without a path is answered with a length that is one too large. -/
theorem missing_path_not_framed :
    connectionRead (ascii "GET\r\n\r\n") = .malformed ∧
    ¬∀ (date : HttpDate) (w : Written), ReplyPath.malformed.write .connection date false = some w →
      Framed false (sentBytes .connection false [] .malformed w) ReplyPath.malformed.builtText := by
  refine ⟨by decide +kernel, ?_⟩
  intro h
  have hw : ReplyPath.malformed.write .connection
      ⟨ascii "Thu, 01 Jan 1970 00:00:00 GMT", by decide +kernel, by decide +kernel⟩ false
        = some _ := rfl
  exact wrongLength_not_framed hw rfl (h _ _ hw)

end MiniWeb.FrontEnd
