import MiniWeb.FrontEnd.HeaderSection

/-!
# Requests as a client writes them

An `HttpMessage` is a request with its lines and its body apart; `render` writes it on the wire.
A front end that finds the whole of one message in its buffer, and nothing else, reads the method,
the path and the body back.
-/

namespace MiniWeb.FrontEnd

open CStr Config

/-- A well-formed request: the method is one of HTTP's, the path a word, and every header line a
line of its own. -/
structure HttpMessage where
  method : CStr
  path : CStr
  version : CStr
  headers : List CStr
  body : List UInt8
  method_mem : method ∈ httpMethods
  path_ne_nil : path ≠ []
  path_word : ∀ c ∈ path, inLine c = true ∧ c ≠ 32
  version_line : ∀ c ∈ version, inLine c = true
  headers_line : ∀ line ∈ headers, line ≠ [] ∧ ∀ c ∈ line, inLine c = true

def HttpMessage.requestLine (msg : HttpMessage) : CStr :=
  msg.method ++ 32 :: (msg.path ++ 32 :: msg.version)

/-- A line that is read back as it was written: not empty, and without a NUL or the first byte of a
line end. -/
structure Unbroken (line : CStr) : Prop where
  ne_nil : line ≠ []
  nul : 0 ∉ line
  cr : 13 ∉ line

/-- The lines with their ends. -/
def renderLines (lines : List CStr) : List UInt8 := lines.flatMap (· ++ crlf)

def HttpMessage.render (msg : HttpMessage) : List UInt8 :=
  renderLines (msg.requestLine :: msg.headers) ++ crlf ++ msg.body

/-- The message is within the limits: of the request line's copy, of the path field, of the
receive buffer and of the configuration. -/
structure HttpMessage.Fits (config : Option ServerConfig) (msg : HttpMessage) : Prop where
  line : msg.requestLine.length ≤ 511
  path : msg.path.length ≤ 255
  buffer : msg.render.length ≤ recvMax
  limit : msg.render.length ≤ maxBytes config

variable {config : Option ServerConfig}

/-! ## The request line -/

theorem httpMethods_word : ∀ method ∈ httpMethods, method ≠ [] ∧ method.length ≤ 15 ∧
    (∀ c ∈ method, inLine c = true ∧ c ≠ 32) ∧ method.map toUpper = method := by
  decide

theorem inLine_http11 : ∀ c ∈ ascii "HTTP/1.1", inLine c = true := by decide

theorem inLine_requestLine (msg : HttpMessage) : ∀ c ∈ msg.requestLine, inLine c = true := by
  intro c hc
  rw [HttpMessage.requestLine, List.mem_append, List.mem_cons, List.mem_append,
    List.mem_cons] at hc
  have blank : inLine 32 = true := by decide
  rcases hc with hc | rfl | hc | rfl | hc
  · exact ((httpMethods_word _ msg.method_mem).2.2.1 c hc).1
  · exact blank
  · exact (msg.path_word c hc).1
  · exact blank
  · exact msg.version_line c hc

theorem notMem_of_inLine {line : CStr} (h : ∀ c ∈ line, inLine c = true) {d : UInt8}
    (hd : inLine d = false) : d ∉ line := by
  intro hmem
  rw [h d hmem] at hd
  exact absurd hd (by decide)

/-- A line is copied as far as the copy holds it. -/
theorem lineCopy_cut {line : CStr} (h : ∀ c ∈ line, inLine c = true) :
    lineCopy line = cut 512 line := by
  have hcut : ∀ c ∈ cut 512 line, inLine c = true := fun c hc => h c (List.mem_of_mem_take hc)
  have htake : ∀ (d : UInt8) (s : CStr), inLine d = false → (∀ c ∈ s, inLine c = true) →
      s.takeWhile (· ≠ d) = s := by
    intro d s hd hs
    rw [List.takeWhile_eq_self_iff]
    intro c hc
    rw [decide_eq_true_eq]
    rintro rfl
    exact notMem_of_inLine hs hd hc
  rw [lineCopy, ofBuffer, htake 0 line (by decide) h, htake 13 _ (by decide) hcut,
    htake 10 _ (by decide) hcut]

theorem lineCopy_line {line : CStr} (h : ∀ c ∈ line, inLine c = true) (hlen : line.length ≤ 511) :
    lineCopy line = line := by
  rw [lineCopy_cut h, cut, List.take_of_length_le hlen]

theorem render_eq (msg : HttpMessage) : ∃ rest, msg.render = msg.requestLine ++ 13 :: rest := by
  refine ⟨10 :: (renderLines msg.headers ++ crlf ++ msg.body), ?_⟩
  simp [HttpMessage.render, renderLines, crlf]

theorem lineCopy_render {msg : HttpMessage} (hline : msg.requestLine.length ≤ 511) :
    lineCopy msg.render = msg.requestLine := by
  obtain ⟨rest, hrest⟩ := render_eq msg
  rw [hrest, lineCopy_append, lineCopy_line (inLine_requestLine msg) hline]

theorem takeWhile_word {word : CStr} (rest : CStr) (h : ∀ c ∈ word, c ≠ 32) :
    (word ++ 32 :: rest).takeWhile (· ≠ 32) = word ∧
      (word ++ 32 :: rest).dropWhile (· ≠ 32) = 32 :: rest := by
  have hword : ∀ c ∈ word, decide (c ≠ 32) = true := by
    intro c hc
    rw [decide_eq_true_eq]
    exact h c hc
  rw [List.takeWhile_append_of_pos hword, List.dropWhile_append_of_pos hword]
  simp

theorem dropWhile_path (msg : HttpMessage) (rest : CStr) :
    (msg.path ++ rest).dropWhile (· = 32) = msg.path ++ rest := by
  cases hp : msg.path with
  | nil => exact absurd hp msg.path_ne_nil
  | cons c path =>
    have hc : c ≠ 32 := (msg.path_word c (hp ▸ List.mem_cons_self ..)).2
    rw [List.cons_append, List.dropWhile_cons_of_neg (by simpa using hc)]

theorem parseHttpRequestLine_requestLine (msg : HttpMessage) :
    parseHttpRequestLine msg.requestLine = some (msg.method, msg.path) := by
  have hmethod := takeWhile_word (msg.path ++ 32 :: msg.version) fun c hc =>
    ((httpMethods_word _ msg.method_mem).2.2.1 c hc).2
  have hpath := takeWhile_word msg.version fun c hc => (msg.path_word c hc).2
  rw [parseHttpRequestLine, HttpMessage.requestLine, hmethod.1, hmethod.2]
  simp only [dropWhile_path, hpath.1]

theorem firstWord_requestLine (msg : HttpMessage) : firstWord msg.requestLine = msg.method := by
  have hmethod := takeWhile_word (msg.path ++ 32 :: msg.version) fun c hc =>
    ((httpMethods_word _ msg.method_mem).2.2.1 c hc).2
  rw [firstWord, HttpMessage.requestLine, hmethod.1, cut,
    List.take_of_length_le (httpMethods_word _ msg.method_mem).2.1]

/-- However long the request line is, its copy begins with the method. -/
theorem parse_render (msg : HttpMessage) :
    firstWord (lineCopy msg.render) = msg.method ∧
      ∃ path, parseHttpRequestLine (lineCopy msg.render) = some (msg.method, path) := by
  obtain ⟨-, hlen, hword, -⟩ := httpMethods_word _ msg.method_mem
  obtain ⟨rest, hrest⟩ := render_eq msg
  have hcopy : ∃ s, lineCopy msg.render = msg.method ++ 32 :: s := by
    refine ⟨(msg.path ++ 32 :: msg.version).take (510 - msg.method.length), ?_⟩
    have hroom : 511 - msg.method.length = 510 - msg.method.length + 1 := by omega
    rw [hrest, lineCopy_append, lineCopy_cut (inLine_requestLine msg), HttpMessage.requestLine, cut,
      List.take_append, List.take_of_length_le (by omega), hroom, List.take_succ_cons]
  obtain ⟨s, hs⟩ := hcopy
  have hsplit := takeWhile_word s fun c hc => (hword c hc).2
  rw [firstWord, parseHttpRequestLine, hs, hsplit.1, hsplit.2, cut, List.take_of_length_le hlen]
  exact ⟨rfl, _, rfl⟩

/-! ## The body -/

/-- The first empty line is the one behind the last header. -/
theorem strstr_renderLines {lines : List CStr} (hne : lines ≠ [])
    (h : ∀ line ∈ lines, Unbroken line) (rest : List UInt8) :
    strstr (renderLines lines ++ crlf ++ rest) (ascii "\r\n\r\n")
      = some (ascii "\r\n\r\n" ++ rest) := by
  have hlit : ascii "\r\n\r\n" = [13, 10, 13, 10] := by decide
  -- a line is passed over
  have hskip : ∀ line : CStr, 13 ∉ line → ∀ s,
      strstr (line ++ s) (ascii "\r\n\r\n") = strstr s (ascii "\r\n\r\n") := by
    intro line hline s
    induction line with
    | nil => rfl
    | cons c line ih =>
      have hc : c ≠ 13 := fun h0 => hline (h0 ▸ List.mem_cons_self)
      rw [← ih fun hmem => hline (List.mem_cons_of_mem _ hmem)]
      simp [strstr, hlit, List.isPrefixOf, Ne.symm hc]
  induction lines with
  | nil => exact absurd rfl hne
  | cons line lines ih =>
    have hline := h line (List.mem_cons_self ..)
    have hsplit : renderLines (line :: lines) ++ crlf ++ rest
        = line ++ 13 :: 10 :: (renderLines lines ++ crlf ++ rest) := by
      simp [renderLines, crlf]
    rw [hsplit, hskip line hline.cr]
    cases lines with
    | nil => simp [renderLines, crlf, strstr, hlit]
    | cons line' lines =>
      -- the next line does not begin with `\r`
      have ih' := ih (by simp) fun l hl => h l (List.mem_cons_of_mem _ hl)
      obtain ⟨hne', -, hcr'⟩ := h line' (by simp)
      cases line' with
      | nil => exact absurd rfl hne'
      | cons c line' =>
        have hc : c ≠ 13 := fun h0 => hcr' (h0 ▸ List.mem_cons_self)
        have hrest : renderLines ((c :: line') :: lines) ++ crlf ++ rest
            = c :: (line' ++ crlf ++ renderLines lines ++ crlf ++ rest) := by
          simp [renderLines]
        rw [hrest] at ih' ⊢
        rw [← ih']
        simp [strstr, hlit, List.isPrefixOf, Ne.symm hc]

theorem notMem_renderLines {lines : List CStr} (h : ∀ line ∈ lines, Unbroken line) :
    0 ∉ renderLines lines ++ crlf := by
  intro hmem
  rw [List.mem_append, renderLines, List.mem_flatMap] at hmem
  rcases hmem with ⟨line, hline, hc⟩ | hc
  · rcases List.mem_append.1 hc with hc | hc
    · exact (h line hline).nul hc
    · exact absurd hc (by decide)
  · exact absurd hc (by decide)

theorem HttpMessage.lines_line (msg : HttpMessage) :
    ∀ line ∈ msg.requestLine :: msg.headers, line ≠ [] ∧ ∀ c ∈ line, inLine c = true := by
  intro line hline
  rcases List.mem_cons.1 hline with rfl | hline
  · exact ⟨by simp [HttpMessage.requestLine], inLine_requestLine msg⟩
  · exact msg.headers_line line hline

theorem unbroken_line {line : CStr} (h : line ≠ [] ∧ ∀ c ∈ line, inLine c = true) :
    Unbroken line :=
  ⟨h.1, notMem_of_inLine h.2 (by decide), notMem_of_inLine h.2 (by decide)⟩

theorem HttpMessage.lines_unbroken (msg : HttpMessage) :
    ∀ line ∈ msg.requestLine :: msg.headers, Unbroken line :=
  fun line hline => unbroken_line (msg.lines_line line hline)

/-- The body found in a message is the message's, as a text. -/
theorem bodyStart_render (msg : HttpMessage) : bodyStart msg.render = some (ofBuffer msg.body) := by
  have h0 := notMem_renderLines msg.lines_unbroken
  rw [bodyStart, HttpMessage.render, ofBuffer_append h0,
    strstr_renderLines (by simp) msg.lines_unbroken, Option.map_some]
  rfl

/-! ## The whole message -/

theorem cut_path {msg : HttpMessage} (hfits : msg.Fits config) : cut 256 msg.path = msg.path :=
  List.take_of_length_le hfits.path

theorem methodField_method (msg : HttpMessage) : methodField msg.method = msg.method := by
  obtain ⟨-, hlen, -, hupper⟩ := httpMethods_word _ msg.method_mem
  rw [methodField, hupper, cut, List.take_of_length_le hlen]

/-- The body as the event loops keep it. -/
def HttpMessage.keptBody (msg : HttpMessage) : CStr := stripCrLf (cut 512 (ofBuffer msg.body))

theorem bodyField_render (msg : HttpMessage) : bodyField msg.render = msg.keptBody := by
  rw [bodyField_eq, bodyStart_render]
  rfl

theorem epollRead_render {msg : HttpMessage} (hfits : msg.Fits config) :
    epollRead config msg.render = .request
      { method := msg.method
        path := msg.path
        body := msg.keptBody
        keepAlive := keepAlive msg.render
        contentType := contentType msg.render
        contentLengthHdr := contentLengthHdr msg.render
        authorization := authorization msg.render
        cookie := cookie msg.render } := by
  have hword : firstWord (lineCopy msg.render) ∈ httpMethods := by
    rw [lineCopy_render hfits.line, firstWord_requestLine]
    exact msg.method_mem
  have hline : parseHttpRequestLine (lineCopy msg.render) = some (msg.method, msg.path) := by
    rw [lineCopy_render hfits.line, parseHttpRequestLine_requestLine]
  rw [epollRead_eq hfits.limit hword hline, methodField_method, cut_path hfits, bodyField_render]

theorem selectRead_render {msg : HttpMessage} (hfits : msg.Fits config) :
    selectRead msg.render = .request
      { method := msg.method
        path := msg.path
        body := msg.keptBody
        keepAlive := false
        contentType := []
        contentLengthHdr := 0
        authorization := []
        cookie := [] } := by
  have hline : parseHttpRequestLine (lineCopy msg.render) = some (msg.method, msg.path) := by
    rw [lineCopy_render hfits.line, parseHttpRequestLine_requestLine]
  rw [selectRead_eq hline, methodField_method, cut_path hfits, bodyField_render]

end MiniWeb.FrontEnd
