import MiniWeb.FrontEnd.Negotiation

/-!
# What the header parser stores

A `RequestHead` is a request line and header lines as they stand on the wire; a header line may
hold any byte but a NUL and a `\r`. Within the limits of the parser every line with a colon is
stored as its name and value without the blanks around them, in order, and the fields derived from
the headers are those the stored headers state.
-/

namespace MiniWeb.FrontEnd

open CStr
open HttpReply (lowerByte)

/-- A part of the request line. -/
structure IsWord (word : CStr) : Prop where
  ne_nil : word ≠ []
  bytes : ∀ c ∈ word, c ≠ 0 ∧ c ≠ 13 ∧ c ≠ 32

/-- A request head with a valid request line. -/
structure RequestHead where
  method : CStr
  uri : CStr
  minor : Nat
  lines : List CStr
  method_word : IsWord method
  uri_word : IsWord uri
  minor_le : minor ≤ 1
  unbroken : ∀ line ∈ lines, Unbroken line

namespace RequestHead

/-- `HTTP/1.0` or `HTTP/1.1`. -/
def version (head : RequestHead) : CStr := ascii "HTTP/1." ++ decimal head.minor

def requestLine (head : RequestHead) : CStr :=
  head.method ++ 32 :: (head.uri ++ 32 :: head.version)

/-- The head on the wire, with the empty line. -/
def render (head : RequestHead) : List UInt8 :=
  renderLines (head.requestLine :: head.lines) ++ crlf

/-- The lines are within the limits of the parser. -/
structure InLimits (head : RequestHead) : Prop where
  count : head.lines.length ≤ httpMaxHeaders
  short : ∀ line ∈ head.lines, line.length < 512
  name : ∀ line ∈ head.lines, 58 ∈ line → (headerName line).length < httpMaxHeaderName
  value : ∀ line ∈ head.lines, 58 ∈ line → (headerValue line).length < httpMaxHeaderValue

/-- The names and values of the lines with a colon. -/
def fields (head : RequestHead) : List HttpHeader :=
  (head.lines.filter (58 ∈ ·)).map fun line => ⟨headerName line, headerValue line⟩

end RequestHead

/-- Does the header have the name, in whatever case? -/
def HttpHeader.named (name : CStr) (h : HttpHeader) : Bool :=
  h.name.map lowerByte = name.map lowerByte

namespace RequestHead

/-- The headers of that name. -/
def named (head : RequestHead) (name : CStr) : List HttpHeader :=
  head.fields.filter (HttpHeader.named name)

/-- The rules of `http_parser.h`. -/
def asksToKeep (head : RequestHead) : Bool :=
  let values := (head.named (ascii "connection")).map fun h => h.value.map lowerByte
  if head.minor = 0 then ascii "keep-alive" ∈ values else ascii "close" ∉ values

/-- The number that the `Content-Length` header states, -1 without one. -/
def statedLength (head : RequestHead) : Int :=
  match head.named (ascii "content-length") with
  | [] => -1
  | h :: _ => digits h.value

section

variable {head : RequestHead} {line : CStr} {rest : List UInt8}

theorem version_cases (head : RequestHead) :
    head.minor = 0 ∧ head.version = ascii "HTTP/1.0" ∨
      head.minor = 1 ∧ head.version = ascii "HTTP/1.1" := by
  have hle := head.minor_le
  rcases Nat.eq_zero_or_pos head.minor with hzero | hpos
  · exact Or.inl ⟨hzero, by rw [version, hzero]; decide⟩
  · have hone : head.minor = 1 := by omega
    exact Or.inr ⟨hone, by rw [version, hone]; decide⟩

theorem version_word (head : RequestHead) : IsWord head.version := by
  rcases head.version_cases with ⟨-, h⟩ | ⟨-, h⟩
  · rw [h]
    exact ⟨by decide, by decide⟩
  · rw [h]
    exact ⟨by decide, by decide⟩

theorem requestLine_bytes (head : RequestHead) : ∀ c ∈ head.requestLine, c ≠ 0 ∧ c ≠ 13 := by
  intro c hc
  rw [requestLine, List.mem_append, List.mem_cons, List.mem_append, List.mem_cons] at hc
  rcases hc with hc | rfl | hc | rfl | hc
  · exact ⟨(head.method_word.bytes c hc).1, (head.method_word.bytes c hc).2.1⟩
  · decide
  · exact ⟨(head.uri_word.bytes c hc).1, (head.uri_word.bytes c hc).2.1⟩
  · decide
  · exact ⟨(head.version_word.bytes c hc).1, (head.version_word.bytes c hc).2.1⟩

theorem requestLine_unbroken (head : RequestHead) : Unbroken head.requestLine where
  ne_nil := List.append_ne_nil_of_right_ne_nil _ (List.cons_ne_nil _ _)
  nul h := (head.requestLine_bytes 0 h).1 rfl
  cr h := (head.requestLine_bytes 13 h).2 rfl

theorem lines_unbroken (head : RequestHead) :
    ∀ line ∈ head.requestLine :: head.lines, Unbroken line := by
  intro line hline
  rcases List.mem_cons.mp hline with rfl | hline
  · exact head.requestLine_unbroken
  · exact head.unbroken line hline

end

end RequestHead

/-! ## The request line -/

section Parser

variable {head : RequestHead} {line word rest : CStr} {req : HttpRequest}

theorem IsWord.cr (h : IsWord word) : 13 ∉ word := fun hmem => (h.bytes 13 hmem).2.1 rfl

theorem IsWord.blank (h : IsWord word) : ∀ c ∈ word, c ≠ 32 := fun c hc => (h.bytes c hc).2.2

theorem IsWord.dropWhile (h : IsWord word) (rest : CStr) :
    (word ++ rest).dropWhile (· = 32) = word ++ rest := by
  cases hw : word with
  | nil => exact absurd hw h.ne_nil
  | cons c word =>
    have hc : c ≠ 32 := h.blank c (hw ▸ List.mem_cons_self)
    rw [List.cons_append, List.dropWhile_cons_of_neg (by simpa using hc)]

/-- The words of the request line; what is behind the second blank is looked at for the version. -/
theorem httpParseRequestLine_words {method uri version : CStr} (hmethod : IsWord method)
    (huri : IsWord uri) (hversion : 13 ∉ version) :
    httpParseRequestLine (method ++ 32 :: (uri ++ 32 :: version)) req =
      some (parseHttpVersion version { req with
        method := cut 16 method
        uri := cut httpMaxUri uri }) := by
  have hcr : 13 ∉ method ++ 32 :: (uri ++ 32 :: version) := by
    simp [hmethod.cr, huri.cr, hversion]
  have hline : (method ++ 32 :: (uri ++ 32 :: version)).takeWhile (· ≠ 13) =
      method ++ 32 :: (uri ++ 32 :: version) := by
    rw [List.takeWhile_eq_self_iff]
    intro c hc
    rw [decide_eq_true_eq]
    exact fun h => hcr (h ▸ hc)
  have hfirst := takeWhile_word (uri ++ 32 :: version) hmethod.blank
  have hsecond := takeWhile_word version huri.blank
  rw [httpParseRequestLine]
  simp only [hline, hfirst.1, hfirst.2, huri.dropWhile, hsecond.1, hsecond.2, List.drop_one,
    List.tail_cons]

theorem httpParseRequestLine_head (head : RequestHead) (req : HttpRequest) :
    httpParseRequestLine head.requestLine req = some { req with
      method := cut 16 head.method
      uri := cut httpMaxUri head.uri
      versionMajor := 1
      versionMinor := head.minor } := by
  rw [RequestHead.requestLine,
    httpParseRequestLine_words head.method_word head.uri_word head.version_word.cr]
  rcases head.version_cases with ⟨hminor, hversion⟩ | ⟨hminor, hversion⟩
  · rw [hversion, parseHttpVersion_zero, hminor]
    rfl
  · rw [hversion, parseHttpVersion_one, hminor]
    rfl

/-! ## The header lines -/

theorem headerLines_head (head : RequestHead) (rest : List UInt8) :
    headerLines [] (behindLine (head.render ++ rest)) = head.lines := by
  have hsplit : head.render ++ rest =
      head.requestLine ++ crlf ++ (renderLines head.lines ++ crlf ++ rest) := by
    simp [RequestHead.render, renderLines]
  rw [hsplit, behindLine_line head.requestLine_unbroken.cr]
  exact headerLines_renderLines head.unbroken

/-- Within the limits a header is stored whole. -/
theorem headerEntry_eq (hcr : 13 ∉ line) (hname : (headerName line).length < httpMaxHeaderName)
    (hvalue : (headerValue line).length < httpMaxHeaderValue) :
    headerEntry line = ⟨headerName line, headerValue line⟩ := by
  have hsub : (line.dropWhile (· ≠ 58)).drop 1 <:+ line :=
    (List.drop_suffix _ _).trans (List.dropWhile_suffix _)
  rw [headerEntry, headerOf, trimName_eq, trimValue_eq fun h => hcr (hsub.subset h)]
  exact congrArg₂ HttpHeader.mk (cut_of_lt hname) (cut_of_lt hvalue)

theorem map_headerEntry (h : head.InLimits) :
    (head.lines.filter (58 ∈ ·)).map headerEntry = head.fields := by
  refine List.map_congr_left fun line hline => ?_
  obtain ⟨hmem, hcolon⟩ := List.mem_filter.mp hline
  have hcolon : 58 ∈ line := of_decide_eq_true hcolon
  exact headerEntry_eq (head.unbroken line hmem).cr (h.name line hmem hcolon)
    (h.value line hmem hcolon)

/-- A lookup by name goes through the stored headers. -/
theorem httpGetHeader_eq (name : CStr) :
    httpGetHeader req name = (req.headers.find? (HttpHeader.named name)).map (·.value) := by
  have hnamed : (fun h : HttpHeader => decide (strcasecmpSafe h.name name = .eq)) =
      HttpHeader.named name := by
    funext h
    rw [HttpHeader.named, Bool.eq_iff_iff, decide_eq_true_eq, decide_eq_true_eq]
    exact strcasecmpSafe_eq_iff
  rw [httpGetHeader, hnamed]

/-- The headers of a name, as lines. -/
theorem named_eq (name : CStr) : head.named name =
    (head.lines.filter (isNamed name)).map fun line => ⟨headerName line, headerValue line⟩ := by
  rw [RequestHead.named, RequestHead.fields, List.filter_map, List.filter_filter]
  congr 1
  refine List.filter_congr fun line _ => ?_
  rw [isNamed, Function.comp_apply, HttpHeader.named, Bool.and_comm]
  exact (Bool.decide_and ..).symm

/-- The negotiation changes `keep_alive` only. -/
theorem httpParseHeaders_stored (raw : List UInt8) (req : HttpRequest) :
    (httpParseHeaders raw req).headers =
        ((headerLines [] (behindLine raw)).foldl parseHeaderLine req).headers ∧
      (httpParseHeaders raw req).contentLength =
        ((headerLines [] (behindLine raw)).foldl parseHeaderLine req).contentLength := by
  unfold httpParseHeaders
  simp only
  split
  · split
    · exact ⟨rfl, rfl⟩
    · split
      · exact ⟨rfl, rfl⟩
      · exact ⟨rfl, rfl⟩
  · exact ⟨rfl, rfl⟩

theorem RequestHead.InLimits.lines (h : head.InLimits) :
    ∀ line ∈ head.lines, Unbroken line ∧ line.length < 512 :=
  fun line hline => ⟨head.unbroken line hline, h.short line hline⟩

/-- What the header lines of a head make of a request without headers. -/
theorem httpParseHeaders_head (h : head.InLimits) (hnone : req.headers = []) (rest : List UInt8) :
    (httpParseHeaders (head.render ++ rest) req).headers = head.fields ∧
      (httpParseHeaders (head.render ++ rest) req).contentLength =
        (contentLengths head.lines).getLastD req.contentLength := by
  have hroom : req.headers.length + head.lines.length ≤ httpMaxHeaders := by
    rw [hnone, List.length_nil, Nat.zero_add]
    exact h.count
  obtain ⟨-, -, hheaders, -, hlength⟩ := foldl_parseHeaderLine h.lines hroom
  obtain ⟨hstored, hstated⟩ := httpParseHeaders_stored (head.render ++ rest) req
  rw [headerLines_head] at hstored hstated
  refine ⟨?_, hstated.trans hlength⟩
  rw [hstored, hheaders, hnone, List.nil_append, map_headerEntry h]

theorem contentLengths_eq (h : head.InLimits) : contentLengths head.lines =
    (head.named (ascii "content-length")).map fun f => max (atoi f.value) 0 := by
  rw [contentLengths, named_eq, List.map_map]
  refine List.map_congr_left fun line hline => ?_
  obtain ⟨hmem, hnamed⟩ := List.mem_filter.mp hline
  have hcolon : 58 ∈ line := (of_decide_eq_true hnamed).1
  rw [lengthOf, headerEntry_eq (head.unbroken line hmem).cr (h.name line hmem hcolon)
    (h.value line hmem hcolon)]
  rfl

theorem connectionValues_eq : connectionValues head.lines =
    (head.named (ascii "connection")).map fun f => f.value.map lowerByte := by
  rw [connectionValues, isConnection_eq, named_eq, List.map_map]
  rfl

end Parser

/-- **The header parser meets its specification.** -/
theorem httpParseHeaders_spec (head : RequestHead) (h : head.InLimits) (rest : List UInt8) :
    ∃ req, httpParseRequestLine head.requestLine httpRequestInit = some req ∧
      (httpParseHeaders (head.render ++ rest) req).headers = head.fields ∧
      (∀ name, httpGetHeader (httpParseHeaders (head.render ++ rest) req) name =
        (head.fields.find? (HttpHeader.named name)).map (·.value)) ∧
      ((head.named (ascii "connection")).length ≤ 1 →
        (httpParseHeaders (head.render ++ rest) req).keepAlive = head.asksToKeep) ∧
      ((head.named (ascii "content-length")).length ≤ 1 →
        (∀ f ∈ head.named (ascii "content-length"), f.value ≠ [] ∧
          (∀ c ∈ f.value, isDigit c = true) ∧ digits f.value < 2 ^ 31) →
        (httpParseHeaders (head.render ++ rest) req).contentLength = head.statedLength) := by
  obtain ⟨req, hreq, hnone, hinit, habsent, hmajor, hminor⟩ :
      ∃ req, httpParseRequestLine head.requestLine httpRequestInit = some req ∧
        req.headers = [] ∧ req.keepAlive = true ∧ req.contentLength = -1 ∧
        req.versionMajor = 1 ∧ req.versionMinor = head.minor :=
    ⟨_, httpParseRequestLine_head head httpRequestInit, rfl, rfl, rfl, rfl, rfl⟩
  obtain ⟨hheaders, hlength⟩ := httpParseHeaders_head h hnone rest
  refine ⟨req, hreq, hheaders, fun name => ?_, fun honce => ?_, fun honce hdecimal => ?_⟩
  · rw [httpGetHeader_eq, hheaders]
  · have honce' : (connectionValues head.lines).length ≤ 1 := by
      rw [connectionValues_eq, List.length_map]
      exact honce
    rw [httpParseHeaders_table (headerLines_head head rest) h.lines h.count hnone hinit honce',
      connectionValues_eq, hmajor, hminor]
    simp only [true_and, Int.natCast_eq_zero]
    rfl
  · rw [hlength, habsent, contentLengths_eq h, RequestHead.statedLength]
    cases hfields : head.named (ascii "content-length") with
    | nil => rfl
    | cons f rest =>
      rw [hfields, List.length_cons] at honce
      obtain rfl : rest = [] := List.length_eq_zero_iff.mp (by omega)
      obtain ⟨hne, hdigit, hlt⟩ := hdecimal f (hfields ▸ List.mem_cons_self)
      have hnat : max ((digits f.value : Nat) : Int) 0 = digits f.value := by omega
      rw [List.map_cons, List.map_nil, List.getLastD_cons, List.getLastD_nil,
        atoi_digits hne hdigit hlt, hnat]

/-! ### A head -/

theorem isWord_get : IsWord (ascii "GET") := ⟨by decide, by decide⟩

theorem isWord_root : IsWord (ascii "/") := ⟨by decide, by decide⟩

/-- Blanks around names and values, names in any case, a line without a colon. -/
def mixedLines : List CStr :=
  ["HOST : a ", "Connection:close", "content-LENGTH:  12\t", "no header"].map ascii

theorem mixedLines_unbroken : ∀ line ∈ mixedLines, Unbroken line := by
  intro line hline
  have hall : ∀ line ∈ mixedLines, line ≠ [] ∧ 0 ∉ line ∧ 13 ∉ line := by decide +kernel
  obtain ⟨hne, h0, hcr⟩ := hall line hline
  exact ⟨hne, h0, hcr⟩

def mixedHead : RequestHead where
  method := ascii "GET"
  uri := ascii "/"
  minor := 1
  lines := mixedLines
  method_word := isWord_get
  uri_word := isWord_root
  minor_le := Nat.le_refl 1
  unbroken := mixedLines_unbroken

theorem mixedHead_inLimits : mixedHead.InLimits := by
  constructor
  · decide +kernel
  · decide +kernel
  · decide +kernel
  · decide +kernel

theorem httpParseHeaders_spec_mixed :
    mixedHead.asksToKeep = false ∧ mixedHead.statedLength = 12 ∧
      ∃ req, (httpParseHeaders (mixedHead.render ++ []) req).headers = mixedHead.fields ∧
        (httpParseHeaders (mixedHead.render ++ []) req).keepAlive = mixedHead.asksToKeep ∧
        (httpParseHeaders (mixedHead.render ++ []) req).contentLength = mixedHead.statedLength := by
  obtain ⟨req, -, hheaders, -, hkeep, hlength⟩ :=
    httpParseHeaders_spec mixedHead mixedHead_inLimits []
  refine ⟨by decide +kernel, by decide +kernel, req, hheaders, hkeep ?_, hlength ?_ ?_⟩
  · decide +kernel
  · decide +kernel
  · decide +kernel

end MiniWeb.FrontEnd
