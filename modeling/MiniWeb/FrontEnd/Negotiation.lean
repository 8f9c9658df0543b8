import MiniWeb.FrontEnd.HttpParser
import MiniWeb.FrontEnd.Stream

/-!
# Keeping the connection

By the table in `http_parser.h` an `HTTP/1.0` request closes the connection unless it has
`Connection: keep-alive`, and an `HTTP/1.1` request keeps it unless it has `Connection: close`.
`http_parse_request` follows the table. The front ends do not call it: `epoll_server_run` searches
the whole text received for a few spellings, and the other two keep the connection up to the limit
of requests whatever was asked. `negotiates_iff` says when they all do the same.
-/

namespace MiniWeb.FrontEnd

open CStr Config
open HttpReply (lowerByte)

/-! ## What a request asks for -/

/-- The text before the colon, without the blanks around it. -/
def headerName (line : CStr) : CStr := trimEnd ((line.takeWhile (· ≠ 58)).dropWhile isBlank)

/-- The text behind the colon, without the blanks around it. -/
def headerValue (line : CStr) : CStr :=
  trimEnd (((line.dropWhile (· ≠ 58)).drop 1).dropWhile isBlank)

/-- Is the line a `Connection` header, in whatever case? -/
def isConnection (line : CStr) : Bool :=
  58 ∈ line ∧ (headerName line).map lowerByte = ascii "connection"

/-- The values of the `Connection` headers in lower case. -/
def connectionValues (headers : List CStr) : List CStr :=
  (headers.filter isConnection).map fun line => (headerValue line).map lowerByte

/-- A request head as a client writes it, with at most one `Connection` header. -/
structure HttpMessage.WellFormed (msg : HttpMessage) : Prop where
  version : msg.version = ascii "HTTP/1.0" ∨ msg.version = ascii "HTTP/1.1"
  count : msg.headers.length ≤ httpMaxHeaders
  short : ∀ line ∈ msg.requestLine :: msg.headers, line.length < 512
  once : (connectionValues msg.headers).length ≤ 1

/-- The documented table. -/
def HttpMessage.asksToKeep (msg : HttpMessage) : Bool :=
  if msg.version = ascii "HTTP/1.0" then ascii "keep-alive" ∈ connectionValues msg.headers
  else ascii "close" ∉ connectionValues msg.headers

/-! ## The connection loop -/

/-- One turn of the loop of `request_handler_handle_connection`, which reads every answer of
`recv` from the start of its buffer. The caller closes the connection when the loop ends. -/
def connectionRecv (conn : Conn) (recv : Recv) : Conn × Option Request :=
  if !conn.isOpen then (conn, none)
  else if recv.bytes = [] then (conn.close, none)
  else
    match connectionRead recv.bytes with
    | .request req =>
      if !recv.sent || maxKeepAliveRequests ≤ conn.requestCount + 1 then (conn.close, some req)
      else (conn.next, some req)
    | _ => (conn.close, none)

/-- Every side makes of the request what the table says: the parser, `close_after` of
`epoll_server_run`, and the two loops that served `count` requests on the connection before and
send their response. -/
def Negotiates (count : Nat) (msg : HttpMessage) : Prop :=
  ∃ req, httpParseRequest msg.render = some req ∧ req.keepAlive = msg.asksToKeep ∧
    keepAlive msg.render = req.keepAlive ∧
    (selectRecv ⟨[], count, true⟩ ⟨msg.render, true⟩).1.isOpen = req.keepAlive ∧
    (connectionRecv ⟨[], count, true⟩ ⟨msg.render, true⟩).1.isOpen = req.keepAlive

/-! ## The condition -/

/-- A line of the head or the text of the body holds the literal. -/
def HttpMessage.Mentions (msg : HttpMessage) (lit : CStr) : Prop :=
  (∃ line ∈ msg.requestLine :: msg.headers, lit <:+: line) ∨ lit <:+: ofBuffer msg.body

instance decidableMentions (msg : HttpMessage) (lit : CStr) : Decidable (msg.Mentions lit) :=
  inferInstanceAs (Decidable (_ ∨ _))

/-- `HAS_KEEPALIVE`. -/
def keepAliveSpellings : List CStr :=
  ["Connection: keep-alive", "Connection: Keep-Alive", "connection: keep-alive",
    "connection: Keep-Alive"].map ascii

/-- `HAS_CLOSE`. -/
def closeSpellings : List CStr :=
  ["Connection: close", "Connection: Close", "connection: close", "connection: Close"].map ascii

/-- The spellings in the head and the body say what the headers ask for. -/
def HttpMessage.SpelledOut (msg : HttpMessage) : Prop :=
  if msg.Mentions (ascii "HTTP/1.0") then
    msg.asksToKeep = true ↔ ∃ lit ∈ keepAliveSpellings, msg.Mentions lit
  else msg.asksToKeep = false ↔ ∃ lit ∈ closeSpellings, msg.Mentions lit

/-- The request asks to keep the connection unless it is the last one allowed, and its spellings
say so. -/
def HttpMessage.Negotiable (count : Nat) (msg : HttpMessage) : Prop :=
  (msg.asksToKeep = true ↔ count + 1 < maxKeepAliveRequests) ∧ msg.SpelledOut

/-! ## The lines of a message -/

section Parser

variable {msg : HttpMessage} {line rest : CStr}

theorem strstr_lineEnd (hline : 13 ∉ line) :
    strstr (line ++ 13 :: 10 :: rest) (ascii "\r\n") = some (13 :: 10 :: rest) := by
  have hlit : ascii "\r\n" = [13, 10] := by decide
  rw [strstr_append (by decide) (by decide), strstr_eq_none (d := 13) (by decide) hline,
    Option.map_none, Option.none_or, hlit]
  simp [strstr, List.isPrefixOf]

theorem ofBuffer_render (msg : HttpMessage) :
    ofBuffer msg.render = msg.requestLine ++ 13 :: 10 ::
      (renderLines msg.headers ++ crlf ++ ofBuffer msg.body) := by
  have h0 := notMem_renderLines msg.lines_unbroken
  rw [HttpMessage.render, ofBuffer_append h0]
  simp [renderLines, crlf]

theorem httpFirstLine_render (h : msg.WellFormed) :
    httpFirstLine msg.render = some msg.requestLine := by
  have hcr : 13 ∉ msg.requestLine := notMem_of_inLine (inLine_requestLine msg) (by decide)
  have hshort := h.short msg.requestLine List.mem_cons_self
  simp only [httpFirstLine, ofBuffer_render, strstr_lineEnd hcr]
  rw [List.length_append, Nat.add_sub_cancel, List.take_left, cut, List.take_of_length_le (by omega)]

theorem parseHttpVersion_zero (req : HttpRequest) :
    parseHttpVersion (ascii "HTTP/1.0") req = { req with versionMajor := 1, versionMinor := 0 } := by
  rfl

theorem parseHttpVersion_one (req : HttpRequest) :
    parseHttpVersion (ascii "HTTP/1.1") req = { req with versionMajor := 1, versionMinor := 1 } := by
  rfl

/-- The version is read from the end of the request line. -/
theorem httpParseRequestLine_requestLine (h : msg.WellFormed) :
    ∃ req, httpParseRequestLine msg.requestLine httpRequestInit = some req ∧
      (req.versionMajor = 1 ∧ req.versionMinor = 0 ↔ msg.version = ascii "HTTP/1.0") ∧
      req.headers = [] ∧ req.keepAlive = true := by
  have hcr : msg.requestLine.takeWhile (· ≠ 13) = msg.requestLine := by
    rw [List.takeWhile_eq_self_iff]
    intro c hc
    rw [decide_eq_true_eq]
    rintro rfl
    exact notMem_of_inLine (inLine_requestLine msg) (by decide) hc
  have hmethod := takeWhile_word (msg.path ++ 32 :: msg.version) fun c hc =>
    ((httpMethods_word _ msg.method_mem).2.2.1 c hc).2
  have hpath := takeWhile_word msg.version fun c hc => (msg.path_word c hc).2
  rw [httpParseRequestLine]
  simp only [hcr]
  rw [HttpMessage.requestLine, hmethod.2]
  simp only [dropWhile_path, hpath.2, List.drop_one, List.tail_cons]
  refine ⟨_, rfl, ?_⟩
  obtain hversion | hversion := h.version
  · rw [hversion, parseHttpVersion_zero]
    exact ⟨iff_of_true ⟨rfl, rfl⟩ rfl, rfl, rfl⟩
  · rw [hversion, parseHttpVersion_one]
    exact ⟨iff_of_false (fun hminor => by cases hminor.2) (by decide), rfl, rfl⟩

theorem behindLine_line (hline : 13 ∉ line) : behindLine (line ++ crlf ++ rest) = rest := by
  induction line with
  | nil => rfl
  | cons c line ih =>
    have hc : c ≠ 13 := fun hc => hline (hc ▸ List.mem_cons_self)
    rw [List.cons_append, List.cons_append, behindLine]
    · exact ih fun hmem => hline (List.mem_cons_of_mem _ hmem)
    · exact fun s hs => absurd hs hc

/-- The loop reads the lines of the head and stops at the empty one. -/
theorem headerLines_line {read : List UInt8} (hline : 13 ∉ line) (hne : read ++ line ≠ []) :
    headerLines read (line ++ 13 :: 10 :: rest) = (read ++ line) :: headerLines [] rest := by
  induction line generalizing read with
  | nil =>
    rw [List.append_nil] at hne ⊢
    rw [List.nil_append, headerLines, if_neg hne]
  | cons c line ih =>
    have hc : c ≠ 13 := fun hc => hline (hc ▸ List.mem_cons_self)
    have hsplit : read ++ c :: line = (read ++ [c]) ++ line := List.append_cons ..
    rw [hsplit] at hne ⊢
    rw [List.cons_append, headerLines]
    · exact ih (fun hmem => hline (List.mem_cons_of_mem _ hmem)) hne
    · exact fun s hs => absurd hs hc

theorem headerLines_renderLines {lines : List CStr} (h : ∀ line ∈ lines, Unbroken line) :
    headerLines [] (renderLines lines ++ crlf ++ rest) = lines := by
  induction lines with
  | nil => rfl
  | cons line lines ih =>
    obtain ⟨hne, -, hcr⟩ := h line List.mem_cons_self
    have hsplit : renderLines (line :: lines) ++ crlf ++ rest =
        line ++ 13 :: 10 :: (renderLines lines ++ crlf ++ rest) := by
      simp [renderLines, crlf]
    rw [hsplit, headerLines_line hcr (by simpa using hne),
      ih fun line hline => h line (List.mem_cons_of_mem _ hline)]
    rfl

theorem headerLines_render (msg : HttpMessage) :
    headerLines [] (behindLine msg.render) = msg.headers := by
  have hcr : 13 ∉ msg.requestLine := notMem_of_inLine (inLine_requestLine msg) (by decide)
  have hsplit : msg.render =
      msg.requestLine ++ crlf ++ (renderLines msg.headers ++ crlf ++ msg.body) := by
    simp [HttpMessage.render, renderLines]
  rw [hsplit, behindLine_line hcr]
  exact headerLines_renderLines fun line hline => unbroken_line (msg.headers_line line hline)

/-! ## Storing the headers -/

theorem rdropWhile_cons {p : UInt8 → Bool} {c : UInt8} {s : CStr} (hc : p c = false) :
    (c :: s).rdropWhile p = c :: s.rdropWhile p := by
  induction s using List.reverseRecOn with
  | nil => rw [List.rdropWhile_singleton, hc, List.rdropWhile_nil, if_neg Bool.false_ne_true]
  | append_singleton s d ih =>
    rw [← List.cons_append, List.rdropWhile_concat, List.rdropWhile_concat, ih]
    split <;> rfl

theorem rdropWhile_congr {p q : UInt8 → Bool} {s : CStr} (h : ∀ c ∈ s, p c = q c) :
    s.rdropWhile p = s.rdropWhile q := by
  induction s using List.reverseRecOn with
  | nil => rw [List.rdropWhile_nil, List.rdropWhile_nil]
  | append_singleton s d ih =>
    rw [List.rdropWhile_concat, List.rdropWhile_concat, h d (by simp),
      ih fun c hc => h c (List.mem_append_left _ hc)]

/-- The trimming takes the blanks at the end of a text that does not begin with one. -/
theorem trimTail_dropWhile {p : UInt8 → Bool} {s : CStr} (hp : ∀ c ∈ s, p c = isBlank c) :
    trimTail p (s.dropWhile isBlank) = trimEnd (s.dropWhile isBlank) := by
  cases hs : s.dropWhile isBlank with
  | nil => rfl
  | cons c t =>
    have hsub : c :: t <:+ s := hs ▸ List.dropWhile_suffix _
    have hc : isBlank c = false := by
      have hhead := List.head?_dropWhile_not isBlank s
      rw [hs] at hhead
      exact hhead
    rw [trimTail, trimEnd, rdropWhile_cons hc, rdropWhile_congr]
    exact fun d hd => hp d (hsub.subset (List.mem_cons_of_mem c hd))

theorem trimName_eq (name : CStr) : trimName name = trimEnd (name.dropWhile isBlank) :=
  trimTail_dropWhile fun _ _ => rfl

theorem trimValue_eq {value : CStr} (hvalue : 13 ∉ value) :
    trimValue value = trimEnd (value.dropWhile isBlank) := by
  apply trimTail_dropWhile
  intro c hc
  have hne : c ≠ 13 := fun h => hvalue (h ▸ hc)
  rw [decide_eq_false hne, Bool.or_false]

/-- The header that a line is stored as. -/
def headerEntry (line : CStr) : HttpHeader := headerOf line ((line.dropWhile (· ≠ 58)).drop 1)

theorem headerEntry_name_iff {name : CStr} (hname : name.length < 63) :
    strcasecmpSafe (headerEntry line).name name = .eq ↔
      (headerName line).map lowerByte = name.map lowerByte := by
  rw [headerEntry, headerOf, strcasecmpSafe_cut (by rw [httpMaxHeaderName]; omega), trimName_eq]
  rfl

theorem headerEntry_value_iff {value : CStr} (hline : 13 ∉ line) (hvalue : value.length < 255) :
    strcasecmpSafe (headerEntry line).value value = .eq ↔
      (headerValue line).map lowerByte = value.map lowerByte := by
  have hsub : (line.dropWhile (· ≠ 58)).drop 1 <:+ line :=
    (List.drop_suffix _ _).trans (List.dropWhile_suffix _)
  rw [headerEntry, headerOf, strcasecmpSafe_cut (by rw [httpMaxHeaderValue]; omega),
    trimValue_eq fun h => hline (hsub.subset h)]
  rfl

theorem headerEntry_close (hline : 13 ∉ line) :
    strcasecmpSafe (headerEntry line).value (ascii "close") = .eq ↔
      (headerValue line).map lowerByte = ascii "close" :=
  headerEntry_value_iff hline (by decide)

theorem headerEntry_keepAlive (hline : 13 ∉ line) :
    strcasecmpSafe (headerEntry line).value (ascii "keep-alive") = .eq ↔
      (headerValue line).map lowerByte = ascii "keep-alive" :=
  headerEntry_value_iff hline (by decide)

/-- A line with a colon is stored if there is room, and a line without is passed over. -/
theorem parseHeaderLine_eq {req : HttpRequest} (hline : 0 ∉ line)
    (hshort : line.length < 512) (hroom : req.headers.length < httpMaxHeaders) :
    parseHeaderLine req line =
      if 58 ∈ line then storeHeader (headerEntry line) req else req := by
  have hcopy : ofBuffer (cut 512 line) = line := by
    rw [cut, List.take_of_length_le (by omega), ofBuffer_of_notMem hline]
  rw [parseHeaderLine]
  simp only [hcopy]
  by_cases hcolon : 58 ∈ line
  · rw [if_pos hcolon]
    cases hrest : line.dropWhile (· ≠ 58) with
    | nil =>
      rw [List.dropWhile_eq_nil_iff] at hrest
      exact absurd (hrest 58 hcolon) (by decide)
    | cons c value =>
      simp only [if_pos hroom]
      rw [headerEntry, hrest]
      rfl
  · rw [if_neg hcolon]
    have hnil : line.dropWhile (· ≠ 58) = [] := by
      rw [List.dropWhile_eq_nil_iff]
      intro c hc
      rw [decide_eq_true_eq]
      exact fun h => hcolon (h ▸ hc)
    simp only [hnil]

/-- What a `Connection` header with the value makes of the decision. -/
def keepAfter (keep : Bool) (value : CStr) : Bool :=
  if value = ascii "close" then false else if value = ascii "keep-alive" then true else keep

/-- Is the line a header of that name, in whatever case? -/
def isNamed (name line : CStr) : Bool :=
  58 ∈ line ∧ (headerName line).map lowerByte = name.map lowerByte

theorem isNamed_iff (hcolon : 58 ∈ line) (name : CStr) (hname : name.length < 63) :
    isNamed name line = true ↔ strcasecmpSafe (headerEntry line).name name = .eq := by
  rw [headerEntry_name_iff hname, isNamed, decide_eq_true_eq]
  exact and_iff_right hcolon

theorem isConnection_eq : isConnection = isNamed (ascii "connection") := by
  have hlower : (ascii "connection").map lowerByte = ascii "connection" := by decide
  funext line
  rw [isNamed, hlower, isConnection]

theorem isConnection_iff (hcolon : 58 ∈ line) :
    isConnection line = true ↔
      strcasecmpSafe (headerEntry line).name (ascii "connection") = .eq := by
  rw [isConnection_eq]
  exact isNamed_iff hcolon _ (by decide)

/-- The number a `Content-Length` header is stored as. -/
def lengthOf (line : CStr) : Int := max (atoi (headerEntry line).value) 0

/-- The numbers of the `Content-Length` headers. -/
def contentLengths (lines : List CStr) : List Int :=
  (lines.filter (isNamed (ascii "content-length"))).map lengthOf

theorem connectionValues_cons {lines : List CStr} :
    connectionValues (line :: lines) =
      if isConnection line = true then (headerValue line).map lowerByte :: connectionValues lines
      else connectionValues lines := by
  rw [connectionValues, List.filter_cons]
  split <;> rfl

theorem contentLengths_cons {lines : List CStr} :
    contentLengths (line :: lines) =
      if isNamed (ascii "content-length") line = true then lengthOf line :: contentLengths lines
      else contentLengths lines := by
  rw [contentLengths, List.filter_cons]
  split <;> rfl

theorem storeHeader_headerEntry {req : HttpRequest} (hline : 13 ∉ line) (hcolon : 58 ∈ line) :
    (storeHeader (headerEntry line) req).keepAlive =
      if isConnection line = true then keepAfter req.keepAlive ((headerValue line).map lowerByte)
      else req.keepAlive := by
  have hclose := headerEntry_close hline
  have hkeep := headerEntry_keepAlive hline
  rw [storeHeader_keepAlive]
  simp only [← isConnection_iff hcolon, hclose, hkeep]
  rfl

/-- The request after the header lines. -/
theorem foldl_parseHeaderLine {lines : List CStr} {req : HttpRequest}
    (hlines : ∀ line ∈ lines, Unbroken line ∧ line.length < 512)
    (hroom : req.headers.length + lines.length ≤ httpMaxHeaders) :
    (lines.foldl parseHeaderLine req).versionMajor = req.versionMajor ∧
      (lines.foldl parseHeaderLine req).versionMinor = req.versionMinor ∧
      (lines.foldl parseHeaderLine req).headers =
        req.headers ++ (lines.filter (58 ∈ ·)).map headerEntry ∧
      (lines.foldl parseHeaderLine req).keepAlive =
        (connectionValues lines).foldl keepAfter req.keepAlive ∧
      (lines.foldl parseHeaderLine req).contentLength =
        (contentLengths lines).getLastD req.contentLength := by
  induction lines generalizing req with
  | nil => exact ⟨rfl, rfl, (List.append_nil _).symm, rfl, rfl⟩
  | cons line lines ih =>
    obtain ⟨hline, hshort⟩ := hlines line List.mem_cons_self
    have hrest : ∀ line ∈ lines, Unbroken line ∧ line.length < 512 :=
      fun line h => hlines line (List.mem_cons_of_mem _ h)
    rw [List.length_cons] at hroom
    rw [List.foldl_cons, parseHeaderLine_eq hline.nul hshort (by omega), connectionValues_cons]
    by_cases hcolon : 58 ∈ line
    · rw [if_pos hcolon, List.filter_cons_of_pos (by simpa using hcolon)]
      have hroom' : (storeHeader (headerEntry line) req).headers.length + lines.length ≤
          httpMaxHeaders := by
        rw [storeHeader_headers, List.length_append, List.length_singleton]
        omega
      obtain ⟨hmajor, hminor, hheaders, hkeep, hlength⟩ := ih hrest hroom'
      rw [storeHeader_versionMajor] at hmajor
      rw [storeHeader_versionMinor] at hminor
      rw [storeHeader_headers, List.append_assoc] at hheaders
      refine ⟨hmajor, hminor, hheaders, ?_, ?_⟩
      · rw [hkeep, storeHeader_headerEntry hline.cr hcolon]
        split <;> rfl
      · rw [hlength, storeHeader_contentLength, contentLengths_cons]
        simp only [← isNamed_iff hcolon (ascii "content-length") (by decide)]
        split
        · rw [List.getLastD_cons, lengthOf]
        · rfl
    · have hother : ∀ name, isNamed name line = false :=
        fun name => decide_eq_false fun h => hcolon h.1
      rw [if_neg hcolon, List.filter_cons_of_neg (by simpa using hcolon), isConnection_eq,
        hother, if_neg Bool.false_ne_true, contentLengths_cons, hother, if_neg Bool.false_ne_true]
      exact ih hrest (by omega)

/-- The lookup finds the first `Connection` header. -/
theorem httpGetHeader_connection {lines : List CStr} {req : HttpRequest}
    (hheaders : req.headers = (lines.filter (58 ∈ ·)).map headerEntry) :
    httpGetHeader req (ascii "connection") =
      (lines.filter isConnection).head?.map fun line => (headerEntry line).value := by
  rw [httpGetHeader, hheaders, List.find?_map, List.find?_filter, List.head?_filter,
    Option.map_map]
  congr 2
  funext line
  rw [Bool.eq_iff_iff, decide_eq_true_eq, decide_eq_true_eq, Function.comp_apply,
    decide_eq_true_eq]
  constructor
  · rintro ⟨hcolon, hname⟩
    exact (isConnection_iff hcolon).mpr hname
  · intro hconnection
    have hcolon : 58 ∈ line := (of_decide_eq_true hconnection).1
    exact ⟨hcolon, (isConnection_iff hcolon).mp hconnection⟩

/-- The headers of a head with at most one `Connection` header decide as the table says. -/
theorem httpParseHeaders_table {raw : List UInt8} {lines : List CStr} {req : HttpRequest}
    (hread : headerLines [] (behindLine raw) = lines)
    (hlines : ∀ line ∈ lines, Unbroken line ∧ line.length < 512)
    (hcount : lines.length ≤ httpMaxHeaders) (hnone : req.headers = [])
    (hinit : req.keepAlive = true) (honce : (connectionValues lines).length ≤ 1) :
    (httpParseHeaders raw req).keepAlive =
      if req.versionMajor = 1 ∧ req.versionMinor = 0 then
        decide (ascii "keep-alive" ∈ connectionValues lines)
      else decide (ascii "close" ∉ connectionValues lines) := by
  have hroom : req.headers.length + lines.length ≤ httpMaxHeaders := by
    rw [hnone, List.length_nil, Nat.zero_add]
    exact hcount
  obtain ⟨hmajor, hminor, hheaders, hkeep, -⟩ := foldl_parseHeaderLine hlines hroom
  rw [hnone, List.nil_append] at hheaders
  have hlookup := httpGetHeader_connection hheaders
  rw [httpParseHeaders, hread]
  simp only [hmajor, hminor, hlookup]
  rw [hinit] at hkeep
  unfold connectionValues at honce hkeep ⊢
  cases hfilter : lines.filter isConnection with
  | nil =>
    rw [hfilter] at hkeep
    split
    · rfl
    · rw [hkeep]
      rfl
  | cons line rest =>
    rw [hfilter, List.length_map, List.length_cons] at honce
    obtain rfl : rest = [] := List.length_eq_zero_iff.mp (by omega)
    rw [hfilter] at hkeep
    have hmem : line ∈ lines := by
      apply List.mem_of_mem_filter
      rw [hfilter]
      exact List.mem_cons_self
    have hvalue := headerEntry_keepAlive (hlines line hmem).1.cr
    simp only [List.head?_cons, Option.map_some, List.map_cons, List.map_nil, List.foldl_cons,
      List.foldl_nil, List.mem_singleton] at hkeep ⊢
    by_cases hzero : req.versionMajor = 1 ∧ req.versionMinor = 0
    · rw [if_pos hzero, if_pos hzero]
      by_cases hasked : (headerValue line).map lowerByte = ascii "keep-alive"
      · rw [if_neg (not_not_intro (hvalue.mpr hasked)), hkeep, keepAfter, hasked]
        decide
      · rw [if_pos fun heq => hasked (hvalue.mp heq)]
        rw [eq_comm, decide_eq_false_iff_not]
        exact fun heq => hasked heq.symm
    · rw [if_neg hzero, if_neg hzero, hkeep, keepAfter]
      by_cases hclose : (headerValue line).map lowerByte = ascii "close"
      · rw [if_pos hclose]
        rw [eq_comm, decide_eq_false_iff_not]
        exact not_not_intro hclose.symm
      · rw [if_neg hclose, ite_self]
        rw [eq_comm, decide_eq_true_eq]
        exact fun heq => hclose heq.symm

/-- **The parser follows the table.** -/
theorem httpParseRequest_keepAlive (h : msg.WellFormed) :
    ∃ req, httpParseRequest msg.render = some req ∧ req.keepAlive = msg.asksToKeep := by
  obtain ⟨req, hreq, hversion, hnone, hinit⟩ := httpParseRequestLine_requestLine h
  have hparse : httpParseRequest msg.render =
      some (httpParseBody msg.render (httpParseHeaders msg.render req)) := by
    rw [httpParseRequest, if_neg (render_ne_nil msg), httpFirstLine_render h, Option.bind_some,
      hreq, Option.map_some]
  have hlines : ∀ line ∈ msg.headers, Unbroken line ∧ line.length < 512 := fun line hline =>
    ⟨unbroken_line (msg.headers_line line hline), h.short line (List.mem_cons_of_mem _ hline)⟩
  refine ⟨_, hparse, ?_⟩
  rw [httpParseBody_keepAlive,
    httpParseHeaders_table (headerLines_render msg) hlines h.count hnone hinit h.once,
    HttpMessage.asksToKeep]
  simp only [hversion]

end Parser

/-! ## The front ends -/

section FrontEnds

variable {msg : HttpMessage} {lit rest : CStr} {count : Nat}

theorem isSome_strstr_renderLines (hlit : lit ≠ []) (hin : ∀ c ∈ lit, inLine c = true)
    {lines : List CStr} :
    (strstr (renderLines lines ++ crlf ++ rest) lit).isSome = true ↔
      (∃ line ∈ lines, lit <:+: line) ∨ lit <:+: rest := by
  have hcr : 13 ∉ lit := notMem_of_inLine hin (by decide)
  have hlf : 10 ∉ lit := notMem_of_inLine hin (by decide)
  induction lines with
  | nil =>
    have hsplit : renderLines [] ++ crlf ++ rest = 13 :: 10 :: rest := rfl
    rw [hsplit, strstr_cons hlit hcr, strstr_cons hlit hlf, isSome_strstr_iff hlit]
    simp
  | cons line lines ih =>
    have hsplit : renderLines (line :: lines) ++ crlf ++ rest =
        line ++ 13 :: 10 :: (renderLines lines ++ crlf ++ rest) := by
      simp [renderLines, crlf]
    rw [hsplit, strstr_split hlit hcr, strstr_cons hlit hlf, Option.isSome_or, Option.isSome_map,
      Bool.or_eq_true, List.exists_mem_cons_iff, or_assoc]
    exact or_congr (isSome_strstr_iff hlit) ih

/-- A search of the whole text is one of the lines and of the body. -/
theorem isSome_strstr_render (hlit : lit ≠ []) (hin : ∀ c ∈ lit, inLine c = true) :
    (strstr (ofBuffer msg.render) lit).isSome = true ↔ msg.Mentions lit := by
  have h0 := notMem_renderLines msg.lines_unbroken
  rw [HttpMessage.render, ofBuffer_append h0]
  exact isSome_strstr_renderLines hlit hin

theorem any_strstr_render {lits : List CStr}
    (hlits : ∀ lit ∈ lits, lit ≠ [] ∧ ∀ c ∈ lit, inLine c = true) :
    (lits.any fun lit => (strstr (ofBuffer msg.render) lit).isSome) = true ↔
      ∃ lit ∈ lits, msg.Mentions lit := by
  rw [List.any_eq_true]
  exact exists_congr fun lit => and_congr_right fun hlit =>
    isSome_strstr_render (hlits lit hlit).1 (hlits lit hlit).2

theorem hasKeepAlive_render :
    hasKeepAlive (ofBuffer msg.render) = true ↔ ∃ lit ∈ keepAliveSpellings, msg.Mentions lit := by
  rw [← any_strstr_render (by decide)]
  simp only [hasKeepAlive, keepAliveSpellings, List.map_cons, List.map_nil, List.any_cons,
    List.any_nil, Bool.or_false, Bool.or_assoc]

theorem hasClose_render :
    hasClose (ofBuffer msg.render) = true ↔ ∃ lit ∈ closeSpellings, msg.Mentions lit := by
  rw [← any_strstr_render (by decide)]
  simp only [hasClose, closeSpellings, List.map_cons, List.map_nil, List.any_cons,
    List.any_nil, Bool.or_false, Bool.or_assoc]

/-- `close_after` follows the table exactly if the spellings do. -/
theorem keepAlive_render_iff : keepAlive msg.render = msg.asksToKeep ↔ msg.SpelledOut := by
  have hzero : (strstr (ofBuffer msg.render) (ascii "HTTP/1.0")).isSome = true ↔
      msg.Mentions (ascii "HTTP/1.0") := isSome_strstr_render (by decide) (by decide)
  rw [keepAlive, HttpMessage.SpelledOut, ← hasKeepAlive_render, ← hasClose_render]
  simp only [hzero]
  split
  · rw [Bool.not_not, Bool.eq_iff_iff]
    exact iff_comm
  · cases hasClose (ofBuffer msg.render) <;> cases msg.asksToKeep <;> decide

/-- A turn that answers closes the connection at the limit of the requests only. -/
theorem isOpen_answered (conn : Conn) (req : Request) (hopen : conn.isOpen = true) :
    (if maxKeepAliveRequests ≤ conn.requestCount + 1 then (conn.close, some req)
      else (conn.next, some req)).1.isOpen =
      decide (conn.requestCount + 1 < maxKeepAliveRequests) := by
  by_cases hlast : maxKeepAliveRequests ≤ conn.requestCount + 1
  · rw [if_pos hlast, decide_eq_false (Nat.not_lt.mpr hlast)]
    rfl
  · rw [if_neg hlast, decide_eq_true (Nat.not_le.mp hlast)]
    exact hopen

theorem selectRecv_render (hline : msg.requestLine.length ≤ 511) :
    (selectRecv ⟨[], count, true⟩ ⟨msg.render, true⟩).1.isOpen =
      decide (count + 1 < maxKeepAliveRequests) := by
  have hparse : parseHttpRequestLine (lineCopy msg.render) = some (msg.method, msg.path) := by
    rw [lineCopy_render hline, parseHttpRequestLine_requestLine]
  simp only [selectRecv, render_ne_nil, if_false, List.nil_append, selectRead_eq hparse,
    Bool.not_true, Bool.false_eq_true, Bool.false_or, decide_eq_true_eq]
  exact isOpen_answered ⟨[], count, true⟩ _ rfl

theorem connectionRecv_render (hline : msg.requestLine.length ≤ 511) :
    (connectionRecv ⟨[], count, true⟩ ⟨msg.render, true⟩).1.isOpen =
      decide (count + 1 < maxKeepAliveRequests) := by
  have hparse : parseHttpRequestLine (lineCopy msg.render) = some (msg.method, msg.path) := by
    rw [lineCopy_render hline, parseHttpRequestLine_requestLine]
  simp only [connectionRecv, render_ne_nil, if_false, connectionRead_eq hparse,
    Bool.not_true, Bool.false_eq_true, Bool.false_or, decide_eq_true_eq]
  exact isOpen_answered ⟨[], count, true⟩ _ rfl

/-- **Negotiation.** On every connection and for every well-formed head with any body, all sides
agree exactly if the request asks for what the limit makes the loops do, and is spelled out. -/
theorem negotiates_iff (h : msg.WellFormed) (count : Nat) :
    Negotiates count msg ↔ msg.Negotiable count := by
  have hline : msg.requestLine.length ≤ 511 := by
    have := h.short msg.requestLine List.mem_cons_self
    omega
  obtain ⟨req, hparse, hkeep⟩ := httpParseRequest_keepAlive h
  have hlimit : decide (count + 1 < maxKeepAliveRequests) = msg.asksToKeep ↔
      (msg.asksToKeep = true ↔ count + 1 < maxKeepAliveRequests) := by
    rw [Bool.eq_iff_iff, decide_eq_true_eq]
    exact iff_comm
  rw [HttpMessage.Negotiable, ← hlimit, ← keepAlive_render_iff]
  constructor
  · rintro ⟨req', hreq', hkeep', hepoll, hselect, -⟩
    rw [hkeep'] at hepoll hselect
    rw [selectRecv_render hline] at hselect
    exact ⟨hselect, hepoll⟩
  · rintro ⟨hloops, hepoll⟩
    refine ⟨req, hparse, hkeep, ?_, ?_, ?_⟩
    · rw [hkeep, hepoll]
    · rw [hkeep, selectRecv_render hline, hloops]
    · rw [hkeep, connectionRecv_render hline, hloops]

end FrontEnds

/-- A `GET` of the root page over `HTTP/1.1`. -/
def rootMessage (headers : List CStr) (body : List UInt8)
    (h : ∀ line ∈ headers, line ≠ [] ∧ ∀ c ∈ line, inLine c = true) : HttpMessage where
  method := ascii "GET"
  path := ascii "/"
  version := ascii "HTTP/1.1"
  headers := headers
  body := body
  method_mem := by decide
  path_ne_nil := by decide
  path_word := by decide
  version_line := inLine_http11
  headers_line := h

def keepMessage : HttpMessage := rootMessage [ascii "Host: a"] [] (by decide)

def closeMessage : HttpMessage :=
  rootMessage [ascii "Host: a", ascii "Connection: close"] [] (by decide)

/-- The same in capitals. -/
def shoutedMessage : HttpMessage :=
  rootMessage [ascii "Host: a", ascii "CONNECTION: CLOSE"] [] (by decide)

/-- The body is about another version. -/
def quotingMessage : HttpMessage :=
  rootMessage [ascii "Host: a", ascii "Content-Length: 8"] (ascii "HTTP/1.0") (by decide)

theorem negotiates_keepMessage : Negotiates 0 keepMessage := by
  have hwell : keepMessage.WellFormed := by
    refine ⟨Or.inr rfl, ?_, ?_, ?_⟩
    · decide +kernel
    · decide +kernel
    · decide +kernel
  apply (negotiates_iff hwell 0).mpr
  constructor
  · decide +kernel
  · rw [HttpMessage.SpelledOut]
    decide +kernel

/-- The loops keep a connection that a request asks to close, and `close_after` misses a spelling
and believes a body. -/
theorem close_not_negotiated :
    (closeMessage.WellFormed ∧ ¬Negotiates 0 closeMessage) ∧
      (shoutedMessage.WellFormed ∧ shoutedMessage.asksToKeep = false ∧
        keepAlive shoutedMessage.render = true) ∧
      (quotingMessage.WellFormed ∧ quotingMessage.asksToKeep = true ∧
        keepAlive quotingMessage.render = false) := by
  refine ⟨⟨⟨Or.inr rfl, ?_, ?_, ?_⟩, ?_⟩, ⟨⟨Or.inr rfl, ?_, ?_, ?_⟩, ?_, ?_⟩,
    ⟨Or.inr rfl, ?_, ?_, ?_⟩, ?_, ?_⟩
  case refine_4 =>
    rintro ⟨req, -, hkeep, -, hselect, -⟩
    have hask : closeMessage.asksToKeep = false := by decide +kernel
    have hopen : (selectRecv ⟨[], 0, true⟩ ⟨closeMessage.render, true⟩).1.isOpen = true := by
      decide +kernel
    rw [hkeep, hask, hopen] at hselect
    cases hselect
  all_goals decide +kernel

end MiniWeb.FrontEnd
