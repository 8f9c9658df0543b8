import MiniWeb.FrontEnd.Body

/-!
# The front ends compared

The three front ends parse the request line alike. They part in four places: the event loop with
`epoll` refuses a buffer above the limit, the one with `select` reads no header and leaves the
content length at 0, and `request_handler_handle_connection` strips the body before it cuts it to
the field where the event loops cut first. `readAlike_iff` says for which bytes none of this
shows.
-/

namespace MiniWeb.FrontEnd

open CStr Search Config

/-- Two requests with the same method, path, body and header fields. -/
structure Request.Agrees (req req' : Request) : Prop where
  method : req.method = req'.method
  path : req.path = req'.path
  body : req.body = req'.body
  contentType : req.contentType = req'.contentType
  contentLengthHdr : req.contentLengthHdr = req'.contentLengthHdr
  cookie : req.cookie = req'.cookie
  authorization : req.authorization = req'.authorization

/-- Every front end makes a request of the bytes, and the requests agree. -/
def ReadAlike (config : Option ServerConfig) (recvBuf : List UInt8) : Prop :=
  ∃ conn epoll select, connectionRead recvBuf = .request conn ∧
    epollRead config recvBuf = .request epoll ∧ selectRead recvBuf = .request select ∧
    conn.Agrees epoll ∧ epoll.Agrees select

/-- The line ends behind the blanks at a pointer. -/
def BlankValue (p : List UInt8) : Prop := ∀ c ∈ (p.dropWhile isBlank).head?, inLine c = false

/-- The bytes in which the front ends do not part: they are within the limit, no `Content-Type`,
`Cookie` or `Authorization` has a value, a `Content-Length` of zero or less is given, and the
body's 511th byte is not one that the front ends strip in a different order. -/
structure Plain (config : Option ServerConfig) (recvBuf : List UInt8) : Prop where
  size : recvBuf.length ≤ maxBytes config
  contentType : ∀ p ∈ last? contentTypePattern 15 recvBuf, BlankValue (p.drop 14)
  contentLength : ∃ p ∈ last? contentLengthPattern 15 recvBuf, atoi (ofBuffer (p.drop 16)) ≤ 0
  cookie : ∀ p ∈ cookieStart recvBuf, BlankValue p
  authorization : ∀ p ∈ authorizationStart recvBuf, BlankValue p
  body : ∀ body ∈ bodyStart recvBuf, ∀ c ∈ (stripCrLf body)[510]?, isCrLf c = false

/-! ## Cutting and stripping the body -/

theorem rdropWhile_append {α : Type*} {p : α → Bool} {s z : List α} (hz : ∀ c ∈ z, p c = true) :
    (s ++ z).rdropWhile p = s.rdropWhile p := by
  rw [List.rdropWhile, List.rdropWhile, List.reverse_append,
    List.dropWhile_append_of_pos fun c hc => hz c (List.mem_reverse.1 hc)]

/-- Cutting a list and dropping its end commute unless an element of the end kept by the cut is
followed by one that is not dropped. -/
theorem take_rdropWhile_eq_iff {α : Type*} {p : α → Bool} {n : Nat} {b : List α} :
    (b.rdropWhile p).take (n + 1) = (b.take (n + 1)).rdropWhile p
      ↔ ∀ c ∈ (b.rdropWhile p)[n]?, p c = false := by
  have hb : b.rdropWhile p ++ b.rtakeWhile p = b := List.rdropWhile_append_rtakeWhile
  have hz : ∀ c ∈ b.rtakeWhile p, p c = true := fun c hc => List.mem_rtakeWhile_imp hc
  have hs : (b.rdropWhile p).rdropWhile p = b.rdropWhile p := List.rdropWhile_idempotent p b
  by_cases hn : n < (b.rdropWhile p).length
  · have htake : b.take (n + 1) = (b.rdropWhile p).take (n + 1) := by
      conv_lhs => rw [← hb]
      exact List.take_append_of_le_length hn
    have hlast : ∀ hl : (b.rdropWhile p).take (n + 1) ≠ [],
        ((b.rdropWhile p).take (n + 1)).getLast hl = (b.rdropWhile p)[n] := by
      intro hl
      rw [List.getLast_eq_getElem, List.getElem_take]
      congr 1
      rw [List.length_take]
      omega
    rw [htake, eq_comm, List.rdropWhile_eq_self_iff, List.getElem?_eq_getElem hn]
    constructor
    · intro h c hc
      have hl : (b.rdropWhile p).take (n + 1) ≠ [] := by
        intro h0
        have := congrArg List.length h0
        rw [List.length_take, List.length_nil] at this
        omega
      have := h hl
      rw [hlast hl] at this
      cases hc
      simpa using this
    · intro h hl
      rw [hlast hl, h _ rfl]
      exact Bool.false_ne_true
  · have htake : (b.take (n + 1)).rdropWhile p = b.rdropWhile p := by
      conv_lhs => rw [← hb]
      rw [List.take_append, List.take_of_length_le (by omega),
        rdropWhile_append fun c hc => hz c (List.mem_of_mem_take hc), hs]
    rw [htake, List.take_of_length_le (by omega), List.getElem?_eq_none (by omega)]
    simp

/-- The body of `request_handler_handle_connection`. -/
def connectionBody (recvBuf : List UInt8) : CStr :=
  match (extractBody recvBuf).1 with
  | some body => cut 512 body
  | none => []

theorem connectionBody_eq (recvBuf : List UInt8) :
    connectionBody recvBuf = ((bodyStart recvBuf).map fun b => cut 512 (stripCrLf b)).getD [] := by
  unfold connectionBody extractBody
  cases bodyStart recvBuf with
  | none => rfl
  | some body =>
    by_cases h : stripCrLf body = []
    · simp [h, cut]
    · simp [h]

theorem bodyField_eq (recvBuf : List UInt8) :
    bodyField recvBuf = ((bodyStart recvBuf).map fun b => stripCrLf (cut 512 b)).getD [] := by
  unfold bodyField
  cases bodyStart recvBuf with
  | none => rfl
  | some body =>
    by_cases h : body = []
    · subst h
      rfl
    · simp [h]

theorem connectionBody_eq_iff (recvBuf : List UInt8) :
    connectionBody recvBuf = bodyField recvBuf
      ↔ ∀ body ∈ bodyStart recvBuf, ∀ c ∈ (stripCrLf body)[510]?, isCrLf c = false := by
  rw [connectionBody_eq, bodyField_eq]
  cases bodyStart recvBuf with
  | none => simp
  | some body =>
    have h := take_rdropWhile_eq_iff (p := isCrLf) (n := 510) (b := body)
    rw [Option.map_some, Option.map_some, Option.getD_some, Option.getD_some]
    constructor
    · intro heq body' hbody'
      cases hbody'
      exact h.1 heq
    · intro hall
      exact h.2 (hall body rfl)

/-! ## Blank values -/

theorem lineValue_eq_nil_iff {size : Nat} (hsize : 2 ≤ size) {p : List UInt8} :
    lineValue size p = [] ↔ BlankValue p := by
  rw [lineValue, BlankValue, cut]
  cases p.dropWhile isBlank with
  | nil => simp
  | cons c p =>
    by_cases h : inLine c = true
    · have : size - 1 ≠ 0 := by omega
      simp [h, this]
    · simp [h]

/-- The first byte of a value is not blank, so stripping blanks at its end leaves it. -/
theorem trimEnd_lineValue_eq_nil_iff {size : Nat} (hsize : 2 ≤ size) {p : List UInt8} :
    trimEnd (lineValue size p) = [] ↔ BlankValue p := by
  rw [← lineValue_eq_nil_iff hsize, trimEnd, List.rdropWhile_eq_nil_iff]
  constructor
  · intro h
    by_contra hne
    rw [lineValue_eq_nil_iff hsize, BlankValue] at hne
    cases hp : p.dropWhile isBlank with
    | nil => simp [hp] at hne
    | cons c s =>
      have hblank : isBlank c = false := by
        have := List.head?_dropWhile_not isBlank p
        simpa [hp] using this
      have hin : inLine c = true := by simpa [hp] using hne
      have hmem : c ∈ lineValue size p := by
        rw [lineValue, cut, hp, List.takeWhile_cons_of_pos hin]
        obtain ⟨n, hn⟩ : ∃ n, size - 1 = n + 1 := ⟨size - 2, by omega⟩
        rw [hn, List.take_succ_cons]
        exact List.mem_cons_self ..
      rw [h c hmem] at hblank
      exact absurd hblank (by decide)
  · intro h
    simp [h]

/-! ## The requests -/

section Requests

variable {config : Option ServerConfig} {recvBuf : List UInt8} {method path : CStr}

theorem connectionRead_eq (hline : parseHttpRequestLine (lineCopy recvBuf) = some (method, path)) :
    connectionRead recvBuf = .request
      { method := methodField method
        path := cut 256 path
        body := connectionBody recvBuf
        keepAlive := false
        contentType := contentType recvBuf
        contentLengthHdr := contentLengthHdr recvBuf
        authorization := authorization recvBuf
        cookie := cookie recvBuf } := by
  unfold connectionRead
  rw [hline]
  simp only [contentType_extractBody, contentLengthHdr_extractBody, authorization_extractBody,
    cookie_extractBody]
  rfl

theorem epollRead_eq (hsize : recvBuf.length ≤ maxBytes config)
    (hword : firstWord (lineCopy recvBuf) ∈ httpMethods)
    (hline : parseHttpRequestLine (lineCopy recvBuf) = some (method, path)) :
    epollRead config recvBuf = .request
      { method := methodField method
        path := cut 256 path
        body := bodyField recvBuf
        keepAlive := keepAlive recvBuf
        contentType := contentType recvBuf
        contentLengthHdr := contentLengthHdr recvBuf
        authorization := authorization recvBuf
        cookie := cookie recvBuf } := by
  simp only [epollRead, if_neg (Int.not_lt.2 hsize), hword, not_true, if_false, hline]

theorem epollRead_tooLarge (hsize : ¬(recvBuf.length : Int) ≤ maxBytes config) :
    epollRead config recvBuf = .tooLarge := by
  rw [epollRead, if_pos (Int.not_le.1 hsize)]

theorem selectRead_eq (hline : parseHttpRequestLine (lineCopy recvBuf) = some (method, path)) :
    selectRead recvBuf = .request
      { method := methodField method
        path := cut 256 path
        body := bodyField recvBuf
        keepAlive := false
        contentType := []
        contentLengthHdr := 0
        authorization := []
        cookie := [] } := by
  simp only [selectRead, hline]

end Requests

section Fields

variable (recvBuf : List UInt8)

theorem contentType_eq_nil_iff : contentType recvBuf = []
    ↔ ∀ p ∈ last? contentTypePattern 15 recvBuf, BlankValue (p.drop 14) := by
  rw [contentType_eq]
  cases last? contentTypePattern 15 recvBuf with
  | none => simp
  | some p => simp [trimEnd_lineValue_eq_nil_iff]

theorem contentLengthHdr_eq_zero_iff : contentLengthHdr recvBuf = 0
    ↔ ∃ p ∈ last? contentLengthPattern 15 recvBuf, atoi (ofBuffer (p.drop 16)) ≤ 0 := by
  rw [contentLengthHdr_eq]
  cases last? contentLengthPattern 15 recvBuf with
  | none => simp
  | some p => simp

theorem cookie_eq_nil_iff : cookie recvBuf = [] ↔ ∀ p ∈ cookieStart recvBuf, BlankValue p := by
  rw [cookie]
  cases cookieStart recvBuf with
  | none => simp
  | some p => simp [lineValue_eq_nil_iff]

theorem authorization_eq_nil_iff :
    authorization recvBuf = [] ↔ ∀ p ∈ authorizationStart recvBuf, BlankValue p := by
  rw [authorization]
  cases authorizationStart recvBuf with
  | none => simp
  | some p => simp [trimEnd_lineValue_eq_nil_iff]

end Fields

/-! ## The comparison -/

/-- The front ends make the same request of the same bytes, where these begin with a method the
event loop knows and have a path, exactly when the bytes are plain. -/
theorem readAlike_iff (config : Option ServerConfig) (recvBuf : List UInt8)
    (hword : firstWord (lineCopy recvBuf) ∈ httpMethods)
    (hpath : (parseHttpRequestLine (lineCopy recvBuf)).isSome = true) :
    ReadAlike config recvBuf ↔ Plain config recvBuf := by
  obtain ⟨⟨method, path⟩, hline⟩ := Option.isSome_iff_exists.1 hpath
  have hconn := connectionRead_eq hline
  have hselect := selectRead_eq hline
  constructor
  · rintro ⟨conn, epoll, select, hc, he, hs, hce, hes⟩
    have hsize : (recvBuf.length : Int) ≤ maxBytes config := by
      by_contra hsize
      rw [epollRead_tooLarge hsize] at he
      exact absurd he (by simp)
    rw [hconn, Reading.request.injEq] at hc
    rw [epollRead_eq hsize hword hline, Reading.request.injEq] at he
    rw [hselect, Reading.request.injEq] at hs
    subst hc he hs
    exact {
      size := hsize
      contentType := (contentType_eq_nil_iff recvBuf).1 hes.contentType
      contentLength := (contentLengthHdr_eq_zero_iff recvBuf).1 hes.contentLengthHdr
      cookie := (cookie_eq_nil_iff recvBuf).1 hes.cookie
      authorization := (authorization_eq_nil_iff recvBuf).1 hes.authorization
      body := (connectionBody_eq_iff recvBuf).1 hce.body }
  · intro h
    refine ⟨_, _, _, hconn, epollRead_eq h.size hword hline, hselect, ?_, ?_⟩
    · exact ⟨rfl, rfl, (connectionBody_eq_iff recvBuf).2 h.body, rfl, rfl, rfl, rfl⟩
    · exact ⟨rfl, rfl, rfl, (contentType_eq_nil_iff recvBuf).2 h.contentType,
        (contentLengthHdr_eq_zero_iff recvBuf).2 h.contentLength,
        (cookie_eq_nil_iff recvBuf).2 h.cookie,
        (authorization_eq_nil_iff recvBuf).2 h.authorization⟩

/-- A request without headers or body but a content length. -/
def plainRequest : List UInt8 := ascii "GET / HTTP/1.1\r\nContent-Length: 0\r\n\r\n"

theorem readAlike_iff_plainRequest : ReadAlike none plainRequest := by
  apply (readAlike_iff none plainRequest (by decide) (by decide)).2
  have hlen : last? contentLengthPattern 15 plainRequest
      = some (ascii "\nContent-Length: 0\r\n\r\n") := by decide +kernel
  exact {
    size := by decide
    contentType := by
      have : last? contentTypePattern 15 plainRequest = none := by decide +kernel
      simp [this]
    contentLength := ⟨_, hlen, by decide +kernel⟩
    cookie := by
      have : cookieStart plainRequest = none := by decide +kernel
      simp [this]
    authorization := by
      have : authorizationStart plainRequest = none := by decide +kernel
      simp [this]
    body := by
      have : bodyStart plainRequest = some [] := by decide +kernel
      simp [this, stripCrLf] }

/-- The content length of a request that gives none is -1, with `select` it is 0. -/
theorem bareRequest_not_readAlike :
    firstWord (lineCopy (ascii "GET / HTTP/1.1\r\n\r\n")) ∈ httpMethods ∧
      (parseHttpRequestLine (lineCopy (ascii "GET / HTTP/1.1\r\n\r\n"))).isSome = true ∧
      ¬ReadAlike none (ascii "GET / HTTP/1.1\r\n\r\n") := by
  refine ⟨by decide, by decide, ?_⟩
  rintro ⟨conn, epoll, select, -, he, hs, -, hes⟩
  have hepoll : epollRead none (ascii "GET / HTTP/1.1\r\n\r\n") = .request
      { method := ascii "GET", path := ascii "/", body := [], keepAlive := true, contentType := [],
        contentLengthHdr := -1, authorization := [], cookie := [] } := by decide +kernel
  have hselect : selectRead (ascii "GET / HTTP/1.1\r\n\r\n") = .request
      { method := ascii "GET", path := ascii "/", body := [], keepAlive := false, contentType := [],
        contentLengthHdr := 0, authorization := [], cookie := [] } := by decide +kernel
  rw [hepoll, Reading.request.injEq] at he
  rw [hselect, Reading.request.injEq] at hs
  subst he hs
  exact absurd hes.contentLengthHdr (by decide)

end MiniWeb.FrontEnd
