import MiniWeb.FrontEnd.Parse
import MiniWeb.Lib.HttpReply

/-!
# The request parser (`http_parser.c`)

`http_parse_request` reads the request line, the header lines up to the empty one and the body. It
is given the bytes received, with a NUL behind them: the line breaks of the first line and the start
of the body are searched for in the text before the first NUL, the header lines in all bytes.
-/

namespace MiniWeb.FrontEnd

open CStr
open HttpReply (lowerByte)

def httpMaxHeaders : Nat := 32
def httpMaxHeaderName : Nat := 64
def httpMaxHeaderValue : Nat := 256
def httpMaxUri : Nat := 1024
def httpMaxBody : Nat := 4096

/-- `http_header_t`. -/
structure HttpHeader where
  name : CStr
  value : CStr
deriving DecidableEq, Repr

/-- `http_request_t`; `body` holds `body_len` bytes. -/
structure HttpRequest where
  method : CStr
  uri : CStr
  versionMajor : Int
  versionMinor : Int
  headers : List HttpHeader
  contentLength : Int
  keepAlive : Bool
  body : List UInt8
  bodyExpected : Int
deriving DecidableEq, Repr

def httpRequestInit : HttpRequest where
  method := []
  uri := []
  versionMajor := 1
  versionMinor := 1
  headers := []
  contentLength := -1
  keepAlive := true
  body := []
  bodyExpected := 0

/-- `strcasecmp_safe`, on strings that are not `NULL`. -/
def strcasecmpSafe (a b : CStr) : Ordering := strcmp (a.map lowerByte) (b.map lowerByte)

/-! ## The request line -/

/-- The version at the end of the request line, if there is one. -/
def parseHttpVersion (p : CStr) (req : HttpRequest) : HttpRequest :=
  let p := p.dropWhile (· = 32)
  if startsWith p (ascii "HTTP/") then
    let p := p.drop 5
    let req := { req with versionMajor := atoi p }
    match p.dropWhile (· ≠ 46) with
    | [] => req
    | _ :: p => { req with versionMinor := atoi p }
  else req

/-- `http_parse_request_line`: `none` for a line without a blank. -/
def httpParseRequestLine (line : CStr) (req : HttpRequest) : Option HttpRequest :=
  let line := line.takeWhile (· ≠ 13)
  match line.dropWhile (· ≠ 32) with
  | [] => none
  | _ :: p =>
    let save := p.dropWhile (· = 32)
    let req := { req with
      method := cut 16 (line.takeWhile (· ≠ 32))
      uri := cut httpMaxUri (save.takeWhile (· ≠ 32)) }
    some (parseHttpVersion ((save.dropWhile (· ≠ 32)).drop 1) req)

/-! ## The headers -/

/-- The bytes behind the first line end. -/
def behindLine : List UInt8 → List UInt8
  | [] => []
  | 13 :: 10 :: s => s
  | _ :: s => behindLine s

/-- The lines that the loop of `http_parse_headers` reads, up to an empty one or one without an
end. `line` was read of the line that has not ended. -/
def headerLines (line : List UInt8) : List UInt8 → List (List UInt8)
  | [] => []
  | 13 :: 10 :: s => if line = [] then [] else line :: headerLines [] s
  | c :: s => headerLines (line ++ [c]) s

/-- `while (e > s && ..) { *e = '\0'; e--; }`: the first byte stays. -/
def trimTail (p : UInt8 → Bool) : CStr → CStr
  | [] => []
  | c :: s => c :: s.rdropWhile p

/-- What is kept of the text before the colon. -/
def trimName (name : CStr) : CStr := trimTail isBlank (name.dropWhile isBlank)

/-- What is kept of the text behind the colon. -/
def trimValue (value : CStr) : CStr :=
  trimTail (fun c => isBlank c || c = 13) (value.dropWhile isBlank)

/-- The header of a line, with the colon found in it. -/
def headerOf (line value : CStr) : HttpHeader :=
  ⟨cut httpMaxHeaderName (trimName (line.takeWhile (· ≠ 58))),
    cut httpMaxHeaderValue (trimValue value)⟩

/-- `Content-Length` and `Connection` are looked at as they are stored. -/
def storeHeader (h : HttpHeader) (req : HttpRequest) : HttpRequest :=
  let req := { req with headers := req.headers ++ [h] }
  let req :=
    if strcasecmpSafe h.name (ascii "content-length") = .eq then
      { req with contentLength := max (atoi h.value) 0 }
    else req
  if strcasecmpSafe h.name (ascii "connection") = .eq then
    if strcasecmpSafe h.value (ascii "close") = .eq then { req with keepAlive := false }
    else if strcasecmpSafe h.value (ascii "keep-alive") = .eq then { req with keepAlive := true }
    else req
  else req

/-- One line, copied into `char line[512]`. -/
def parseHeaderLine (req : HttpRequest) (bytes : List UInt8) : HttpRequest :=
  let line := ofBuffer (cut 512 bytes)
  match line.dropWhile (· ≠ 58) with
  | [] => req
  | _ :: value =>
    if req.headers.length < httpMaxHeaders then storeHeader (headerOf line value) req else req

/-- `http_get_header`. -/
def httpGetHeader (req : HttpRequest) (name : CStr) : Option CStr :=
  (req.headers.find? fun h => decide (strcasecmpSafe h.name name = .eq)).map (·.value)

/-- `http_parse_headers`. -/
def httpParseHeaders (raw : List UInt8) (req : HttpRequest) : HttpRequest :=
  let req := (headerLines [] (behindLine raw)).foldl parseHeaderLine req
  if req.versionMajor = 1 ∧ req.versionMinor = 0 then
    match httpGetHeader req (ascii "connection") with
    | none => { req with keepAlive := false }
    | some conn =>
      if strcasecmpSafe conn (ascii "keep-alive") ≠ .eq then { req with keepAlive := false }
      else req
  else req

/-! ## The body -/

/-- `http_parse_body`. -/
def httpParseBody (raw : List UInt8) (req : HttpRequest) : HttpRequest :=
  match strstr (ofBuffer raw) (ascii "\r\n\r\n") with
  | none => req
  | some bodyStart =>
    let available := raw.drop ((ofBuffer raw).length - bodyStart.length + 4)
    if available = [] then req
    else if 0 < req.contentLength then
      let toCopy := min (min available.length req.contentLength.toNat) (httpMaxBody - 1)
      { req with
        bodyExpected := req.contentLength
        body := (available.take toCopy).rdropWhile isCrLf }
    else { req with body := (available.take (httpMaxBody - 1)).rdropWhile isCrLf }

/-! ## The request -/

/-- `first_line`: up to `\r\n`, or up to `\n` where there is no `\r\n`. -/
def httpFirstLine (raw : List UInt8) : Option CStr :=
  let text := ofBuffer raw
  match strstr text (ascii "\r\n") with
  | some lineEnd => some (cut 512 (text.take (text.length - lineEnd.length)))
  | none => if 10 ∈ text then some (cut 512 (text.takeWhile (· ≠ 10))) else none

/-- `http_parse_request`. -/
def httpParseRequest (raw : List UInt8) : Option HttpRequest :=
  if raw = [] then none
  else
    (httpFirstLine raw).bind fun line =>
      (httpParseRequestLine line httpRequestInit).map fun req =>
        httpParseBody raw (httpParseHeaders raw req)

/-! ## Comparing with a short text -/

theorem strcasecmpSafe_eq_iff {a b : CStr} :
    strcasecmpSafe a b = .eq ↔ a.map lowerByte = b.map lowerByte := strcmp_eq_iff

/-- A field compares with a text that it has room for as the whole does. -/
theorem strcasecmpSafe_cut {size : Nat} {a b : CStr} (hb : b.length + 1 < size) :
    strcasecmpSafe (cut size a) b = .eq ↔ a.map lowerByte = b.map lowerByte := by
  rw [strcasecmpSafe_eq_iff]
  by_cases ha : a.length ≤ size - 1
  · rw [cut, List.take_of_length_le ha]
  · constructor
    · intro heq
      have hlen := congrArg List.length heq
      rw [List.length_map, List.length_map, cut, List.length_take] at hlen
      omega
    · intro heq
      have hlen := congrArg List.length heq
      rw [List.length_map, List.length_map] at hlen
      omega

/-! ## What a header changes -/

section Store

variable {h : HttpHeader} {req : HttpRequest}

@[simp] theorem storeHeader_headers : (storeHeader h req).headers = req.headers ++ [h] := by
  simp only [storeHeader, apply_ite HttpRequest.headers, ite_self]

@[simp] theorem storeHeader_versionMajor :
    (storeHeader h req).versionMajor = req.versionMajor := by
  simp only [storeHeader, apply_ite HttpRequest.versionMajor, ite_self]

@[simp] theorem storeHeader_versionMinor :
    (storeHeader h req).versionMinor = req.versionMinor := by
  simp only [storeHeader, apply_ite HttpRequest.versionMinor, ite_self]

theorem storeHeader_keepAlive : (storeHeader h req).keepAlive =
    if strcasecmpSafe h.name (ascii "connection") = .eq then
      if strcasecmpSafe h.value (ascii "close") = .eq then false
      else if strcasecmpSafe h.value (ascii "keep-alive") = .eq then true
      else req.keepAlive
    else req.keepAlive := by
  simp only [storeHeader, apply_ite HttpRequest.keepAlive, ite_self]

theorem storeHeader_contentLength : (storeHeader h req).contentLength =
    if strcasecmpSafe h.name (ascii "content-length") = .eq then max (atoi h.value) 0
    else req.contentLength := by
  simp only [storeHeader, apply_ite HttpRequest.contentLength, ite_self]

/-- The body says nothing about the connection. -/
@[simp] theorem httpParseBody_keepAlive (raw : List UInt8) :
    (httpParseBody raw req).keepAlive = req.keepAlive := by
  unfold httpParseBody
  split
  · rfl
  · simp only [apply_ite HttpRequest.keepAlive, ite_self]

end Store

end MiniWeb.FrontEnd
