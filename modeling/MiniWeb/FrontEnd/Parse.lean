import MiniWeb.Config.Servers
import MiniWeb.FrontEnd.Headers

/-!
# Reading a request

What each front end makes of the bytes in its receive buffer: `epoll_server_run`,
`select_server_run`, and `request_handler_handle_connection`, which the single, fork, thread and
pool servers share. `recvBuf` holds the bytes received; the source keeps a NUL behind them.
-/

namespace MiniWeb.FrontEnd

open CStr Search Config

/-- `request_t`, less the version numbers, which no front end sets. -/
structure Request where
  method : CStr
  path : CStr
  body : CStr
  keepAlive : Bool
  contentType : CStr
  contentLengthHdr : Int
  authorization : CStr
  cookie : CStr
deriving DecidableEq, Repr

/-- What a front end does with the bytes of one `recv`: it refuses them with a 413 or a 400,
answers them as a raw message, or hands a request to `request_handler_process_http`. -/
inductive Reading
  | tooLarge
  | malformed
  | echo (firstLine : CStr)
  | request (req : Request)
deriving DecidableEq, Repr

/-! ## The request line -/

/-- `line_copy`: 511 bytes of the text, ended at the first `\r` and the first `\n`. -/
def lineCopy (recvBuf : List UInt8) : CStr :=
  ((cut 512 (ofBuffer recvBuf)).takeWhile (· ≠ 13)).takeWhile (· ≠ 10)

/-- `parse_http_request_line`, and the same lines of the event loops: the method and the path. -/
def parseHttpRequestLine (line : CStr) : Option (CStr × CStr) :=
  match line.dropWhile (· ≠ 32) with
  | [] => none
  | _ :: p => some (line.takeWhile (· ≠ 32), (p.dropWhile (· = 32)).takeWhile (· ≠ 32))

/-- `req.method`: the method as far as the field holds it, in upper case. -/
def methodField (method : CStr) : CStr := cut 16 (method.map toUpper)

def httpMethods : List CStr :=
  ["GET", "POST", "PUT", "DELETE", "HEAD", "OPTIONS", "PATCH", "TRACE", "CONNECT"].map ascii

/-- `first_word`. -/
def firstWord (line : CStr) : CStr := cut 16 (line.takeWhile (· ≠ 32))

/-! ## The body -/

def isCrLf (c : UInt8) : Bool := c = 13 ∨ c = 10

/-- Every `\r` and `\n` at the end overwritten with a NUL. -/
def stripCrLf (s : CStr) : CStr := s.rdropWhile isCrLf

/-- `body_start`, behind the first empty line of the text. -/
def bodyStart (recvBuf : List UInt8) : Option CStr :=
  (strstr (ofBuffer recvBuf) (ascii "\r\n\r\n")).map (·.drop 4)

/-- `req.body` in the event loops: cut to the field, then stripped. -/
def bodyField (recvBuf : List UInt8) : CStr :=
  match bodyStart recvBuf with
  | some body => if body = [] then [] else stripCrLf (cut 512 body)
  | none => []

/-- `extract_body`: the body and the buffer, in which the stripped bytes are NULs. -/
def extractBody (raw : List UInt8) : Option CStr × List UInt8 :=
  match bodyStart raw with
  | none => (none, raw)
  | some body =>
    let stripped := stripCrLf body
    let kept := (ofBuffer raw).length - (body.length - stripped.length)
    let raw := raw.take kept ++ List.replicate (body.length - stripped.length) 0
      ++ raw.drop (ofBuffer raw).length
    (if stripped = [] then none else some stripped, raw)

/-! ## The front ends -/

/-- `max_bytes`. -/
def maxBytes (config : Option ServerConfig) : Int :=
  match config with
  | some cfg => if 0 < cfg.maxRequestBytes then cfg.maxRequestBytes else 4096
  | none => 4096

/-- `epoll_server_run` between `recv` and `request_handler_process_http`. -/
def epollRead (config : Option ServerConfig) (recvBuf : List UInt8) : Reading :=
  if maxBytes config < recvBuf.length then .tooLarge
  else
    let line := lineCopy recvBuf
    if firstWord line ∉ httpMethods then .echo line
    else
      match parseHttpRequestLine line with
      | none => .malformed
      | some (method, path) =>
        .request
          { method := methodField method
            path := cut 256 path
            body := bodyField recvBuf
            keepAlive := keepAlive recvBuf
            contentType := contentType recvBuf
            contentLengthHdr := contentLengthHdr recvBuf
            authorization := authorization recvBuf
            cookie := cookie recvBuf }

/-- `select_server_run`: the fields it does not set stay as `memset` left them. -/
def selectRead (recvBuf : List UInt8) : Reading :=
  match parseHttpRequestLine (lineCopy recvBuf) with
  | none => .malformed
  | some (method, path) =>
    .request
      { method := methodField method
        path := cut 256 path
        body := bodyField recvBuf
        keepAlive := false
        contentType := []
        contentLengthHdr := 0
        authorization := []
        cookie := [] }

/-- `request_handler_handle_connection`: the headers are read from the buffer `extract_body`
leaves. -/
def connectionRead (recvBuf : List UInt8) : Reading :=
  match parseHttpRequestLine (lineCopy recvBuf) with
  | none => .malformed
  | some (method, path) =>
    let (body, recvBuf) := extractBody recvBuf
    .request
      { method := methodField method
        path := cut 256 path
        body := match body with
          | some body => cut 512 body
          | none => []
        keepAlive := false
        contentType := contentType recvBuf
        contentLengthHdr := contentLengthHdr recvBuf
        authorization := authorization recvBuf
        cookie := cookie recvBuf }

end MiniWeb.FrontEnd
