import MiniWeb.FrontEnd.DocumentRoot
import MiniWeb.Lib.HttpReply

/-!
# The replies

Every place of the source that writes a reply is one of a few kinds. Each writes header lines, an
empty line and the bytes behind it; a `ReplyPath` names the kind with the data it is written from,
and `write` is what the place leaves in the output buffer. The texts of the pages are data of the
path. The front ends then send what is in the buffer, each in its own way.
-/

namespace MiniWeb.FrontEnd

open CStr HttpReply SessionStore

/-! ## The data of a reply -/

/-- The status numbers and texts the source writes. -/
inductive Status
  | ok
  | badRequest
  | unauthorized
  | forbidden
  | notFound
  | methodNotAllowed
  | payloadTooLarge
  | unsupportedMediaType
  | internalServerError
deriving DecidableEq, Repr

def Status.code : Status → Nat
  | .ok => 200
  | .badRequest => 400
  | .unauthorized => 401
  | .forbidden => 403
  | .notFound => 404
  | .methodNotAllowed => 405
  | .payloadTooLarge => 413
  | .unsupportedMediaType => 415
  | .internalServerError => 500

def Status.text : Status → CStr
  | .ok => ascii "OK"
  | .badRequest => ascii "BAD REQUEST"
  | .unauthorized => ascii "UNAUTHORIZED"
  | .forbidden => ascii "FORBIDDEN"
  | .notFound => ascii "NOT FOUND"
  | .methodNotAllowed => ascii "METHOD NOT ALLOWED"
  | .payloadTooLarge => ascii "PAYLOAD TOO LARGE"
  | .unsupportedMediaType => ascii "UNSUPPORTED MEDIA TYPE"
  | .internalServerError => ascii "INTERNAL SERVER ERROR"

/-- `"HTTP/1.1 %d %s"`. -/
def Status.line (status : Status) : CStr :=
  ascii "HTTP/1.1 " ++ decimal status.code ++ ascii " " ++ status.text

/-- The values of `http_content_type_from_path`. -/
inductive ContentType
  | html
  | css
  | javascript
  | json
  | png
  | jpeg
  | gif
  | svg
  | icon
  | xml
  | pdf
  | plain
deriving DecidableEq, Repr

def ContentType.text : ContentType → CStr
  | .html => ascii "text/html; charset=utf-8"
  | .css => ascii "text/css; charset=utf-8"
  | .javascript => ascii "application/javascript"
  | .json => ascii "application/json"
  | .png => ascii "image/png"
  | .jpeg => ascii "image/jpeg"
  | .gif => ascii "image/gif"
  | .svg => ascii "image/svg+xml"
  | .icon => ascii "image/x-icon"
  | .xml => ascii "application/xml"
  | .pdf => ascii "application/pdf"
  | .plain => ascii "text/plain; charset=utf-8"

/-- A letter, a digit, a blank, a comma or a colon. -/
def isDateChar (c : UInt8) : Bool :=
  isDigit c || (65 ≤ c && c ≤ 90) || (97 ≤ c && c ≤ 122) || c = 32 || c = 44 || c = 58

/-- `date_buf`, as `strftime` writes it with `"%a, %d %b %Y %H:%M:%S GMT"`. -/
structure HttpDate where
  text : CStr
  chars : ∀ c ∈ text, isDateChar c = true
  short : text.length < 64

/-- The text of a `char` array of that size. -/
structure Field (size : Nat) where
  text : CStr
  noNul : 0 ∉ text
  short : text.length < size

/-! ## What is written -/

/-- The header lines and the bytes behind the empty line. -/
structure Written where
  lines : List CStr
  content : List UInt8

def Written.bytes (w : Written) : List UInt8 := headerText w.lines ++ w.content

/-- `"Content-Length: %d"`. -/
def contentLengthLine (n : Nat) : CStr := ascii "Content-Length: " ++ decimal n

def connectionLine (keepAlive : Bool) : CStr :=
  if keepAlive then ascii "Connection: Keep-Alive" else ascii "Connection: close"

/-- The return value `-1` for an output that does not fit. -/
def Written.fit (size : Nat) (w : Written) : Option Written :=
  if size ≤ w.bytes.length then none else some w

/-- `build_http_response`. -/
def buildHttpResponse (size : Nat) (status : Status) (body : CStr) : Option Written :=
  Written.fit size
    { lines := [status.line, ascii "Content-Type: text/plain; charset=utf-8",
        contentLengthLine body.length, connectionLine true]
      content := body }

def httpHeader (status : Status) (contentType : ContentType) (bodyLen : Nat) (keepAlive : Bool)
    (date : HttpDate) : List CStr :=
  [status.line, ascii "Server: MiniWeb/1.4", ascii "Date: " ++ date.text,
    ascii "Content-Type: " ++ contentType.text, contentLengthLine bodyLen,
    connectionLine keepAlive]

/-- `http_build_response`: `bodyLen` bytes are copied from `body`. -/
def httpBuildResponse (status : Status) (contentType : ContentType) (body : List UInt8)
    (bodyLen : Nat) (keepAlive : Bool) (date : HttpDate) (size : Nat) : Option Written :=
  Written.fit size ⟨httpHeader status contentType bodyLen keepAlive date, body.take bodyLen⟩

/-- The page of `http_build_redirect` for 301. -/
def redirectPage (location : CStr) : CStr :=
  ascii "<!DOCTYPE html>\n<html>\n<head><title>301 Redirect</title></head>\n<body>\n" ++
    ascii "<h1>301 Moved</h1>\n<p>The document has moved to <a href=\"" ++ location ++
    ascii "\">" ++ location ++ ascii "</a>.</p>\n</body>\n</html>\n"

/-- `http_build_redirect` for 301 and a location for which the page fits its 512 bytes. -/
def httpBuildRedirect (location : CStr) (date : HttpDate) (size : Nat) : Option Written :=
  Written.fit size
    { lines := [ascii "HTTP/1.1 301 MOVED PERMANENTLY", ascii "Server: MiniWeb/1.4",
        ascii "Date: " ++ date.text, ascii "Content-Type: text/html; charset=utf-8",
        contentLengthLine (redirectPage location).length, ascii "Location: " ++ location,
        connectionLine true]
      content := redirectPage location }

/-- The page of the 413 reply. -/
def tooLargePage (maxBytes : Nat) : CStr :=
  ascii "<!DOCTYPE html>\n<html><head><title>413 Payload Too Large</title>" ++
    ascii "<meta charset=\"utf-8\"><style>" ++
    ascii "body\x7bfont-family:sans-serif;max-width:640px;margin:48px auto;padding:0 16px;" ++
    ascii "text-align:center;\x7dh1\x7bcolor:#dc2626;\x7d</style></head><body>\n" ++
    ascii "<h1>413 Payload Too Large</h1>\n<p>Request body exceeds maximum of " ++
    decimal maxBytes ++ ascii " bytes.</p>\n</body></html>\n"

/-- The 413 reply: `_413_buf` is both `body` and `output` of `http_build_response`, so the header
is written over the page before the page is copied. The ranges of the copy overlap, which C
leaves undefined; in whatever order the bytes are moved, the first is the header's. -/
def tooLargeReply (maxBytes : Nat) (date : HttpDate) : Option Written :=
  let page := tooLargePage maxBytes
  let lines := httpHeader .payloadTooLarge .html page.length false date
  let buf := headerText lines ++ 0 :: page.drop ((headerText lines).length + 1)
  httpBuildResponse .payloadTooLarge .html buf page.length false date 1024

/-- The ways to write a reply, with their data. -/
inductive ReplyPath
  /-- `build_http_response`, also for the 400, 404, 405 and 500 of the handlers and of
  `request_handler_process_http`. -/
  | text (status : Status) (body : List UInt8)
  /-- `http_build_response` with the length of a page or a file, also for 400, 401, 403, 404 and
  415. -/
  | document (status : Status) (contentType : ContentType) (body : List UInt8) (keepAlive : Bool)
  /-- The 500 of `handle_search`, which passes the length 25. -/
  | searchFailed
  /-- `handle_index` without a session; a file without bytes is not served. -/
  | index (contentType : ContentType) (file : List UInt8) (nonempty : file ≠ [])
  /-- The 301 from `/blog` to `/blog/`. -/
  | blogRedirect
  /-- The 302 of `handle_login`. -/
  | loggedIn (randomBytes : Vector UInt8 32)
  /-- The 302 of `handle_logout`. -/
  | loggedOut
  /-- The 302 of `request_handler_process_http` for a request without credentials. -/
  | redirectToLogin
  /-- The 401 of `request_handler_process_http`. -/
  | unauthorized (realm : Field 64)
  /-- The 405 of `request_handler_process_http`. -/
  | methodNotAllowed (allow : Field 256)
  /-- The 400 of the front ends. -/
  | malformed
  /-- The 413 of `epoll_server_run`. -/
  | tooLarge (maxBytes : Nat)
  /-- The 500 of the front ends. -/
  | internalError

/-- The body text the place builds. -/
def ReplyPath.builtText : ReplyPath → List UInt8
  | .text _ body => ofBuffer body
  | .document _ _ body _ => body
  | .searchFailed => ascii "500 Internal Server Error\n"
  | .index _ file _ => file
  | .blogRedirect => redirectPage (ascii "/blog/")
  | .loggedIn _ | .loggedOut | .redirectToLogin | .unauthorized _ | .methodNotAllowed _ => []
  | .malformed => ascii "400 Bad Request\n"
  | .tooLarge maxBytes => tooLargePage maxBytes
  | .internalError => ascii "500 Internal Server Error\n"

/-- `RESP_BUF_SIZE`. -/
def Server.respBufSize : Server → Nat
  | .connection | .epoll => 5 * 1024 * 1024 + 4096
  | .select => 16384

/-- The content type of the 400 and 500 replies. -/
def Server.plainText : Server → CStr
  | .connection => ascii "Content-Type: text/plain; charset=utf-8"
  | .epoll | .select => ascii "Content-Type: text/plain"

/-- The line of the 401 reply that quotes the realm. -/
def realmLine (realm : CStr) : CStr :=
  ascii "WWW-Authenticate: Basic realm=\"" ++ realm ++ ascii "\""

def allowLine (allow : CStr) : CStr := ascii "Allow: " ++ allow

/-- What the place leaves in the output buffer; `keepAlive` is `req.keep_alive`. -/
def ReplyPath.write (server : Server) (date : HttpDate) (keepAlive : Bool) :
    ReplyPath → Option Written
  | .text status body => buildHttpResponse server.respBufSize status (ofBuffer body)
  | .document status contentType body keep =>
    httpBuildResponse status contentType body body.length keep date server.respBufSize
  | .searchFailed =>
    httpBuildResponse .internalServerError .plain (ascii "500 Internal Server Error\n") 25 false
      date server.respBufSize
  | .index contentType file _ =>
    -- a file that does not fit goes to `http_build_response`
    Written.fit server.respBufSize
      { lines := [ascii "HTTP/1.1 200 OK", ascii "Server: MiniWeb/1.7",
          ascii "Content-Type: " ++ contentType.text, contentLengthLine file.length,
          connectionLine keepAlive, ascii "Cache-Control: no-cache, no-store, must-revalidate",
          ascii "Pragma: no-cache", ascii "Expires: 0"]
        content := file }
  | .blogRedirect => httpBuildRedirect (ascii "/blog/") date server.respBufSize
  | .loggedIn randomBytes => some
    { lines := [ascii "HTTP/1.1 302 Found", ascii "Server: MiniWeb/1.7",
        ascii "Set-Cookie: session_id=" ++ hexEncode randomBytes.toList ++
          ascii "; Path=/; HttpOnly; Max-Age=3600; SameSite=Lax",
        ascii "Location: /", contentLengthLine 0, connectionLine true]
      content := [] }
  | .loggedOut => some
    { lines := [ascii "HTTP/1.1 302 Found", ascii "Server: MiniWeb/1.7",
        ascii "Set-Cookie: session_id=; Path=/; HttpOnly; Max-Age=0; SameSite=Lax",
        ascii "Location: /login", contentLengthLine 0, connectionLine true]
      content := [] }
  | .redirectToLogin => some
    { lines := [ascii "HTTP/1.1 302 Found", ascii "Server: MiniWeb/1.7",
        ascii "Location: /login", contentLengthLine 0, connectionLine false]
      content := [] }
  | .unauthorized realm => some
    { lines := [ascii "HTTP/1.1 401 Unauthorized", ascii "Server: MiniWeb/1.7",
        realmLine realm.text, ascii "Content-Type: text/plain; charset=utf-8",
        contentLengthLine 0, connectionLine false]
      content := [] }
  | .methodNotAllowed allow => Written.fit server.respBufSize
    { lines := [ascii "HTTP/1.1 405 METHOD NOT ALLOWED", ascii "Server: MiniWeb/1.5",
        ascii "Content-Type: text/plain; charset=utf-8", contentLengthLine 0,
        allowLine allow.text, connectionLine false]
      content := [] }
  | .malformed => some
    { lines := [ascii "HTTP/1.1 400 BAD REQUEST", server.plainText, contentLengthLine 17,
        connectionLine false]
      content := ascii "400 Bad Request\n" }
  | .tooLarge maxBytes => tooLargeReply maxBytes date
  | .internalError => some
    { lines := [ascii "HTTP/1.1 500 INTERNAL SERVER ERROR", server.plainText,
        contentLengthLine 25, connectionLine false]
      content := ascii "500 Internal Server Error\n" }

/-! ## What is sent -/

/-- The header field `epoll_server_run` looks for. -/
def keepAliveText : CStr := ascii "Connection: Keep-Alive"

/-- `memcpy(ka + 12, "close     ", 10)` at the first `Connection: Keep-Alive` in the buffer. -/
def closePatch (respBuf : List UInt8) : List UInt8 :=
  match strstr (ofBuffer respBuf) keepAliveText with
  | none => respBuf
  | some ka =>
    let i := (ofBuffer respBuf).length - ka.length
    respBuf.take (i + 12) ++ ascii "close     " ++ respBuf.drop (i + 22)

/-- The place sends its reply before the patch. -/
def ReplyPath.early : ReplyPath → Bool
  | .malformed | .tooLarge _ => true
  | _ => false

/-- A NUL is written behind the reply, but not by `handle_index`. -/
def ReplyPath.terminated : ReplyPath → Bool
  | .index .. => false
  | _ => true

/-- What the output buffer holds behind the reply; `stale` is what was there before. -/
def ReplyPath.behind (path : ReplyPath) (stale : List UInt8) : List UInt8 :=
  if path.terminated then 0 :: stale else stale

/-- The bytes passed to `send`. `stale` is what the buffer holds behind the bytes written: the
search of `epoll_server_run` and the `strlen` of `select_server_run` go on to the next NUL. -/
def sentBytes (server : Server) (keepAlive : Bool) (stale : List UInt8) (path : ReplyPath)
    (w : Written) : List UInt8 :=
  match server with
  | .connection => w.bytes
  | .epoll =>
    if path.early || keepAlive then w.bytes
    else (closePatch (w.bytes ++ path.behind stale)).take w.bytes.length
  | .select => ofBuffer (w.bytes ++ path.behind stale)

end MiniWeb.FrontEnd
