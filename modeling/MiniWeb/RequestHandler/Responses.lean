import MiniWeb.FrontEnd.HttpParser
import MiniWeb.FrontEnd.SearchForm
import MiniWeb.RequestHandler.Login
import MiniWeb.RequestHandler.SessionCookie

/-!
# Responses

What the handlers and the dispatcher write into the output buffer. A response is built by a function
that answers `-1` when it does not fit, or printed by one `snprintf`, whose answer is the length of
the whole text. A handler that has nothing to serve answers `-1` as well, and the dispatcher writes
a 404 for every `-1`.
-/

namespace MiniWeb.RequestHandler

open Loop CStr Search SessionStore UserStore Routing FrontEnd

/-- `request_t`; `path` is a `char[256]`. -/
structure HttpRequest extends FrontEnd.Request where
  pathFits : path.length < 256

def HttpRequest.bodyRequest (req : HttpRequest) : BodyRequest :=
  ⟨⟨req.method, req.path, req.authorization, req.cookie⟩, req.body, req.pathFits⟩

/-- The texts of the pages. They are fixed but for what is put into them. -/
structure Pages where
  help : CStr
  welcome : CStr
  welcomeUser (initial : UInt8) (username : CStr) : CStr
  navBar (initial : UInt8) (displayName : CStr) : CStr
  searchForm : CStr
  unsupportedMediaType : CStr
  lengthRequired : CStr
  lengthMismatch (bodyLength : Nat) (contentLength : Int) : CStr
  noCriteria : CStr
  loginForm : CStr
  loginFailed : CStr
  forbidden : CStr

/-- What a request finds outside of the store and the sessions: the clock wherever it is read, the
files, the system below `capture_stdout`, and what a text that was cut off has left in the body
buffer behind a list of users. -/
structure Surroundings where
  pages : Pages
  authUsers : List AuthUser
  files (filepath : CStr) : Option (List UInt8)
  currentRoot : CStr
  date : HttpDate
  authTime : Int
  indexTime : Int
  sweepTime : Int
  resweepTime : Int
  loginTime : Int
  randomBytes : Vector UInt8 32
  console : Console
  leftBehind : CStr

/-- The store and the sessions. -/
structure Site where
  store : Store
  sessions : Table

def Site.credentials (site : Site) (env : Surroundings) : Credentials :=
  ⟨env.authUsers, some site.store.shm⟩

/-! ## Answers -/

/-- How a handler ends. -/
inductive Answer where
  /-- The response is built by a function that answers `-1` when it does not fit. -/
  | built (w : Written)
  /-- The response is printed by `snprintf`. -/
  | printed (w : Written)
  /-- `return -1`. -/
  | declined

def Answer.response : Answer → Option Written
  | .built w => some w
  | .printed w => some w
  | .declined => none

/-- What `build_http_response` writes. -/
def textResponse (status : Status) (body : CStr) : Written where
  lines := [status.line, ascii "Content-Type: text/plain; charset=utf-8",
    contentLengthLine body.length, connectionLine true]
  content := body

theorem buildHttpResponse_eq (size : Nat) (status : Status) (body : CStr) :
    buildHttpResponse size status body = (textResponse status body).fit size := rfl

/-- What `http_build_response` writes. -/
def documentResponse (status : Status) (contentType : ContentType) (body : List UInt8)
    (keepAlive : Bool) (date : HttpDate) : Written :=
  ⟨httpHeader status contentType body.length keepAlive date, body⟩

theorem httpBuildResponse_eq (status : Status) (contentType : ContentType) (body : List UInt8)
    (keepAlive : Bool) (date : HttpDate) (size : Nat) :
    httpBuildResponse status contentType body body.length keepAlive date size =
      (documentResponse status contentType body keepAlive date).fit size := by
  rw [httpBuildResponse, List.take_length, documentResponse]

def text (status : Status) (body : CStr) : Answer := .built (textResponse status body)

def page (env : Surroundings) (status : Status) (body : CStr) (keepAlive : Bool) : Answer :=
  .built (documentResponse status .html body keepAlive env.date)

/-! ## Files -/

/-- The extensions of `http_content_type_from_path`. -/
def extensions : List (CStr × ContentType) :=
  [(ascii ".html", .html), (ascii ".htm", .html), (ascii ".css", .css),
    (ascii ".js", .javascript), (ascii ".json", .json), (ascii ".png", .png),
    (ascii ".jpg", .jpeg), (ascii ".jpeg", .jpeg), (ascii ".gif", .gif), (ascii ".svg", .svg),
    (ascii ".ico", .icon), (ascii ".xml", .xml), (ascii ".pdf", .pdf)]

/-- `http_content_type_from_path`. -/
def httpContentTypeFromPath (path : CStr) : ContentType :=
  if 46 ∉ path then .plain
  else
    let ext := 46 :: (path.reverse.takeWhile (· ≠ 46)).reverse
    match extensions.find? fun e => decide (strcasecmpSafe ext e.1 = .eq) with
    | some e => e.2
    | none => .plain

/-- `filepath` in `http_serve_file`. -/
def servedPath (wwwRoot uri : CStr) : CStr :=
  cut 512 (if strcmp uri (ascii "/") = .eq then wwwRoot ++ ascii "/index.html"
    else wwwRoot ++ ascii "/" ++ uri.dropWhile (· = 47))

/-- `http_serve_file`: a file that is empty or as long as the buffer is not served. -/
def httpServeFile (files : CStr → Option (List UInt8)) (wwwRoot uri : CStr) (bufSize : Nat) :
    Option (ContentType × List UInt8) :=
  match files (servedPath wwwRoot uri) with
  | none => none
  | some file =>
    if file.length = 0 ∨ bufSize ≤ file.length then none
    else some (httpContentTypeFromPath (servedPath wwwRoot uri), file)

/-- `http_is_safe_path`. -/
def httpIsSafePath (uri : CStr) : Bool :=
  (strstr uri (ascii "..")).isNone && uri.head? ≠ some 126 && !uri.contains 92

def forbiddenPage : CStr :=
  ascii "<!DOCTYPE html>\n<html><head><title>403 Forbidden</title></head>\n" ++
    ascii "<body><h1>403 Forbidden</h1></body></html>\n"

def blogMissingPage (path : CStr) : CStr :=
  ascii "<!DOCTYPE html>\n<html><head><title>404 Not Found</title></head>\n" ++
    ascii "<body><h1>404 Not Found</h1>\n<p>The requested URL " ++ path ++
    ascii " was not found on this server.</p>\n" ++
    ascii "<p><a href=\"/blog/\">Back to Blog Home</a></p>\n</body></html>\n"

/-- What `http_build_redirect` writes for 301. -/
def redirectResponse (location : CStr) (date : HttpDate) : Written where
  lines := [ascii "HTTP/1.1 301 MOVED PERMANENTLY", ascii "Server: MiniWeb/1.4",
    ascii "Date: " ++ date.text, ascii "Content-Type: text/html; charset=utf-8",
    contentLengthLine (redirectPage location).length, ascii "Location: " ++ location,
    connectionLine true]
  content := redirectPage location

theorem httpBuildRedirect_eq (location : CStr) (date : HttpDate) (size : Nat) :
    httpBuildRedirect location date size = (redirectResponse location date).fit size := rfl

def handleBlog (env : Surroundings) (req : HttpRequest) : Answer :=
  if ¬httpIsSafePath req.path = true then page env .forbidden forbiddenPage false
  else if strcmp req.path (ascii "/blog") = .eq then
    .built (redirectResponse (ascii "/blog/") env.date)
  else
    match httpServeFile env.files (ascii "blog") (req.path.drop 5) bodyMax with
    | some (ct, file) => .built (documentResponse .ok ct file true env.date)
    | none => page env .notFound (blogMissingPage req.path) true

def handleStatic (env : Surroundings) (req : HttpRequest) : Answer :=
  if ¬httpIsSafePath req.path = true then page env .forbidden forbiddenPage false
  else
    match httpServeFile env.files env.currentRoot req.path bodyMax with
    | some (ct, file) => .built (documentResponse .ok ct file true env.date)
    | none => .declined

/-! ## The index page -/

def userStoreLookupNameStep (lists : Off → ListNode) (loginId : CStr) (cur : Off) :
    Step Off (Option CStr) :=
  if cur = 0 then .done none
  else if (lists cur).used ∧ (strcmp (lists cur).data.mobile loginId = .eq ∨
      strcmp (lists cur).data.name loginId = .eq) then .done (some (lists cur).data.name)
  else .next (lists cur).nextOff

/-- `user_store_lookup_name`. -/
def userStoreLookupName (shm : Shm) (loginId : CStr) : Option (Option CStr) :=
  run (userStoreLookupNameStep shm.lists loginId) userStorePoolNodes
    (shm.lists shm.header.headOff).nextOff

/-- `initial`: the first byte of the name, a lower case letter in upper case. A `char` is
signed. -/
def initial (username : CStr) : UInt8 :=
  match username with
  | [] => 0
  | c :: _ => if 97 ≤ c ∧ c < 128 then c - 32 else c

/-- The page with the bar behind its `<body>` tag, where there is such a tag and room for the
bar. -/
def injectNav (file : List UInt8) (nav : CStr) : List UInt8 :=
  let body := ofBuffer file
  match first? (["<", "Bb", "Oo", "Dd", "Yy"].map ascii) 0 body with
  | none => file
  | some bodyTag =>
    match bodyTag.dropWhile (· ≠ 62) with
    | [] => file
    | _ :: tail =>
      let headLen := body.length - tail.length
      if file.length + nav.length < bodyMax then file.take headLen ++ nav ++ file.drop headLen
      else file

/-- `username`, of the session of the cookie. -/
def sessionUsername (env : Surroundings) (cookie : CStr) (t : Table) :
    Option (Option CStr × Table) :=
  match handleIndexSid cookie with
  | none => some (none, t)
  | some sid =>
    (sessionLookup sid env.indexTime t).map fun (s, t) =>
      (s.map fun i => (t.sessions i).username, t)

/-- The response that is not to be cached. -/
def noCacheResponse (contentType : ContentType) (file : List UInt8) (keepAlive : Bool) :
    Written where
  lines := [ascii "HTTP/1.1 200 OK", ascii "Server: MiniWeb/1.7",
    ascii "Content-Type: " ++ contentType.text, contentLengthLine file.length,
    connectionLine keepAlive, ascii "Cache-Control: no-cache, no-store, must-revalidate",
    ascii "Pragma: no-cache", ascii "Expires: 0"]
  content := file

/-- Where the response that is not to be cached does not fit, `http_build_response` builds a
shorter one. -/
def indexFile (env : Surroundings) (req : HttpRequest) (size : Nat) (ct : ContentType)
    (file : List UInt8) : Answer :=
  let w := noCacheResponse ct file req.keepAlive
  .built (if w.bytes.length < size then w else documentResponse .ok ct file true env.date)

def handleIndex (env : Surroundings) (req : HttpRequest) (size : Nat) (site : Site) :
    Option (Answer × Site) :=
  (sessionUsername env req.cookie site.sessions).bind fun (username, sessions) =>
    let site := { site with sessions := sessions }
    match httpServeFile env.files env.currentRoot (ascii "/") bodyMax, username with
    | none, some username =>
      let welcome := cut 2048 (env.pages.welcomeUser (initial username) username)
      some (page env .ok (ofBuffer welcome) true, site)
    | none, none => some (page env .ok env.pages.welcome true, site)
    | some (ct, file), none => some (indexFile env req size ct file, site)
    | some (ct, file), some username =>
      (userStoreLookupName site.store.shm username).map fun real =>
        let nav := env.pages.navBar (initial username) (real.getD username)
        (.built (documentResponse .ok ct (injectNav file nav) true env.date), site)

/-! ## Users -/

/-- `format_user_info`. -/
def formatUserInfo (user : ElemType) : CStr :=
  ascii "name: " ++ user.name ++ ascii "\npassword: " ++ user.password ++
    ascii "\nbirthdate: " ++ user.birthdate ++ ascii "\nphone: " ++ user.phone ++
    ascii "\nmobile: " ++ user.mobile ++ ascii "\nemail: " ++ user.email ++ ascii "\n"

/-- The body of `handle_user_list`. -/
def userListBody (env : Surroundings) (s : Store) : Option CStr :=
  (bstFormatUsers s (bodyMax - 1) ⟨[], [], 0⟩).map fun page =>
    if page.text.length ≥ bodyMax - 200 then
      page.text ++ cut (bodyMax - page.text.length)
        (ascii "\n... (showing first entries out of " ++ decimal page.total ++
          ascii " total users)\n")
    else page.text ++ env.leftBehind

/-- The answer for what a handler reports, from the store it leaves. -/
def outcomeAnswer (env : Surroundings) (s : Store) : Outcome → Option Answer
  | .hello => some (text .ok (ascii "Hello, Web!\n"))
  | .listed => (userListBody env s).map (text .ok)
  | .found user => some (text .ok (cut bodyMax (formatUserInfo (s.shm.lists user).data)))
  | .notFound name => some (text .notFound (ascii "NOT_FOUND " ++ name ++ ascii "\n"))
  | .compared name verbose =>
    some (text .ok (cut bodyMax (env.console.comparison name verbose s)))
  | .added => some (text .ok (ascii "ADDED\n"))
  | .exists => some (text .ok (ascii "EXISTS\n"))
  | .deleted => some (text .ok (ascii "DELETED\n"))
  | .noSuchUser => some (text .notFound (ascii "NO_SUCH_USER\n"))
  | .error body => some (text .badRequest body)
  | .internalServerError =>
    some (text .internalServerError (ascii "500 Internal Server Error\n"))
  | .failed => none
  | .notServed => none
  | .refused _ => none
  | .served _ _ => none
  | .undefined => none

/-- The answer of a handler that `Processors` models. -/
def reported (env : Surroundings) (site : Site) (r : Option (Outcome × Store)) :
    Option (Answer × Site) :=
  r.bind fun (outcome, s) =>
    (outcomeAnswer env s outcome).map fun answer => (answer, { site with store := s })

/-! ## Other handlers -/

def handleSleep (captured : CStr) : Answer :=
  let delayMs := atoi captured
  let delayMs := if delayMs ≤ 0 then 100 else delayMs
  let delayMs := if delayMs > 5000 then 5000 else delayMs
  text .ok (ascii "Slept " ++ decimal delayMs.toNat ++ ascii " ms\n")

/-- The remark below a long list; the bytes behind the first text are those of a warning sign. -/
def manyMatches (matchCount : Nat) : CStr :=
  ascii "\n<p style=\"color:#dc2626;text-align:center;\">" ++ [226, 154, 160] ++
    ascii " Showing first 500 of " ++ decimal matchCount ++
    ascii "+ matches. Narrow your search.</p>\n"

def searchAnswer (env : Surroundings) : SearchReply → Answer
  | .form => page env .ok env.pages.searchForm true
  | .unsupportedMediaType => page env .unsupportedMediaType env.pages.unsupportedMediaType false
  | .lengthRequired => page env .badRequest env.pages.lengthRequired false
  | .lengthMismatch bodyLength contentLength =>
    page env .badRequest (env.pages.lengthMismatch bodyLength contentLength) false
  | .badField body => text .badRequest body
  | .noCriteria => page env .ok env.pages.noCriteria true
  | .failed =>
    -- the length passed is one less than that of the text
    .built ⟨httpHeader .internalServerError .plain 25 false env.date,
      (ascii "500 Internal Server Error\n").take 25⟩
  | .results matchCount body =>
    page env .ok (body ++ env.leftBehind ++
      if matchCount ≥ 500 then manyMatches matchCount else []) true

def loginAnswer (env : Surroundings) : LoginReply → Answer
  | .page => page env .ok env.pages.loginForm false
  | .loggedIn sid => .printed
    { lines := [ascii "HTTP/1.1 302 Found", ascii "Server: MiniWeb/1.7",
        ascii "Set-Cookie: session_id=" ++ sid ++
          ascii "; Path=/; HttpOnly; Max-Age=3600; SameSite=Lax",
        ascii "Location: /", contentLengthLine 0, connectionLine true]
      content := [] }
  | .failed => page env .unauthorized env.pages.loginFailed false
  | .notAllowed => text .methodNotAllowed (ascii "405 Method Not Allowed\n")

def logoutAnswer : Answer := .printed
  { lines := [ascii "HTTP/1.1 302 Found", ascii "Server: MiniWeb/1.7",
      ascii "Set-Cookie: session_id=; Path=/; HttpOnly; Max-Age=0; SameSite=Lax",
      ascii "Location: /login", contentLengthLine 0, connectionLine true]
    content := [] }

/-- The sessions `handle_logout` leaves. -/
def handleLogout (cookie : CStr) (t : Table) : Option Table :=
  match handleLogoutSid cookie with
  | none => some t
  | some sid => sessionDestroy sid t

/-! ## The dispatcher -/

/-- The call of `fn`. It has no answer where the handler writes to a literal or waits at a full pipe,
or a loop over a broken store or table does not end. -/
def serve (env : Surroundings) (handler : HandlerType) (req : HttpRequest) (captured : CStr)
    (size : Nat) (site : Site) : Option (Answer × Site) :=
  match handler with
  | .help => some (text .ok env.pages.help, site)
  | .sleep => some (handleSleep captured, site)
  | .index => handleIndex env req size site
  | .deleteForm => reported env site (handleDeleteForm req.bodyRequest site.store)
  | .search => (handleSearch req.toRequest site.store).map fun r => (searchAnswer env r, site)
  | .blog => some (handleBlog env req, site)
  | .static => some (handleStatic env req, site)
  | .login =>
    (handleLogin (site.credentials env) req.bodyRequest env.randomBytes env.sweepTime
      env.resweepTime env.loginTime site.sessions).map fun (r, sessions) =>
        (loginAnswer env r, { site with sessions := sessions })
  | .logout =>
    (handleLogout req.cookie site.sessions).map fun sessions =>
      (logoutAnswer, { site with sessions := sessions })
  | handler =>
    reported env site (callHandlerFn env.console handler req.bodyRequest captured site.store)

/-- What `request_handler_process_http` leaves in the output buffer, and answers. -/
inductive Processed where
  /-- `-1`. -/
  | failed
  /-- The length of the response in the buffer. -/
  | replied (w : Written)
  /-- The length of a response of which the buffer holds only a part. -/
  | cutOff (w : Written)

def Processed.ret : Processed → Int
  | .failed => -1
  | .replied w => w.bytes.length
  | .cutOff w => w.bytes.length

def Answer.finish (size : Nat) : Answer → Processed
  | .built w => if size ≤ w.bytes.length then .failed else .replied w
  | .printed w => if size ≤ w.bytes.length then .cutOff w else .replied w
  | .declined => .failed

/-- The 404 at the end. -/
def fallbackResponse (req : HttpRequest) : Written :=
  textResponse .notFound (ascii "404 Not Found: " ++ req.method ++ ascii " " ++ req.path ++
    ascii "\n")

def fallback (size : Nat) (req : HttpRequest) : Processed :=
  (Answer.built (fallbackResponse req)).finish size

/-- What is done with the answer of a handler: every `-1` goes to the 404. -/
def orFallback (size : Nat) (req : HttpRequest) : Processed → Processed
  | .failed => fallback size req
  | r => r

/-- The answers of the dispatcher itself. -/
def refusal (env : Surroundings) : Decision → Answer
  | .methodNotAllowed allow => .built
    { lines := [ascii "HTTP/1.1 405 METHOD NOT ALLOWED", ascii "Server: MiniWeb/1.5",
        ascii "Content-Type: text/plain; charset=utf-8", contentLengthLine 0, allowLine allow,
        connectionLine false]
      content := [] }
  | .badRequest => text .badRequest (ascii "400 Bad Request: invalid Base64\n")
  | .unauthorized realm => .printed
    { lines := [ascii "HTTP/1.1 401 Unauthorized", ascii "Server: MiniWeb/1.7", realmLine realm,
        ascii "Content-Type: text/plain; charset=utf-8", contentLengthLine 0,
        connectionLine false]
      content := [] }
  | .redirectToLogin => .printed
    { lines := [ascii "HTTP/1.1 302 Found", ascii "Server: MiniWeb/1.7", ascii "Location: /login",
        contentLengthLine 0, connectionLine false]
      content := [] }
  | .forbidden => page env .forbidden env.pages.forbidden false
  | .invoke _ _ => .declined
  | .notFound => .declined

/-- `request_handler_process_http` on the route table in force. -/
def processHttp (env : Surroundings) (rt : RouteTable) (req : HttpRequest) (size : Nat)
    (site : Site) : Option (Processed × Site) :=
  if size = 0 then some (.failed, site)
  else
    (requestHandlerProcessHttp rt (site.credentials env) req.bodyRequest.toRequest env.authTime
      site.sessions).bind fun (decision, sessions) =>
        let site := { site with sessions := sessions }
        match decision with
        | .invoke e captured =>
          (serve env e.handler req captured size site).map fun (answer, site) =>
            (orFallback size req (answer.finish size), site)
        | .notFound => some (fallback size req, site)
        | decision => some ((refusal env decision).finish size, site)

end MiniWeb.RequestHandler
