import Mathlib.Data.List.ReduceOption
import MiniWeb.Lib.Words
import MiniWeb.Config.Settings
import MiniWeb.RequestHandler.Answered

/-!
# Request files

A worker thread of `process_server.c` and the program `request_worker.c` serve a file of requests
with one loop: a line is a request, the line behind a `POST` is its body, and lines that are empty or
have fewer than two words are skipped. What is answered goes to one output file, with `---` between
the answers.

The loop reads a request and serves it before it reads the next one. It is the same to read them all
first (`readRequests`), so a file is served like its list of requests. The loop does not come to the
end of a file with a request that waits at a full pipe.
-/

namespace MiniWeb.ProcessServer

open CStr Runs Words UserStore RequestHandler RedBlack

/-! ## Reading a request -/

/-- The text of a buffer that `fgets` has filled, up to the end of the line. -/
def lineText (buf : List UInt8) : CStr := removeNewline (ofBuffer buf)

theorem length_scanWord_lt {size : Nat} (hsize : 0 < size) (s : CStr) :
    (Config.scanWord size s).1.length < size :=
  (List.length_take_le _ _).trans_lt (Nat.sub_lt hsize Nat.one_pos)

/-- `request_handler_parse`: the two words that `sscanf` reads with `%15s %255s`. -/
def requestHandlerParse (line : CStr) : Option BodyRequest :=
  let methodBuf := (Config.scanWord 16 line).1
  let pathBuf := (Config.scanWord 256 (Config.scanWord 16 line).2).1
  if methodBuf = [] ∨ pathBuf = [] then none
  else some ⟨⟨methodBuf, pathBuf, [], []⟩, [], length_scanWord_lt (by decide) _⟩

/-- `request_handler_set_body`; `body` is a `char[512]`. -/
def requestHandlerSetBody (body : CStr) (req : BodyRequest) : BodyRequest :=
  { req with body := cut 512 body }

/-! ## The text of an answer -/

/-- `build_hello_response`. -/
def helloResponse : CStr :=
  [ascii "HTTP/1.1 200 OK", crlf, ascii "Content-Type: text/html", crlf,
    ascii "Content-Length: 12", crlf, crlf, ascii "Hello, Web!\n"].flatten

/-- What `request_handler_process` writes below the header. The inner `none` is its `-1`. -/
def replyText (console : Console) (req : BodyRequest) (s : Store) :
    Outcome → Option (Option CStr)
  | .hello => some (some helloResponse)
  | .listed => (userStorePrintIndex s).map fun printed => some (cut capSize printed)
  | .found user =>
    let data := (s.shm.lists user).data
    some (some (ascii "FOUND " ++ data.name ++ ascii " " ++ data.password ++ ascii " " ++
      data.mobile ++ ascii "\n"))
  | .notFound name =>
    if strncmp req.path (ascii "/user/") 6 = .eq ∧ name = [] then
      some (some (ascii "NOT_FOUND (empty name)\n"))
    else some (some (ascii "NOT_FOUND " ++ name ++ ascii "\n"))
  | .compared name verbose => some (some (cut capSize (console.comparison name verbose s)))
  | .added => some (some (ascii "ADDED\n"))
  | .exists => some (some (ascii "EXISTS\n"))
  | .deleted => some (some (ascii "DELETED\n"))
  | .noSuchUser => some (some (ascii "NO_SUCH_USER\n"))
  | .error text => some (some text)
  | .failed => some none
  | .notServed =>
    some (some (ascii "404 Not Found: " ++ req.method ++ ascii " " ++ req.path ++ ascii "\n"))
  | .refused _ => none
  | .served _ _ => none
  | .undefined => none
  | .internalServerError => none

/-- `request_handler_process` with its output buffer: the text it leaves there, or `-1`. -/
def requestHandlerOutput (console : Console) (size : Nat) (req : BodyRequest) (s : Store) :
    Option (Option CStr × Store) :=
  if size ≤ connectionInfo.length then some (none, s)
  else
    (requestHandlerProcess console size req s).bind fun (outcome, s) =>
      (replyText console req s outcome).map fun text =>
        ((text.map (connectionInfo ++ ·)).filter fun out => out.length < size, s)

/-! ## The loop -/

/-- What is written to `out_fp`, `request_count`, `errors` and the store. -/
structure Progress where
  output : CStr
  requestCount : Nat
  errors : Nat
  store : Store

/-- The answer is written, behind a line `---` unless it is the first. -/
def Progress.write (p : Progress) (text : CStr) (s : Store) : Progress where
  output := p.output ++ (if p.requestCount > 0 then ascii "---\n" else []) ++ text
  requestCount := p.requestCount + 1
  errors := p.errors
  store := s

/-- The request is served. -/
def serveRequest (console : Console) (req : BodyRequest) (p : Progress) : Option Progress :=
  (requestHandlerOutput console 4096 req p.store).map fun (out, s) =>
    match out with
    | none => { p with errors := p.errors + 1, store := s }
    | some text => p.write text s

/-- The loop over the lines, from the buffers that `fgets` fills. -/
def requestLoop (console : Console) : List (List UInt8) → Progress → Option Progress
  | [], p => some p
  | buf :: bufs, p =>
    if lineText buf = [] then requestLoop console bufs p
    else
      match requestHandlerParse (lineText buf) with
      | none => requestLoop console bufs p
      | some req =>
        if strcmp req.method (ascii "POST") = .eq then
          match bufs with
          | [] => serveRequest console req p
          | body :: bufs =>
            (serveRequest console (requestHandlerSetBody (lineText body) req) p).bind
              (requestLoop console bufs)
        else (serveRequest console req p).bind (requestLoop console bufs)

/-- The requests that the loop reads from the texts of the lines, if it does nothing else. -/
def readRequests : List CStr → List BodyRequest
  | [] => []
  | line :: lines =>
    if line = [] then readRequests lines
    else
      match requestHandlerParse line with
      | none => readRequests lines
      | some req =>
        if strcmp req.method (ascii "POST") = .eq then
          match lines with
          | [] => [req]
          | body :: lines => requestHandlerSetBody body req :: readRequests lines
        else req :: readRequests lines

/-- The requests in a file. -/
def fileRequests (file : List UInt8) : List BodyRequest :=
  readRequests ((fgets 512 file).map lineText)

/-- A worker serves the file. -/
def serveFile (console : Console) (file : List UInt8) (s : Store) : Option Progress :=
  requestLoop console (fgets 512 file) ⟨connectionInfo, 0, 0, s⟩

/-! ## Reading first -/

variable {console : Console} {size : Nat} {req : BodyRequest} {s s' : Store} {X : ColorTree Off}
  {L : List Off} {out : Option CStr} {p p' : Progress} {reqs : List BodyRequest}
  {bufs : List (List UInt8)}

section

variable {line : CStr} {lines : List CStr} (hne : line ≠ [])
  (hparse : requestHandlerParse line = some req)

include hne hparse

/-- A `POST` takes the next line. -/
theorem readRequests_post (hpost : strcmp req.method (ascii "POST") = .eq) (body : CStr) :
    readRequests (line :: body :: lines) =
      requestHandlerSetBody body req :: readRequests lines := by
  rw [readRequests, if_neg hne, hparse]
  exact if_pos hpost

theorem readRequests_last (hpost : strcmp req.method (ascii "POST") = .eq) :
    readRequests [line] = [req] := by
  rw [readRequests, if_neg hne, hparse]
  exact if_pos hpost

theorem readRequests_other (hpost : ¬strcmp req.method (ascii "POST") = .eq) :
    readRequests (line :: lines) = req :: readRequests lines := by
  rw [readRequests, if_neg hne, hparse]
  exact if_neg hpost

end

theorem readRequests_malformed {line : CStr} {lines : List CStr}
    (h : line = [] ∨ requestHandlerParse line = none) :
    readRequests (line :: lines) = readRequests lines := by
  rw [readRequests]
  split
  case isTrue => rfl
  case isFalse hne => rw [h.resolve_left hne]

/-- **Reading and serving apart.** The loop serves the requests that it reads, in their order. -/
theorem requestLoop_eq : requestLoop console bufs p =
    runs (serveRequest console) (readRequests (bufs.map lineText)) p := by
  generalize hlines : bufs.map lineText = lines
  induction lines using readRequests.induct generalizing bufs p with
  | case1 =>
    obtain rfl := List.map_eq_nil_iff.mp hlines
    rfl
  | case2 lines ih =>
    obtain ⟨buf, bufs, rfl, hempty, rfl⟩ := List.map_eq_cons_iff.mp hlines
    rw [requestLoop, if_pos hempty, ih rfl, readRequests_malformed (.inl rfl)]
  | case3 line lines hne hparse ih =>
    obtain ⟨buf, bufs, rfl, rfl, rfl⟩ := List.map_eq_cons_iff.mp hlines
    rw [requestLoop, if_neg hne, hparse, readRequests_malformed (.inr hparse)]
    exact ih rfl
  | case4 line hne req hparse hpost =>
    obtain ⟨buf, bufs, rfl, rfl, hnil⟩ := List.map_eq_cons_iff.mp hlines
    obtain rfl := List.map_eq_nil_iff.mp hnil
    rw [requestLoop, if_neg hne, hparse, readRequests_last hne hparse hpost, runs_cons]
    exact (if_pos hpost).trans (Option.bind_fun_some _).symm
  | case5 line hne req hparse hpost body lines ih =>
    obtain ⟨buf, bufs, rfl, rfl, hcons⟩ := List.map_eq_cons_iff.mp hlines
    obtain ⟨body, bufs, rfl, rfl, rfl⟩ := List.map_eq_cons_iff.mp hcons
    rw [requestLoop, if_neg hne, hparse, readRequests_post hne hparse hpost, runs_cons]
    exact (if_pos hpost).trans (congrArg (Option.bind _) (funext fun _ => ih rfl))
  | case6 line lines hne req hparse hpost ih =>
    obtain ⟨buf, bufs, rfl, rfl, rfl⟩ := List.map_eq_cons_iff.mp hlines
    rw [requestLoop, if_neg hne, hparse, readRequests_other hne hparse hpost, runs_cons]
    exact (if_neg hpost).trans (congrArg (Option.bind _) (funext fun _ => ih rfl))

/-! ## One request -/

/-- What a request does to the users. -/
def requestUpdates (req : BodyRequest) : List Op :=
  if req.method = ascii "POST" ∧ req.path = ascii "/users" then
    if req.body = [] then [] else [.add req.body]
  else if req.method = ascii "DELETE" ∧ ascii "/users/" <+: req.path then
    deletions (urlDecodePath (req.path.drop 7))
  else []

theorem requestUpdates_get (hmethod : req.method = ascii "GET") : requestUpdates req = [] := by
  rw [requestUpdates, if_neg, if_neg]
  · rintro ⟨h, -⟩
    exact absurd (hmethod.symm.trans h) (by decide)
  · rintro ⟨h, -⟩
    exact absurd (hmethod.symm.trans h) (by decide)

/-- The outcomes that a worker can print, and `-1`. -/
def Printable (o : Outcome) : Prop :=
  o.Reported ∨ o = .listed ∨ o = .notServed ∨ o = .failed

/-- The text that is printed for a request does not fit the pipe. -/
def RequestWaits (console : Console) (req : BodyRequest) (s : Store) : Prop :=
  ∃ printed ∈ printedText console s req.method req.path, console.Blocks printed

/-- What the branch of a request does that prints a text. -/
theorem requestHandlerProcess_printed (h : StoreOK s X L) {printed : CStr}
    (hprinted : printedText console s req.method req.path = some printed) :
    ∃ o, Printable o ∧
      requestHandlerProcess console size req s = captureReply console size printed o s := by
  rw [printedText] at hprinted
  split at hprinted
  case isTrue => cases hprinted
  case isFalse hmethod =>
  have hmethod := not_not.mp hmethod
  split at hprinted
  case isTrue hpath =>
    cases hprinted
    have hhello : ¬ascii "/users" = ascii "/hello" := by decide
    refine ⟨.listed, .inr (.inl rfl), ?_⟩
    rw [requestHandlerProcess]
    simp only [strcmp_eq_iff, hmethod, hpath, hhello, and_false, and_true, if_false, if_true,
      userStorePrintIndex_eq h, Option.bind_some]
  case isFalse =>
  have hbelow {p : CStr} (hp : p ∈ longerPrefixes) (hpath : p <+: req.path) :
      ascii "/users/" <+: req.path := (longerPrefixes_below p hp).trans hpath
  split at hprinted
  case isTrue hverbose =>
    cases hprinted
    have hindex := longer_unique (.tail _ (.head _)) (.head _) (by decide) hverbose
    refine ⟨.compared (urlDecodePath (req.path.drop 23)) true, .inl trivial, ?_⟩
    rw [requestHandlerProcess_users hmethod (hbelow (.tail _ (.head _)) hverbose), if_neg hindex,
      if_pos hverbose]
  case isFalse hverbose =>
  split at hprinted
  case isTrue hcompare =>
    cases hprinted
    have hindex := longer_unique (.tail _ (.tail _ (.head _))) (.head _) (by decide) hcompare
    refine ⟨.compared (urlDecodePath (req.path.drop 15)) false, .inl trivial, ?_⟩
    rw [requestHandlerProcess_users hmethod (hbelow (.tail _ (.tail _ (.head _))) hcompare),
      if_neg hindex, if_neg hverbose, if_pos hcompare]
  case isFalse => cases hprinted

/-- A request for which a text is printed leaves the store alone. -/
theorem requestHandlerProcess_captured (h : StoreOK s X L) {printed : CStr}
    (hprinted : printedText console s req.method req.path = some printed)
    (hheld : ¬console.Blocks printed) :
    ∃ o, requestHandlerProcess console size req s = some (o, s) ∧ Printable o := by
  obtain ⟨o, ho, hprocess⟩ : ∃ o, Printable o ∧
      requestHandlerProcess console size req s = captureReply console size printed o s :=
    requestHandlerProcess_printed h hprinted
  rw [hprocess]
  obtain ⟨r, hr⟩ := Option.ne_none_iff_exists'.mp (mt captureReply_eq_none_iff.mp hheld)
  rcases captureReply_cases hr with rfl | rfl
  · exact ⟨o, hr, ho⟩
  · exact ⟨.failed, hr, .inr (.inr (.inr rfl))⟩

/-- **One request** has an outcome unless it waits, and does to the users what it says. -/
theorem requestHandlerProcess_returns (h : StoreOK s X L) (hheld : ¬RequestWaits console req s) :
    ∃ o s', requestHandlerProcess console size req s = some (o, s') ∧ Printable o ∧
      runOps (requestUpdates req) s = some s' := by
  have hsame {o : Outcome} (hmethod : req.method = ascii "GET")
      (hprocess : requestHandlerProcess console size req s = some (o, s)) (ho : Printable o) :
      ∃ o s', requestHandlerProcess console size req s = some (o, s') ∧ Printable o ∧
        runOps (requestUpdates req) s = some s' :=
    ⟨o, s, hprocess, ho, by rw [requestUpdates_get hmethod]; rfl⟩
  cases hprinted : printedText console s req.method req.path with
  | some printed =>
    have hmethod : req.method = ascii "GET" := by
      by_contra hne
      rw [printedText_of_ne hne] at hprinted
      cases hprinted
    obtain ⟨o, hprocess, ho⟩ : ∃ o, requestHandlerProcess console size req s = some (o, s) ∧
        Printable o :=
      requestHandlerProcess_captured h hprinted fun hblocks =>
        hheld ⟨printed, hprinted, hblocks⟩
    exact hsame hmethod hprocess ho
  | none =>
    have hget (hmethod : req.method = ascii "GET") := printedText_eq_none_iff.mp (hmethod ▸ hprinted)
    have hfind {found : Option Off} {name : CStr} (hmethod : req.method = ascii "GET")
        (hreturns : ∃ user, found = some user) : ∃ o s', reportUser name s found = some (o, s') ∧
          Printable o ∧ runOps (requestUpdates req) s = some s' := by
      obtain ⟨o, s', hreport, ho⟩ : ∃ o s', reportUser name s found = some (o, s') ∧ o.Reported :=
        reportUser_returns hreturns
      obtain rfl := reportUser_store hreport
      exact ⟨o, s', hreport, .inl ho, by rw [requestUpdates_get hmethod]; rfl⟩
    have hkeeps {o : Outcome} (hmethod : req.method = ascii "GET") (ho : Printable o) :
        ∃ out s', some (o, s) = some (out, s') ∧ Printable out ∧
          runOps (requestUpdates req) s = some s' :=
      ⟨o, s, rfl, ho, by rw [requestUpdates_get hmethod]; rfl⟩
    unfold requestHandlerProcess
    simp only [strcmp_eq_iff, strncmp_findIndex, strncmp_compareVerbose, strncmp_compare,
      strncmp_user, strncmp_users]
    split_ifs with hhello hlist hindex hverbose hcompare huser hname hadd hdelete
    · exact hkeeps hhello.1 (.inl trivial)
    · exact absurd hlist.2 (hget hlist.1).1
    · exact hfind hindex.1 (userStoreFindIndex_returns h _)
    · exact absurd hverbose.2 (hget hverbose.1).2.1
    · exact absurd hcompare.2 (hget hcompare.1).2.2
    · exact hkeeps huser.1 (.inl trivial)
    · exact hfind huser.1 (userStoreFind_returns h _)
    · obtain ⟨o, s', hreport, ho⟩ := addUser_returns h req.body
      refine ⟨o, s', hreport, .inl ho, ?_⟩
      rw [requestUpdates, if_pos hadd]
      exact addUser_updates hreport
    · obtain ⟨o, s', hreport, ho⟩ := deleteUser_returns h (urlDecodePath (req.path.drop 7))
      refine ⟨o, s', hreport, .inl ho, ?_⟩
      rw [requestUpdates, if_neg hadd, if_pos hdelete]
      exact deleteUser_updates hreport
    · refine ⟨.notServed, s, rfl, .inr (.inr (.inl rfl)), ?_⟩
      rw [requestUpdates, if_neg hadd, if_neg hdelete]
      rfl

/-- A request that waits has none. -/
theorem requestHandlerProcess_waits (h : StoreOK s X L) (hwaits : RequestWaits console req s) :
    requestHandlerProcess console size req s = none := by
  obtain ⟨printed, hprinted, hblocks⟩ := hwaits
  obtain ⟨o, -, hprocess⟩ : ∃ o, Printable o ∧
      requestHandlerProcess console size req s = captureReply console size printed o s :=
    requestHandlerProcess_printed h hprinted
  rw [hprocess, captureReply_eq_none_iff]
  exact hblocks

theorem replyText_returns (console : Console) (req : BodyRequest) (h : StoreOK s X L) {o : Outcome}
    (ho : Printable o) : ∃ text, replyText console req s o = some text := by
  rcases ho with ho | rfl | rfl | rfl
  · cases o with
    | notFound name =>
      rw [replyText]
      split <;> exact ⟨_, rfl⟩
    | listed => exact ho.elim
    | failed => exact ho.elim
    | internalServerError => exact ho.elim
    | notServed => exact ho.elim
    | refused => exact ho.elim
    | served => exact ho.elim
    | undefined => exact ho.elim
    | _ => exact ⟨_, rfl⟩
  · exact ⟨_, congrArg (Option.map _) (userStorePrintIndex_eq h)⟩
  · exact ⟨_, rfl⟩
  · exact ⟨_, rfl⟩

/-- **One request** leaves a sound store, also where its answer fails. -/
theorem requestHandlerOutput_returns (h : Sound s X L) (hheld : ¬RequestWaits console req s) :
    ∃ out s' X' L', requestHandlerOutput console 4096 req s = some (out, s') ∧ Sound s' X' L' ∧
      runOps (requestUpdates req) s = some s' := by
  obtain ⟨o, s', hprocess, ho, hupdates⟩ : ∃ o s',
      requestHandlerProcess console 4096 req s = some (o, s') ∧ _ ∧ _ :=
    requestHandlerProcess_returns h.toStoreOK hheld
  obtain ⟨s₁, X', L', hrun, hs'⟩ := h.run (requestUpdates req)
  obtain rfl := Option.some.inj (hupdates.symm.trans hrun)
  obtain ⟨text, htext⟩ := replyText_returns console req hs'.toStoreOK ho
  refine ⟨(text.map (connectionInfo ++ ·)).filter fun out => out.length < 4096, s', X', L', ?_,
    hs', hupdates⟩
  rw [requestHandlerOutput, if_neg (by decide), hprocess]
  exact congrArg (Option.map _) htext

theorem requestHandlerOutput_waits (h : Sound s X L) (hwaits : RequestWaits console req s) :
    requestHandlerOutput console 4096 req s = none := by
  rw [requestHandlerOutput, if_neg (by decide), requestHandlerProcess_waits h.toStoreOK hwaits]
  rfl

/-! ## A list of requests -/

/-- The store behind a request. -/
def requestStep (console : Console) (req : BodyRequest) (s : Store) : Option Store :=
  (requestHandlerOutput console 4096 req s).map Prod.snd

/-- The answer to a request, as a list for `trace`. -/
def requestReply (console : Console) (req : BodyRequest) (s : Store) : List (Option CStr) :=
  (requestHandlerOutput console 4096 req s).elim [] fun r => [r.1]

/-- The answers to requests that are served one after the other. -/
def replies (console : Console) (reqs : List BodyRequest) (s : Store) : List (Option CStr) :=
  trace (requestStep console) (requestReply console) reqs s

def separator : CStr := ascii "---\n"

theorem requestStep_of (h : requestHandlerOutput console 4096 req s = some (out, s')) :
    requestStep console req s = some s' := by
  rw [requestStep, h]
  rfl

theorem replies_cons (h : requestHandlerOutput console 4096 req s = some (out, s')) :
    replies console (req :: reqs) s = out :: replies console reqs s' := by
  have hstep : requestStep console req s = some s' := requestStep_of h
  have hreply : requestReply console req s = [out] := by
    rw [requestReply, h]
    rfl
  exact (trace_cons_of_some hstep).trans (congrArg (· ++ _) hreply)

/-- Texts behind each other, the first of them with a separator unless it is the first of all. -/
def written (first : Bool) : List CStr → CStr
  | [] => []
  | text :: texts => (if first then [] else separator) ++ text ++ written false texts

theorem written_true (texts : List CStr) : written true texts = separator.intercalate texts := by
  induction texts with
  | nil => rfl
  | cons text texts ih =>
    rw [written, if_pos rfl, List.nil_append]
    cases texts with
    | nil => exact (List.append_nil text).trans (List.intercalate_singleton).symm
    | cons text' texts =>
      rw [List.intercalate_cons_cons, ← ih, written, written, if_neg Bool.false_ne_true,
        if_pos rfl, List.nil_append]
      simp only [List.append_assoc]

/-- No request waits of those that are served one after the other. -/
def NoneWaits (console : Console) (reqs : List BodyRequest) (s : Store) : Prop :=
  ∀ req s', (req, s') ∈ met (requestStep console) reqs s → ¬RequestWaits console req s'

theorem noneWaits_cons (h : requestHandlerOutput console 4096 req s = some (out, s')) :
    NoneWaits console (req :: reqs) s ↔
      ¬RequestWaits console req s ∧ NoneWaits console reqs s' := by
  have hcons : met (requestStep console) (req :: reqs) s =
      (req, s) :: met (requestStep console) reqs s' := trace_cons_of_some (requestStep_of h)
  rw [NoneWaits, hcons]
  constructor
  · exact fun hall => ⟨hall req s List.mem_cons_self, fun req' t hmem =>
      hall req' t (List.mem_cons_of_mem _ hmem)⟩
  · rintro ⟨hhead, htail⟩ req' t hmem
    rcases List.mem_cons.mp hmem with heq | hmem
    · cases heq
      exact hhead
    · exact htail req' t hmem

theorem serveRequest_of (h : requestHandlerOutput console 4096 req p.store = some (out, s')) :
    ∃ p', serveRequest console req p = some p' ∧ p'.store = s' := by
  rw [serveRequest, h]
  cases out <;> exact ⟨_, rfl, rfl⟩

/-- **The requests are served to the end** exactly if none of them waits. -/
theorem runs_serveRequest_iff (h : Sound p.store X L) :
    (∃ p', runs (serveRequest console) reqs p = some p') ↔ NoneWaits console reqs p.store := by
  induction reqs generalizing p X L with
  | nil => exact iff_of_true ⟨p, rfl⟩ fun req s hmem => absurd hmem List.not_mem_nil
  | cons req reqs ih =>
    by_cases hwaits : RequestWaits console req p.store
    · have hnone : serveRequest console req p = none := by
        rw [serveRequest, requestHandlerOutput_waits h hwaits]
        rfl
      refine iff_of_false (fun ⟨p', hrun⟩ => ?_) fun hall => ?_
      · rw [runs_cons, hnone] at hrun
        cases hrun
      · exact hall req p.store (List.mem_append_left _ List.mem_cons_self) hwaits
    · obtain ⟨out, s', X₁, L₁, hout, hs', -⟩ := requestHandlerOutput_returns h hwaits
      obtain ⟨p₁, hserve, rfl⟩ := serveRequest_of hout
      rw [noneWaits_cons hout, and_iff_right hwaits, runs_cons, hserve]
      exact ih hs'

/-- **Requests one after the other.** -/
theorem runs_serveRequest (h : Sound p.store X L) (hheld : NoneWaits console reqs p.store) :
    ∃ p' X' L', runs (serveRequest console) reqs p = some p' ∧ Sound p'.store X' L' ∧
      runOps (reqs.flatMap requestUpdates) p.store = some p'.store ∧
      p'.output = p.output ++
        written (p.requestCount = 0) (replies console reqs p.store).reduceOption ∧
      p'.requestCount =
        p.requestCount + (replies console reqs p.store).reduceOption.length ∧
      p'.requestCount + p'.errors = p.requestCount + p.errors + reqs.length := by
  induction reqs generalizing p X L with
  | nil => exact ⟨p, X, L, rfl, h, rfl, (List.append_nil _).symm, rfl, rfl⟩
  | cons req reqs ih =>
    have hwaits : ¬RequestWaits console req p.store :=
      hheld req p.store (List.mem_append_left _ List.mem_cons_self)
    obtain ⟨out, s', X₁, L₁, hout, hs', hupdates⟩ := requestHandlerOutput_returns h hwaits
    have hrest := ((noneWaits_cons hout).mp hheld).2
    rw [replies_cons hout, List.flatMap_cons, runOps_append, hupdates, Option.bind_some, runs_cons]
    cases out with
    | none =>
      have hserve : serveRequest console req p =
          some { p with errors := p.errors + 1, store := s' } := by
        rw [serveRequest, hout]
        rfl
      obtain ⟨p', X', L', hrun, hp', hops, htext, hcount, hsum⟩ :=
        ih (p := { p with errors := p.errors + 1, store := s' }) hs' hrest
      rw [hserve, Option.bind_some]
      refine ⟨p', X', L', hrun, hp', hops, htext, hcount, hsum.trans ?_⟩
      change p.requestCount + (p.errors + 1) + reqs.length = _
      rw [List.length_cons]
      omega
    | some text =>
      have hserve : serveRequest console req p = some (p.write text s') := by
        rw [serveRequest, hout]
        rfl
      obtain ⟨p', X', L', hrun, hp', hops, htext, hcount, hsum⟩ := ih (p := p.write text s') hs' hrest
      rw [hserve, Option.bind_some]
      refine ⟨p', X', L', hrun, hp', hops, htext.trans ?_, hcount.trans ?_, hsum.trans ?_⟩
      · change p.output ++ _ ++ text ++ written _ (replies console reqs s').reduceOption = _
        rw [List.reduceOption_cons_of_some, written]
        simp only [List.append_assoc, Progress.write, Nat.succ_ne_zero, decide_false]
        rcases Nat.eq_zero_or_pos p.requestCount with hzero | hpos
        · simp only [hzero, lt_irrefl, if_false, decide_true, if_true]
        · simp only [hpos, hpos.ne', if_true, decide_false, Bool.false_eq_true, if_false, separator]
      · change p.requestCount + 1 + _ = _
        rw [List.reduceOption_cons_of_some, List.length_cons, Nat.add_assoc, Nat.add_comm 1]
        rfl
      · change p.requestCount + 1 + p.errors + reqs.length = _
        rw [List.length_cons]
        omega

/-- **A request file** is served to its end exactly if none of its requests waits at a full pipe.
Then the users are changed as the requests say, in their order; the output is the header and the
answers, in their order, with the separator between them; and every request is answered or counted as
an error. -/
theorem file_served (h : Sound s X L) (console : Console) (file : List UInt8) :
    ((∃ p, serveFile console file s = some p) ↔ NoneWaits console (fileRequests file) s) ∧
      ∀ p, serveFile console file s = some p →
        (∃ X' L', Sound p.store X' L') ∧
          runOps ((fileRequests file).flatMap requestUpdates) s = some p.store ∧
          p.output = connectionInfo ++ separator.intercalate
            (replies console (fileRequests file) s).reduceOption ∧
          p.requestCount = (replies console (fileRequests file) s).reduceOption.length ∧
          p.requestCount + p.errors = (fileRequests file).length := by
  have hfile : serveFile console file s =
      runs (serveRequest console) (fileRequests file) ⟨connectionInfo, 0, 0, s⟩ := requestLoop_eq
  rw [hfile]
  have hends : (∃ p, runs (serveRequest console) (fileRequests file) ⟨connectionInfo, 0, 0, s⟩ =
      some p) ↔ NoneWaits console (fileRequests file) s :=
    runs_serveRequest_iff (p := ⟨connectionInfo, 0, 0, s⟩) h
  refine ⟨hends, fun p hrun => ?_⟩
  obtain ⟨p', X', L', hrun', hp', hops, htext, hcount, hsum⟩ :=
    runs_serveRequest (p := ⟨connectionInfo, 0, 0, s⟩) h (hends.mp ⟨p, hrun⟩)
  obtain rfl := Option.some.inj (hrun.symm.trans hrun')
  refine ⟨⟨X', L', hp'⟩, hops, ?_, hcount.trans (Nat.zero_add _), hsum.trans (Nat.zero_add _)⟩
  rw [htext, decide_eq_true rfl, written_true]

/-- A file that adds a user, lists the users and finds the user. -/
def bobFile : List UInt8 :=
  ascii "POST /users\r\nbob,secret,2000-01-01\n\nGET /users\nword\nGET /user/b%6Fb"

/-- A pipe that holds one line of a user. -/
def shortConsole : Console := ⟨64, true, true, fun _ _ _ => []⟩

/-- The three requests are answered. -/
theorem file_served_bob : ∃ p, serveFile shortConsole bobFile userStoreShmInit = some p ∧
    (∃ X L, Sound p.store X L) ∧ p.requestCount = 3 ∧ p.requestCount + p.errors = 3 := by
  obtain ⟨p, hserve⟩ : ∃ p, serveFile shortConsole bobFile userStoreShmInit = some p :=
    Option.isSome_iff_exists.mp (by decide +kernel)
  obtain ⟨hs, -, -, hcount, hsum⟩ := (file_served sound_init shortConsole bobFile).2 p hserve
  exact ⟨p, hserve, hs, hcount.trans (by decide +kernel), hsum.trans (by decide +kernel)⟩

/-! ## A file read back -/

section

variable {line word method path : CStr} {ws : List CStr} {size : Nat}

/-- A word that fits is read whole. -/
theorem scanWord_of_words (h : words isSpace line = word :: ws) (hsize : word.length < size) :
    (Config.scanWord size line).1 = word ∧ words isSpace (Config.scanWord size line).2 = ws := by
  rw [words_eq] at h
  split at h
  case isTrue => cases h
  case isFalse =>
    obtain ⟨rfl, rfl⟩ := List.cons.inj h
    have hdrop : (((line.dropWhile isSpace).takeWhile fun c => !isSpace c) ++
        (line.dropWhile isSpace).dropWhile fun c => !isSpace c).drop
          ((line.dropWhile isSpace).takeWhile fun c => !isSpace c).length =
        (line.dropWhile isSpace).dropWhile fun c => !isSpace c := List.drop_left
    rw [List.takeWhile_append_dropWhile] at hdrop
    rw [Config.scanWord, cut_of_lt hsize]
    exact ⟨rfl, congrArg _ hdrop⟩

theorem scanWord_of_nil (size : Nat) (h : words isSpace line = []) :
    (Config.scanWord size line).1 = [] ∧ words isSpace (Config.scanWord size line).2 = [] := by
  rw [words_eq] at h
  split at h
  case isTrue hnil =>
    rw [Config.scanWord, hnil]
    exact ⟨List.take_nil, by rw [List.drop_nil, words_nil]⟩
  case isFalse => cases h

/-- A line with two words or more is a request. -/
theorem requestHandlerParse_of_words (h : words isSpace line = method :: path :: ws)
    (hmethod : method.length < 16) (hpath : path.length < 256) :
    requestHandlerParse line = some ⟨⟨method, path, [], []⟩, [], hpath⟩ := by
  obtain ⟨hword, hrest⟩ := scanWord_of_words h hmethod
  obtain ⟨hword', -⟩ := scanWord_of_words hrest hpath
  have hne : method ≠ [] := ne_nil_of_mem_words (h ▸ List.mem_cons_self)
  have hne' : path ≠ [] :=
    ne_nil_of_mem_words (h ▸ List.mem_cons_of_mem method List.mem_cons_self)
  simp only [requestHandlerParse, hword, hword', hne, hne', or_self, if_false]

/-- A line with fewer than two words is malformed. -/
theorem requestHandlerParse_of_few (h : (words isSpace line).length < 2)
    (hsize : ∀ w ∈ words isSpace line, w.length < 16) : requestHandlerParse line = none := by
  cases hwords : words isSpace line with
  | nil =>
    obtain ⟨hword, -⟩ := scanWord_of_nil 16 hwords
    simp only [requestHandlerParse, hword, true_or, if_true]
  | cons w ws =>
    rw [hwords] at h hsize
    obtain rfl : ws = [] := List.length_eq_zero_iff.mp (by rw [List.length_cons] at h; omega)
    obtain ⟨-, hrest⟩ := scanWord_of_words hwords (hsize w List.mem_cons_self)
    obtain ⟨hword', -⟩ := scanWord_of_nil 256 hrest
    simp only [requestHandlerParse, hword', or_true, if_true]

end

/-- A line that fits the buffer of `fgets`. -/
def FitsLine (line : CStr) : Prop := 10 ∉ line ∧ 0 ∉ line ∧ line.length < 511

theorem removeNewline_newline (line : CStr) : removeNewline (line ++ [10]) = removeNewline line := by
  rw [removeNewline, List.takeWhile_append]
  split
  case isTrue hall =>
    exact (List.append_nil line).trans ((List.takeWhile_prefix _).eq_of_length hall).symm
  case isFalse => rfl

theorem lineText_line {line : CStr} (h : FitsLine line) : lineText line = removeNewline line := by
  rw [lineText, ofBuffer_of_notMem h.2.1]

theorem lineText_newline {line : CStr} (h : FitsLine line) :
    lineText (line ++ [10]) = removeNewline line := by
  have hnul : 0 ∉ line ++ [10] := by
    rw [List.mem_append, not_or]
    exact ⟨h.2.1, by decide⟩
  rw [lineText, ofBuffer_of_notMem hnul, removeNewline_newline]

/-- What a line of a file is, or two: skipped, a request, or a `POST` with the line of its body. -/
inductive Entry where
  | skipped (line : CStr)
  | request (line method path : CStr)
  | post (line path body : CStr)

namespace Entry

def lines : Entry → List CStr
  | skipped line => [line]
  | request line _ _ => [line]
  | post line _ body => [line, body]

/-- The lines fit, and their words are as the entry says. A word that is too long for a method would
be cut in two. -/
def Fits : Entry → Prop
  | skipped line => FitsLine line ∧ (words isSpace (removeNewline line)).length < 2 ∧
      ∀ w ∈ words isSpace (removeNewline line), w.length < 16
  | request line method path => FitsLine line ∧ method ≠ ascii "POST" ∧ method.length < 16 ∧
      path.length < 256 ∧ ∃ ws, words isSpace (removeNewline line) = method :: path :: ws
  | post line path body => FitsLine line ∧ FitsLine body ∧ path.length < 256 ∧
      ∃ ws, words isSpace (removeNewline line) = ascii "POST" :: path :: ws

/-- The method, the path and the body of the request, if the entry is one. -/
def content : Entry → Option (CStr × CStr × CStr)
  | skipped _ => none
  | request _ method path => some (method, path, [])
  | post _ path body => some (ascii "POST", path, removeNewline body)

variable {e : Entry}

theorem Fits.lines (h : e.Fits) : ∀ line ∈ e.lines, FitsLine line := by
  cases e with
  | skipped line => exact List.forall_mem_singleton.mpr h.1
  | request line method path => exact List.forall_mem_singleton.mpr h.1
  | post line path body => exact List.forall_mem_cons.mpr ⟨h.1, List.forall_mem_singleton.mpr h.2.1⟩

end Entry

/-- What is read of a request. -/
def requestContent (req : BodyRequest) : CStr × CStr × CStr := (req.method, req.path, req.body)

/-- One entry in front of other lines. -/
theorem readRequests_entry {e : Entry} (h : e.Fits) (rest : List CStr) :
    (readRequests (e.lines.map removeNewline ++ rest)).map requestContent =
      e.content.toList ++ (readRequests rest).map requestContent := by
  cases e with
  | skipped line =>
    obtain ⟨-, hfew, hsize⟩ := h
    rw [Entry.lines, List.map_singleton, List.singleton_append,
      readRequests_malformed (.inr (requestHandlerParse_of_few hfew hsize))]
    rfl
  | request line method path =>
    obtain ⟨-, hpost, hmethod, hpath, ws, hwords⟩ := h
    have hne : removeNewline line ≠ [] := by
      rintro hnil
      rw [hnil] at hwords
      cases hwords
    have hcmp : ¬strcmp method (ascii "POST") = .eq := fun h => hpost (strcmp_eq_iff.mp h)
    rw [Entry.lines, List.map_singleton, List.singleton_append, readRequests_other hne
      (requestHandlerParse_of_words hwords hmethod hpath) hcmp]
    rfl
  | post line path body =>
    obtain ⟨-, hbody, hpath, ws, hwords⟩ := h
    have hne : removeNewline line ≠ [] := by
      rintro hnil
      rw [hnil] at hwords
      cases hwords
    have hcut : cut 512 (removeNewline body) = removeNewline body := by
      refine cut_of_lt ((List.takeWhile_sublist _).length_le.trans_lt ?_)
      exact hbody.2.2.trans (by decide)
    rw [Entry.lines, List.map_cons, List.map_singleton, List.cons_append, List.singleton_append,
      readRequests_post hne (requestHandlerParse_of_words hwords (by decide) hpath)
        (strcmp_eq_iff.mpr rfl), List.map_cons, requestContent, requestHandlerSetBody, hcut]
    rfl

theorem readRequests_entries {entries : List Entry} (h : ∀ e ∈ entries, e.Fits) :
    (readRequests ((entries.flatMap Entry.lines).map removeNewline)).map requestContent =
      entries.filterMap Entry.content := by
  induction entries with
  | nil => rfl
  | cons e entries ih =>
    obtain ⟨he, hrest⟩ := List.forall_mem_cons.mp h
    rw [List.flatMap_cons, List.map_append, readRequests_entry he, ih hrest, List.filterMap_cons]
    cases e.content <;> rfl

/-- An empty line at the end changes nothing, not even where a body is awaited. -/
theorem readRequests_append_nil (lines : List CStr) :
    readRequests (lines ++ [[]]) = readRequests lines := by
  induction lines using readRequests.induct with
  | case1 => rfl
  | case2 lines ih =>
    rw [List.cons_append, readRequests_malformed (.inl rfl), ih, readRequests_malformed (.inl rfl)]
  | case3 line lines hne hparse ih =>
    rw [List.cons_append, readRequests_malformed (.inr hparse), ih,
      readRequests_malformed (.inr hparse)]
  | case4 line hne req hparse hpost =>
    have hbody : requestHandlerSetBody [] req = req := by
      rw [requestHandlerParse] at hparse
      split at hparse
      · cases hparse
      · cases hparse
        rfl
    rw [List.singleton_append, readRequests_post hne hparse hpost, hbody,
      readRequests_last hne hparse hpost]
    rfl
  | case5 line hne req hparse hpost body lines ih =>
    rw [List.cons_append, List.cons_append, readRequests_post hne hparse hpost, ih,
      readRequests_post hne hparse hpost]
  | case6 line lines hne req hparse hpost ih =>
    rw [List.cons_append, readRequests_other hne hparse hpost, ih,
      readRequests_other hne hparse hpost]

theorem fgetsFrom_end {size : Nat} {buf x : List UInt8} (hx : 10 ∉ x)
    (hsize : buf.length + x.length + 2 ≤ size) (hne : buf ++ x ≠ []) :
    fgetsFrom size buf x = [buf ++ x] := by
  induction x generalizing buf with
  | nil =>
    rw [List.append_nil] at hne ⊢
    exact if_neg hne
  | cons c x ih =>
    rw [List.length_cons] at hsize
    rw [List.mem_cons, not_or] at hx
    have hcond : ¬(c = 10 ∨ buf.length + 2 = size) := by
      rintro (hc | hfull)
      · exact hx.1 hc.symm
      · omega
    rw [fgetsFrom, if_neg hcond, ih hx.2 (by rw [List.length_append, List.length_singleton]; omega)
      (by simp), List.append_assoc]
    rfl

/-- **A request file reads back.** A file that is written from entries, with or without the end of
its last line, has the requests of the entries, in their order. -/
theorem fileRequests_entries {entries : List Entry} {file : List UInt8}
    (h : ∀ e ∈ entries, e.Fits)
    (hfile : file = unlines (entries.flatMap Entry.lines) ∨
      file ++ [10] = unlines (entries.flatMap Entry.lines)) :
    (fileRequests file).map requestContent = entries.filterMap Entry.content := by
  have hfits : ∀ line ∈ entries.flatMap Entry.lines, FitsLine line := by
    intro line hline
    obtain ⟨e, he, hmem⟩ := List.mem_flatMap.mp hline
    exact (h e he).lines line hmem
  have htexts {lines : List CStr} (hlines : ∀ line ∈ lines, FitsLine line) :
      (lines.map (· ++ [10])).map lineText = lines.map removeNewline := by
    rw [List.map_map]
    exact List.map_congr_left fun line hline => lineText_newline (hlines line hline)
  have hlong {lines : List CStr} (hlines : ∀ line ∈ lines, FitsLine line) :
      ∀ line ∈ lines, 10 ∉ line ∧ line.length + 2 ≤ 512 := fun line hline =>
    ⟨(hlines line hline).1, by have := (hlines line hline).2.2; omega⟩
  rw [← readRequests_entries h, fileRequests]
  generalize entries.flatMap Entry.lines = lines at hfile hfits
  congr 1
  rcases hfile with rfl | hlast
  · have hread : fgets 512 (unlines lines ++ []) = _ := fgets_unlines (hlong hfits)
    rw [List.append_nil] at hread
    rw [hread, List.map_append, htexts hfits]
    exact congrArg readRequests (List.append_nil _)
  rcases List.eq_nil_or_concat lines with rfl | ⟨init, last, rfl⟩
  · cases file <;> cases hlast
  rw [List.concat_eq_append] at hlast hfits ⊢
  have hfile : file = unlines init ++ last := by
    rw [unlines_append] at hlast
    have hend : unlines [last] = last ++ [10] := List.append_nil _
    rw [hend, ← List.append_assoc] at hlast
    exact List.append_cancel_right hlast
  have hinit : ∀ line ∈ init, FitsLine line := fun line hline =>
    hfits line (List.mem_append_left _ hline)
  have hlast : FitsLine last := hfits last (List.mem_append_right _ List.mem_cons_self)
  rw [hfile, fgets_unlines (hlong hinit), List.map_append, htexts hinit, List.map_append]
  by_cases hnil : last = []
  · subst hnil
    exact (congrArg readRequests (List.append_nil _)).trans (readRequests_append_nil _).symm
  · rw [fgets, fgetsFrom_end hlast.1 (by have := hlast.2.2; simp; omega) (by simpa using hnil),
      List.nil_append, List.map_singleton, lineText_line hlast, List.map_singleton]

/-- A file with a line of one word, an empty line and a body on the last line. -/
theorem fileRequests_entries_last :
    (fileRequests (ascii "word\n\nPOST /users\r\nbob,secret,2000")).map requestContent =
      [(ascii "POST", ascii "/users", ascii "bob,secret,2000")] := by
  have h : ∀ e ∈ [Entry.skipped (ascii "word"), .skipped [],
      .post (ascii "POST /users\r") (ascii "/users") (ascii "bob,secret,2000")], e.Fits := by
    have hfits (line : CStr) (hline : 10 ∉ line ∧ 0 ∉ line ∧ line.length < 511) :
        FitsLine line := hline
    intro e he
    rcases List.mem_cons.mp he with rfl | he
    · exact ⟨hfits _ (by decide), by decide, by decide⟩
    rcases List.mem_cons.mp he with rfl | he
    · exact ⟨hfits _ (by decide), by decide, by decide⟩
    obtain rfl := List.mem_singleton.mp he
    exact ⟨hfits _ (by decide), hfits _ (by decide), by decide, [], by decide⟩
  exact fileRequests_entries h (.inr (by decide))

end MiniWeb.ProcessServer
