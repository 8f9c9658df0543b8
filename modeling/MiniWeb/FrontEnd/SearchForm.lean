import MiniWeb.FrontEnd.Message
import MiniWeb.FrontEnd.Reply
import MiniWeb.RequestHandler.DeleteForm
import MiniWeb.UserStore.Listing

/-!
# The length of a search

`handle_search` compares the length of the body it is given with the `Content-Length` header. The
front ends have cut the body to its field and stripped it by then, and they look for the header in
the body as well. `judgesLength_iff` says for which searches the comparison still tells whether the
length that was declared is the length that was sent.
-/

namespace MiniWeb.FrontEnd

open CStr Search Config RequestHandler UserStore

/-! ## `handle_search` -/

/-- `"application/x-www-form-urlencoded"`. -/
def formType : CStr := ascii "application/x-www-form-urlencoded"

/-- The digits are counted as the source does, and every byte but digits and hyphens refused. -/
def validatePhone (phone : CStr) : Bool :=
  phone = [] || phone.all (fun c => isDigit c || c = 45) && phone.length ≤ 20 && phone.any isDigit

def validateEmail (email : CStr) : Bool :=
  email = [] || !email.contains 32 &&
    match email.dropWhile (· ≠ 64) with
    | [] => true
    | _ :: domain => !domain.contains 64 && domain ≠ []

/-- The answers of `handle_search`. -/
inductive SearchReply where
  /-- The page with the form. -/
  | form
  /-- 415. -/
  | unsupportedMediaType
  /-- 400: `Content-Length header is required.` -/
  | lengthRequired
  /-- 400: `Body length (%d bytes) does not match Content-Length (%d bytes).` -/
  | lengthMismatch (bodyLength : Nat) (contentLength : Int)
  /-- 400 with the text for one of the fields. -/
  | badField (text : CStr)
  /-- The form again, with the remark that no criterion was given. -/
  | noCriteria
  /-- 500. -/
  | failed
  /-- The results: how many were found, and the page. -/
  | results (matchCount : Nat) (page : CStr)

theorem urlDecode_length {src : CStr} {size : Nat} (hsize : 0 < size) :
    (urlDecode src size).2.length < size := by
  have hstring : (urlDecode src size).2.length ≤ (urlDecodeLoop (size - 1) src).1.length :=
    (List.takeWhile_prefix _).length_le
  rw [urlDecodeLoop_eq, List.length_take] at hstring
  omega

/-- The field behind a key in the body: decoded into a buffer of that size, and checked if it is
not empty. -/
def searchField (key : CStr) (size : Nat) (hsize : 0 < size) (valid : CStr → Bool)
    (badEncoding badFormat : CStr) (body : CStr) : Except CStr {s : CStr // s.length < size} :=
  match strstr body key with
  | none => .ok ⟨[], hsize⟩
  | some pPtr =>
    let value := pPtr.drop key.length
    if (urlDecode value size).1 ≠ 0 then .error badEncoding
    else if (urlDecode value size).2 ≠ [] ∧ ¬valid (urlDecode value size).2 = true then
      .error badFormat
    else .ok ⟨(urlDecode value size).2, urlDecode_length hsize⟩

/-- The name is not checked. -/
def searchName : CStr → Except CStr {s : CStr // s.length < 64} :=
  searchField (ascii "name=") 64 (by decide) (fun _ => true)
    (ascii "URL encoding error in name parameter.\n") []

def searchPhone : CStr → Except CStr {s : CStr // s.length < 32} :=
  searchField (ascii "phone=") 32 (by decide) validatePhone
    (ascii "URL encoding error in phone parameter.\n") (ascii "Invalid phone format.\n")

def searchMobile : CStr → Except CStr {s : CStr // s.length < 32} :=
  searchField (ascii "mobile=") 32 (by decide) validatePhone
    (ascii "URL encoding error in mobile parameter.\n") (ascii "Invalid mobile format.\n")

def searchEmail : CStr → Except CStr {s : CStr // s.length < 64} :=
  searchField (ascii "email=") 64 (by decide) validateEmail
    (ascii "URL encoding error in email parameter.\n") (ascii "Invalid email format.\n")

/-- The criteria, read in the order of the source. -/
def searchCriteria (body : CStr) : Except CStr SearchCriteria := do
  let name ← searchName body
  let phone ← searchPhone body
  let mobile ← searchMobile body
  let email ← searchEmail body
  return ⟨name, phone, mobile, email, name.2, phone.2, mobile.2, email.2⟩

/-- What is answered for the criteria; 2 MB of the body buffer are used. -/
def searchUsers (criteria : SearchCriteria) (s : Store) : Option SearchReply :=
  if criteria.name = [] ∧ criteria.phone = [] ∧ criteria.mobile = [] ∧ criteria.email = [] then
    some .noCriteria
  else
    (userStoreSearch criteria (2 * 1024 * 1024) s).map fun (matchCount, page) =>
      if matchCount < 0 then .failed else .results matchCount.toNat page.text

def handleSearch (req : Request) (s : Store) : Option SearchReply :=
  if strcmp req.method (ascii "GET") = .eq then some .form
  else if req.contentType = [] ∨ strcasecmp req.contentType formType ≠ 0 then
    some .unsupportedMediaType
  else if req.contentLengthHdr < 0 then some .lengthRequired
  else if (req.body.length : Int) ≠ req.contentLengthHdr then
    some (.lengthMismatch req.body.length req.contentLengthHdr)
  else
    match searchCriteria req.body with
    | .error text => some (.badField text)
    | .ok criteria => searchUsers criteria s

/-! ## Searches as a client sends them -/

/-- A header line of that name, given in lower case with its colon. -/
def Named (name line : CStr) : Prop := name <+: line.map toLower

instance (name line : CStr) : Decidable (Named name line) := inferInstanceAs (Decidable (_ <+: _))

def formTypeLine : CStr := ascii "Content-Type: " ++ formType

/-- A form in a `POST`, with its type and the length it declares. -/
structure SentSearch extends HttpMessage where
  declared : Nat
  method_post : method = ascii "POST"
  body_text : 0 ∉ body
  type_mem : formTypeLine ∈ headers
  type_only : ∀ line ∈ headers, Named (ascii "content-type:") line → line = formTypeLine
  length_mem : contentLengthLine declared ∈ headers
  length_only : ∀ line ∈ headers, Named (ascii "content-length:") line →
    line = contentLengthLine declared

/-- The search is answered with a 400 for its length. -/
def LengthRefused (config : Option ServerConfig) (server : Server) (s : Store)
    (post : SentSearch) : Prop :=
  ∃ req n hdr, server.read config post.render = .request req ∧
    handleSearch req s = some (.lengthMismatch n hdr)

/-- It is exactly if another length was declared than was sent. -/
def JudgesLength (config : Option ServerConfig) (server : Server) (s : Store)
    (post : SentSearch) : Prop :=
  (post.declared = post.body.length → ¬LengthRefused config server s post) ∧
    (post.declared ≠ post.body.length → LengthRefused config server s post)

/-! ## What the front ends make of a search -/

/-- `req.body` of a text. -/
def Server.keptBody : Server → CStr → CStr
  | .connection, body => cut 512 (stripCrLf body)
  | .epoll, body => stripCrLf (cut 512 body)
  | .select, body => stripCrLf (cut 512 body)

/-- A body that is neither cut nor stripped. -/
def KeptWhole (body : CStr) : Prop := body.length ≤ 511 ∧ ∀ c ∈ body.getLast?, isCrLf c = false

/-- A number as `req.content_length_hdr` holds it. -/
def lengthField (n : CStr) : Int := max (atoi n) 0

/-- The content type in the last line of the body that reads like that header. -/
def bodyType (body : CStr) : Option CStr :=
  (last? contentTypePattern 15 (10 :: body)).map fun p => trimEnd (lineValue 64 (p.drop 14))

/-- The content length in the last line of the body that reads like that header. -/
def bodyLength (body : CStr) : Option Int :=
  (last? contentLengthPattern 15 (10 :: body)).map fun p => lengthField (ofBuffer (p.drop 16))

/-- The front end reads the headers, and no line of the body gives another content type. -/
def TypeRead (server : Server) (body : CStr) : Prop :=
  server ≠ .select ∧ ∀ type ∈ bodyType body, strcasecmp type formType = 0

/-- The comparison comes out right. Where no line of the body reads like a `Content-Length`
header: a length declared right is that of a body kept whole, and one declared wrong is not the
length of what is kept. -/
def ComparesRight (server : Server) (post : SentSearch) : Prop :=
  match bodyLength post.body with
  | some n => post.declared = post.body.length ↔ n = (server.keptBody post.body).length
  | none =>
    if post.declared = post.body.length then KeptWhole post.body
    else lengthField (decimal post.declared) ≠ (server.keptBody post.body).length

/-! ## Header lines and the scans -/

section Lines

variable {pat : List (List UInt8)} {lines : List CStr} {line : CStr} {p x s : List UInt8}

/-- An end of two parts is one of the second, or begins in the first. -/
theorem suffix_append_cases (h : p <:+ x ++ s) : p <:+ s ∨ ∃ c ∈ x, ∃ r, p = c :: r := by
  induction x with
  | nil => exact .inl h
  | cons c x ih =>
    rw [List.cons_append] at h
    rcases List.suffix_cons_iff.mp h with rfl | h
    · exact .inr ⟨c, List.mem_cons_self, _, rfl⟩
    · rcases ih h with h | ⟨d, hd, r, hp⟩
      · exact .inl h
      · exact .inr ⟨d, List.mem_cons_of_mem _ hd, r, hp⟩

theorem renderLines_cons (line : CStr) (lines : List CStr) (s : List UInt8) :
    renderLines (line :: lines) ++ s = line ++ 13 :: 10 :: (renderLines lines ++ s) := by
  simp [renderLines, crlf]

/-- A pattern that begins with a line end matches at the start of a line only, and not in the
first line. -/
theorem line_of_matchesAt (hpat : LinePattern pat) (hhead : pat.head? = some (ascii "\n\r"))
    (hlines : ∀ line ∈ lines, ∀ c ∈ line, inLine c = true) (hp : p <:+ renderLines lines ++ [13])
    (hm : matchesAt pat p = true) :
    ∃ line ∈ lines.tail, ∃ rest, p = 10 :: (line ++ 13 :: rest) := by
  have hshort := hpat.long
  induction lines with
  | nil =>
    rcases List.suffix_cons_iff.mp hp with rfl | hp
    · exact absurd hm (by simp [matchesAt_singleton hpat.long])
    · rw [List.suffix_nil.mp hp] at hm
      have hlen := length_of_matchesAt hm
      rw [List.length_nil] at hlen
      omega
  | cons l lines ih =>
    rw [renderLines_cons] at hp
    rcases suffix_append_cases hp with hp | ⟨c, hc, r, rfl⟩
    · rcases List.suffix_cons_iff.mp hp with rfl | hp
      · rw [matchesAt_before hpat.long (hpat.fence (by decide))] at hm
        exact absurd hm Bool.false_ne_true
      · rcases List.suffix_cons_iff.mp hp with rfl | hp
        · cases lines with
          | nil =>
            have hend : matchesAt pat (10 :: 13 :: []) = false :=
              matchesAt_before hpat.long (hpat.fence (by decide))
            rw [renderLines, List.flatMap_nil, List.nil_append, hend] at hm
            exact absurd hm Bool.false_ne_true
          | cons l' lines =>
            exact ⟨l', List.mem_cons_self, _, by rw [renderLines_cons]⟩
        · obtain ⟨line, hline, hrest⟩ :=
            ih (fun line hline => hlines line (List.mem_cons_of_mem _ hline)) hp
          exact ⟨line, List.mem_of_mem_tail hline, hrest⟩
    · -- no line holds a line end
      cases pat with
      | nil => exact absurd rfl hpat.ne_nil
      | cons cls pat =>
        rw [List.head?_cons, Option.some.injEq] at hhead
        simp only [matchesAt, Bool.and_eq_true, decide_eq_true_eq, hhead] at hm
        have hends : ∀ c ∈ ascii "\n\r", inLine c = false := by decide
        have hend := hends c hm.1
        rw [hlines l List.mem_cons_self c hc] at hend
        exact absurd hend (by decide)

/-- A line behind the first is preceded by a line end. -/
theorem line_suffix (first : CStr) (hline : line ∈ lines) :
    ∃ rest, 10 :: (line ++ 13 :: rest) <:+ renderLines (first :: lines) ++ [13] := by
  induction lines generalizing first with
  | nil => exact absurd hline List.not_mem_nil
  | cons l lines ih =>
    rw [renderLines_cons]
    rcases List.mem_cons.mp hline with rfl | hline
    · refine ⟨10 :: (renderLines lines ++ [13]), first ++ [13], ?_⟩
      rw [renderLines_cons, List.append_assoc, List.singleton_append]
    · obtain ⟨rest, hrest⟩ := ih l hline
      refine ⟨rest, hrest.trans ?_⟩
      exact ⟨first ++ [13, 10], by simp⟩

/-- The scan of a header section in which one line alone has the header's name. -/
theorem last?_header (hpat : LinePattern pat) (hhead : pat.head? = some (ascii "\n\r"))
    {first : CStr} (hlines : ∀ line ∈ first :: lines, ∀ c ∈ line, inLine c = true)
    (hmem : line ∈ lines) (hmatch : matchesAt pat (10 :: line) = true)
    (honly : ∀ other ∈ lines, matchesAt pat (10 :: other) = true → other = line) :
    ∃ rest, last? pat 0 (renderLines (first :: lines) ++ [13])
      = some (10 :: (line ++ 13 :: rest)) := by
  have hends : ∀ (other rest : List UInt8),
      matchesAt pat (10 :: (other ++ 13 :: rest)) = matchesAt pat (10 :: other) := by
    intro other rest
    exact matchesAt_cons_append hpat.ne_nil (hpat.fence (by decide))
  obtain ⟨rest, hsuffix⟩ := line_suffix first hmem
  have hsome := isSome_last? hpat.ne_nil hsuffix ((hends line rest).trans hmatch)
  obtain ⟨p, hp⟩ := Option.isSome_iff_exists.mp hsome
  obtain ⟨hps, hpm⟩ := last?_spec hp
  obtain ⟨other, hother, rest', rfl⟩ := line_of_matchesAt hpat hhead hlines hps hpm
  rw [hends] at hpm
  rw [honly other hother hpm] at hp
  exact ⟨rest', hp⟩

end Lines

/-- A line that a scan takes has the name that the scan spells behind the line end. -/
theorem named_of_matchesAt {pat : List (List UInt8)} {key line : CStr} {cls : List UInt8}
    (hkey : List.Forall₂ (fun cls k => ∀ c ∈ cls, toLower c = k) pat key)
    (h : matchesAt (cls :: pat) (10 :: line) = true) : Named key line := by
  rw [matchesAt, Bool.and_eq_true] at h
  exact prefix_of_matchesAt hkey h.2

theorem named_contentType {line : CStr} (h : matchesAt contentTypePattern (10 :: line) = true) :
    Named (ascii "content-type:") line := by
  rw [contentTypePattern, List.map_cons] at h
  refine named_of_matchesAt ?_ h
  simp only [List.forall₂_iff_get]
  decide

theorem named_contentLength {line : CStr}
    (h : matchesAt contentLengthPattern (10 :: line) = true) :
    Named (ascii "content-length:") line := by
  rw [contentLengthPattern, List.map_cons] at h
  refine named_of_matchesAt ?_ h
  simp only [List.forall₂_iff_get]
  decide

/-! ## The request handed on -/

section Read

variable {config : Option ServerConfig} {server : Server} {post : SentSearch} {s : Store}

theorem SentSearch.render_section (post : SentSearch) : post.render
    = renderLines (post.requestLine :: post.headers) ++ [13] ++ [10] ++ post.body := by
  simp [HttpMessage.render, crlf]

theorem SentSearch.inLine_lines (post : SentSearch) :
    ∀ line ∈ post.requestLine :: post.headers, ∀ c ∈ line, inLine c = true :=
  fun line hline => (post.lines_line line hline).2

theorem contentType_render (post : SentSearch) :
    contentType post.render = (bodyType post.body).getD formType := by
  obtain ⟨rest, hrest⟩ := last?_header linePattern_contentType rfl post.inLine_lines post.type_mem
    (by decide +kernel) fun other hother h => post.type_only other hother (named_contentType h)
  have hvalue : ∀ y, trimEnd (lineValue 64 (ascii " " ++ formType ++ 13 :: y)) = formType := by
    intro y
    rw [lineValue_append (by decide)]
    decide +kernel
  have hdrop : ∀ y, (10 :: (formTypeLine ++ 13 :: y)).drop 14 = ascii " " ++ formType ++ 13 :: y :=
    fun y => rfl
  rw [contentType_eq, post.render_section,
    map_last?_section (f := fun p => trimEnd (lineValue 64 p)) (k := 14) linePattern_contentType
      (by decide) (by decide), hrest, Option.map_some, hdrop, List.append_assoc, List.cons_append,
    hvalue, bodyType]
  cases last? contentTypePattern 15 (10 :: post.body) <;> rfl

theorem lengthField_line (n : Nat) (y : List UInt8) :
    lengthField (ofBuffer (32 :: (decimal n ++ 13 :: y))) = lengthField (decimal n) := by
  have hdigit : ∀ c ∈ decimal n, isDigit c = true := fun c hc => isDigit_of_mem_decimal hc
  have hnul : 0 ∉ ascii " " ++ decimal n := by
    intro h
    rcases List.mem_append.mp h with h | h
    · exact absurd h (by decide)
    · exact absurd (hdigit 0 h) (by decide)
  have hspace : ¬(ascii " " ++ decimal n).all isSpace = true := by
    intro h
    obtain ⟨c, hc⟩ := List.exists_mem_of_ne_nil _ (decimal_ne_nil n)
    have := List.all_eq_true.mp h c (List.mem_append_right _ hc)
    rw [(isDigit_only (hdigit c hc)).1] at this
    exact Bool.false_ne_true this
  have hbytes : 32 :: (decimal n ++ 13 :: y) = ascii " " ++ decimal n ++ 13 :: y := rfl
  have htext : ofBuffer (13 :: y) = 13 :: ofBuffer y := rfl
  rw [lengthField, hbytes, ofBuffer_append hnul, htext, atoi_append hspace (by decide),
    atoi_space_append (by decide), lengthField]

theorem contentLengthHdr_render (post : SentSearch) : contentLengthHdr post.render
    = (bodyLength post.body).getD (lengthField (decimal post.declared)) := by
  have hname : matchesAt contentLengthPattern (10 :: ascii "Content-Length: ") = true := by
    decide +kernel
  have hmatch : matchesAt contentLengthPattern (10 :: contentLengthLine post.declared) = true := by
    rw [contentLengthLine, ← List.cons_append]
    exact matchesAt_of_start hname
  obtain ⟨rest, hrest⟩ := last?_header linePattern_contentLength rfl post.inLine_lines
    post.length_mem hmatch fun other hother h =>
      post.length_only other hother (named_contentLength h)
  have hdrop : ∀ y, (10 :: (contentLengthLine post.declared ++ 13 :: y)).drop 16
      = 32 :: (decimal post.declared ++ 13 :: y) := fun y => rfl
  rw [contentLengthHdr_eq, post.render_section,
    map_last?_section (f := fun p => max (atoi (ofBuffer p)) 0) (k := 16) linePattern_contentLength
      (by decide) (by decide), hrest, Option.map_some, hdrop, List.cons_append, List.append_assoc,
    List.cons_append]
  change ((bodyLength post.body).or (some (lengthField _))).getD (-1) = _
  rw [lengthField_line]
  cases bodyLength post.body <;> rfl

/-- What a search is handed on as. -/
structure SentSearch.ReadAs (post : SentSearch) (server : Server) (req : Request) : Prop where
  method : req.method = ascii "POST"
  body : req.body = server.keptBody post.body
  unread : server = .select → req.contentType = []
  type : server ≠ .select → req.contentType = contentType post.render
  length : server ≠ .select → req.contentLengthHdr = contentLengthHdr post.render

theorem SentSearch.read (config : Option ServerConfig) (server : Server) (post : SentSearch)
    (hlimit : post.render.length ≤ maxBytes config) :
    ∃ req, server.read config post.render = .request req ∧ post.ReadAs server req := by
  obtain ⟨hword, path, hline⟩ := parse_render post.toHttpMessage
  have hmethod : methodField post.method = ascii "POST" := by
    rw [methodField_method, post.method_post]
  have htext : ofBuffer post.body = post.body := ofBuffer_of_notMem post.body_text
  cases server with
  | connection =>
    refine ⟨_, connectionRead_eq hline, hmethod, ?_, by simp, fun _ => rfl, fun _ => rfl⟩
    rw [connectionBody_eq, bodyStart_render, htext]
    rfl
  | epoll =>
    refine ⟨_, epollRead_eq hlimit (hword ▸ post.method_mem) hline, hmethod, ?_, by simp,
      fun _ => rfl, fun _ => rfl⟩
    rw [bodyField_render, HttpMessage.keptBody, htext]
    rfl
  | select =>
    refine ⟨_, selectRead_eq hline, hmethod, ?_, fun _ => rfl, fun h => absurd rfl h,
      fun h => absurd rfl h⟩
    rw [bodyField_render, HttpMessage.keptBody, htext]
    rfl

/-- The comparison is reached by a form, and fails if the lengths differ. -/
theorem handleSearch_mismatch_iff {req : Request} (hpost : req.method = ascii "POST") :
    (∃ n hdr, handleSearch req s = some (.lengthMismatch n hdr)) ↔
      strcasecmp req.contentType formType = 0 ∧ 0 ≤ req.contentLengthHdr ∧
        (req.body.length : Int) ≠ req.contentLengthHdr := by
  have hget : ¬strcmp req.method (ascii "GET") = .eq := by
    rw [strcmp_eq_iff, hpost]
    decide
  unfold handleSearch
  rw [if_neg hget]
  by_cases htype : strcasecmp req.contentType formType = 0
  · have hnil : req.contentType ≠ [] := by
      intro hnil
      rw [hnil] at htype
      exact absurd htype (by decide)
    rw [if_neg (by simp [hnil, htype])]
    by_cases hhdr : req.contentLengthHdr < 0
    · rw [if_pos hhdr]
      simp only [Option.some.injEq, reduceCtorEq, exists_const, false_iff, not_and]
      intro _ hnonneg
      omega
    · rw [if_neg hhdr]
      by_cases hlen : (req.body.length : Int) ≠ req.contentLengthHdr
      · rw [if_pos hlen]
        exact iff_of_true ⟨_, _, rfl⟩ ⟨htype, Int.not_lt.mp hhdr, hlen⟩
      · rw [if_neg hlen]
        refine iff_of_false ?_ fun h => hlen h.2.2
        rintro ⟨n, hdr, hreply⟩
        cases hcriteria : searchCriteria req.body with
        | error text =>
          simp only [hcriteria] at hreply
          cases hreply
        | ok criteria =>
          simp only [hcriteria, searchUsers] at hreply
          split at hreply
          · cases hreply
          · obtain ⟨page, -, hpage⟩ := Option.map_eq_some_iff.mp hreply
            split at hpage
            · cases hpage
            · cases hpage
  · rw [if_pos (.inr htype)]
    simp [htype]

theorem lengthRefused_iff (hlimit : post.render.length ≤ maxBytes config) :
    LengthRefused config server s post ↔ TypeRead server post.body ∧
      (bodyLength post.body).getD (lengthField (decimal post.declared))
        ≠ (server.keptBody post.body).length := by
  obtain ⟨req, hread, hreq⟩ := post.read config server hlimit
  have hrefused : LengthRefused config server s post ↔
      ∃ n hdr, handleSearch req s = some (.lengthMismatch n hdr) := by
    constructor
    · rintro ⟨req', n, hdr, hread', hreply⟩
      rw [hread] at hread'
      cases hread'
      exact ⟨n, hdr, hreply⟩
    · rintro ⟨n, hdr, hreply⟩
      exact ⟨req, n, hdr, hread, hreply⟩
  rw [hrefused, handleSearch_mismatch_iff hreq.method, hreq.body]
  by_cases hserver : server = .select
  · rw [hreq.unread hserver, TypeRead]
    refine iff_of_false (fun h => ?_) fun h => h.1.1 hserver
    exact absurd h.1 (by decide)
  · rw [hreq.type hserver, hreq.length hserver, contentType_render, contentLengthHdr_render]
    have hform : strcasecmp formType formType = 0 := by decide +kernel
    have htype : strcasecmp ((bodyType post.body).getD formType) formType = 0 ↔
        TypeRead server post.body := by
      rw [TypeRead]
      cases bodyType post.body with
      | none => simp [hserver, hform]
      | some type => simp [hserver]
    have hnonneg : 0 ≤ (bodyLength post.body).getD (lengthField (decimal post.declared)) := by
      have hfield : ∀ n, 0 ≤ lengthField n := fun n => le_max_right _ _
      rw [bodyLength]
      cases last? contentLengthPattern 15 (10 :: post.body) with
      | none => exact hfield _
      | some p => exact hfield _
    rw [htype]
    exact ⟨fun h => ⟨h.1, Ne.symm h.2.2⟩, fun h => ⟨h.1, hnonneg, Ne.symm h.2⟩⟩

end Read

/-! ## Which searches are judged right -/

theorem stripCrLf_eq_iff {body : CStr} :
    stripCrLf body = body ↔ ∀ c ∈ body.getLast?, isCrLf c = false := by
  rw [stripCrLf, List.rdropWhile_eq_self_iff]
  by_cases hnil : body = []
  · simp [hnil]
  · simp [List.getLast?_eq_some_getLast hnil, hnil]

theorem length_stripCrLf_eq_iff {body : CStr} :
    (stripCrLf body).length = body.length ↔ stripCrLf body = body :=
  ⟨(List.rdropWhile_prefix isCrLf body).eq_of_length, congrArg List.length⟩

/-- Nothing is lost of a body exactly if it is kept whole, in whatever order the front end cuts
and strips. -/
theorem keptBody_length_iff (server : Server) (body : CStr) :
    (server.keptBody body).length = body.length ↔ KeptWhole body := by
  have hstrip := (List.rdropWhile_prefix isCrLf body).length_le
  have hcut : (cut 512 body).length = min 511 body.length := List.length_take
  have hloop : (stripCrLf (cut 512 body)).length = body.length ↔ KeptWhole body := by
    have hle := (List.rdropWhile_prefix isCrLf (cut 512 body)).length_le
    rw [KeptWhole, ← stripCrLf_eq_iff]
    constructor
    · intro h
      have hlen : body.length ≤ 511 := by
        change (stripCrLf (cut 512 body)).length ≤ _ at hle
        omega
      rw [cut, List.take_of_length_le hlen, length_stripCrLf_eq_iff] at h
      exact ⟨hlen, h⟩
    · rintro ⟨hlen, h⟩
      rw [cut, List.take_of_length_le hlen, h]
  cases server with
  | connection =>
    rw [Server.keptBody, cut, List.length_take, KeptWhole, ← stripCrLf_eq_iff,
      ← length_stripCrLf_eq_iff]
    change (stripCrLf body).length ≤ _ at hstrip
    omega
  | epoll => exact hloop
  | select => exact hloop

theorem lengthField_decimal {n : Nat} (hn : n < 2147483648) : lengthField (decimal n) = n := by
  rw [lengthField, atoi_decimal hn]
  omega

/-- **The length of a search.** A search within one `recv` and the limit is answered with a 400
for its length exactly if another length was declared than was sent, where the front end reads it
as a form and the comparison comes out right; where it does not, only if the length is declared
right. -/
theorem judgesLength_iff (config : Option ServerConfig) (server : Server) (s : Store)
    (post : SentSearch) (hrecv : post.render.length ≤ recvMax)
    (hlimit : post.render.length ≤ maxBytes config) :
    JudgesLength config server s post ↔
      TypeRead server post.body ∧ ComparesRight server post ∨
        ¬TypeRead server post.body ∧ post.declared = post.body.length := by
  have hbody : post.body.length ≤ recvMax := by
    rw [post.render_section, List.length_append] at hrecv
    omega
  rw [JudgesLength, lengthRefused_iff hlimit]
  by_cases htype : TypeRead server post.body
  · simp only [htype, true_and, not_true_eq_false, false_and, or_false, ComparesRight]
    cases bodyLength post.body with
    | some n =>
      simp only [Option.getD_some]
      by_cases hn : n = (server.keptBody post.body).length
      · simp [hn]
      · simp [hn]
    | none =>
      simp only [Option.getD_none]
      by_cases hdeclared : post.declared = post.body.length
      · have hfield : lengthField (decimal post.declared) = post.body.length := by
          rw [hdeclared, lengthField_decimal (lt_of_le_of_lt hbody (by decide))]
        rw [if_pos hdeclared, ← keptBody_length_iff server, hfield]
        simp [hdeclared, eq_comm]
      · simp [hdeclared]
  · simp [htype]

theorem post_mem : ascii "POST" ∈ httpMethods := by decide

/-- A search for `Bob`. -/
def searchBob : SentSearch where
  method := ascii "POST"
  path := ascii "/search"
  version := ascii "HTTP/1.1"
  headers := [formTypeLine, contentLengthLine 8]
  body := ascii "name=Bob"
  method_mem := post_mem
  path_ne_nil := by decide
  path_word := by decide
  version_line := inLine_http11
  headers_line := by decide
  declared := 8
  method_post := rfl
  body_text := by decide
  type_mem := List.mem_cons_self
  type_only := by decide
  length_mem := List.mem_cons_of_mem _ List.mem_cons_self
  length_only := by decide

/-- The same, with the line feed that some clients send behind a body. -/
def searchBobLine : SentSearch where
  method := ascii "POST"
  path := ascii "/search"
  version := ascii "HTTP/1.1"
  headers := [formTypeLine, contentLengthLine 9]
  body := ascii "name=Bob\n"
  method_mem := post_mem
  path_ne_nil := by decide
  path_word := by decide
  version_line := inLine_http11
  headers_line := by decide
  declared := 9
  method_post := rfl
  body_text := by decide
  type_mem := List.mem_cons_self
  type_only := by decide
  length_mem := List.mem_cons_of_mem _ List.mem_cons_self
  length_only := by decide

theorem judgesLength_bob : JudgesLength none .epoll userStoreShmInit searchBob := by
  have hlength : bodyLength searchBob.body = none := by decide +kernel
  have hcompares : ComparesRight .epoll searchBob := by
    rw [ComparesRight, hlength]
    exact (if_pos rfl).mpr ⟨by decide +kernel, by decide +kernel⟩
  exact (judgesLength_iff none .epoll userStoreShmInit searchBob (by decide +kernel)
    (by decide +kernel)).mpr (.inl ⟨⟨by decide, by decide +kernel⟩, hcompares⟩)

/-- Nine bytes are declared and sent, and the front end keeps eight of them. -/
theorem stripped_search_refused :
    searchBobLine.declared = searchBobLine.body.length ∧
      LengthRefused none .epoll userStoreShmInit searchBobLine ∧
      ¬JudgesLength none .epoll userStoreShmInit searchBobLine := by
  have hrefused : LengthRefused none .epoll userStoreShmInit searchBobLine := by
    rw [lengthRefused_iff (by decide +kernel)]
    exact ⟨⟨by decide, by decide +kernel⟩, by decide +kernel⟩
  exact ⟨rfl, hrefused, fun h => h.1 rfl hrefused⟩

end MiniWeb.FrontEnd
