import MiniWeb.FrontEnd.RequestHead

/-!
# A request written and read back

A `SentRequest` is a head with the length of its body stated, and the body. `http_parse_request`
finds it at the start of its buffer, with bytes of a next request behind it. It copies 511 bytes of
the first line, takes the bytes behind the head where the stated length is zero, and strips line ends
from the body: `parsesBack_iff` says what comes through.
-/

namespace MiniWeb.FrontEnd

open CStr

/-- A request within the limits, whose `Content-Length` is that of its body. -/
structure SentRequest where
  head : RequestHead
  body : List UInt8
  limits : head.InLimits
  method_short : head.method.length ≤ 15
  uri_short : head.uri.length < httpMaxUri
  body_short : body.length < httpMaxBody
  stated : head.named (ascii "content-length") ≠ []
  length_eq : ∀ f ∈ head.named (ascii "content-length"), f.value ≠ [] ∧
    (∀ c ∈ f.value, isDigit c = true) ∧ digits f.value = body.length

/-- The bytes on the wire. -/
def SentRequest.render (sent : SentRequest) : List UInt8 := sent.head.render ++ sent.body

/-- Parsing undoes the rendering, whatever stands behind the request. -/
def SentRequest.ParsesBack (sent : SentRequest) (rest : List UInt8) : Prop :=
  ∃ req, httpParseRequest (sent.render ++ rest) = some req ∧
    req.method = sent.head.method ∧ req.uri = sent.head.uri ∧
    (req.versionMajor = 1 ∧ req.versionMinor = sent.head.minor) ∧ req.body = sent.body

/-- Method and URI, with the blank between them. -/
def RequestHead.target (head : RequestHead) : CStr := head.method ++ 32 :: head.uri

/-- The URI is in the copy of the first line, and what the copy holds of the version is read as the
version. -/
def RequestHead.LineKept (head : RequestHead) : Prop :=
  head.target.length ≤ 502 ∨
    head.target.length = 503 ∧ head.minor = 0 ∨
    head.target.length = 504 ∧ head.minor = 1 ∨
    506 ≤ head.target.length ∧ head.target.length ≤ 511 ∧ head.minor = 1

/-- The body does not end in a byte of a line end; behind an empty body only such bytes stand, as far
as the body buffer reaches. -/
def SentRequest.BodyKept (sent : SentRequest) (rest : List UInt8) : Prop :=
  if sent.body = [] then ∀ c ∈ rest.take (httpMaxBody - 1), isCrLf c = true
  else ∀ c ∈ sent.body.getLast?, isCrLf c = false

section

variable {head : RequestHead} {req : HttpRequest} {raw rest : List UInt8} {line : CStr}

/-! ## What the parts of the parser leave alone -/

theorem parseHeaderLine_frame (req : HttpRequest) (bytes : List UInt8) :
    ∃ headers contentLength keepAlive, parseHeaderLine req bytes =
      { req with headers := headers, contentLength := contentLength, keepAlive := keepAlive } := by
  have hstore : ∀ h, ∃ headers contentLength keepAlive, storeHeader h req =
      { req with headers := headers, contentLength := contentLength, keepAlive := keepAlive } := by
    intro h
    obtain ⟨n, hn⟩ : ∃ n, (if strcasecmpSafe h.name (ascii "content-length") = .eq then
        { req with headers := req.headers ++ [h], contentLength := max (atoi h.value) 0 }
        else { req with headers := req.headers ++ [h] }) =
        { req with headers := req.headers ++ [h], contentLength := n } := by
      split
      · exact ⟨_, rfl⟩
      · exact ⟨req.contentLength, rfl⟩
    unfold storeHeader
    simp only [hn]
    split
    · split
      · exact ⟨_, _, _, rfl⟩
      · split
        · exact ⟨_, _, _, rfl⟩
        · exact ⟨_, _, _, rfl⟩
    · exact ⟨_, _, _, rfl⟩
  unfold parseHeaderLine
  simp only
  split
  · exact ⟨_, _, _, rfl⟩
  · split
    · exact hstore _
    · exact ⟨_, _, _, rfl⟩

theorem foldl_parseHeaderLine_frame (lines : List (List UInt8)) (req : HttpRequest) :
    ∃ headers contentLength keepAlive, lines.foldl parseHeaderLine req =
      { req with headers := headers, contentLength := contentLength, keepAlive := keepAlive } := by
  induction lines generalizing req with
  | nil => exact ⟨_, _, _, rfl⟩
  | cons line lines ih =>
    obtain ⟨headers, contentLength, keepAlive, hline⟩ := parseHeaderLine_frame req line
    obtain ⟨headers', contentLength', keepAlive', hlines⟩ := ih (parseHeaderLine req line)
    refine ⟨headers', contentLength', keepAlive', ?_⟩
    rw [List.foldl_cons, hlines, hline]

/-- The header lines change the headers and what is derived from them. -/
theorem httpParseHeaders_frame (raw : List UInt8) (req : HttpRequest) :
    ∃ headers contentLength keepAlive, httpParseHeaders raw req =
      { req with headers := headers, contentLength := contentLength, keepAlive := keepAlive } := by
  obtain ⟨headers, contentLength, keepAlive, hlines⟩ :=
    foldl_parseHeaderLine_frame (headerLines [] (behindLine raw)) req
  unfold httpParseHeaders
  simp only [hlines]
  split
  · split
    · exact ⟨_, _, _, rfl⟩
    · split
      · exact ⟨_, _, _, rfl⟩
      · exact ⟨_, _, _, rfl⟩
  · exact ⟨_, _, _, rfl⟩

/-- The body changes nothing else. -/
theorem httpParseBody_frame (raw : List UInt8) (req : HttpRequest) :
    ∃ body bodyExpected, httpParseBody raw req =
      { req with body := body, bodyExpected := bodyExpected } := by
  unfold httpParseBody
  split
  · exact ⟨_, _, rfl⟩
  · simp only
    split
    · exact ⟨_, _, rfl⟩
    · split
      · exact ⟨_, _, rfl⟩
      · exact ⟨_, _, rfl⟩

/-! ## The first line -/

theorem ofBuffer_head (head : RequestHead) (rest : List UInt8) :
    ofBuffer (head.render ++ rest) = head.render ++ ofBuffer rest :=
  ofBuffer_append (notMem_renderLines head.lines_unbroken)

theorem httpFirstLine_head (head : RequestHead) (rest : List UInt8) :
    httpFirstLine (head.render ++ rest) = some (cut 512 head.requestLine) := by
  have hsplit : head.render ++ ofBuffer rest = head.requestLine ++ 13 :: 10 ::
      (renderLines head.lines ++ crlf ++ ofBuffer rest) := by
    simp [RequestHead.render, renderLines, crlf]
  simp only [httpFirstLine, ofBuffer_head, hsplit, strstr_lineEnd head.requestLine_unbroken.cr]
  rw [List.length_append, Nat.add_sub_cancel, List.take_left]

/-- What the copy of the first line holds. -/
theorem cut_requestLine (head : RequestHead) : cut 512 head.requestLine =
    if head.target.length ≤ 510 then
      head.target ++ 32 :: head.version.take (510 - head.target.length)
    else head.target.take 511 := by
  have hline : head.requestLine = head.target ++ 32 :: head.version := by
    simp [RequestHead.requestLine, RequestHead.target]
  rw [cut, hline, List.take_append]
  split
  next hle =>
    have hroom : 512 - 1 - head.target.length = 510 - head.target.length + 1 := by omega
    rw [List.take_of_length_le (by omega), hroom, List.take_succ_cons]
  next hlong =>
    have hnone : 512 - 1 - head.target.length = 0 := by omega
    rw [hnone, List.take_zero, List.append_nil]

/-- A line without a second blank has no version. -/
theorem httpParseRequestLine_short {method uri : CStr} (hmethod : IsWord method)
    (huri : IsWord uri) : httpParseRequestLine (method ++ 32 :: uri) req =
      some { req with method := cut 16 method, uri := cut httpMaxUri uri } := by
  have hcr : 13 ∉ method ++ 32 :: uri := by simp [hmethod.cr, huri.cr]
  have hline : (method ++ 32 :: uri).takeWhile (· ≠ 13) = method ++ 32 :: uri := by
    rw [List.takeWhile_eq_self_iff]
    intro c hc
    rw [decide_eq_true_eq]
    exact fun h => hcr (h ▸ hc)
  have hfirst := takeWhile_word uri hmethod.blank
  have hstart : uri.dropWhile (· = 32) = uri := by
    have h := huri.dropWhile []
    rwa [List.append_nil] at h
  have hall : uri.takeWhile (· ≠ 32) = uri ∧ uri.dropWhile (· ≠ 32) = [] := by
    rw [List.takeWhile_eq_self_iff, List.dropWhile_eq_nil_iff]
    have hblank : ∀ c ∈ uri, decide (c ≠ 32) = true :=
      fun c hc => decide_eq_true (huri.blank c hc)
    exact ⟨hblank, hblank⟩
  rw [httpParseRequestLine]
  simp only [hline, hfirst.1, hfirst.2, hstart, hall.1, hall.2, List.drop_nil]
  rfl

theorem parseHttpVersion_short {p : CStr} (h : p.length < 5) : parseHttpVersion p req = req := by
  have hnot : startsWith (p.dropWhile (· = 32)) (ascii "HTTP/") = false := by
    rw [Bool.eq_false_iff]
    intro hprefix
    have hle := (List.isPrefixOf_iff_prefix.mp hprefix).length_le
    have hshort := (List.dropWhile_suffix (l := p) (decide <| · = 32)).length_le
    have hlit : (ascii "HTTP/").length = 5 := rfl
    omega
  unfold parseHttpVersion
  simp only [hnot]
  rfl

/-- What is read of the version when the copy holds `k` bytes of it. -/
theorem parseHttpVersion_take (head : RequestHead) (k : Nat) (req : HttpRequest)
    (hmajor : req.versionMajor = 1) (hminor : req.versionMinor = 1) :
    ∃ major minor, parseHttpVersion (head.version.take k) req =
        { req with versionMajor := major, versionMinor := minor } ∧
      (major = 1 ∧ minor = head.minor ↔
        8 ≤ k ∨ k = 7 ∧ head.minor = 0 ∨ k = 6 ∧ head.minor = 1 ∨ k ≤ 4 ∧ head.minor = 1) := by
  have hversion : head.version = ascii "HTTP/1.0" ∨ head.version = ascii "HTTP/1.1" :=
    head.version_cases.imp And.right And.right
  have hle := head.minor_le
  rcases (by omega : k ≤ 4 ∨ k = 5 ∨ k = 6 ∨ k = 7 ∨ 8 ≤ k) with hk | rfl | rfl | rfl | hk
  · refine ⟨req.versionMajor, req.versionMinor, ?_, ?_⟩
    · exact parseHttpVersion_short (by rw [List.length_take]; omega)
    · rw [hmajor, hminor]
      omega
  · refine ⟨0, req.versionMinor, ?_, by omega⟩
    rcases hversion with hv | hv <;> rw [hv] <;> rfl
  · refine ⟨1, req.versionMinor, ?_, by omega⟩
    rcases hversion with hv | hv <;> rw [hv] <;> rfl
  · refine ⟨1, 0, ?_, by omega⟩
    rcases hversion with hv | hv <;> rw [hv] <;> rfl
  · refine ⟨1, head.minor, ?_, iff_of_true ⟨rfl, rfl⟩ (Or.inl hk)⟩
    rcases head.version_cases with ⟨h0, hv⟩ | ⟨h1, hv⟩
    · rw [hv, h0, List.take_of_length_le hk, parseHttpVersion_zero]
      rfl
    · rw [hv, h1, List.take_of_length_le hk, parseHttpVersion_one]
      rfl

theorem isWord_take {word : CStr} (h : IsWord word) {n : Nat} (hn : 0 < n) :
    IsWord (word.take n) where
  ne_nil hnil := (List.take_eq_nil_iff.mp hnil).elim (by omega) h.ne_nil
  bytes c hc := h.bytes c (List.mem_of_mem_take hc)

/-- **The first line.** Method, URI and version are read from the copy exactly if `LineKept`. -/
theorem httpParseRequestLine_cut (head : RequestHead) (hmethod : head.method.length ≤ 15)
    (huri : head.uri.length < httpMaxUri) (req : HttpRequest) (hmajor : req.versionMajor = 1)
    (hminor : req.versionMinor = 1) :
    ∃ method uri major minor, httpParseRequestLine (cut 512 head.requestLine) req =
        some { req with
          method := method, uri := uri, versionMajor := major, versionMinor := minor } ∧
      (method = head.method ∧ uri = head.uri ∧ (major = 1 ∧ minor = head.minor) ↔
        head.LineKept) := by
  have hlength : head.target.length = head.method.length + head.uri.length + 1 := by
    rw [RequestHead.target, List.length_append, List.length_cons]
    omega
  have hfield : cut 16 head.method = head.method := cut_of_lt (by omega)
  rw [cut_requestLine]
  split
  next hle =>
    have hassoc : head.target ++ 32 :: head.version.take (510 - head.target.length) =
        head.method ++ 32 :: (head.uri ++ 32 :: head.version.take (510 - head.target.length)) := by
      simp [RequestHead.target]
    have hcr : 13 ∉ head.version.take (510 - head.target.length) :=
      fun hmem => head.version_word.cr (List.mem_of_mem_take hmem)
    obtain ⟨major, minor, hparse, hkept⟩ := parseHttpVersion_take head (510 - head.target.length)
      { req with method := cut 16 head.method, uri := cut httpMaxUri head.uri } hmajor hminor
    refine ⟨head.method, head.uri, major, minor, ?_, ?_⟩
    · rw [hassoc, httpParseRequestLine_words head.method_word head.uri_word hcr, hparse, hfield,
        cut_of_lt huri]
    · rw [eq_self, eq_self, true_and, true_and, hkept, RequestHead.LineKept]
      omega
  next hlong =>
    have htake : head.target.take 511 =
        head.method ++ 32 :: head.uri.take (510 - head.method.length) := by
      have hroom : 511 - head.method.length = 510 - head.method.length + 1 := by omega
      rw [RequestHead.target, List.take_append, List.take_of_length_le (by omega), hroom,
        List.take_succ_cons]
    have hword := isWord_take head.uri_word (n := 510 - head.method.length) (by omega)
    have hshort : (head.uri.take (510 - head.method.length)).length < httpMaxUri := by
      rw [List.length_take]
      omega
    refine ⟨head.method, head.uri.take (510 - head.method.length), req.versionMajor,
      req.versionMinor, ?_, ?_⟩
    · rw [htake, httpParseRequestLine_short head.method_word hword, hfield, cut_of_lt hshort]
    · rw [eq_self, true_and, List.take_eq_self_iff, hmajor, hminor, RequestHead.LineKept]
      omega

/-! ## The body -/

theorem render_length (head : RequestHead) : 4 ≤ head.render.length := by
  have hcrlf : crlf.length = 2 := rfl
  rw [RequestHead.render, renderLines, List.flatMap_cons, List.length_append, List.length_append,
    List.length_append, hcrlf]
  omega

/-- The body is looked for behind the head. -/
theorem httpParseBody_head (head : RequestHead) (bytes : List UInt8) (req : HttpRequest) :
    (httpParseBody (head.render ++ bytes) req).body =
      if bytes = [] then req.body
      else if 0 < req.contentLength then
        (bytes.take (min (min bytes.length req.contentLength.toNat)
          (httpMaxBody - 1))).rdropWhile isCrLf
      else (bytes.take (httpMaxBody - 1)).rdropWhile isCrLf := by
  have hfound : strstr (ofBuffer (head.render ++ bytes)) (ascii "\r\n\r\n") =
      some (ascii "\r\n\r\n" ++ ofBuffer bytes) := by
    rw [ofBuffer_head, RequestHead.render]
    exact strstr_renderLines (List.cons_ne_nil _ _) head.lines_unbroken (ofBuffer bytes)
  have hdrop : (head.render ++ bytes).drop ((ofBuffer (head.render ++ bytes)).length -
      (ascii "\r\n\r\n" ++ ofBuffer bytes).length + 4) = bytes := by
    have hfour := render_length head
    have hlit : (ascii "\r\n\r\n").length = 4 := rfl
    have hskip : (ofBuffer (head.render ++ bytes)).length -
        (ascii "\r\n\r\n" ++ ofBuffer bytes).length + 4 = head.render.length := by
      rw [ofBuffer_head, List.length_append, List.length_append, hlit]
      omega
    rw [hskip, List.drop_left]
  unfold httpParseBody
  simp only [hfound, hdrop]
  split
  · rfl
  · split
    · rfl
    · rfl

/-- **The body** is the one sent exactly if `BodyKept`. -/
theorem httpParseBody_sent_iff (sent : SentRequest) (rest : List UInt8)
    (hlength : req.contentLength = sent.body.length) (hempty : req.body = []) :
    (httpParseBody (sent.render ++ rest) req).body = sent.body ↔ sent.BodyKept rest := by
  have hassoc : sent.render ++ rest = sent.head.render ++ (sent.body ++ rest) :=
    List.append_assoc ..
  have hshort := sent.body_short
  rw [hassoc, httpParseBody_head, SentRequest.BodyKept, hlength]
  by_cases hbody : sent.body = []
  · rw [if_pos hbody, hbody, List.nil_append]
    by_cases hrest : rest = []
    · rw [if_pos hrest, hempty, hrest]
      exact iff_of_true rfl fun c hc => by cases hc
    · rw [if_neg hrest, if_neg (by simp), List.rdropWhile_eq_nil_iff]
  · have hpos := List.length_pos_of_ne_nil hbody
    have hsize : min (min (sent.body ++ rest).length (sent.body.length : Int).toNat)
        (httpMaxBody - 1) = sent.body.length := by
      rw [List.length_append, Int.toNat_natCast]
      omega
    rw [if_neg hbody, if_neg (List.append_ne_nil_of_left_ne_nil hbody rest),
      if_pos (Int.natCast_pos.mpr hpos), hsize, List.take_left, List.rdropWhile_eq_self_iff,
      List.getLast?_eq_some_getLast hbody]
    constructor
    · intro h c hc
      cases hc
      exact Bool.eq_false_iff.mpr (h hbody)
    · intro h hne
      exact Bool.eq_false_iff.mp (h _ rfl)

/-! ## The whole request -/

/-- The stated length is the length of the body. -/
theorem contentLength_sent (sent : SentRequest) (absent : Int) :
    (contentLengths sent.head.lines).getLastD absent = sent.body.length := by
  have hall : ∀ n ∈ contentLengths sent.head.lines, n = sent.body.length := by
    rw [contentLengths_eq sent.limits]
    intro n hn
    obtain ⟨f, hf, rfl⟩ := List.mem_map.mp hn
    obtain ⟨hne, hdigit, heq⟩ := sent.length_eq f hf
    have hshort := sent.body_short
    have hmax : httpMaxBody = 4096 := rfl
    rw [atoi_digits hne hdigit (by omega), heq]
    omega
  have hne : contentLengths sent.head.lines ≠ [] := by
    rw [contentLengths_eq sent.limits]
    exact fun h => sent.stated (List.map_eq_nil_iff.mp h)
  rw [List.getLastD_eq_getLast?, List.getLast?_eq_some_getLast hne]
  exact hall _ (List.getLast_mem hne)

end

/-- **Parsing undoes the rendering** exactly when the first line and the body come through. -/
theorem parsesBack_iff (sent : SentRequest) (rest : List UInt8) :
    sent.ParsesBack rest ↔ sent.head.LineKept ∧ sent.BodyKept rest := by
  have hassoc : sent.render ++ rest = sent.head.render ++ (sent.body ++ rest) :=
    List.append_assoc ..
  have hraw : sent.render ++ rest ≠ [] := by
    have hfour := render_length sent.head
    intro h
    rw [hassoc] at h
    have hlen := congrArg List.length h
    rw [List.length_append, List.length_nil] at hlen
    omega
  obtain ⟨method, uri, major, minor, hline, hkept⟩ := httpParseRequestLine_cut sent.head
    sent.method_short sent.uri_short httpRequestInit rfl rfl
  obtain ⟨req₁, hreq₁⟩ : ∃ req₁, req₁ = { httpRequestInit with
    method := method, uri := uri, versionMajor := major, versionMinor := minor } := ⟨_, rfl⟩
  have hnone : req₁.headers = [] := by rw [hreq₁]; rfl
  obtain ⟨headers, length, keepAlive, hheaders⟩ :=
    httpParseHeaders_frame (sent.render ++ rest) req₁
  obtain ⟨-, hlength⟩ := httpParseHeaders_head sent.limits hnone (sent.body ++ rest)
  rw [← hassoc, contentLength_sent] at hlength
  have hempty : (httpParseHeaders (sent.render ++ rest) req₁).body = [] := by
    rw [hheaders, hreq₁]
    rfl
  obtain ⟨body, expected, hbody⟩ :=
    httpParseBody_frame (sent.render ++ rest) (httpParseHeaders (sent.render ++ rest) req₁)
  have hparse : httpParseRequest (sent.render ++ rest) =
      some (httpParseBody (sent.render ++ rest) (httpParseHeaders (sent.render ++ rest) req₁)) := by
    rw [httpParseRequest, if_neg hraw, hassoc, httpFirstLine_head, Option.bind_some, hline,
      Option.map_some, ← hreq₁]
  have hkeeps : (httpParseBody (sent.render ++ rest)
      (httpParseHeaders (sent.render ++ rest) req₁)).method = method ∧
      (httpParseBody (sent.render ++ rest)
        (httpParseHeaders (sent.render ++ rest) req₁)).uri = uri ∧
      (httpParseBody (sent.render ++ rest)
        (httpParseHeaders (sent.render ++ rest) req₁)).versionMajor = major ∧
      (httpParseBody (sent.render ++ rest)
        (httpParseHeaders (sent.render ++ rest) req₁)).versionMinor = minor := by
    rw [hbody, hheaders, hreq₁]
    exact ⟨rfl, rfl, rfl, rfl⟩
  obtain ⟨hmethod, huri, hmajor, hminor⟩ := hkeeps
  rw [← hkept, ← httpParseBody_sent_iff sent rest hlength hempty, SentRequest.ParsesBack, hparse]
  constructor
  · rintro ⟨req, hreq, hm, hu, ⟨hv, hw⟩, hb⟩
    obtain rfl := Option.some.inj hreq
    exact ⟨⟨hmethod.symm.trans hm, huri.symm.trans hu, hmajor.symm.trans hv,
      hminor.symm.trans hw⟩, hb⟩
  · rintro ⟨⟨hm, hu, hv, hw⟩, hb⟩
    exact ⟨_, rfl, hmethod.trans hm, huri.trans hu, ⟨hmajor.trans hv, hminor.trans hw⟩, hb⟩

/-! ### A body that ends in a line end -/

/-- `Content-Length` of `n`. -/
def lengthLine (n : Nat) : CStr := ascii "Content-Length: " ++ decimal n

theorem textLines_unbroken : ∀ line ∈ [lengthLine 3], Unbroken line := by
  intro line hline
  have hall : ∀ line ∈ [lengthLine 3], line ≠ [] ∧ 0 ∉ line ∧ 13 ∉ line := by decide +kernel
  obtain ⟨hne, h0, hcr⟩ := hall line hline
  exact ⟨hne, h0, hcr⟩

theorem version_one_le : 1 ≤ 1 := Nat.le_refl 1

def textHead : RequestHead where
  method := ascii "GET"
  uri := ascii "/"
  minor := 1
  lines := [lengthLine 3]
  method_word := isWord_get
  uri_word := isWord_root
  minor_le := version_one_le
  unbroken := textLines_unbroken

theorem textHead_inLimits : textHead.InLimits := by
  constructor
  · decide +kernel
  · decide +kernel
  · decide +kernel
  · decide +kernel

theorem textHead_stated : textHead.named (ascii "content-length") ≠ [] ∧
    ∀ f ∈ textHead.named (ascii "content-length"), f.value ≠ [] ∧
      (∀ c ∈ f.value, isDigit c = true) ∧ digits f.value = 3 := by
  decide +kernel

theorem textHead_short : textHead.method.length ≤ 15 ∧ textHead.uri.length < httpMaxUri := by
  decide +kernel

/-- `hi` and a line end. -/
def textRequest : SentRequest where
  head := textHead
  body := [104, 105, 10]
  limits := textHead_inLimits
  method_short := textHead_short.1
  uri_short := textHead_short.2
  body_short := by decide
  stated := textHead_stated.1
  length_eq := textHead_stated.2

/-- The line end at the end of the body is lost. -/
theorem lineEnd_stripped : ¬textRequest.ParsesBack [] := by
  rintro ⟨req, hreq, -, -, -, hbody⟩
  have hparsed : (httpParseRequest (textRequest.render ++ [])).map (·.body) =
      some [104, 105] := by decide +kernel
  rw [hreq, Option.map_some, hbody] at hparsed
  exact absurd (Option.some.inj hparsed) (by decide)

end MiniWeb.FrontEnd
