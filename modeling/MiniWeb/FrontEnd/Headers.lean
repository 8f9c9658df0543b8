import Mathlib.Data.List.DropRight
import MiniWeb.Lib.CText

/-!
# The header scans

`epoll_server_run` and `request_handler_handle_connection` hold the same six scans, one for each
header they read. Three are byte loops over the `n` bytes received, three are `strstr` calls on
the buffer as a C string; all of them run over the whole buffer. A scan that succeeds leaves a
pointer behind the header's name, here the list of the bytes from there on.
-/

namespace MiniWeb.FrontEnd

open CStr Search

/-! ## The byte loops -/

def contentTypePattern : List (List UInt8) :=
  ["\n\r", "Cc", "oO", "nN", "tT", "eE", "nN", "tT", "-", "Tt", "yY", "pP", "eE", ":"].map ascii

/-- The `h` is tested in lower case only. -/
def contentLengthPattern : List (List UInt8) :=
  ["\n\r", "Cc", "oO", "nN", "tT", "eE", "nN", "tT", "-", "Ll", "eE", "nN", "gG", "tT", "h",
    ":"].map ascii

def hostPattern : List (List UInt8) := ["\n\r", "Hh", "Oo", "Ss", "Tt", ":"].map ascii

/-- The loop `while (p < recv_buf + limit - 14)`: `ct_start` and `cl_start`. -/
def scanContent :
    List UInt8 → Option (List UInt8) × Option (List UInt8) →
      Option (List UInt8) × Option (List UInt8)
  | [], found => found
  | c :: p, (ctStart, clStart) =>
    if (c :: p).length < 15 then (ctStart, clStart)
    else if matchesAt contentTypePattern (c :: p) then
      scanContent p (some ((c :: p).drop 14), clStart)
    else if matchesAt contentLengthPattern (c :: p) then
      scanContent p (ctStart, some ((c :: p).drop 16))
    else scanContent p (ctStart, clStart)

/-- `ct_start`. -/
def contentTypeStart (recvBuf : List UInt8) : Option (List UInt8) :=
  (scanContent recvBuf (none, none)).1

/-- `cl_start`. -/
def contentLengthStart (recvBuf : List UInt8) : Option (List UInt8) :=
  (scanContent recvBuf (none, none)).2

/-- The loop `while (p < recv_buf + limit - 6)`, left at the first match. -/
def hostStart (recvBuf : List UInt8) : Option (List UInt8) :=
  (first? hostPattern 7 recvBuf).map (·.drop 6)

/-! ## The `strstr` calls -/

/-- `ck`. -/
def cookieStart (recvBuf : List UInt8) : Option (List UInt8) :=
  ((strstr (ofBuffer recvBuf) (ascii "Cookie:")).or
    (strstr (ofBuffer recvBuf) (ascii "cookie:"))).map (·.drop 7)

/-- `auth_start`. -/
def authorizationStart (recvBuf : List UInt8) : Option (List UInt8) :=
  ((strstr (ofBuffer recvBuf) (ascii "Authorization:")).or
    (strstr (ofBuffer recvBuf) (ascii "authorization:"))).map (·.drop 14)

def hasKeepAlive (haystack : CStr) : Bool :=
  (strstr haystack (ascii "Connection: keep-alive")).isSome ||
    (strstr haystack (ascii "Connection: Keep-Alive")).isSome ||
    (strstr haystack (ascii "connection: keep-alive")).isSome ||
    (strstr haystack (ascii "connection: Keep-Alive")).isSome

def hasClose (haystack : CStr) : Bool :=
  (strstr haystack (ascii "Connection: close")).isSome ||
    (strstr haystack (ascii "Connection: Close")).isSome ||
    (strstr haystack (ascii "connection: close")).isSome ||
    (strstr haystack (ascii "connection: Close")).isSome

/-! ## The values -/

/-- `c == ' ' || c == '\t'`. -/
def isBlank (c : UInt8) : Bool := c = 32 ∨ c = 9

/-- `c != '\0' && c != '\r' && c != '\n'`. -/
def inLine (c : UInt8) : Bool := c ≠ 0 ∧ c ≠ 13 ∧ c ≠ 10

/-- The value at a pointer: blanks skipped, then the rest of the line as far as the field holds
it. -/
def lineValue (size : Nat) (p : List UInt8) : CStr :=
  cut size ((p.dropWhile isBlank).takeWhile inLine)

/-- Blanks at the end overwritten with NULs. -/
def trimEnd (s : CStr) : CStr := s.rdropWhile isBlank

/-- `req.content_type`. -/
def contentType (recvBuf : List UInt8) : CStr :=
  match contentTypeStart recvBuf with
  | some ctStart => trimEnd (lineValue 64 ctStart)
  | none => []

/-- `req.content_length_hdr`. -/
def contentLengthHdr (recvBuf : List UInt8) : Int :=
  match contentLengthStart recvBuf with
  | some clStart => max (atoi (ofBuffer (clStart.dropWhile isBlank))) 0
  | none => -1

/-- `req.keep_alive`, read by `epoll_server_run` only. -/
def keepAlive (recvBuf : List UInt8) : Bool :=
  let haystack := ofBuffer recvBuf
  let closeAfter :=
    if (strstr haystack (ascii "HTTP/1.0")).isSome then !hasKeepAlive haystack
    else hasClose haystack
  !closeAfter

/-- `req.cookie`. -/
def cookie (recvBuf : List UInt8) : CStr :=
  match cookieStart recvBuf with
  | some ck => lineValue 512 ck
  | none => []

/-- `req.authorization`. -/
def authorization (recvBuf : List UInt8) : CStr :=
  match authorizationStart recvBuf with
  | some authStart => trimEnd (lineValue 256 authStart)
  | none => []

/-- `host_buf`, without the port; empty where there is no `Host` line. -/
def hostBuf (recvBuf : List UInt8) : CStr :=
  match hostStart recvBuf with
  | some hp => (trimEnd (lineValue 256 hp)).takeWhile (· ≠ 58)
  | none => []

/-! ## The two content headers are searched for independently -/

theorem not_both_content {p : List UInt8} (h : matchesAt contentTypePattern p = true) :
    matchesAt contentLengthPattern p = false := by
  by_contra h'
  rw [Bool.not_eq_false] at h'
  have hT : contentTypePattern[9]? = some (ascii "Tt") := by decide
  have hL : contentLengthPattern[9]? = some (ascii "Ll") := by decide
  obtain ⟨c, hc, hp⟩ := getElem?_of_matchesAt h hT
  obtain ⟨c', hc', hp'⟩ := getElem?_of_matchesAt h' hL
  rw [hp, Option.some.injEq] at hp'
  subst hp'
  have disjoint : ∀ c ∈ ascii "Tt", c ∉ ascii "Ll" := by decide
  exact disjoint c hc hc'

theorem scanContent_eq {p : List UInt8} {ctStart clStart : Option (List UInt8)} :
    scanContent p (ctStart, clStart)
      = (((last? contentTypePattern 15 p).map (·.drop 14)).or ctStart,
        ((last? contentLengthPattern 15 p).map (·.drop 16)).or clStart) := by
  induction p generalizing ctStart clStart with
  | nil => simp [scanContent, last?]
  | cons c p ih =>
    rw [scanContent]
    by_cases hm : (c :: p).length < 15
    · rw [if_pos hm, last?_short hm, last?_short hm, Option.map_none, Option.map_none,
        Option.none_or, Option.none_or]
    · rw [if_neg hm]
      by_cases hct : matchesAt contentTypePattern (c :: p) = true
      · rw [if_pos hct, ih, last?_cons_of_matchesAt hct hm,
          last?_cons_of_not (not_both_content hct)]
        cases last? contentTypePattern 15 p <;> rfl
      · rw [if_neg hct]
        rw [Bool.not_eq_true] at hct
        rw [last?_cons_of_not hct]
        by_cases hcl : matchesAt contentLengthPattern (c :: p) = true
        · rw [if_pos hcl, ih, last?_cons_of_matchesAt hcl hm]
          cases last? contentLengthPattern 15 p <;> rfl
        · rw [if_neg hcl, ih]
          rw [Bool.not_eq_true] at hcl
          rw [last?_cons_of_not hcl]

theorem contentTypeStart_eq {recvBuf : List UInt8} :
    contentTypeStart recvBuf = (last? contentTypePattern 15 recvBuf).map (·.drop 14) := by
  rw [contentTypeStart, scanContent_eq, Option.or_none]

theorem contentLengthStart_eq {recvBuf : List UInt8} :
    contentLengthStart recvBuf = (last? contentLengthPattern 15 recvBuf).map (·.drop 16) := by
  rw [contentLengthStart, scanContent_eq]
  exact Option.or_none

/-! ## A match and a value end where their line ends -/

/-- No class but the first has a byte that ends a line. -/
structure LinePattern (pat : List (List UInt8)) : Prop where
  long : 2 ≤ pat.length
  inLine : ∀ cls ∈ pat.tail, ∀ c ∈ cls, inLine c = true

theorem linePattern_contentType : LinePattern contentTypePattern := ⟨by decide, by decide⟩

theorem linePattern_contentLength : LinePattern contentLengthPattern := ⟨by decide, by decide⟩

theorem linePattern_host : LinePattern hostPattern := ⟨by decide, by decide⟩

theorem LinePattern.ne_nil {pat : List (List UInt8)} (hpat : LinePattern pat) : pat ≠ [] := by
  intro h
  have := hpat.long
  simp [h] at this

/-- A byte that ends a line is a fence. -/
theorem LinePattern.fence {pat : List (List UInt8)} (hpat : LinePattern pat) {d : UInt8}
    (hd : FrontEnd.inLine d = false) : ∀ cls ∈ pat.tail, d ∉ cls := by
  intro cls hcls hmem
  rw [hpat.inLine cls hcls d hmem] at hd
  exact absurd hd (by decide)

theorem isBlank_of_not_inLine {d : UInt8} (hd : inLine d = false) : isBlank d = false := by
  by_contra h
  rw [Bool.not_eq_false] at h
  simp only [isBlank, decide_eq_true_eq] at h
  rcases h with h | h <;> subst h <;> exact absurd hd (by decide)

theorem lineValue_append {size : Nat} {x y : List UInt8} {d : UInt8} (hd : inLine d = false) :
    lineValue size (x ++ d :: y) = lineValue size x := by
  have htake : ∀ x : List UInt8, (x ++ d :: y).takeWhile inLine = x.takeWhile inLine := by
    intro x
    induction x with
    | nil => simp [hd]
    | cons c x ih => simp only [List.cons_append, List.takeWhile_cons, ih]
  have hdrop : ((x ++ d :: y).dropWhile isBlank).takeWhile inLine
      = (x.dropWhile isBlank).takeWhile inLine := by
    induction x with
    | nil => simp [isBlank_of_not_inLine hd, hd]
    | cons c x ih =>
      by_cases hc : isBlank c = true
      · rw [List.cons_append, List.dropWhile_cons_of_pos hc, List.dropWhile_cons_of_pos hc, ih]
      · rw [List.cons_append, List.dropWhile_cons_of_neg hc, List.dropWhile_cons_of_neg hc]
        exact htake (c :: x)
  rw [lineValue, lineValue, hdrop]

theorem isSpace_of_isBlank {c : UInt8} (h : isBlank c = true) : isSpace c = true := by
  simp only [isBlank, decide_eq_true_eq] at h
  rcases h with h | h <;> subst h <;> decide

/-- `atoi` skips the blanks that the source skips before it. -/
theorem atoi_dropWhile_isBlank {p : List UInt8} :
    atoi (ofBuffer (p.dropWhile isBlank)) = atoi (ofBuffer p) := by
  induction p with
  | nil => rfl
  | cons c p ih =>
    by_cases hc : isBlank c = true
    · have hs := isSpace_of_isBlank hc
      have h0 : c ≠ 0 := by
        intro h
        subst h
        exact absurd hs (by decide)
      have hcons : ofBuffer (c :: p) = [c] ++ ofBuffer p := by simp [ofBuffer, h0]
      rw [List.dropWhile_cons_of_pos hc, ih, hcons, atoi_space_append (by simp [hs])]
    · rw [List.dropWhile_cons_of_neg hc]

/-! ## The fields of the byte loops -/

theorem contentType_eq (recvBuf : List UInt8) :
    contentType recvBuf = ((last? contentTypePattern 15 recvBuf).map
      fun p => trimEnd (lineValue 64 (p.drop 14))).getD [] := by
  rw [contentType, contentTypeStart_eq]
  cases last? contentTypePattern 15 recvBuf <;> rfl

theorem contentLengthHdr_eq (recvBuf : List UInt8) :
    contentLengthHdr recvBuf = ((last? contentLengthPattern 15 recvBuf).map
      fun p => max (atoi (ofBuffer (p.drop 16))) 0).getD (-1) := by
  rw [contentLengthHdr, contentLengthStart_eq]
  cases last? contentLengthPattern 15 recvBuf with
  | none => rfl
  | some p =>
    simp only [Option.map_some, Option.getD_some]
    rw [atoi_dropWhile_isBlank]

theorem hostBuf_eq (recvBuf : List UInt8) :
    hostBuf recvBuf = ((first? hostPattern 7 recvBuf).map
      fun p => (trimEnd (lineValue 256 (p.drop 6))).takeWhile (· ≠ 58)).getD [] := by
  rw [hostBuf, hostStart]
  cases first? hostPattern 7 recvBuf <;> rfl

end MiniWeb.FrontEnd
