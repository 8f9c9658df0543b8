import MiniWeb.Routing.Allow
import MiniWeb.RequestHandler.Processors

/-!
# Where the two processors agree

`request_handler.h` gives one list of routes for both processors. `request_handler_process` has no
branch for `GET /users/<name>`, although the list has that route, and `/user/` with a name that
decodes to nothing is not found by one processor and refused by the other. It prints the users into a
pipe, where the handler formats them into its buffer, so that a long list is reported over HTTP only.
On every other request of the list the two make the same change to the store and report the same
outcome.
-/

namespace MiniWeb.RequestHandler

open Loop CStr RedBlack SessionStore UserStore Routing

/-- The prefixes behind `/users/` that both processors know. -/
def longerPrefixes : List CStr :=
  [ascii "/users/find-index/", ascii "/users/compare-verbose/", ascii "/users/compare/"]

/-- The text that `request_handler_process` prints for a request. -/
def printedText (console : Console) (s : Store) (method path : CStr) : Option CStr :=
  if method ≠ ascii "GET" then none
  else if path = ascii "/users" then some (indexLines s)
  else if ascii "/users/compare-verbose/" <+: path then
    some (console.comparison (urlDecodePath (path.drop 23)) true s)
  else if ascii "/users/compare/" <+: path then
    some (console.comparison (urlDecodePath (path.drop 15)) false s)
  else none

/-- Both processors return, with the same outcome and the same store. -/
def Agree (console : Console) (size : Nat) (creds : Credentials) (now : Int) (sessions : Table)
    (req : BodyRequest) (s : Store) : Prop :=
  ∃ r, requestHandlerProcess console size req s = some r ∧
    processHttpDefaults console creds now sessions req s = some r

/-! ## Prefixes -/

theorem strncmp_eq_iff {s t : CStr} {n : Nat} (hn : t.length = n) :
    strncmp s t n = .eq ↔ t <+: s := by
  rw [strncmp, strcmp_eq_iff, List.prefix_iff_eq_take, hn, List.take_of_length_le hn.le]
  exact eq_comm

/-! The lengths that the chain counts by hand are right. -/

section Lengths

variable {path : CStr}

@[simp] theorem strncmp_findIndex :
    strncmp path (ascii "/users/find-index/") 18 = .eq ↔ ascii "/users/find-index/" <+: path :=
  strncmp_eq_iff rfl

@[simp] theorem strncmp_compareVerbose :
    strncmp path (ascii "/users/compare-verbose/") 23 = .eq ↔
      ascii "/users/compare-verbose/" <+: path :=
  strncmp_eq_iff rfl

@[simp] theorem strncmp_compare :
    strncmp path (ascii "/users/compare/") 15 = .eq ↔ ascii "/users/compare/" <+: path :=
  strncmp_eq_iff rfl

@[simp] theorem strncmp_user : strncmp path (ascii "/user/") 6 = .eq ↔ ascii "/user/" <+: path :=
  strncmp_eq_iff rfl

@[simp] theorem strncmp_users :
    strncmp path (ascii "/users/") 7 = .eq ↔ ascii "/users/" <+: path :=
  strncmp_eq_iff rfl

end Lengths

/-- Two prefixes of one path are prefixes of each other. -/
theorem prefix_excludes {p q path : CStr} (hp : p <+: path) (hpq : ¬p <+: q) (hqp : ¬q <+: p) :
    ¬q <+: path := by
  intro hq
  obtain h | h := List.prefix_or_prefix_of_prefix hp hq
  · exact hpq h
  · exact hqp h

theorem path_ne_of {p q path : CStr} (hp : p <+: path) (hq : ¬p <+: q) : path ≠ q := by
  rintro rfl
  exact hq hp

theorem drop_eq_nil_iff {p path : CStr} (hp : p <+: path) : path.drop p.length = [] ↔ p = path := by
  obtain ⟨rest, rfl⟩ := hp
  rw [List.drop_left, List.self_eq_append_right]

/-! ## The default routes -/

theorem longerPrefixes_below : ∀ p ∈ longerPrefixes, ascii "/users/" <+: p := by
  decide

/-- None of the longer prefixes is below another or about `/user/`. -/
theorem longerPrefixes_apart :
    ∀ p ∈ longerPrefixes, (∀ q ∈ longerPrefixes, p <+: q → p = q) ∧
      ¬ascii "/user/" <+: p ∧ ¬p <+: ascii "/user/" := by
  decide

section

variable {console : Console} {size : Nat} {creds : Credentials} {now : Int} {sessions : Table}
  {req : BodyRequest} {s : Store} {X : ColorTree Off} {L : List Off} {e : RouteEntry}
  {captured : CStr}

/-- The handler of a public route is called. -/
theorem requestHandlerProcessHttp_found {rt : RouteTable} {r : FindResult}
    (hfind : routeTableFind rt req.method req.path = some r) (h405 : r.is405 = false)
    (hentry : r.entry = some e) (hrole : e.requiredRole = []) :
    requestHandlerProcessHttp rt creds req.toRequest now sessions =
      some (callHandler e r.captured, sessions) := by
  rw [requestHandlerProcessHttp, hfind, Option.bind_some, h405]
  simp only [Bool.false_eq_true, if_false, hentry, hrole, ne_eq, not_true_eq_false]

theorem withName_of_ne {handle : CStr → Option (Outcome × Store)} (h : captured ≠ []) :
    withName captured s handle = handle (urlDecodePath captured) := if_neg h

theorem withName_nil {handle : CStr → Option (Outcome × Store)} :
    withName [] s handle = some (.undefined, s) := if_pos rfl

/-- A branch that prints waits for ever exactly if the pipe does not hold its text. -/
theorem captureReply_eq_none_iff {printed : CStr} {o : Outcome} :
    captureReply console size printed o s = none ↔ console.Blocks printed := by
  rw [captureReply, Option.map_eq_none_iff, captureStdout_eq_none_iff]

/-- What a branch reports of a captured text. -/
theorem captureReply_cases {printed : CStr} {o : Outcome} {r : Outcome × Store}
    (h : captureReply console size printed o s = some r) : r = (o, s) ∨ r = (.failed, s) := by
  rw [captureReply] at h
  obtain ⟨cap, -, rfl⟩ := Option.map_eq_some_iff.mp h
  split
  · split
    · exact .inl rfl
    · exact .inr rfl
  · exact .inr rfl

/-- The branches of `request_handler_process` for a `GET` of `/users/`. -/
theorem requestHandlerProcess_users (hmethod : req.method = ascii "GET")
    (hpath : ascii "/users/" <+: req.path) :
    requestHandlerProcess console size req s =
      if ascii "/users/find-index/" <+: req.path then
        reportUser (urlDecodePath (req.path.drop 18)) s
          (userStoreFindIndex s (urlDecodePath (req.path.drop 18)))
      else if ascii "/users/compare-verbose/" <+: req.path then
        captureReply console size
          (console.comparison (urlDecodePath (req.path.drop 23)) true s)
          (.compared (urlDecodePath (req.path.drop 23)) true) s
      else if ascii "/users/compare/" <+: req.path then
        captureReply console size
          (console.comparison (urlDecodePath (req.path.drop 15)) false s)
          (.compared (urlDecodePath (req.path.drop 15)) false) s
      else some (.notServed, s) := by
  have hhello : req.path ≠ ascii "/hello" := path_ne_of hpath (by decide)
  have husers : req.path ≠ ascii "/users" := path_ne_of hpath (by decide)
  have huser : ¬ascii "/user/" <+: req.path := prefix_excludes hpath (by decide) (by decide)
  have hpost : ¬ascii "GET" = ascii "POST" := by decide
  have hdelete : ¬ascii "GET" = ascii "DELETE" := by decide
  rw [requestHandlerProcess]
  simp only [strcmp_eq_iff, strncmp_findIndex, strncmp_compareVerbose, strncmp_compare,
    strncmp_user, hmethod, hhello, husers, huser, hpost, hdelete, and_false, false_and, true_and,
    if_false]

/-- Only one of the longer prefixes is one of the path. -/
theorem longer_unique {p q path : CStr} (hp : p ∈ longerPrefixes) (hq : q ∈ longerPrefixes)
    (hpq : p ≠ q) (hpath : p <+: path) : ¬q <+: path :=
  prefix_excludes hpath (fun h => hpq ((longerPrefixes_apart p hp).1 q hq h))
    fun h => hpq ((longerPrefixes_apart q hq).1 p hp h).symm

theorem printedText_get {path : CStr} : printedText console s (ascii "GET") path =
    if path = ascii "/users" then some (indexLines s)
    else if ascii "/users/compare-verbose/" <+: path then
      some (console.comparison (urlDecodePath (path.drop 23)) true s)
    else if ascii "/users/compare/" <+: path then
      some (console.comparison (urlDecodePath (path.drop 15)) false s)
    else none := if_neg (not_not_intro rfl)

theorem printedText_eq_none_iff {path : CStr} :
    printedText console s (ascii "GET") path = none ↔
      path ≠ ascii "/users" ∧ ¬ascii "/users/compare-verbose/" <+: path ∧
        ¬ascii "/users/compare/" <+: path := by
  rw [printedText_get]
  split_ifs with hlist hverbose hcompare
  · exact iff_of_false (fun h => by cases h) fun h => h.1 hlist
  · exact iff_of_false (fun h => by cases h) fun h => h.2.1 hverbose
  · exact iff_of_false (fun h => by cases h) fun h => h.2.2 hcompare
  · exact iff_of_true rfl ⟨hlist, hverbose, hcompare⟩

end

/-- Nothing is printed but for a `GET`. -/
theorem printedText_of_ne {console : Console} {s : Store} {method path : CStr}
    (h : method ≠ ascii "GET") : printedText console s method path = none := if_pos h

end MiniWeb.RequestHandler
