import MiniWeb.RequestHandler.Responses
import MiniWeb.RequestHandler.SameOutcome
import MiniWeb.UserStore.Agreement

/-!
# Responses that do not fit

By its header `request_handler_process_http` answers `-1` for a response that is longer than the
buffer, and a 404 is for what is not there. A handler has one answer for both, so a response that
does not fit becomes a 404 as long as that one fits. `rightlyAnswered_iff` says for which requests
the two are kept apart.
-/

namespace MiniWeb.RequestHandler

open Loop CStr SessionStore UserStore RedBlack Routing FrontEnd

/-- A 404, by its status line. -/
def IsNotFound (w : Written) : Prop := w.lines.head? = some Status.notFound.line

/-- No user of the store has the name. -/
def NoUser (s : Store) (name : CStr) : Prop := ∀ a ∈ liveNodes s.shm, recordName s.shm a ≠ name

/-- The user or the file the request is about does not exist. -/
def Missing (env : Surroundings) (s : Store) (req : HttpRequest) (captured : CStr) :
    HandlerType → Prop
  | .userFindIndex => NoUser s (urlDecodePath captured)
  | .userByName => NoUser s (urlDecodePath captured)
  | .userSimpleFind => NoUser s (urlDecodePath captured)
  | .userDelete => NoUser s (urlDecodePath captured)
  | .deleteForm => ∃ value ∈ formValue req.body, NoUser s (nameBuf value)
  | .blog => env.files (servedPath (ascii "blog") (req.path.drop 5)) = none
  | .static => env.files (servedPath env.currentRoot req.path) = none
  | _ => False

/-- A file that exists is not served: it is empty, or as long as the body buffer. -/
def Unserved (files : CStr → Option (List UInt8)) (filepath : CStr) : Prop :=
  ∃ file ∈ files filepath, file.length = 0 ∨ bodyMax ≤ file.length

/-- The user or the file exists, and the handler does not find it. -/
def Overlooked (env : Surroundings) (s : Store) (req : HttpRequest) (captured : CStr) :
    HandlerType → Prop
  | .userFindIndex => ¬NoUser s (urlDecodePath captured) ∧ captured ≠ [] ∧
      userStoreFindIndex s (urlDecodePath captured) = some 0
  | .blog => httpIsSafePath req.path = true ∧ req.path ≠ ascii "/blog" ∧
      Unserved env.files (servedPath (ascii "blog") (req.path.drop 5))
  | .static => httpIsSafePath req.path = true ∧
      Unserved env.files (servedPath env.currentRoot req.path)
  | _ => False

section

variable (env : Surroundings) (rt : RouteTable) (req : HttpRequest) (size : Nat) (site : Site)

/-- The decision on the request, with the sessions it leaves. -/
def decided : Option (Decision × Table) :=
  requestHandlerProcessHttp rt (site.credentials env) req.bodyRequest.toRequest env.authTime
    site.sessions

/-- The handler of the entry is called, and this is its answer. -/
def Serves (e : RouteEntry) (captured : CStr) (answer : Answer) : Prop :=
  0 < size ∧ ∃ sessions site', decided env rt req site = some (.invoke e captured, sessions) ∧
    serve env e.handler req captured size { site with sessions := sessions } = some (answer, site')

/-- No route matches. -/
def Unrouted : Prop :=
  ∃ result, routeTableFind rt req.method req.path = some result ∧ result.is405 = false ∧
    result.entry = none

/-- A response of a handler that does not fit is answered with `-1`, and a 404 is about something
that is not there. -/
structure RightlyAnswered : Prop where
  overflow : ∀ e captured answer w, Serves env rt req size site e captured answer →
    answer.response = some w → size ≤ w.bytes.length →
      ∃ site', processHttp env rt req size site = some (.failed, site')
  notFound : ∀ w site', processHttp env rt req size site = some (.replied w, site') ∨
      processHttp env rt req size site = some (.cutOff w, site') → IsNotFound w →
    Unrouted rt req ∨ ∃ e captured answer, Serves env rt req size site e captured answer ∧
      Missing env site.store req captured e.handler

/-- The 404 at the end does not fit. -/
def NoRoomForFallback : Prop := size ≤ (fallbackResponse req).bytes.length

/-- The answer of a handler is passed on, or becomes `-1` where it has to. -/
def Conforms (overlooked : Prop) : Answer → Prop
  | .built w => w.bytes.length < size ∧ ¬overlooked ∨
      size ≤ w.bytes.length ∧ NoRoomForFallback req size
  | .printed w => w.bytes.length < size ∧ ¬overlooked
  | .declined => ¬overlooked ∨ NoRoomForFallback req size

/-- The requests for which this is so: the handler's response fits and nothing was overlooked, or
not even a 404 fits; and the route that matches has a handler. -/
structure KeptApart : Prop where
  served : ∀ e captured answer, Serves env rt req size site e captured answer →
    Conforms req size (Overlooked env site.store req captured e.handler) answer
  handled : ∀ sessions, decided env rt req site = some (.notFound, sessions) →
    Unrouted rt req ∨ NoRoomForFallback req size

end

/-! ## Which answers are 404s -/

/-- The answer is a 404 or becomes one. -/
def Answer.Absent : Answer → Prop
  | .built w => IsNotFound w
  | .printed w => IsNotFound w
  | .declined => True

section

variable {env : Surroundings} {req : HttpRequest} {s : Store} {site site' : Site}
  {answer : Answer} {captured : CStr} {size : Nat}

theorem line_eq_notFound {status : Status} :
    status.line = Status.notFound.line ↔ status = .notFound := by
  cases status <;> decide

theorem text_absent {status : Status} {body : CStr} :
    (text status body).Absent ↔ status = .notFound := by
  change some status.line = some Status.notFound.line ↔ _
  rw [Option.some.injEq, line_eq_notFound]

theorem document_notFound {status : Status} {ct : ContentType} {body : List UInt8} {keep : Bool}
    {date : HttpDate} :
    IsNotFound (documentResponse status ct body keep date) ↔ status = .notFound := by
  change some status.line = some Status.notFound.line ↔ _
  rw [Option.some.injEq, line_eq_notFound]

theorem page_absent {status : Status} {body : CStr} {keep : Bool} :
    (page env status body keep).Absent ↔ status = .notFound := document_notFound

/-- A response with a first line of its own. -/
theorem not_isNotFound {w : Written} (line : CStr) (h : w.lines.head? = some line)
    (hline : line ≠ Status.notFound.line) : ¬IsNotFound w := by
  intro hw
  rw [IsNotFound, h, Option.some.injEq] at hw
  exact hline hw

/-! ### Users -/

/-- The outcomes that are reported with a 404. -/
def Outcome.Absent : Outcome → Prop
  | .notFound _ => True
  | .noSuchUser => True
  | _ => False

theorem outcomeAnswer_absent {o : Outcome} (h : outcomeAnswer env s o = some answer)
    (habsent : answer.Absent) : o.Absent := by
  have hstatus : ∀ {status : Status} {body : CStr}, text status body = answer →
      status = .notFound := by
    rintro status body rfl
    exact text_absent.mp habsent
  cases o with
  | notFound name => exact trivial
  | noSuchUser => exact trivial
  | listed =>
    obtain ⟨body, -, hbody⟩ := Option.map_eq_some_iff.mp h
    cases hstatus hbody
  | compared name verbose => cases hstatus (Option.some.inj h)
  | hello => cases hstatus (Option.some.inj h)
  | found user => cases hstatus (Option.some.inj h)
  | added => cases hstatus (Option.some.inj h)
  | «exists» => cases hstatus (Option.some.inj h)
  | deleted => cases hstatus (Option.some.inj h)
  | error body => cases hstatus (Option.some.inj h)
  | internalServerError => cases hstatus (Option.some.inj h)
  | failed => cases h
  | notServed => cases h
  | refused decision => cases h
  | served handler captured => cases h
  | undefined => cases h

theorem reported_some {r : Option (Outcome × Store)}
    (h : reported env site r = some (answer, site')) :
    ∃ o s', r = some (o, s') ∧ outcomeAnswer env s' o = some answer := by
  obtain ⟨⟨o, s'⟩, hr, h⟩ := Option.bind_eq_some_iff.mp h
  obtain ⟨a, ha, hpair⟩ := Option.map_eq_some_iff.mp h
  obtain ⟨rfl, -⟩ := Prod.mk.inj hpair
  exact ⟨o, s', hr, ha⟩

/-- A report that is a 404 is that a name was not found. -/
theorem reported_absent {r : Option (Outcome × Store)}
    (h : reported env site r = some (answer, site')) (habsent : answer.Absent) :
    ∃ o s', r = some (o, s') ∧ o.Absent := by
  obtain ⟨o, s', hr, ha⟩ := reported_some h
  exact ⟨o, s', hr, outcomeAnswer_absent ha habsent⟩

/-- A search for a user that reports a 404 has found none. -/
theorem reportUser_absent {name : CStr} {found : Option Off} {o : Outcome} {s' : Store}
    (h : reportUser name s found = some (o, s'))
    (ho : o.Absent) : found = some 0 := by
  obtain ⟨user, huser, hpair⟩ := Option.map_eq_some_iff.mp h
  obtain ⟨houtcome, -⟩ := Prod.mk.inj hpair
  by_cases hnil : user = 0
  · rw [huser, hnil]
  · rw [if_pos hnil] at houtcome
    rw [← houtcome] at ho
    exact absurd ho id

variable {X : ColorTree Off} {L : List Off}

theorem noUser_iff (h : StoreOK s X L) {name : CStr} :
    NoUser s name ↔ ∀ a ∈ L, recordName s.shm a ≠ name := by
  rw [NoUser, h.liveNodes_eq]

/-- A handler that decodes a name in place has been given one. -/
theorem withName_absent {handle : CStr → Option (Outcome × Store)} {o : Outcome} {s' : Store}
    (h : withName captured s handle = some (o, s')) (ho : o.Absent) :
    captured ≠ [] ∧ handle (urlDecodePath captured) = some (o, s') := by
  by_cases hnil : captured = []
  · rw [withName, if_pos hnil] at h
    cases h
    exact absurd ho id
  · rw [withName, if_neg hnil] at h
    exact ⟨hnil, h⟩

theorem findUser_absent (h : StoreOK s X L) {o : Outcome} {s' : Store}
    (hfind : findUser captured s = some (o, s')) (ho : o.Absent) :
    NoUser s (urlDecodePath captured) := by
  obtain ⟨-, hfind⟩ := withName_absent hfind ho
  split at hfind
  · cases hfind
    exact absurd ho id
  · exact (noUser_iff h).mpr (userStoreFind_null h (reportUser_absent hfind ho))

theorem deleteUser_absent (h : StoreOK s X L) {name : CStr} {o : Outcome} {s' : Store}
    (hdelete : deleteUser name s = some (o, s')) (ho : o.Absent) : NoUser s name := by
  by_cases hnil : name = []
  · rw [deleteUser, if_pos hnil] at hdelete
    cases hdelete
    exact absurd ho id
  · rcases deleteUser_cases h hnil with ⟨hno, -⟩ | ⟨a, t, -, -, hdeleted, -⟩
    · exact hno
    · rw [hdeleted] at hdelete
      cases hdelete
      exact absurd ho id

theorem addUser_present {body : CStr} {o : Outcome} {s' : Store}
    (h : addUser body s = some (o, s')) : ¬o.Absent := by
  intro ho
  rw [addUser] at h
  split at h
  · cases h
    exact ho
  · obtain ⟨⟨ret, t⟩, -, hpair⟩ := Option.map_eq_some_iff.mp h
    obtain ⟨rfl, -⟩ := Prod.mk.inj hpair
    split at ho
    · exact ho
    · exact ho

theorem compareUser_present {console : Console} {verbose : Bool} {o : Outcome} {s' : Store}
    (h : compareUser console verbose captured s = some (o, s')) : ¬o.Absent := by
  intro ho
  obtain ⟨body, -, hpair⟩ := Option.map_eq_some_iff.mp (withName_absent h ho).2
  obtain ⟨rfl, -⟩ := Prod.mk.inj hpair
  split at ho
  · exact ho
  · exact ho

/-! ### Files -/

theorem httpServeFile_eq_none_iff {files : CStr → Option (List UInt8)} {root uri : CStr} :
    httpServeFile files root uri bodyMax = none ↔
      files (servedPath root uri) = none ∨ Unserved files (servedPath root uri) := by
  unfold httpServeFile Unserved
  cases files (servedPath root uri) with
  | none => simp
  | some file =>
    rw [or_iff_right (by simp)]
    simp only [Option.mem_def, Option.some.injEq, exists_eq_left']
    by_cases h : file.length = 0 ∨ bodyMax ≤ file.length
    · rw [if_pos h]
      exact iff_of_true rfl h
    · rw [if_neg h]
      exact iff_of_false (Option.some_ne_none _) h

/-- A blog page that is not there is a 404 of its own. -/
theorem handleBlog_absent_iff : (handleBlog env req).Absent ↔
    httpIsSafePath req.path = true ∧ req.path ≠ ascii "/blog" ∧
      httpServeFile env.files (ascii "blog") (req.path.drop 5) bodyMax = none := by
  unfold handleBlog
  by_cases hsafe : httpIsSafePath req.path = true
  · rw [if_neg (not_not_intro hsafe)]
    by_cases hblog : strcmp req.path (ascii "/blog") = .eq
    · rw [if_pos hblog]
      refine iff_of_false ?_ fun h => h.2.1 (strcmp_eq_iff.mp hblog)
      exact not_isNotFound (ascii "HTTP/1.1 301 MOVED PERMANENTLY") rfl (by decide)
    · rw [if_neg hblog]
      rw [strcmp_eq_iff] at hblog
      cases httpServeFile env.files (ascii "blog") (req.path.drop 5) bodyMax with
      | none => exact iff_of_true (page_absent.mpr rfl) ⟨hsafe, hblog, rfl⟩
      | some served =>
        refine iff_of_false (fun h => ?_) fun h => by cases h.2.2
        cases document_notFound.mp h
  · rw [if_pos hsafe]
    refine iff_of_false (fun h => ?_) fun h => hsafe h.1
    cases page_absent.mp h

theorem handleStatic_absent_iff : (handleStatic env req).Absent ↔
    httpIsSafePath req.path = true ∧
      httpServeFile env.files env.currentRoot req.path bodyMax = none := by
  unfold handleStatic
  by_cases hsafe : httpIsSafePath req.path = true
  · rw [if_neg (not_not_intro hsafe)]
    cases httpServeFile env.files env.currentRoot req.path bodyMax with
    | none => exact iff_of_true trivial ⟨hsafe, rfl⟩
    | some served =>
      refine iff_of_false (fun h => ?_) fun h => by cases h.2
      cases document_notFound.mp h
  · rw [if_pos hsafe]
    refine iff_of_false (fun h => ?_) fun h => hsafe h.1
    cases page_absent.mp h

/-! ### Pages -/

theorem handleSleep_present : ¬(handleSleep captured).Absent := by
  intro h
  cases text_absent.mp h

theorem searchAnswer_present {r : FrontEnd.SearchReply} : ¬(searchAnswer env r).Absent := by
  intro h
  cases r with
  | badField body => cases text_absent.mp h
  | failed => exact absurd (line_eq_notFound.mp (Option.some.inj h)) (by decide)
  | form => cases page_absent.mp h
  | unsupportedMediaType => cases page_absent.mp h
  | lengthRequired => cases page_absent.mp h
  | lengthMismatch bodyLength contentLength => cases page_absent.mp h
  | noCriteria => cases page_absent.mp h
  | results matchCount body => cases page_absent.mp h

theorem loginAnswer_present {r : LoginReply} : ¬(loginAnswer env r).Absent := by
  intro h
  cases r with
  | notAllowed => cases text_absent.mp h
  | loggedIn sid =>
    exact not_isNotFound (ascii "HTTP/1.1 302 Found") rfl (by decide) h
  | page => cases page_absent.mp h
  | failed => cases page_absent.mp h

theorem logoutAnswer_present : ¬logoutAnswer.Absent :=
  not_isNotFound (ascii "HTTP/1.1 302 Found") rfl (by decide)

theorem indexFile_present {ct : ContentType} {file : List UInt8} :
    ¬(indexFile env req size ct file).Absent := by
  intro h
  unfold indexFile at h
  extract_lets w at h
  by_cases hfits : w.bytes.length < size
  · rw [if_pos hfits] at h
    exact not_isNotFound (ascii "HTTP/1.1 200 OK") rfl (by decide) h
  · rw [if_neg hfits] at h
    cases document_notFound.mp h

theorem handleIndex_present (h : handleIndex env req size site = some (answer, site')) :
    ¬answer.Absent := by
  intro habsent
  obtain ⟨⟨username, sessions⟩, -, h⟩ := Option.bind_eq_some_iff.mp h
  cases hserved : httpServeFile env.files env.currentRoot (ascii "/") bodyMax with
  | none =>
    cases username with
    | none =>
      simp only [hserved] at h
      obtain ⟨rfl, -⟩ := Prod.mk.inj (Option.some.inj h)
      cases page_absent.mp habsent
    | some username =>
      simp only [hserved] at h
      obtain ⟨rfl, -⟩ := Prod.mk.inj (Option.some.inj h)
      cases page_absent.mp habsent
  | some served =>
    cases username with
    | none =>
      simp only [hserved] at h
      obtain ⟨rfl, -⟩ := Prod.mk.inj (Option.some.inj h)
      exact indexFile_present habsent
    | some username =>
      simp only [hserved] at h
      obtain ⟨real, -, hpair⟩ := Option.map_eq_some_iff.mp h
      obtain ⟨rfl, -⟩ := Prod.mk.inj hpair
      cases document_notFound.mp habsent

/-! ### Any handler -/

/-- A 404 is about something missing or overlooked. -/
theorem serve_absent {handler : HandlerType} (h : StoreOK site.store X L)
    (hserve : serve env handler req captured size site = some (answer, site'))
    (habsent : answer.Absent) :
    Missing env site.store req captured handler ∨
      Overlooked env site.store req captured handler := by
  cases handler with
  | userByName =>
    obtain ⟨o, s', hr, ho⟩ := reported_absent hserve habsent
    exact .inl (findUser_absent h hr ho)
  | userSimpleFind =>
    obtain ⟨o, s', hr, ho⟩ := reported_absent hserve habsent
    exact .inl (findUser_absent h hr ho)
  | userFindIndex =>
    obtain ⟨o, s', hr, ho⟩ := reported_absent hserve habsent
    rw [callHandlerFn, handleUserFindIndex] at hr
    obtain ⟨hne, hr⟩ := withName_absent hr ho
    by_cases huser : NoUser site.store (urlDecodePath captured)
    · exact .inl huser
    · exact .inr ⟨huser, hne, reportUser_absent hr ho⟩
  | userDelete =>
    obtain ⟨o, s', hr, ho⟩ := reported_absent hserve habsent
    rw [callHandlerFn, handleUserDelete] at hr
    obtain ⟨-, hr⟩ := withName_absent hr ho
    exact .inl (deleteUser_absent h hr ho)
  | deleteForm =>
    obtain ⟨o, s', hr, ho⟩ := reported_absent hserve habsent
    cases hvalue : formValue req.bodyRequest.body with
    | none =>
      rw [handleDeleteForm_none hvalue] at hr
      cases hr
      exact absurd ho id
    | some value =>
      rw [handleDeleteForm_some hvalue] at hr
      exact .inl ⟨value, hvalue, deleteUser_absent h hr ho⟩
  | blog =>
    obtain ⟨rfl, -⟩ := Prod.mk.inj (Option.some.inj hserve)
    obtain ⟨hsafe, hblog, hfile⟩ := handleBlog_absent_iff.mp habsent
    exact (httpServeFile_eq_none_iff.mp hfile).imp_right fun h => ⟨hsafe, hblog, h⟩
  | static =>
    obtain ⟨rfl, -⟩ := Prod.mk.inj (Option.some.inj hserve)
    obtain ⟨hsafe, hfile⟩ := handleStatic_absent_iff.mp habsent
    exact (httpServeFile_eq_none_iff.mp hfile).imp_right fun h => ⟨hsafe, h⟩
  | userAdd =>
    obtain ⟨o, s', hr, ho⟩ := reported_absent hserve habsent
    exact absurd ho (addUser_present hr)
  | userCompare =>
    obtain ⟨o, s', hr, ho⟩ := reported_absent hserve habsent
    exact absurd ho (compareUser_present hr)
  | userCompareVerbose =>
    obtain ⟨o, s', hr, ho⟩ := reported_absent hserve habsent
    exact absurd ho (compareUser_present hr)
  | hello | userList | none =>
    obtain ⟨o, s', hr, ho⟩ := reported_absent hserve habsent
    cases hr
    exact absurd ho id
  | help =>
    obtain ⟨rfl, -⟩ := Prod.mk.inj (Option.some.inj hserve)
    cases text_absent.mp habsent
  | sleep =>
    obtain ⟨rfl, -⟩ := Prod.mk.inj (Option.some.inj hserve)
    exact absurd habsent handleSleep_present
  | index => exact absurd habsent (handleIndex_present hserve)
  | search =>
    obtain ⟨r, -, hpair⟩ := Option.map_eq_some_iff.mp hserve
    obtain ⟨rfl, -⟩ := Prod.mk.inj hpair
    exact absurd habsent searchAnswer_present
  | login =>
    obtain ⟨⟨r, sessions⟩, -, hpair⟩ := Option.map_eq_some_iff.mp hserve
    obtain ⟨rfl, -⟩ := Prod.mk.inj hpair
    exact absurd habsent loginAnswer_present
  | logout =>
    obtain ⟨sessions, -, hpair⟩ := Option.map_eq_some_iff.mp hserve
    obtain ⟨rfl, -⟩ := Prod.mk.inj hpair
    exact absurd habsent logoutAnswer_present

theorem Overlooked.not_missing {handler : HandlerType}
    (h : Overlooked env s req captured handler) : ¬Missing env s req captured handler := by
  intro hmissing
  cases handler with
  | userFindIndex => exact h.1 hmissing
  | blog =>
    obtain ⟨-, -, file, hfile, -⟩ := h
    rw [Option.mem_def, hmissing] at hfile
    cases hfile
  | static =>
    obtain ⟨-, file, hfile, -⟩ := h
    rw [Option.mem_def, hmissing] at hfile
    cases hfile
  | _ => exact h

/-- What is overlooked is answered with a 404. -/
theorem Overlooked.absent {handler : HandlerType}
    (h : Overlooked env site.store req captured handler)
    (hserve : serve env handler req captured size site = some (answer, site')) :
    answer.Absent := by
  cases handler with
  | userFindIndex =>
    obtain ⟨-, hne, hfind⟩ := h
    have hreport : callHandlerFn env.console .userFindIndex req.bodyRequest captured site.store =
        some (.notFound (urlDecodePath captured), site.store) := by
      rw [callHandlerFn, handleUserFindIndex, withName_of_ne hne, hfind]
      rfl
    obtain ⟨o, s', hr, ha⟩ := reported_some hserve
    rw [hreport] at hr
    cases hr
    cases ha
    exact text_absent.mpr rfl
  | blog =>
    obtain ⟨rfl, -⟩ := Prod.mk.inj (Option.some.inj hserve)
    exact handleBlog_absent_iff.mpr ⟨h.1, h.2.1, httpServeFile_eq_none_iff.mpr (.inr h.2.2)⟩
  | static =>
    obtain ⟨rfl, -⟩ := Prod.mk.inj (Option.some.inj hserve)
    exact handleStatic_absent_iff.mpr ⟨h.1, httpServeFile_eq_none_iff.mpr (.inr h.2)⟩
  | _ => exact absurd h id

/-- An answer that is a 404 is about something missing, unless it was overlooked. -/
theorem absent_missing_iff {handler : HandlerType} (h : StoreOK site.store X L)
    (hserve : serve env handler req captured size site = some (answer, site')) :
    (answer.Absent → Missing env site.store req captured handler) ↔
      ¬Overlooked env site.store req captured handler := by
  constructor
  · intro hmissing hover
    exact hover.not_missing (hmissing (hover.absent hserve))
  · intro hno habsent
    exact (serve_absent h hserve habsent).resolve_right hno

end

/-! ## The dispatcher -/

section

variable {env : Surroundings} {rt : RouteTable} {req : HttpRequest} {size : Nat} {site site' : Site}
  {e : RouteEntry} {captured : CStr} {answer : Answer} {decision : Decision} {sessions : Table}

theorem Unrouted.decided (h : Unrouted rt req) (hdecided : decided env rt req site =
    some (decision, sessions)) : decision = .notFound := by
  obtain ⟨result, hfind, h405, hentry⟩ := h
  change (routeTableFind rt req.method req.path).bind _ = _ at hdecided
  rw [hfind, Option.bind_some, h405, if_neg Bool.false_ne_true, hentry] at hdecided
  exact (Prod.mk.inj (Option.some.inj hdecided)).1.symm

theorem Serves.not_unrouted (h : Serves env rt req size site e captured answer) :
    ¬Unrouted rt req := by
  intro hno
  obtain ⟨-, sessions, site', hdecided, -⟩ := h
  cases hno.decided hdecided

theorem processHttp_pos (hsize : 0 < size) : processHttp env rt req size site =
    (decided env rt req site).bind fun (decision, sessions) =>
      match decision with
      | .invoke e captured =>
        (serve env e.handler req captured size { site with sessions := sessions }).map
          fun (answer, site) => (orFallback size req (answer.finish size), site)
      | .notFound => some (fallback size req, { site with sessions := sessions })
      | decision => some ((refusal env decision).finish size, { site with sessions := sessions }) :=
  if_neg (Nat.ne_of_gt hsize)

/-- What is neither handled nor missing a handler is refused. -/
theorem processHttp_refused (hsize : 0 < size)
    (hdecided : decided env rt req site = some (decision, sessions))
    (hinvoke : ∀ e captured, decision ≠ .invoke e captured) (hfound : decision ≠ .notFound) :
    processHttp env rt req size site =
      some ((refusal env decision).finish size, { site with sessions := sessions }) := by
  rw [processHttp_pos hsize, hdecided, Option.bind_some]
  cases decision with
  | invoke e captured => exact absurd rfl (hinvoke e captured)
  | notFound => exact absurd rfl hfound
  | _ => rfl

theorem Serves.processHttp (h : Serves env rt req size site e captured answer) :
    ∃ site', processHttp env rt req size site =
      some (orFallback size req (answer.finish size), site') := by
  obtain ⟨hsize, sessions, site', hdecided, hserve⟩ := h
  refine ⟨site', ?_⟩
  rw [processHttp_pos hsize, hdecided, Option.bind_some]
  simp only [hserve, Option.map_some]

/-- One handler is called, and it answers once. -/
theorem Serves.unique {e' : RouteEntry} {captured' : CStr} {answer' : Answer}
    (h : Serves env rt req size site e captured answer)
    (h' : Serves env rt req size site e' captured' answer') :
    e = e' ∧ captured = captured' ∧ answer = answer' := by
  obtain ⟨-, sessions, site', hdecided, hserve⟩ := h
  obtain ⟨-, sessions', site'', hdecided', hserve'⟩ := h'
  rw [hdecided] at hdecided'
  cases hdecided'
  rw [hserve] at hserve'
  cases hserve'
  exact ⟨rfl, rfl, rfl⟩

theorem fallback_failed_iff : fallback size req = .failed ↔ NoRoomForFallback req size := by
  rw [fallback, Answer.finish, NoRoomForFallback]
  split
  next h => exact iff_of_true rfl h
  next h => exact iff_of_false (fun h => by cases h) h

theorem fallback_replied (h : ¬NoRoomForFallback req size) :
    fallback size req = .replied (fallbackResponse req) := if_neg h

theorem fallbackResponse_notFound : IsNotFound (fallbackResponse req) := rfl

/-- A refusal is not a 404. -/
theorem refusal_present (hinvoke : ∀ e captured, decision ≠ .invoke e captured)
    (hfound : decision ≠ .notFound) : ¬(refusal env decision).Absent := by
  intro h
  cases decision with
  | methodNotAllowed allow =>
    exact not_isNotFound (ascii "HTTP/1.1 405 METHOD NOT ALLOWED") rfl (by decide) h
  | unauthorized realm =>
    exact not_isNotFound (ascii "HTTP/1.1 401 Unauthorized") rfl (by decide) h
  | redirectToLogin =>
    exact not_isNotFound (ascii "HTTP/1.1 302 Found") rfl (by decide) h
  | badRequest => cases text_absent.mp h
  | forbidden => cases page_absent.mp h
  | invoke e captured => exact hinvoke e captured rfl
  | notFound => exact hfound rfl

/-- A 404 in the buffer is that of an answer. -/
theorem Answer.finish_notFound {w : Written}
    (h : answer.finish size = .replied w ∨ answer.finish size = .cutOff w) (hw : IsNotFound w) :
    answer.Absent := by
  cases answer with
  | built w' =>
    rw [Answer.finish] at h
    split at h
    · rcases h with h | h
      · cases h
      · cases h
    · rcases h with h | h
      · cases h
        exact hw
      · cases h
  | printed w' =>
    rw [Answer.finish] at h
    split at h
    · rcases h with h | h
      · cases h
      · cases h
        exact hw
    · rcases h with h | h
      · cases h
        exact hw
      · cases h
  | declined => exact trivial

/-! ## Overflow and absence -/

section

variable {X : ColorTree Off} {L : List Off}

/-- What is asked of a request whose handler is called: `r` is what becomes of its answer, and
`missing` says that something does not exist. -/
def PassedOn (size : Nat) (answer : Answer) (missing : Prop) (r : Processed) : Prop :=
  (∀ w, answer.response = some w → size ≤ w.bytes.length → r = .failed) ∧
    ∀ w, r = .replied w ∨ r = .cutOff w → IsNotFound w → missing

theorem passedOn_failed {missing : Prop} : PassedOn size answer missing .failed := by
  refine ⟨fun _ _ _ => rfl, fun w h => ?_⟩
  rcases h with h | h
  · cases h
  · cases h

/-- A response that fits, or that takes the place of no response. -/
theorem passedOn_replied {missing : Prop} {w : Written}
    (hfits : ∀ w', answer.response = some w' → w'.bytes.length < size) :
    PassedOn size answer missing (.replied w) ↔ (IsNotFound w → missing) := by
  constructor
  · exact fun h => h.2 w (.inl rfl)
  · intro hmissing
    refine ⟨fun w' hw' hlen => absurd hlen (Nat.not_le.mpr (hfits w' hw')), fun w' hw' hnot => ?_⟩
    rcases hw' with hw' | hw'
    · cases hw'
      exact hmissing hnot
    · cases hw'

/-- What is asked, for each way to answer. -/
theorem Serves.passedOn_iff (h : StoreOK site.store X L)
    (hs : Serves env rt req size site e captured answer) :
    PassedOn size answer (Missing env site.store req captured e.handler)
        (orFallback size req (answer.finish size)) ↔
      Conforms req size (Overlooked env site.store req captured e.handler) answer := by
  obtain ⟨-, sessions, site', -, hserve⟩ := hs
  have hstore : StoreOK ({ site with sessions := sessions } : Site).store X L := h
  have hiff := absent_missing_iff hstore hserve
  cases answer with
  | built w =>
    by_cases hfits : size ≤ w.bytes.length
    · -- a 404 takes its place, or nothing does
      have hfinish : orFallback size req ((Answer.built w).finish size) = fallback size req := by
        rw [Answer.finish, if_pos hfits]
        rfl
      rw [hfinish, Conforms, or_iff_right fun h => Nat.not_lt.mpr hfits h.1, and_iff_right hfits,
        ← fallback_failed_iff]
      constructor
      · exact fun h => h.1 w rfl hfits
      · intro hfailed
        rw [hfailed]
        exact passedOn_failed
    · have hfinish : orFallback size req ((Answer.built w).finish size) = .replied w := by
        rw [Answer.finish, if_neg hfits]
        rfl
      rw [hfinish, Conforms, or_iff_left fun h => hfits h.1, and_iff_right (Nat.not_le.mp hfits),
        ← hiff]
      apply passedOn_replied
      intro w' hw'
      cases hw'
      exact Nat.not_le.mp hfits
  | printed w =>
    by_cases hfits : size ≤ w.bytes.length
    · have hfinish : orFallback size req ((Answer.printed w).finish size) = .cutOff w := by
        rw [Answer.finish, if_pos hfits]
        rfl
      rw [hfinish, Conforms]
      refine iff_of_false (fun h => ?_) fun h => Nat.not_lt.mpr hfits h.1
      cases h.1 w rfl hfits
    · have hfinish : orFallback size req ((Answer.printed w).finish size) = .replied w := by
        rw [Answer.finish, if_neg hfits]
        rfl
      rw [hfinish, Conforms, and_iff_right (Nat.not_le.mp hfits), ← hiff]
      apply passedOn_replied
      intro w' hw'
      cases hw'
      exact Nat.not_le.mp hfits
  | declined =>
    have hfinish : orFallback size req (Answer.declined.finish size) = fallback size req := rfl
    rw [hfinish, Conforms, ← hiff]
    by_cases hroom : NoRoomForFallback req size
    · rw [fallback_failed_iff.mpr hroom]
      exact iff_of_true passedOn_failed (.inr hroom)
    · rw [fallback_replied hroom, or_iff_left hroom, passedOn_replied fun w hw => by cases hw]
      constructor
      · exact fun h _ => h fallbackResponse_notFound
      · exact fun h _ => h trivial

/-- A 404 of the dispatcher in the buffer is that of a request without a route. -/
theorem KeptApart.unrouted (h : KeptApart env rt req size site)
    (hdecided : decided env rt req site = some (.notFound, sessions)) {w : Written}
    (hw : fallback size req = .replied w ∨ fallback size req = .cutOff w) : Unrouted rt req := by
  refine (h.handled sessions hdecided).resolve_right fun hroom => ?_
  rw [fallback_failed_iff.mpr hroom] at hw
  rcases hw with hw | hw
  · cases hw
  · cases hw

theorem KeptApart.notFound (happart : KeptApart env rt req size site)
    (h : StoreOK site.store X L) {r : Processed}
    (hprocess : processHttp env rt req size site = some (r, site')) {w : Written}
    (hw : r = .replied w ∨ r = .cutOff w) (hnot : IsNotFound w) :
    Unrouted rt req ∨ ∃ e captured answer, Serves env rt req size site e captured answer ∧
      Missing env site.store req captured e.handler := by
  rcases Nat.eq_zero_or_pos size with hsize | hsize
  · rw [processHttp, if_pos hsize] at hprocess
    cases hprocess
    rcases hw with hw | hw
    · cases hw
    · cases hw
  · have hsplit := hprocess
    rw [processHttp_pos hsize] at hsplit
    obtain ⟨⟨decision, sessions⟩, hdecided, hsplit⟩ := Option.bind_eq_some_iff.mp hsplit
    by_cases hfound : decision = .notFound
    · subst hfound
      obtain ⟨rfl, -⟩ := Prod.mk.inj (Option.some.inj hsplit)
      exact .inl (happart.unrouted hdecided hw)
    · by_cases hinvoke : ∃ e captured, decision = .invoke e captured
      · obtain ⟨e, captured, rfl⟩ := hinvoke
        obtain ⟨⟨answer, site''⟩, hserve, hpair⟩ := Option.map_eq_some_iff.mp hsplit
        obtain ⟨rfl, -⟩ := Prod.mk.inj hpair
        have hs : Serves env rt req size site e captured answer :=
          ⟨hsize, sessions, site'', hdecided, hserve⟩
        have hkept := (hs.passedOn_iff h).mpr (happart.served e captured answer hs)
        exact .inr ⟨e, captured, answer, hs, hkept.2 w hw hnot⟩
      · -- a refusal is no 404
        push Not at hinvoke
        rw [processHttp_refused hsize hdecided hinvoke hfound] at hprocess
        obtain ⟨rfl, -⟩ := Prod.mk.inj (Option.some.inj hprocess)
        exact absurd (Answer.finish_notFound hw hnot) (refusal_present hinvoke hfound)

/-- **Overflow and absence** in a store whose structures are sound. -/
theorem keptApart_iff (h : StoreOK site.store X L) :
    RightlyAnswered env rt req size site ↔ KeptApart env rt req size site := by
  constructor
  · intro hright
    refine ⟨fun e captured answer hs => ?_, fun sessions hdecided => ?_⟩
    · obtain ⟨site', hprocess⟩ := hs.processHttp
      rw [← hs.passedOn_iff h]
      refine ⟨fun w hw hlen => ?_, fun w hw hnot => ?_⟩
      · obtain ⟨site'', hfailed⟩ := hright.overflow e captured answer w hs hw hlen
        rw [hprocess] at hfailed
        exact (Prod.mk.inj (Option.some.inj hfailed)).1
      · have hreplied : processHttp env rt req size site = some (.replied w, site') ∨
            processHttp env rt req size site = some (.cutOff w, site') := by
          rw [hprocess]
          exact hw.imp (fun h => by rw [h]) fun h => by rw [h]
        rcases hright.notFound w site' hreplied hnot with hno | ⟨e', captured', answer', hs', hm⟩
        · exact absurd hno hs.not_unrouted
        · obtain ⟨rfl, rfl, -⟩ := hs.unique hs'
          exact hm
    · by_cases hroom : NoRoomForFallback req size
      · exact .inr hroom
      · have hsize : 0 < size := Nat.zero_lt_of_lt (Nat.not_le.mp hroom)
        have hreplied : processHttp env rt req size site =
            some (.replied (fallbackResponse req), { site with sessions := sessions }) := by
          rw [processHttp_pos hsize, hdecided, Option.bind_some]
          simp only [fallback_replied hroom]
        rcases hright.notFound _ _ (.inl hreplied) fallbackResponse_notFound with
          hno | ⟨e, captured, answer, ⟨-, _, _, hinvoke, -⟩, -⟩
        · exact .inl hno
        · rw [hdecided] at hinvoke
          cases hinvoke
  · intro happart
    refine ⟨fun e captured answer w hs hw hlen => ?_, fun w site' hprocess hnot => ?_⟩
    · obtain ⟨site', hprocess⟩ := hs.processHttp
      have hfailed := ((hs.passedOn_iff h).mpr (happart.served e captured answer hs)).1 w hw hlen
      exact ⟨site', by rw [hprocess, hfailed]⟩
    · rcases hprocess with hprocess | hprocess
      · exact happart.notFound h hprocess (.inl rfl) hnot
      · exact happart.notFound h hprocess (.inr rfl) hnot

end

end

/-- **Overflow and absence.** In every store that a run leaves, a response that does not fit and
something that does not exist are kept apart for exactly these requests. -/
theorem rightlyAnswered_iff (ops : List Op) :
    ∃ s, runOps ops userStoreShmInit = some s ∧ ∀ env rt req size sessions,
      RightlyAnswered env rt req size ⟨s, sessions⟩ ↔ KeptApart env rt req size ⟨s, sessions⟩ := by
  obtain ⟨s, X, L, hrun, hs⟩ := sound_init.run ops
  exact ⟨s, hrun, fun env rt req size sessions => keptApart_iff hs.toStoreOK⟩

/-! ## A long post -/

def blogRoute : Route := ⟨ascii "GET", ascii "/blog", .matchPrefix, .blog, [], []⟩

/-- The table with the one route. -/
def blogTable : RouteTable := ⟨[], [blogRoute.entry], fun _ => none⟩

def getPost : HttpRequest where
  method := ascii "GET"
  path := ascii "/blog/post.html"
  body := []
  keepAlive := true
  contentType := []
  contentLengthHdr := -1
  authorization := []
  cookie := []
  pathFits := by decide

/-- A post of 16 KB. -/
def longPost : List UInt8 := List.replicate 16384 120

theorem epochText_chars : ∀ c ∈ ascii "Thu, 01 Jan 1970 00:00:00 GMT", isDateChar c = true := by
  decide +kernel

theorem epochText_short : (ascii "Thu, 01 Jan 1970 00:00:00 GMT").length < 64 := by decide +kernel

/-- A site whose only file is the post. -/
def blogSurroundings : Surroundings where
  pages := ⟨[], [], fun _ _ => [], fun _ _ => [], [], [], [], fun _ _ => [], [], [], [], []⟩
  authUsers := []
  files filepath := if filepath = ascii "blog/post.html" then some longPost else none
  currentRoot := ascii "./www"
  date := ⟨ascii "Thu, 01 Jan 1970 00:00:00 GMT", epochText_chars, epochText_short⟩
  authTime := 0
  indexTime := 0
  sweepTime := 0
  resweepTime := 0
  loginTime := 0
  randomBytes := Vector.replicate 32 0
  console := linuxConsole
  leftBehind := []

theorem length_longPost : longPost.length = 16384 := List.length_replicate

theorem handleBlog_longPost : handleBlog blogSurroundings getPost =
    .built (documentResponse .ok .html longPost true blogSurroundings.date) := by
  have hsafe : httpIsSafePath getPost.path = true := by decide +kernel
  have hblog : strcmp getPost.path (ascii "/blog") ≠ .eq := by decide +kernel
  have hpath : servedPath (ascii "blog") (getPost.path.drop 5) = ascii "blog/post.html" := by
    decide +kernel
  have hfile : blogSurroundings.files (ascii "blog/post.html") = some longPost := by
    simp only [blogSurroundings, if_true]
  have hlen : ¬(longPost.length = 0 ∨ bodyMax ≤ longPost.length) := by
    rw [length_longPost]
    decide
  have htype : httpContentTypeFromPath (ascii "blog/post.html") = .html := by decide +kernel
  rw [handleBlog, if_neg (not_not_intro hsafe), if_neg hblog, httpServeFile, hpath, hfile]
  simp only [if_neg hlen, htype]

theorem le_length_documentResponse {file : List UInt8} {size : Nat} (h : size ≤ file.length)
    (env : Surroundings) (ct : ContentType) :
    size ≤ (documentResponse .ok ct file true env.date).bytes.length := by
  rw [Written.bytes, List.length_append]
  exact Nat.le_add_left_of_le h

/-- In select mode a post of 16 KB exists and is answered with a 404. -/
theorem longPost_not_found :
    addRoutes [blogRoute] routeTableInit = some blogTable ∧
    processHttp blogSurroundings blogTable getPost Server.select.respBufSize
        ⟨userStoreShmInit, sessionInit⟩ =
      some (.replied (fallbackResponse getPost), ⟨userStoreShmInit, sessionInit⟩) ∧
    ¬RightlyAnswered blogSurroundings blogTable getPost Server.select.respBufSize
      ⟨userStoreShmInit, sessionInit⟩ := by
  have hfind : routeTableFind blogTable getPost.method getPost.path =
      some ⟨some blogRoute.entry, ascii "/post.html", false, []⟩ := by decide +kernel
  have hlong : Server.select.respBufSize ≤
      (documentResponse .ok .html longPost true blogSurroundings.date).bytes.length := by
    apply le_length_documentResponse
    rw [length_longPost]
    decide
  have hroom : ¬NoRoomForFallback getPost Server.select.respBufSize := by
    unfold NoRoomForFallback
    decide +kernel
  have hdecided : decided blogSurroundings blogTable getPost ⟨userStoreShmInit, sessionInit⟩ =
      some (.invoke blogRoute.entry (ascii "/post.html"), sessionInit) := by
    rw [decided, requestHandlerProcessHttp_found hfind rfl rfl (by decide)]
    rfl
  have hprocess : processHttp blogSurroundings blogTable getPost Server.select.respBufSize
      ⟨userStoreShmInit, sessionInit⟩ =
        some (.replied (fallbackResponse getPost), ⟨userStoreShmInit, sessionInit⟩) := by
    have hserve : ∀ site, serve blogSurroundings blogRoute.entry.handler getPost
        (ascii "/post.html") Server.select.respBufSize site =
          some (handleBlog blogSurroundings getPost, site) := fun _ => rfl
    rw [processHttp_pos (by decide), hdecided, Option.bind_some]
    simp only [hserve, Option.map_some, handleBlog_longPost, Answer.finish,
      if_pos hlong, orFallback, fallback_replied hroom]
  refine ⟨rfl, hprocess, fun h => ?_⟩
  have hserves : Serves blogSurroundings blogTable getPost Server.select.respBufSize
      ⟨userStoreShmInit, sessionInit⟩ blogRoute.entry (ascii "/post.html")
      (handleBlog blogSurroundings getPost) :=
    ⟨by decide, sessionInit, _, hdecided, rfl⟩
  obtain ⟨site', hfailed⟩ := h.overflow _ _ _ _ hserves (by rw [handleBlog_longPost]; rfl) hlong
  rw [hprocess] at hfailed
  cases hfailed

end MiniWeb.RequestHandler
