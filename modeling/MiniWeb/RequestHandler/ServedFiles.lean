import MiniWeb.RequestHandler.Overflow

/-!
# Files below the root

The path of a request is put behind the root directory and given to `fopen`. `http_is_safe_path`
refuses a path with `..` in it, so all that a response depends on is what `fopen` finds at paths
that are the root directory or `blog`, a slash and more without `..`. In turn what `fopen` finds at
such a path can be fetched, if the path fits the request, the file is neither empty nor longer than
the body buffer, and the response fits the output buffer.

What `fopen` finds at a path is taken from the surroundings; nothing is said about links and
permissions.
-/

namespace MiniWeb.RequestHandler

open Loop CStr SessionStore UserStore Routing FrontEnd

/-! ## Paths -/

/-- The path behind the root that is opened for a request. -/
def servedTail (uri : CStr) : CStr :=
  if strcmp uri (ascii "/") = .eq then ascii "index.html" else uri.dropWhile (· = 47)

/-- The path is the directory, a slash and more without `..`. -/
def Inside (dir path : CStr) : Prop := ∃ rest, path = dir ++ 47 :: rest ∧ ¬[46, 46] <:+: rest

section

variable {wwwRoot uri : CStr}

theorem servedPath_eq (hroot : wwwRoot.length < 256) (huri : uri.length < 256) :
    servedPath wwwRoot uri = wwwRoot ++ 47 :: servedTail uri := by
  have hdrop := (List.dropWhile_suffix (l := uri) (· = 47)).length_le
  have hindex : ascii "/index.html" = 47 :: ascii "index.html" := by decide
  have hlen : (ascii "index.html").length = 10 := by decide
  have hslash : ascii "/" = [47] := by decide
  rw [servedPath, servedTail]
  split
  · rw [hindex]
    apply List.take_of_length_le
    rw [List.length_append, List.length_cons, hlen]
    omega
  · rw [hslash, List.append_assoc, List.singleton_append]
    apply List.take_of_length_le
    rw [List.length_append, List.length_cons]
    omega

theorem dots_eq : ascii ".." = [46, 46] := by decide

theorem strstr_dots_none : strstr uri (ascii "..") = none ↔ ¬[46, 46] <:+: uri := by
  rw [← Option.not_isSome_iff_eq_none, isSome_strstr_iff (by decide), dots_eq]

theorem servedTail_safe (h : ¬[46, 46] <:+: uri) : ¬[46, 46] <:+: servedTail uri := by
  rw [servedTail]
  split
  · decide
  · exact fun hpart => h (hpart.trans (List.dropWhile_suffix _).isInfix)

/-- What is opened for a request is below the root. -/
theorem servedPath_inside (hroot : wwwRoot.length < 256) (huri : uri.length < 256)
    (hsafe : ¬[46, 46] <:+: uri) : Inside wwwRoot (servedPath wwwRoot uri) :=
  ⟨servedTail uri, servedPath_eq hroot huri, servedTail_safe hsafe⟩

theorem safe_dots (h : httpIsSafePath uri = true) : ¬[46, 46] <:+: uri := by
  rw [httpIsSafePath, Bool.and_eq_true, Bool.and_eq_true, Option.isNone_iff_eq_none,
    strstr_dots_none] at h
  exact h.1.1

theorem safe_backslash (h : httpIsSafePath uri = true) : 92 ∉ uri := by
  rw [httpIsSafePath, Bool.and_eq_true, Bool.not_eq_true', List.contains_eq_mem,
    decide_eq_false_iff_not] at h
  exact h.2

end

/-! ## Confinement -/

/-- The surroundings with these files. -/
def Surroundings.on (env : Surroundings) (files : CStr → Option (List UInt8)) : Surroundings :=
  { env with files := files }

/-- `fopen` finds the same below the document root and in the directory of the blog. -/
structure SameBelow (env : Surroundings) (files files' : CStr → Option (List UInt8)) : Prop where
  root : ∀ path, Inside env.currentRoot path → files path = files' path
  blog : ∀ path, Inside (ascii "blog") path → files path = files' path

section

variable {files files' : CStr → Option (List UInt8)} {env : Surroundings} {req : HttpRequest}
  {wwwRoot uri : CStr} {size : Nat}

theorem httpServeFile_congr (hroot : wwwRoot.length < 256) (huri : uri.length < 256)
    (hsafe : ¬[46, 46] <:+: uri) (hsame : ∀ path, Inside wwwRoot path → files path = files' path)
    (bufSize : Nat) :
    httpServeFile files wwwRoot uri bufSize = httpServeFile files' wwwRoot uri bufSize := by
  rw [httpServeFile, httpServeFile, hsame _ (servedPath_inside hroot huri hsafe)]

theorem handleStatic_congr (hroot : env.currentRoot.length < 256)
    (hsame : SameBelow env files files') :
    handleStatic (env.on files) req = handleStatic (env.on files') req := by
  by_cases hsafe : httpIsSafePath req.path = true
  · have hserve := httpServeFile_congr hroot req.pathFits (safe_dots hsafe) hsame.root bodyMax
    rw [handleStatic, handleStatic, if_neg (not_not_intro hsafe), if_neg (not_not_intro hsafe)]
    simp only [Surroundings.on, hserve]
  · rw [handleStatic, handleStatic, if_pos hsafe, if_pos hsafe]
    rfl

theorem handleBlog_congr (hsame : SameBelow env files files') :
    handleBlog (env.on files) req = handleBlog (env.on files') req := by
  by_cases hsafe : httpIsSafePath req.path = true
  · have hdrop : ¬[46, 46] <:+: req.path.drop 5 := fun h =>
      safe_dots hsafe (h.trans (List.drop_suffix 5 req.path).isInfix)
    have hlen : (req.path.drop 5).length < 256 := by
      have hpath := req.pathFits
      rw [List.length_drop]
      omega
    have hserve := httpServeFile_congr (by decide) hlen hdrop hsame.blog bodyMax
    rw [handleBlog, handleBlog, if_neg (not_not_intro hsafe), if_neg (not_not_intro hsafe)]
    simp only [Surroundings.on, hserve]
    rfl
  · rw [handleBlog, handleBlog, if_pos hsafe, if_pos hsafe]
    rfl

theorem handleIndex_congr (hroot : env.currentRoot.length < 256)
    (hsame : SameBelow env files files') (site : Site) :
    handleIndex (env.on files) req size site = handleIndex (env.on files') req size site := by
  have hserve : httpServeFile files env.currentRoot (ascii "/") bodyMax =
      httpServeFile files' env.currentRoot (ascii "/") bodyMax :=
    httpServeFile_congr hroot (by decide) (by decide) hsame.root bodyMax
  simp only [handleIndex, Surroundings.on, hserve]
  rfl

/-- No handler sees anything else of the files. -/
theorem serve_confined (hroot : env.currentRoot.length < 256)
    (hsame : SameBelow env files files') (handler : HandlerType) (captured : CStr) (site : Site) :
    serve (env.on files) handler req captured size site =
      serve (env.on files') handler req captured size site := by
  cases handler
  case index => exact handleIndex_congr hroot hsame site
  case blog => exact congrArg (fun a => some (a, site)) (handleBlog_congr hsame)
  case static => exact congrArg (fun a => some (a, site)) (handleStatic_congr hroot hsame)
  all_goals rfl

end

/-- **Confinement.** Whatever request is answered, on whatever routes, the response depends only on
what `fopen` finds at paths below the document root and the directory of the blog, without `..` in
what stands behind them. -/
theorem processHttp_confined {env : Surroundings} {files files' : CStr → Option (List UInt8)}
    (hroot : env.currentRoot.length < 256) (hsame : SameBelow env files files') (rt : RouteTable)
    (req : HttpRequest) (size : Nat) (site : Site) :
    processHttp (env.on files) rt req size site = processHttp (env.on files') rt req size site := by
  rcases Nat.eq_zero_or_pos size with rfl | hsize
  · rfl
  rw [processHttp_pos hsize, processHttp_pos hsize]
  have hdecided : decided (env.on files) rt req site = decided (env.on files') rt req site := rfl
  rw [hdecided]
  cases decided (env.on files') rt req site with
  | none => rfl
  | some p =>
    obtain ⟨d, t⟩ := p
    cases d with
    | invoke e captured =>
      simp only [Option.bind_some, serve_confined hroot hsame]
    | _ => rfl

/-- A GET without a session. -/
def getPath (path : CStr) (h : path.length < 256) : HttpRequest := { getPost with
  path := path
  pathFits := h }

/-- The table with the route of the files. -/
def staticTable : RouteTable := ⟨[], [(publicPrefix "GET" "/" .static).entry], fun _ => none⟩

/-- A page below the document root, beside a file if it is there. -/
def shopFiles (secret : Option (List UInt8)) (path : CStr) : Option (List UInt8) :=
  if path = ascii "./www/docs/a.html" then some (ascii "hello")
  else if path = ascii "./www/../secret" then secret
  else none

theorem shopFiles_same {dir path : CStr} (hdir : dir = ascii "./www" ∨ dir = ascii "blog")
    (h : Inside dir path) (secret secret' : Option (List UInt8)) :
    shopFiles secret path = shopFiles secret' path := by
  have hne : path ≠ ascii "./www/../secret" := by
    rintro rfl
    obtain ⟨rest, heq, hdots⟩ := h
    rcases hdir with rfl | rfl
    · have hrest : rest = ascii "../secret" := (List.cons.inj (List.append_cancel_left
        (heq.symm.trans (show _ = ascii "./www" ++ 47 :: ascii "../secret" from rfl)))).2
      rw [hrest] at hdots
      exact hdots (by decide)
    · cases heq
  rw [shopFiles, shopFiles, if_neg hne, if_neg hne]

/-- The secret is found by one of the two only, and the response to `/../secret` is the same. -/
theorem processHttp_confined_secret :
    shopFiles (some (ascii "swordfish")) (ascii "./www/../secret") = some (ascii "swordfish") ∧
      shopFiles none (ascii "./www/../secret") = none ∧
      processHttp (blogSurroundings.on (shopFiles (some (ascii "swordfish")))) staticTable
          (getPath (ascii "/../secret") (by decide)) 4096 ⟨userStoreShmInit, sessionInit⟩ =
        processHttp (blogSurroundings.on (shopFiles none)) staticTable
          (getPath (ascii "/../secret") (by decide)) 4096 ⟨userStoreShmInit, sessionInit⟩ :=
  ⟨by decide, by decide, processHttp_confined (by decide)
    ⟨fun _ h => shopFiles_same (.inl rfl) h _ _,
      fun _ h => shopFiles_same (.inr rfl) h _ _⟩ _ _ _ _⟩

/-! ## Files that can be fetched -/

/-- What a request can put behind the root and its slash. -/
structure Servable (rest : CStr) : Prop where
  noSlash : rest.head? ≠ some 47
  noDots : ¬[46, 46] <:+: rest
  noBackslash : 92 ∉ rest
  fits : rest.length < 255

/-- A GET for a path that starts with a slash comes to the handler of the files. -/
def RoutedToStatic (env : Surroundings) (rt : RouteTable) (site : Site) : Prop :=
  ∀ req : HttpRequest, req.method = ascii "GET" → req.path.head? = some 47 →
    ∃ e captured sessions, e.handler = .static ∧
      decided env rt req site = some (.invoke e captured, sessions)

/-- The response with the file at a path. -/
def fileResponse (env : Surroundings) (filepath : CStr) (file : List UInt8) : Written :=
  documentResponse .ok (httpContentTypeFromPath filepath) file true env.date

section

variable {env : Surroundings} {req : HttpRequest} {rt : RouteTable} {site : Site} {size : Nat}
  {file : List UInt8} {ct : ContentType} {uri rest : CStr}

/-- The request for a rest. The rest without characters stands behind two slashes. -/
def pathOf (rest : CStr) : CStr := if rest = [] then [47, 47] else 47 :: rest

theorem pathOf_fits (h : Servable rest) : (pathOf rest).length < 256 := by
  have hfits := h.fits
  rw [pathOf]
  split
  · decide
  · rw [List.length_cons]
    omega

theorem pathOf_safe (h : Servable rest) : httpIsSafePath (pathOf rest) = true := by
  rw [pathOf]
  split
  · decide
  · rw [httpIsSafePath, Bool.and_eq_true, Bool.and_eq_true, Bool.not_eq_true',
      List.contains_eq_mem, decide_eq_false_iff_not, List.mem_cons, not_or]
    refine ⟨⟨?_, rfl⟩, by decide, h.noBackslash⟩
    rw [strstr_cons (by decide) (by decide), Option.isNone_iff_eq_none]
    exact strstr_dots_none.mpr h.noDots

theorem servedTail_pathOf (h : Servable rest) : servedTail (pathOf rest) = rest := by
  rw [pathOf]
  split
  case isTrue hnil =>
    rw [hnil]
    decide
  case isFalse hne =>
    obtain ⟨c, rest, rfl⟩ := List.exists_cons_of_ne_nil hne
    have hc : c ≠ 47 := fun h47 => h.noSlash (congrArg some h47)
    have hroot : strcmp (47 :: c :: rest) (ascii "/") ≠ .eq := by
      rw [Ne, strcmp_eq_iff]
      intro hsame
      have hlen := congrArg List.length hsame
      simp [ascii] at hlen
    rw [servedTail, if_neg hroot, List.dropWhile_cons_of_pos (by simp),
      List.dropWhile_cons_of_neg (by simpa using hc)]

/-- What a safe path with a slash at its start leaves behind the root. -/
theorem servable_servedTail (hslash : uri.head? = some 47) (hlen : uri.length < 256)
    (hsafe : httpIsSafePath uri = true) : Servable (servedTail uri) where
  noSlash := by
    rw [servedTail]
    split
    · decide
    · intro hhead
      have hnot := List.head?_dropWhile_not (· = 47) uri
      rw [hhead] at hnot
      simp at hnot
  noDots := servedTail_safe (safe_dots hsafe)
  noBackslash := by
    rw [servedTail]
    split
    · decide
    · exact fun hmem => safe_backslash hsafe ((List.dropWhile_suffix _).subset hmem)
  fits := by
    rw [servedTail]
    split
    · decide
    · cases uri with
      | nil => cases hslash
      | cons c uri =>
        cases Option.some.inj hslash
        have hdrop := (List.dropWhile_suffix (l := uri) (· = 47)).length_le
        rw [List.length_cons] at hlen
        rw [List.dropWhile_cons_of_pos (by simp)]
        omega

theorem httpServeFile_eq_some_iff {files : CStr → Option (List UInt8)} {wwwRoot : CStr}
    {bufSize : Nat} : httpServeFile files wwwRoot uri bufSize = some (ct, file) ↔
      files (servedPath wwwRoot uri) = some file ∧ 0 < file.length ∧ file.length < bufSize ∧
        ct = httpContentTypeFromPath (servedPath wwwRoot uri) := by
  rw [httpServeFile]
  cases hfile : files (servedPath wwwRoot uri) with
  | none => simp
  | some content =>
    constructor
    · intro h
      simp only at h
      split at h
      · cases h
      case isFalse hsize =>
        cases h
        obtain ⟨hpos, hlt⟩ := not_or.mp hsize
        exact ⟨rfl, Nat.pos_of_ne_zero hpos, Nat.lt_of_not_le hlt, rfl⟩
    · rintro ⟨hsame, hpos, hlt, rfl⟩
      cases hsame
      exact if_neg (not_or_intro (Nat.ne_of_gt hpos) (Nat.not_le_of_lt hlt))

/-- What a document says, and its text. -/
theorem documentResponse_content {status status' : Status} {ct' : ContentType}
    {body body' : List UInt8} {keep keep' : Bool} {date date' : HttpDate}
    (h : documentResponse status ct body keep date =
      documentResponse status' ct' body' keep' date') : status.line = status'.line ∧ body = body' :=
  ⟨Option.some.inj (congrArg (fun w => w.lines.head?) h), congrArg Written.content h⟩

theorem fallback_ne_ok :
    fallback size req ≠ .replied (documentResponse .ok ct file true env.date) := by
  intro h
  rw [fallback, Answer.finish] at h
  split at h
  · cases h
  · have hline := congrArg (fun w => w.lines.head?) (Processed.replied.inj h)
    exact absurd (Option.some.inj hline) (by decide)

/-- The handler of the files answers with a file exactly if it finds it and the response fits. -/
theorem handleStatic_replied_iff :
    orFallback size req ((handleStatic env req).finish size) =
        .replied (documentResponse .ok ct file true env.date) ↔
      httpIsSafePath req.path = true ∧
        ∃ ct', httpServeFile env.files env.currentRoot req.path bodyMax = some (ct', file) ∧
          documentResponse .ok ct' file true env.date =
            documentResponse .ok ct file true env.date ∧
          (documentResponse .ok ct' file true env.date).bytes.length < size := by
  by_cases hsafe : httpIsSafePath req.path = true
  · rw [handleStatic, if_neg (not_not_intro hsafe), and_iff_right hsafe]
    cases hserve : httpServeFile env.files env.currentRoot req.path bodyMax with
    | none => simpa [Answer.finish, orFallback] using fallback_ne_ok
    | some p =>
      obtain ⟨ct', file'⟩ := p
      simp only [Answer.finish]
      by_cases hroom : size ≤ (documentResponse .ok ct' file' true env.date).bytes.length
      · rw [if_pos hroom, orFallback]
        refine iff_of_false fallback_ne_ok ?_
        rintro ⟨_, hsome, -, hlt⟩
        cases hsome
        exact absurd hroom (Nat.not_le_of_lt hlt)
      · rw [if_neg hroom, orFallback, Processed.replied.injEq]
        · constructor
          · intro h
            obtain rfl := (documentResponse_content h).2
            exact ⟨ct', rfl, h, Nat.lt_of_not_le hroom⟩
          · rintro ⟨_, hsome, h, -⟩
            cases hsome
            exact h
        · intro h
          cases h
  · rw [handleStatic, if_pos hsafe]
    refine iff_of_false ?_ fun h => hsafe h.1
    intro h
    rw [page, Answer.finish] at h
    split at h
    · exact fallback_ne_ok h
    · exact absurd (documentResponse_content (Processed.replied.inj h)).1 (by decide)

theorem processHttp_static (hsize : 0 < size) {e : RouteEntry} {captured : CStr} {sessions : Table}
    (hhandler : e.handler = .static)
    (hdecided : decided env rt req site = some (.invoke e captured, sessions)) :
    processHttp env rt req size site =
      some (orFallback size req ((handleStatic env req).finish size),
        { site with sessions := sessions }) := by
  rw [processHttp_pos hsize, hdecided, Option.bind_some]
  simp only [hhandler, serve, Option.map_some]

end

/-- **Files that can be fetched.** Where every GET comes to the handler of the files, some GET for a
path with a slash at its start is answered with a file exactly if `fopen` finds the file below the
document root at a path that a request can name, the file is neither empty nor as long as the body
buffer, and the response fits the output buffer. -/
theorem fetched_iff {env : Surroundings} {rt : RouteTable} {site : Site}
    (hroot : env.currentRoot.length < 256) (hstatic : RoutedToStatic env rt site)
    (file : List UInt8) (size : Nat) :
    (∃ req : HttpRequest, req.method = ascii "GET" ∧ req.path.head? = some 47 ∧ ∃ ct site',
        processHttp env rt req size site =
          some (.replied (documentResponse .ok ct file true env.date), site')) ↔
      0 < file.length ∧ file.length < bodyMax ∧ ∃ rest, Servable rest ∧
        env.files (env.currentRoot ++ 47 :: rest) = some file ∧
        (fileResponse env (env.currentRoot ++ 47 :: rest) file).bytes.length < size := by
  constructor
  · rintro ⟨req, hmethod, hslash, ct, site', h⟩
    rcases Nat.eq_zero_or_pos size with rfl | hsize
    · cases h
    obtain ⟨e, captured, sessions, hhandler, hdecided⟩ := hstatic req hmethod hslash
    rw [processHttp_static hsize hhandler hdecided] at h
    obtain ⟨hsafe, ct', hserve, -, hroom⟩ :=
      handleStatic_replied_iff.mp (Prod.mk.inj (Option.some.inj h)).1
    obtain ⟨hfile, hpos, hlt, rfl⟩ := httpServeFile_eq_some_iff.mp hserve
    rw [servedPath_eq hroot req.pathFits] at hfile hroom
    exact ⟨hpos, hlt, servedTail req.path, servable_servedTail hslash req.pathFits hsafe, hfile,
      hroom⟩
  · rintro ⟨hpos, hlt, rest, hrest, hfile, hroom⟩
    have hsize : 0 < size := Nat.zero_lt_of_lt hroom
    have hslash : (pathOf rest).head? = some 47 := by
      rw [pathOf]
      split <;> rfl
    have hpath := servedPath_eq hroot (pathOf_fits hrest)
    rw [servedTail_pathOf hrest] at hpath
    obtain ⟨e, captured, sessions, hhandler, hdecided⟩ :=
      hstatic (getPath (pathOf rest) (pathOf_fits hrest)) rfl hslash
    have hserve : httpServeFile env.files env.currentRoot (pathOf rest) bodyMax =
        some (httpContentTypeFromPath (env.currentRoot ++ 47 :: rest), file) :=
      httpServeFile_eq_some_iff.mpr ⟨hpath ▸ hfile, hpos, hlt, by rw [hpath]⟩
    refine ⟨getPath (pathOf rest) (pathOf_fits hrest), rfl, hslash,
      httpContentTypeFromPath (env.currentRoot ++ 47 :: rest), { site with sessions := sessions },
      ?_⟩
    rw [processHttp_static hsize hhandler hdecided]
    exact congrArg (fun r => some (r, _)) (handleStatic_replied_iff.mpr
      ⟨pathOf_safe hrest, _, hserve, rfl, hroom⟩)

/-- The table with the route of the files gives it every GET. -/
theorem staticTable_routed (env : Surroundings) (site : Site) :
    RoutedToStatic env staticTable site := by
  intro req hmethod hslash
  obtain ⟨path, hpath⟩ : ∃ path, req.path = 47 :: path := by
    cases hp : req.path with
    | nil =>
      rw [hp] at hslash
      cases hslash
    | cons c path =>
      rw [hp] at hslash
      exact ⟨path, by rw [Option.some.inj hslash]⟩
  have hmatch : Matches (publicPrefix "GET" "/" .static).entry req.path :=
    ⟨by decide, by rw [hpath]; exact ⟨path, rfl⟩⟩
  have hfirst : staticTable.prefixes.find?
      (fun e => decide (e.method = req.method ∧ Matches e req.path)) =
        some (publicPrefix "GET" "/" .static).entry :=
    List.find?_cons_of_pos (decide_eq_true ⟨hmethod.symm, hmatch⟩)
  have hfound := scanPrefixes_found (t := staticTable) hfirst ⟨none, [], false, []⟩
  have hfind : routeTableFind staticTable req.method req.path = some (scanPrefixes staticTable
      req.method req.path staticTable.prefixes ⟨none, [], false, []⟩) := rfl
  refine ⟨(publicPrefix "GET" "/" .static).entry, (scanPrefixes staticTable req.method req.path
    staticTable.prefixes ⟨none, [], false, []⟩).captured, site.sessions, rfl, ?_⟩
  rw [decided, requestHandlerProcessHttp_found hfind hfound.2.2 hfound.1 rfl]
  rfl

/-- The page is fetched. -/
theorem fetched_iff_page : ∃ req : HttpRequest, req.method = ascii "GET" ∧
    req.path.head? = some 47 ∧ ∃ ct site',
      processHttp (blogSurroundings.on (shopFiles none)) staticTable req 4096
          ⟨userStoreShmInit, sessionInit⟩ =
        some (.replied (documentResponse .ok ct (ascii "hello") true blogSurroundings.date),
          site') := by
  have hroot : (blogSurroundings.on (shopFiles none)).currentRoot.length < 256 := by decide
  refine (fetched_iff hroot (staticTable_routed _ _) (ascii "hello") 4096).mpr
    ⟨by decide, by decide, ascii "docs/a.html", ⟨by decide, by decide, by decide, by decide⟩,
      by decide, by decide +kernel⟩

end MiniWeb.RequestHandler
