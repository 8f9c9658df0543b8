import MiniWeb.Config.NginxLines

/-!
# A listing in Nginx blocks

The Nginx loader reads a listing as it is meant as long as the lines fit its buffer and a location
has no more than eight methods: it reads the first eight. A path that is too long is cut.
-/

namespace MiniWeb.Config

open CStr Routing

variable {s post key value : CStr} {config : LoadedConfig}

/-! ## Location blocks -/

/-- The location when the lines of the definition have been read. -/
def RouteDef.filled (d : RouteDef) (loc : Location) : Location :=
  { loc with
    handlerName := some d.handler.text
    methods :=
      if d.methods = [] then loc.methods else (d.methods.take 8).map fun m => m.text.map toUpper
    authRealm := if d.realm.text = [] then loc.authRealm else d.realm.text
    authRole := if d.role.text = [] then loc.authRole else d.role.text }

theorem length_blockLine (key value : CStr) :
    (blockLine key value).length = key.length + value.length + 6 := by
  simp [blockLine, directiveText, ascii]
  omega

theorem methodTokens_joinWords {methods : List (Word 16)} (h : (joinWords methods).length < 256) :
    methodTokens (joinWords methods) = (methods.take 8).map fun m => m.text.map toUpper := by
  rw [methodTokens, cut_of_lt h, tokens_joinWords, ← List.map_take, List.map_map]
  apply List.map_congr_left
  intro m _
  exact congrArg (List.map toUpper) m.cut_text

/-- The quotes around the realm are for values with blanks. -/
theorem shown_quoted {value : CStr} (h : Shown value) : Shown (34 :: value ++ [34]) where
  printable := by
    simp only [List.cons_append, List.mem_cons, List.mem_append, List.not_mem_nil, or_false]
    rintro c (rfl | hc | rfl)
    · decide
    · exact h.printable c hc
    · decide
  starts := by simp
  ends := by rw [List.getLast?_concat]; decide

theorem unquote_quoted (value : CStr) : unquote (34 :: value ++ [34]) = value := by
  simp [unquote]

theorem locationDirective_handler (value : CStr) (loc : Location) :
    locationDirective (ascii "handler") value loc
      = { loc with handlerName := some (cut 64 value) } :=
  rfl

theorem locationDirective_methods (value : CStr) (loc : Location) :
    locationDirective (ascii "methods") value loc = { loc with methods := methodTokens value } :=
  rfl

theorem locationDirective_realm (value : CStr) (loc : Location) :
    locationDirective (ascii "auth_basic") value loc
      = { loc with authRealm := cut 64 (unquote value) } :=
  rfl

theorem locationDirective_role (value : CStr) (loc : Location) :
    locationDirective (ascii "auth_role") value loc = { loc with authRole := cut 32 value } :=
  rfl

theorem RouteDef.filled_eq (d : RouteDef) (h : (joinWords d.methods).length < 256)
    (loc : Location) :
    d.filled loc =
      (let loc := locationDirective (ascii "handler") d.handler.text loc
      let loc := if d.methods = [] then loc
        else locationDirective (ascii "methods") (joinWords d.methods) loc
      let loc := if d.realm.text = [] then loc
        else locationDirective (ascii "auth_basic") (34 :: d.realm.text ++ [34]) loc
      if d.role.text = [] then loc else locationDirective (ascii "auth_role") d.role.text loc) := by
  simp only [locationDirective_handler, locationDirective_methods, locationDirective_realm,
    locationDirective_role, methodTokens_joinWords h, unquote_quoted, d.handler.cut_text,
    d.realm.cut_text, d.role.cut_text]
  by_cases hm : d.methods = [] <;> by_cases hrealm : d.realm.text = [] <;>
    by_cases hrole : d.role.text = [] <;> simp [RouteDef.filled, hm, hrealm, hrole]

theorem RouteDef.reads_body (d : RouteDef)
    (hmethods : (blockLine (ascii "methods") (joinWords d.methods)).length ≤ 254) (loc : Location)
    (caller : Option ServerBlock) (config : LoadedConfig) :
    Reads (unlines d.nginxBody) (.location loc caller) config
      (.ok (.location (d.filled loc) caller, config)) := by
  have hkeys : ∀ k ∈ ["handler", "methods", "auth_basic", "auth_role"].map ascii, IsKey k := by
    unfold IsKey
    decide +kernel
  have hbody : d.nginxBody = [blockLine (ascii "handler") d.handler.text] ++
      (if d.methods = [] then [] else [blockLine (ascii "methods") (joinWords d.methods)]) ++
      (if d.realm.text = [] then []
        else [blockLine (ascii "auth_basic") (34 :: d.realm.text ++ [34])]) ++
      (if d.role.text = [] then [] else [blockLine (ascii "auth_role") d.role.text]) := by
    simp [RouteDef.nginxBody, optionalLine, blockLine, directiveText, ascii]
  have hhandler := d.handler.short
  have hrealm := d.realm.short
  have hrole := d.role.short
  have hlength := length_blockLine (ascii "methods") (joinWords d.methods)
  have hline : ∀ key value, IsKey key → Shown value → ∀ loc,
      readLine (blockLine key value ++ [10]) (.location loc caller) config
        = .ok (.location (locationDirective key value loc) caller, config) :=
    fun key value hkey hvalue loc => readLine_location hkey hvalue loc caller config
  have h₁ := hkeys (ascii "handler") (by simp)
  have h₂ := hkeys (ascii "methods") (by simp)
  have h₃ := hkeys (ascii "auth_basic") (by simp)
  have h₄ := hkeys (ascii "auth_role") (by simp)
  have hread := (((reads_directive h₁ d.handler.shown
      (by rw [length_blockLine]; simp [ascii]; omega) (hline _ _ h₁ d.handler.shown) loc).trans
    (reads_optional (d.methods = []) h₂ (shown_joinWords d.methods) (fun _ => hmethods)
      (hline _ _ h₂ (shown_joinWords d.methods)) _)).trans
    (reads_optional (d.realm.text = []) h₃ (shown_quoted d.realm.shown)
      (fun _ => by rw [length_blockLine]; simp [ascii]; omega)
      (hline _ _ h₃ (shown_quoted d.realm.shown)) _)).trans
    (reads_optional (d.role.text = []) h₄ d.role.shown
      (fun _ => by rw [length_blockLine]; simp [ascii]; omega) (hline _ _ h₄ d.role.shown) _)
  rw [hbody, unlines_append, unlines_append, unlines_append, d.filled_eq (by omega)]
  exact hread

/-! ## The head of a location -/

/-- A path, or the beginning of one. -/
structure IsPath (s : CStr) : Prop where
  absolute : s.head? = some 47
  solid : ∀ c ∈ s, 32 < c ∧ c ≠ 123

theorem RoutePath.isPath (p : RoutePath) : IsPath p.text where
  absolute := p.absolute
  solid := by
    intro c hc
    refine ⟨lt_of_le_of_ne (p.shown.printable c hc) ?_, ?_⟩
    · rintro rfl
      exact p.solid hc
    · rintro rfl
      exact p.notMem (by decide) hc

theorem IsPath.take {n : Nat} (hn : 0 < n) (h : IsPath s) : IsPath (s.take n) where
  absolute := by
    rw [List.head?_take, if_neg (by omega)]
    exact h.absolute
  solid := fun c hc => h.solid c (List.mem_of_mem_take hc)

theorem IsPath.ne_nil (h : IsPath s) : s ≠ [] := by
  rintro rfl
  exact absurd h.absolute (by simp)

/-- The two ways a location begins. -/
def locationHeads : List CStr := [ascii "location ", ascii "location = "]

theorem shown_head {head : CStr} (hhead : head ∈ locationHeads) (hs : IsPath s) :
    Shown (head ++ s) := by
  have hprintable : ∀ head ∈ locationHeads, ∀ c ∈ head, 32 ≤ c := by decide
  have hstarts : ∀ head ∈ locationHeads, head.head? = some 108 := by decide
  refine ⟨?_, ?_, ?_⟩
  · intro c hc
    rcases List.mem_append.1 hc with hc | hc
    · exact hprintable head hhead c hc
    · exact (hs.solid c hc).1.le
  · rw [List.head?_append, hstarts head hhead, Option.some_or]
    decide
  · rw [List.getLast?_append_of_ne_nil _ hs.ne_nil]
    intro h
    exact absurd (hs.solid 32 (List.mem_of_getLast? h)).1 (by decide)

/-- A text that ends with the opening brace. -/
theorem Shown.brace (h : Shown s) (hne : s ≠ []) : Shown (s ++ ascii " \x7b") where
  printable := by
    intro c hc
    rcases List.mem_append.1 hc with hc | hc
    · exact h.printable c hc
    · have hbrace : ∀ c ∈ ascii " \x7b", 32 ≤ c := by decide
      exact hbrace c hc
  starts := by
    rw [List.head?_append_of_ne_nil _ hne]
    exact h.starts
  ends := by
    rw [List.getLast?_append_of_ne_nil _ (by decide)]
    decide

theorem IsPath.not_blank (h : IsPath s) {c : UInt8} (hc : c ∈ s) : c ≠ 32 ∧ c ≠ 9 ∧ c ≠ 123 := by
  have hsolid := h.solid c hc
  refine ⟨?_, ?_, hsolid.2⟩
  · rintro rfl
    exact absurd hsolid.1 (by decide)
  · rintro rfl
    exact absurd hsolid.1 (by decide)

theorem IsPath.dropWhile_blank (h : IsPath s) :
    (32 :: s).dropWhile (fun c => c = 32 ∨ c = 9) = s := by
  rw [List.dropWhile_cons_of_pos (by decide), List.dropWhile_eq_self_iff]
  intro hpos
  have hne := h.not_blank (List.getElem_mem hpos)
  simp [hne.1, hne.2.1]

/-- The path is what stands between the head and the brace, if it is there. -/
theorem locationPath_head {head tail : CStr} (hhead : head ∈ locationHeads) (hs : IsPath s)
    (htail : tail ∈ [[], ascii " \x7b"]) (hlength : (head ++ s ++ tail).length < 256) :
    locationPath (head ++ s ++ tail) = some s := by
  have hshown := shown_head hhead hs
  have hbrace : ∀ c ∈ head ++ s, c ≠ 123 := by
    intro c hc
    rcases List.mem_append.1 hc with hc | hc
    · have hheads : ∀ head ∈ locationHeads, ∀ c ∈ head, c ≠ 123 := by decide
      exact hheads head hhead c hc
    · exact (hs.solid c hc).2
  have htake : trim ((head ++ s ++ tail).takeWhile (· ≠ 123)) = head ++ s := by
    rw [List.takeWhile_append_of_pos (by simpa using hbrace)]
    simp only [List.mem_cons, List.not_mem_nil, or_false] at htail
    rcases htail with rfl | rfl
    · rw [List.takeWhile_nil, List.append_nil]
      exact trim_shown hshown
    · exact trim_append hshown (List.forall_mem_nil _) (by decide)
  have hlast : s.takeWhile (fun c => c ≠ 32 ∧ c ≠ 9 ∧ c ≠ 123) = s :=
    List.takeWhile_eq_self_iff.2 fun c hc => by simpa using hs.not_blank hc
  have hequals : s.head? ≠ some 61 := by
    rw [hs.absolute]
    decide
  have hshort : s.length < 256 := by
    rw [List.length_append, List.length_append] at hlength
    omega
  rw [locationPath, cut_of_lt hlength, htake]
  simp only [locationHeads, List.mem_cons, List.not_mem_nil, or_false] at hhead
  rcases hhead with rfl | rfl
  · have hstart : startsWith (ascii "location " ++ s) (ascii "location") = true := rfl
    have hdrop : (ascii "location " ++ s).drop 8 = 32 :: s := rfl
    dsimp only
    rw [if_pos hstart, hdrop, hs.dropWhile_blank, if_neg hequals, hlast, cut_of_lt hshort]
  · have hstart : startsWith (ascii "location = " ++ s) (ascii "location") = true := rfl
    have hdrop : ((ascii "location = " ++ s).drop 8).dropWhile (fun c => c = 32 ∨ c = 9)
        = 61 :: 32 :: s := rfl
    dsimp only
    rw [if_pos hstart, hdrop, if_pos List.head?_cons, List.drop_one, List.tail_cons,
      hs.dropWhile_blank, hlast, cut_of_lt hshort]

/-- `parse_location_directive` for a path before it reads its first line. -/
def opened (path : CStr) : Location where
  path := (pathMatch path).1
  matchType := (pathMatch path).2
  handlerName := none
  methods := []
  authRealm := []
  authRole := []

theorem readLine_head {head tail : CStr} {nl : List UInt8} (hhead : head ∈ locationHeads)
    (hs : IsPath s) (htail : tail ∈ [[], ascii " \x7b"])
    (hlength : (head ++ s ++ tail).length < 256)
    (hpost : ∀ c ∈ post, c = 32) (hnl : ∀ c ∈ nl, c = 10) (config : LoadedConfig) :
    readLine (head ++ s ++ tail ++ post ++ nl) .topLevel config
      = .ok (.location (opened s) none, config) := by
  have hne : head ++ s ≠ [] := by simp [hs.ne_nil]
  have hshown : Shown (head ++ s ++ tail) := by
    simp only [List.mem_cons, List.not_mem_nil, or_false] at htail
    rcases htail with rfl | rfl
    · rw [List.append_nil]
      exact shown_head hhead hs
    · exact (shown_head hhead hs).brace hne
  have htext : lineText (head ++ s ++ tail ++ post ++ nl) = head ++ s ++ tail :=
    lineText_line hshown (List.forall_mem_nil _) hpost hnl
  have hopen : openLocation (head ++ s ++ tail) = .ok (opened s) := by
    rw [openLocation, locationPath_head hhead hs htail hlength]
    rfl
  -- every head begins with the word, so that none of the other lines is meant
  have hfirst : ∀ head ∈ locationHeads, ∃ t, head = ascii "location" ++ t := by
    simp only [locationHeads, List.forall_mem_cons]
    exact ⟨⟨ascii " ", rfl⟩, ⟨ascii " = ", rfl⟩, List.forall_mem_nil _⟩
  obtain ⟨t, ht⟩ := hfirst head hhead
  have hsplit : head ++ s ++ tail = ascii "location" ++ (t ++ s ++ tail) := by simp [ht]
  rw [readLine, htext, readTopLevel, hopen, if_neg, if_neg, if_pos]
  · rfl
  · rw [hsplit]
    rfl
  · rw [hsplit, not_or]
    exact ⟨by simp [ascii], Bool.false_ne_true⟩
  · rw [hsplit]
    simp [ascii]

/-- The buffer took the path and some of what follows it. -/
theorem readLine_head_cut {head : CStr} {k : Nat} (hhead : head ∈ locationHeads) (hs : IsPath s)
    (hk : k ≤ 2) (hlength : (head ++ s).length + k ≤ 255) (config : LoadedConfig) :
    readLine (head ++ s ++ (ascii " \x7b").take k) .topLevel config
      = .ok (.location (opened s) none, config) := by
  obtain rfl | rfl | rfl : k = 0 ∨ k = 1 ∨ k = 2 := by omega
  · have h : readLine (head ++ s ++ [] ++ [] ++ []) .topLevel config = _ :=
      readLine_head hhead hs (by simp) (by simp at hlength ⊢; omega) (by simp) (by simp) config
    simpa using h
  · have h : readLine (head ++ s ++ [] ++ [32] ++ []) .topLevel config = _ :=
      readLine_head hhead hs (by simp) (by simp at hlength ⊢; omega) (by simp) (by simp) config
    rw [List.append_nil, List.append_nil] at h
    exact h
  · have h : readLine (head ++ s ++ ascii " \x7b" ++ [] ++ []) .topLevel config = _ :=
      readLine_head hhead hs (by simp) (by simp [ascii] at hlength ⊢; omega) (by simp) (by simp)
        config
    rw [List.append_nil, List.append_nil] at h
    exact h

/-- A line that does not fit the buffer is read as two. -/
theorem reads_long_line {line : CStr} (hnew : 10 ∉ line) (hlong : 255 ≤ line.length)
    (hlength : line.length ≤ 509) (reader : Reader) (config : LoadedConfig) :
    Reads (line ++ [10]) reader config ((readLine (line.take 255) reader config).bind
      fun (reader, config) => readLine (line.drop 255 ++ [10]) reader config) := by
  intro rest
  have htake : (line.take 255).length = 255 := by
    rw [List.length_take]
    omega
  have hsplit : line ++ [10] ++ rest = line.take 255 ++ (line.drop 255 ++ 10 :: rest) := by
    rw [← List.append_assoc, List.take_append_drop, List.append_assoc, List.singleton_append]
  have hfirst : fgets 256 (line.take 255 ++ (line.drop 255 ++ 10 :: rest))
      = line.take 255 :: fgets 256 (line.drop 255 ++ 10 :: rest) := by
    rw [fgets, fgetsFrom_long (fun h => hnew (List.mem_of_mem_take h)), List.nil_append, fgets]
    · rw [← List.length_pos_iff]
      omega
    · simp [htake]
  have hsecond : fgets 256 (line.drop 255 ++ 10 :: rest)
      = (line.drop 255 ++ [10]) :: fgets 256 rest := by
    apply fgets_line fun h => hnew (List.mem_of_mem_drop h)
    rw [List.length_drop]
    omega
  rw [hsplit, hfirst, hsecond, readLines]
  cases readLine (line.take 255) reader config with
  | error e => rfl
  | ok r => rfl

theorem RouteDef.locationHead_eq (d : RouteDef) :
    ∃ head ∈ locationHeads, d.locationHead = head ++ d.path.text := by
  by_cases h : (ascii "/*").isSuffixOf d.path.text
  · exact ⟨_, List.mem_cons_self .., if_pos h⟩
  · exact ⟨_, List.mem_cons_of_mem _ (List.mem_cons_self ..), if_neg h⟩

theorem newline_notMem_head {head : CStr} (hhead : head ∈ locationHeads) (hs : IsPath s) :
    10 ∉ head ++ s ++ ascii " \x7b" := by
  intro h
  rcases List.mem_append.1 h with h | h
  · exact absurd ((shown_head hhead hs).printable 10 h) (by decide)
  · revert h
    decide

/-- The line that opens the location, with its brace on the next line if need be. -/
theorem RouteDef.reads_head (d : RouteDef) (h : d.locationHead.length ≤ 255)
    (config : LoadedConfig) :
    Reads (d.locationHead ++ ascii " \x7b" ++ [10]) .topLevel config
      (.ok (.location (opened d.path.text) none, config)) := by
  obtain ⟨head, hhead, heq⟩ := d.locationHead_eq
  have hs := d.path.isPath
  rw [heq] at h ⊢
  have hnew := newline_notMem_head hhead hs
  have hlength : (head ++ d.path.text ++ ascii " \x7b").length = (head ++ d.path.text).length + 2 :=
    List.length_append
  by_cases hfits : (head ++ d.path.text ++ ascii " \x7b").length ≤ 254
  · have hread := reads_line ⟨hnew, hfits⟩ .topLevel config
    have hline : readLine (head ++ d.path.text ++ ascii " \x7b" ++ [] ++ [10]) .topLevel config
        = .ok (.location (opened d.path.text) none, config) :=
      readLine_head hhead hs (by simp) (by omega) (List.forall_mem_nil _) (by simp) config
    rw [List.append_nil] at hline
    rwa [hline] at hread
  · have hread := reads_long_line hnew (by omega) (by omega) .topLevel config
    obtain ⟨k, hk, hk255⟩ : ∃ k ≤ 2, 255 - (head ++ d.path.text).length = k :=
      ⟨255 - (head ++ d.path.text).length, by omega, rfl⟩
    have htake : (head ++ d.path.text ++ ascii " \x7b").take 255
        = head ++ d.path.text ++ (ascii " \x7b").take k := by
      rw [List.take_append, List.take_of_length_le h, hk255]
    have hdrop : (head ++ d.path.text ++ ascii " \x7b").drop 255 = (ascii " \x7b").drop k := by
      rw [List.drop_append, List.drop_of_length_le h, hk255, List.nil_append]
    have hfirst := readLine_head_cut hhead hs hk (by omega) config
    have hsecond : readLine ((ascii " \x7b").drop k ++ [10]) (.location (opened d.path.text) none)
        config = .ok (.location (opened d.path.text) none, config) := by
      obtain rfl | rfl | rfl : k = 0 ∨ k = 1 ∨ k = 2 := by omega
      · rfl
      · rfl
      · rfl
    rw [htake, hdrop, hfirst] at hread
    rw [← hsecond]
    exact hread

/-! ## A location as a whole -/

/-- The definition with the methods that are read. -/
def RouteDef.read (d : RouteDef) : RouteDef := { d with methods := d.methods.take 8 }

theorem closeLocation_filled (d : RouteDef) (rt : RouteTable) :
    closeLocation (d.filled (opened d.path.text)) rt = d.read.addTo rt := by
  have hmethods : (d.filled (opened d.path.text)).methods
      = d.read.methods.map fun m => m.text.map toUpper := by
    by_cases h : d.methods = []
    · simp [RouteDef.filled, RouteDef.read, opened, h]
    · simp [RouteDef.filled, RouteDef.read, h]
  have hroute : ∀ m : Word 16, (d.filled (opened d.path.text)).route d.read.handlerType
      (m.text.map toUpper) = d.read.route m := by
    intro m
    by_cases hrealm : d.realm.text = [] <;> by_cases hrole : d.role.text = [] <;>
      simp [RouteDef.filled, RouteDef.read, RouteDef.route, Location.route, opened, hrealm, hrole,
        RouteDef.handlerType]
  have hname : (d.filled (opened d.path.text)).handlerName = some d.handler.text := rfl
  have hhandler : routeTableLookupHandler d.handler.text = d.read.handlerType := rfl
  rw [closeLocation, hname]
  simp only [hmethods, List.map_eq_nil_iff, List.foldlM_map, hhandler, hroute, RouteDef.addTo]
  by_cases hnone : d.read.handlerType = .none
  · rw [if_pos hnone, if_pos (Or.inl hnone)]
  · by_cases hnil : d.read.methods = []
    · rw [if_neg hnone, if_pos hnil, if_pos (Or.inr hnil)]
    · rw [if_neg hnone, if_neg hnil, if_neg (by simp [hnone, hnil])]

/-- The closing brace of a block. -/
theorem reads_close (reader : Reader) (config : LoadedConfig) :
    Reads (unlines [ascii "\x7d"]) reader config (readLine [125, 10] reader config) := by
  have hline : 10 ∉ ascii "\x7d" ∧ (ascii "\x7d").length ≤ 254 := by decide
  exact reads_line hline reader config

theorem unlines_nginx (d : RouteDef) : unlines d.nginx
    = d.locationHead ++ ascii " \x7b" ++ [10] ++ unlines d.nginxBody ++ unlines [ascii "\x7d"] := by
  simp [RouteDef.nginx, unlines]

/-- A location whose lines fit the buffer of the loader. -/
structure RouteDef.Fits (d : RouteDef) : Prop where
  head : d.locationHead.length ≤ 255
  methods : (blockLine (ascii "methods") (joinWords d.methods)).length ≤ 254

/-- A location adds the routes of its first eight methods. -/
theorem RouteDef.reads_nginx (d : RouteDef) (h : d.Fits) (config : LoadedConfig) :
    Reads (unlines d.nginx) .topLevel config ((d.read.addTo config.routeTable).map fun rt =>
      (.topLevel, { config with routeTable := rt })) := by
  have hclose := reads_close (.location (d.filled (opened d.path.text)) none) config
  have hend : readLine [125, 10] (.location (d.filled (opened d.path.text)) none) config
      = (d.read.addTo config.routeTable).map fun rt =>
        (.topLevel, { config with routeTable := rt }) := by
    rw [← closeLocation_filled]
    rfl
  rw [unlines_nginx, ← hend]
  exact ((d.reads_head h.head config).trans (d.reads_body h.methods _ none config)).trans hclose

/-! ## A path that is too long -/

theorem parseServerName_joinWords {names : List (Word 128)} (hfew : names.length ≤ maxServerNames)
    (hlength : (joinWords names).length < 512) (block : ServerBlock) :
    parseServerName (joinWords names) block
      = { block with serverNames := names.map (·.text) } := by
  have hcut : (names.map (·.text)).map (cut 128) = names.map (·.text) := by
    rw [List.map_map]
    apply List.map_congr_left
    intro w _
    exact w.cut_text
  rw [parseServerName, cut_of_lt hlength, tokens_joinWords, List.take_of_length_le (by simpa), hcut]

/-- The block when its lines have been read. -/
theorem BlockDef.block_eq (b : BlockDef) (h : (joinWords b.names).length < 512) :
    b.block =
      (let block := parseBlockDirective (ascii "listen") b.listen.text .fresh
      let block := if b.names = [] then block
        else parseBlockDirective (ascii "server_name") (joinWords b.names) block
      let block := if b.root.text = [] then block
        else parseBlockDirective (ascii "root") b.root.text block
      if b.accessLog.text = [] then block
        else parseBlockDirective (ascii "access_log") b.accessLog.text block) := by
  have hnames : ∀ block, parseBlockDirective (ascii "server_name") (joinWords b.names) block
      = { block with serverNames := b.names.map (·.text) } :=
    parseServerName_joinWords b.few h
  have hroot : ∀ block, parseBlockDirective (ascii "root") b.root.text block
      = { block with root := b.root.text } := fun block =>
    congrArg (fun root => { block with root := root }) b.root.cut_text
  have haccess : ∀ block, parseBlockDirective (ascii "access_log") b.accessLog.text block
      = { block with accessLog := b.accessLog.text } := fun block =>
    congrArg (fun accessLog => { block with accessLog := accessLog }) b.accessLog.cut_text
  have hlisten : parseBlockDirective (ascii "listen") b.listen.text .fresh
      = parseListen b.listen.text .fresh := rfl
  have hfresh : (parseListen b.listen.text .fresh).serverNames = [] ∧
      (parseListen b.listen.text .fresh).root = [] ∧
      (parseListen b.listen.text .fresh).accessLog = [] := ⟨rfl, rfl, rfl⟩
  simp only [BlockDef.block, hnames, hroot, haccess, hlisten]
  generalize parseListen b.listen.text .fresh = block at hfresh
  cases block with
  | mk host port root accessLog serverNames isDefault =>
    obtain ⟨rfl, rfl, rfl⟩ := hfresh
    by_cases hn : b.names = [] <;> by_cases hr : b.root.text = [] <;>
      by_cases ha : b.accessLog.text = [] <;> simp [hn, hr, ha]

theorem BlockDef.reads_body (b : BlockDef)
    (hnames : (blockLine (ascii "server_name") (joinWords b.names)).length ≤ 254)
    (config : LoadedConfig) :
    Reads (unlines b.nginxBody) (.serverBlock .fresh) config
      (.ok (.serverBlock b.block, config)) := by
  have hkeys : ∀ k ∈ ["listen", "server_name", "root", "access_log"].map ascii, IsKey k := by
    unfold IsKey
    decide +kernel
  have hbody : b.nginxBody = [blockLine (ascii "listen") b.listen.text] ++
      (if b.names = [] then [] else [blockLine (ascii "server_name") (joinWords b.names)]) ++
      (if b.root.text = [] then [] else [blockLine (ascii "root") b.root.text]) ++
      (if b.accessLog.text = [] then []
        else [blockLine (ascii "access_log") b.accessLog.text]) := by
    simp [BlockDef.nginxBody, optionalLine, blockLine, directiveText, ascii]
  have hlisten := b.listen.short
  have hroot := b.root.short
  have haccess := b.accessLog.short
  have hlength := length_blockLine (ascii "server_name") (joinWords b.names)
  have hequals := equals_notMem_joinWords b.noEquals.2.2.2
  have h₁ := hkeys (ascii "listen") (by simp)
  have h₂ := hkeys (ascii "server_name") (by simp)
  have h₃ := hkeys (ascii "root") (by simp)
  have h₄ := hkeys (ascii "access_log") (by simp)
  have hline₁ := fun block =>
    readLine_serverBlock h₁ b.listen.shown b.noEquals.1 rfl block config
  have hline₂ := fun block =>
    readLine_serverBlock h₂ (shown_joinWords b.names) hequals rfl block config
  have hline₃ := fun block =>
    readLine_serverBlock h₃ b.root.shown b.noEquals.2.1 rfl block config
  have hline₄ := fun block =>
    readLine_serverBlock h₄ b.accessLog.shown b.noEquals.2.2.1 rfl block config
  have hread := (((reads_directive h₁ b.listen.shown
      (by rw [length_blockLine]; simp [ascii]; omega) hline₁ .fresh).trans
    (reads_optional (b.names = []) h₂ (shown_joinWords b.names) (fun _ => hnames) hline₂ _)).trans
    (reads_optional (b.root.text = []) h₃ b.root.shown
      (fun _ => by rw [length_blockLine]; simp [ascii]; omega) hline₃ _)).trans
    (reads_optional (b.accessLog.text = []) h₄ b.accessLog.shown
      (fun _ => by rw [length_blockLine]; simp [ascii]; omega) hline₄ _)
  rw [hbody, unlines_append, unlines_append, unlines_append, b.block_eq (by omega)]
  exact hread

/-- A server block whose lines fit the buffer of the loader. -/
def BlockDef.Fits (b : BlockDef) : Prop :=
  (blockLine (ascii "server_name") (joinWords b.names)).length ≤ 254

theorem BlockDef.reads_nginx (b : BlockDef) (h : b.Fits)
    (hroom : config.servers.length < maxServerBlocks) :
    Reads (unlines b.nginx) .topLevel config
      (.ok (.topLevel, { config with servers := config.servers ++ [b.block] })) := by
  have hunlines : unlines b.nginx
      = ascii "server \x7b" ++ [10] ++ unlines b.nginxBody ++ unlines [ascii "\x7d"] := by
    simp [BlockDef.nginx, unlines]
  have hopen : readLine (ascii "server \x7b" ++ [10]) .topLevel config
      = .ok (.serverBlock .fresh, config) := by
    have hline : readLine (ascii "server \x7b" ++ [10]) .topLevel config
        = if maxServerBlocks ≤ config.servers.length then .error .refused
          else .ok (.serverBlock .fresh, config) := rfl
    rw [hline, if_neg (by omega)]
  have hhead : Reads (ascii "server \x7b" ++ [10]) .topLevel config
      (.ok (.serverBlock .fresh, config)) := by
    rw [← hopen]
    exact reads_line (by decide) .topLevel config
  rw [hunlines]
  exact (hhead.trans (b.reads_body h config)).trans (reads_close (.serverBlock b.block) config)

theorem reads_blocks {blocks : List BlockDef} (config : LoadedConfig)
    (hfits : ∀ b ∈ blocks, b.Fits)
    (hroom : config.servers.length + blocks.length ≤ maxServerBlocks) :
    Reads (unlines (blocks.flatMap (·.nginx))) .topLevel config
      (.ok (.topLevel, { config with servers := config.servers ++ blocks.map (·.block) })) := by
  induction blocks generalizing config with
  | nil =>
    rw [List.map_nil, List.append_nil]
    exact reads_nil _ _
  | cons b blocks ih =>
    rw [List.length_cons] at hroom
    have hfits' : ∀ b ∈ blocks, b.Fits := fun b hb => hfits b (List.mem_cons_of_mem _ hb)
    have hread := ih { config with servers := config.servers ++ [b.block] } hfits'
      (by simp; omega)
    rw [List.flatMap_cons, unlines_append, List.map_cons, List.append_cons]
    exact (b.reads_nginx (hfits b (List.mem_cons_self ..)) (by omega)).trans hread

/-! ## The listing -/

theorem reads_routes {routes : List RouteDef} (hfits : ∀ d ∈ routes, d.Fits)
    (config : LoadedConfig) :
    Reads (unlines (routes.flatMap (·.nginx))) .topLevel config
      (((routes.map RouteDef.read).foldlM (fun rt d => RouteDef.addTo d rt) config.routeTable).map
        fun rt => (.topLevel, { config with routeTable := rt })) := by
  induction routes generalizing config with
  | nil => exact reads_nil _ _
  | cons d routes ih =>
    have hread := d.reads_nginx (hfits d (List.mem_cons_self ..)) config
    have hfits' : ∀ d ∈ routes, d.Fits := fun d hd => hfits d (List.mem_cons_of_mem _ hd)
    rw [List.flatMap_cons, unlines_append, List.map_cons, List.foldlM_cons]
    cases hadd : d.read.addTo config.routeTable with
    | error e =>
      rw [hadd] at hread
      exact hread.error _
    | ok rt =>
      rw [hadd] at hread
      exact hread.trans (ih hfits' { config with routeTable := rt })

/-- The listing with the methods that are read. -/
def Listing.read (l : Listing) : Listing := { l with routes := l.routes.map (·.read) }

/-- The lines of a listing fit the buffer of the loader. -/
structure Listing.Fits (l : Listing) : Prop where
  routes : ∀ d ∈ l.routes, d.Fits
  blocks : ∀ b ∈ l.blocks, b.Fits

/-- The Nginx loader reads a listing as it is meant, but for the methods behind the eighth. -/
theorem loadNginxConfig_listing {l : Listing} (h : l.Fits) :
    loadNginxConfig l.nginx .zero = l.read.routeTable.map fun rt =>
      ⟨.zero, l.blocks.map (·.block), rt⟩ := by
  have hblocks := reads_blocks .zero h.blocks (by simpa [LoadedConfig.zero] using l.fits)
  have hread := hblocks.trans (reads_routes h.routes _) []
  rw [List.append_nil, ← unlines_append] at hread
  rw [loadNginxConfig, Listing.nginx, hread]
  change _ = Except.map _ ((l.routes.map RouteDef.read).foldlM (fun rt d => RouteDef.addTo d rt)
    routeTableInit)
  have hzero : LoadedConfig.zero.routeTable = routeTableInit := rfl
  rw [hzero]
  cases (l.routes.map RouteDef.read).foldlM (fun rt d => RouteDef.addTo d rt) routeTableInit with
  | error e => rfl
  | ok rt => rfl

end MiniWeb.Config
