import MiniWeb.Config.Demands
import MiniWeb.Config.JsonObjects

/-!
# What the JSON loader comes by

The arrays of a JSON text hold objects, and the objects of the server blocks hold lists of names.
The loader reads them one after the other and gives up at the first that it refuses; what it does at
each of these places depends on the text there and on the routes and the servers before.
-/

namespace MiniWeb.Config

open CStr Routing

variable {p q v : CStr} {n : Nat} {place : Place} {ps qs : List Place}
  {state : Nat × RouteTable}

/-! ## The parts of an array -/

/-- The text of an array behind its bracket. -/
def behindBracket (v : CStr) : Option CStr :=
  match jsonSkipWs v with
  | 91 :: p => some p
  | _ => none

theorem match_bracket {α : Type} (v : CStr) (f : CStr → α) (d : α) :
    (match jsonSkipWs v with
      | 91 :: p => f p
      | _ => d) = (behindBracket v).elim d f := by
  rw [behindBracket]
  split
  next p hp => rfl
  next => rfl

/-- A part of an array as the loops step over it: a text in braces, or a byte. -/
inductive ArrayPart
  | object (text : CStr)
  | byte (c : UInt8)
deriving DecidableEq, Repr

/-- The text in braces that starts with the brace before `p`. -/
def bracedText (p : CStr) : CStr := 123 :: p.take (p.length - (skipNested 123 125 1 p).length)

def arrayParts : CStr → List ArrayPart
  | [] => []
  | c :: p =>
    if c = 123 then .object (bracedText p) :: arrayParts (skipNested 123 125 1 p)
    else .byte c :: arrayParts p
termination_by p => p.length
decreasing_by
  · have hskip := length_skipNested_le 123 125 1 p
    rw [List.length_cons]
    omega
  · exact Nat.lt_succ_self _

def ArrayPart.text : ArrayPart → Option CStr
  | .object text => some text
  | .byte _ => none

/-- The objects of the array behind whose bracket `p` stands, as far as a buffer holds each. -/
def arrayObjects (size : Nat) (p : CStr) : List CStr :=
  (((arrayParts p).takeWhile (· ≠ .byte 93)).filterMap ArrayPart.text).map (cut size)

def ArrayPart.isGap : ArrayPart → Bool
  | .object _ => false
  | .byte c => isJsonSpace c

/-- A bracket closes the array, or the text does not end in white space. -/
def closedArray (p : CStr) : Bool :=
  decide (.byte 93 ∈ arrayParts p) || !(arrayParts p).getLast?.any ArrayPart.isGap

section

variable {σ : Type} {size : Nat} {parse : CStr → σ → Loaded σ} {c : UInt8}

theorem arrayParts_brace (p : CStr) :
    arrayParts (123 :: p) = .object (bracedText p) :: arrayParts (skipNested 123 125 1 p) := by
  rw [arrayParts, if_pos rfl]

theorem arrayParts_byte (hc : c ≠ 123) : arrayParts (c :: p) = .byte c :: arrayParts p := by
  rw [arrayParts, if_neg hc]

theorem arrayParts_ne_nil (hp : p ≠ []) : arrayParts p ≠ [] := by
  obtain ⟨c, q, rfl⟩ := List.exists_cons_of_ne_nil hp
  by_cases hc : c = 123
  · rw [hc, arrayParts_brace]
    exact List.cons_ne_nil _ _
  · rw [arrayParts_byte hc]
    exact List.cons_ne_nil _ _

theorem arrayObjects_byte (hc : c ≠ 123) (hclose : c ≠ 93) :
    arrayObjects size (c :: p) = arrayObjects size p := by
  rw [arrayObjects, arrayParts_byte hc, List.takeWhile_cons_of_pos (by simp [hclose])]
  rfl

theorem arrayObjects_brace (p : CStr) : arrayObjects size (123 :: p) =
    objectText size p :: arrayObjects size (skipNested 123 125 1 p) := by
  rw [arrayObjects, arrayParts_brace, List.takeWhile_cons_of_pos (by simp)]
  rfl

/-- A part in front of others does not close the array. -/
theorem closedArray_of_parts {part : ArrayPart} (hparts : arrayParts p = part :: arrayParts q)
    (hpart : part ≠ .byte 93) (hend : q = [] → part.isGap = false) :
    closedArray p = closedArray q := by
  rw [closedArray, closedArray, hparts]
  congr 1
  · rw [decide_eq_decide, List.mem_cons]
    exact or_iff_right fun h => hpart h.symm
  · cases q with
    | nil =>
      have hgap := hend rfl
      simp [arrayParts, hgap]
    | cons d q =>
      obtain ⟨next, parts, hnext⟩ :=
        List.exists_cons_of_ne_nil (arrayParts_ne_nil (List.cons_ne_nil d q))
      rw [hnext, List.getLast?_cons_cons]

/-- White space up to the end of the text. -/
theorem jsonObjects_ended (hp : p ≠ []) (hws : jsonSkipWs p = []) (state : σ) :
    jsonObjects size parse p state = .error .pastEnd := by
  rw [jsonObjects, if_neg hp]
  split
  next => rfl
  next c x hx => exact absurd (hws.symm.trans hx) (by simp)

theorem jsonObjects_congr (hp : p ≠ []) (hq : q ≠ []) (h : jsonSkipWs p = jsonSkipWs q)
    (state : σ) : jsonObjects size parse p state = jsonObjects size parse q state := by
  cases hnext : jsonSkipWs q with
  | nil => rw [jsonObjects_ended hp (h.trans hnext), jsonObjects_ended hq hnext]
  | cons c x => rw [jsonObjects_cons (h.trans hnext), jsonObjects_cons hnext]

/-- The loop over an array of objects reads one object after the other, and then stops before the
end of the text or steps over it. -/
theorem jsonObjects_eq (p : CStr) (state : σ) : jsonObjects size parse p state =
    ((arrayObjects size p).foldlM (fun state o => parse o state) state).bind fun state =>
      if closedArray p then .ok state else .error .pastEnd := by
  induction hlen : p.length using Nat.strong_induction_on generalizing p state with
  | _ n ih =>
    cases p with
    | nil =>
      rw [jsonObjects, if_pos rfl]
      simp [arrayObjects, closedArray, arrayParts, Except.bind, pure, Except.pure]
    | cons c q =>
      have hq : q.length < n := by
        rw [← hlen, List.length_cons]
        exact Nat.lt_succ_self _
      by_cases hspace : isJsonSpace c = true
      · have hbyte : c ≠ 123 ∧ c ≠ 93 := by
          constructor
          · rintro rfl
            exact absurd hspace (by decide)
          · rintro rfl
            exact absurd hspace (by decide)
        have hws : jsonSkipWs (c :: q) = jsonSkipWs q := List.dropWhile_cons_of_pos hspace
        by_cases hnil : q = []
        · have hopen : closedArray [c] = false := by
            simp [closedArray, arrayParts_byte hbyte.1, arrayParts, ArrayPart.isGap, hspace,
              hbyte.2.symm]
          subst hnil
          rw [jsonObjects_ended (List.cons_ne_nil _ _) hws, arrayObjects_byte hbyte.1 hbyte.2,
            hopen]
          simp [arrayObjects, arrayParts, Except.bind, pure, Except.pure]
        · have hclosed : closedArray (c :: q) = closedArray q := by
            apply closedArray_of_parts (arrayParts_byte hbyte.1)
            · simp [hbyte.2]
            · exact fun h => absurd h hnil
          rw [jsonObjects_congr (List.cons_ne_nil _ _) hnil hws, ih _ hq _ _ rfl,
            arrayObjects_byte hbyte.1 hbyte.2, hclosed]
      · rw [Bool.not_eq_true] at hspace
        rw [jsonObjects_cons (jsonSkipWs_cons hspace)]
        by_cases hclose : c = 93
        · have hclosed : closedArray (93 :: q) = true := by
            rw [closedArray, arrayParts_byte (by decide)]
            simp
          have hnone : arrayObjects size (93 :: q) = [] := by
            rw [arrayObjects, arrayParts_byte (by decide)]
            rfl
          rw [if_pos hclose, hclose, hnone, hclosed]
          rfl
        · rw [if_neg hclose]
          by_cases hopen : c = 123
          · have hclosed : closedArray (123 :: q) = closedArray (skipNested 123 125 1 q) :=
              closedArray_of_parts (arrayParts_brace q) (by simp) fun _ => rfl
            have hskip := length_skipNested_le 123 125 1 q
            rw [if_pos hopen, hopen, arrayObjects_brace, List.foldlM_cons, hclosed]
            cases hparse : parse (objectText size q) state with
            | error e => rfl
            | ok next => exact ih _ (by omega) _ _ rfl
          · have hclosed : closedArray (c :: q) = closedArray q := by
              apply closedArray_of_parts (arrayParts_byte hopen)
              · simp [hclose]
              · exact fun _ => hspace
            rw [if_neg hopen, ih _ hq _ _ rfl, arrayObjects_byte hopen hclose, hclosed]

end

/-! ## Lists of names -/

/-- A text behind the bracket of a list from which `n` names can be read: strings that fit their
buffers, with commas between them or not, up to a bracket or the end of the text. -/
inductive NameList : Nat → CStr → Prop
  | full (p : CStr) : NameList 0 p
  | done (n : Nat) : NameList n []
  | close {n : Nat} {p q : CStr} (hnext : jsonSkipWs p = 93 :: q) : NameList n p
  | comma {n : Nat} {p q : CStr} (hnext : jsonSkipWs p = 44 :: q) (hrest : NameList n q) :
      NameList n p
  | name {n : Nat} {p s q : CStr} (hname : jsonGetString p 128 = some (s, q))
      (hrest : NameList n q) : NameList (n + 1) p

theorem nameList_iff (hp : p ≠ []) : NameList (n + 1) p ↔
    (∃ q, jsonSkipWs p = 93 :: q) ∨ (∃ q, jsonSkipWs p = 44 :: q ∧ NameList (n + 1) q) ∨
      ∃ s q, jsonGetString p 128 = some (s, q) ∧ NameList n q := by
  constructor
  · intro h
    cases h with
    | done => exact absurd rfl hp
    | close hnext => exact Or.inl ⟨_, hnext⟩
    | comma hnext hrest => exact Or.inr (Or.inl ⟨_, hnext, hrest⟩)
    | name hname hrest => exact Or.inr (Or.inr ⟨_, _, hname, hrest⟩)
  · rintro (⟨q, hnext⟩ | ⟨q, hnext, hrest⟩ | ⟨s, q, hname, hrest⟩)
    · exact .close hnext
    · exact .comma hnext hrest
    · exact .name hname hrest

theorem jsonGetString_of_other {c : UInt8} (hnext : jsonSkipWs p = c :: q) (hc : c ≠ 34)
    (size : Nat) : jsonGetString p size = none := by
  rw [jsonGetString, hnext]
  split
  next r hr => exact absurd (List.cons.inj hr).1 hc
  next => rfl

theorem jsonGetString_skip (p : CStr) (size : Nat) :
    jsonGetString (jsonSkipWs p) size = jsonGetString p size := by
  have hskip : jsonSkipWs (jsonSkipWs p) = jsonSkipWs p := List.dropWhile_idempotent ..
  rw [jsonGetString, jsonGetString, hskip]

/-- What the loop does with a text that is not at its end, while there is room. -/
theorem jsonStrings_next {arr : List CStr} (hmore : ¬(p = [] ∨ n ≤ arr.length)) :
    (∀ q, jsonSkipWs p = 44 :: q → jsonStrings n arr p = jsonStrings n arr q) ∧
    (∀ q, jsonSkipWs p = 93 :: q → jsonStrings n arr p = .ok arr) ∧
    ((∀ q, jsonSkipWs p ≠ 44 :: q) → (jsonSkipWs p).head? ≠ some 93 →
      jsonStrings n arr p = match jsonGetString p 128 with
        | none => .error .nullPointer
        | some (s, q) => jsonStrings n (arr ++ [s]) q) := by
  refine ⟨fun q hnext => ?_, fun q hnext => ?_, fun hcomma hclose => ?_⟩
  · rw [jsonStrings, if_neg hmore]
    split
    next r hr =>
      rw [hnext] at hr
      cases hr
      rfl
    next hne => exact absurd hnext (hne q)
  · rw [jsonStrings, if_neg hmore]
    split
    next r hr => exact absurd (hnext.symm.trans hr) (by simp)
    next => rw [if_pos (by rw [hnext]; rfl)]
  · rw [jsonStrings, if_neg hmore]
    split
    next r hr => exact absurd hr (hcomma r)
    next =>
      rw [if_neg hclose]
      split
      next hnone =>
        rw [jsonGetString_skip] at hnone
        rw [hnone]
      next s q hsome =>
        rw [jsonGetString_skip] at hsome
        rw [hsome]

/-- The list is read to its end, or the loop meets something else and goes on with `NULL`. -/
theorem jsonStrings_cases (n : Nat) (arr : List CStr) (p : CStr) :
    (NameList (n - arr.length) p ∧ ∃ names, jsonStrings n arr p = .ok names) ∨
      ¬NameList (n - arr.length) p ∧ jsonStrings n arr p = .error .nullPointer := by
  have hroom : ∀ {arr : List CStr} {p : CStr}, ¬(p = [] ∨ n ≤ arr.length) →
      p ≠ [] ∧ n - arr.length = (n - (arr.length + 1)) + 1 := by
    intro arr p hmore
    rw [not_or, not_le] at hmore
    exact ⟨hmore.1, by omega⟩
  induction arr, p using jsonStrings.induct n with
  | case1 arr p hstop =>
    left
    refine ⟨?_, arr, by rw [jsonStrings, if_pos hstop]⟩
    rcases hstop with rfl | hfull
    · exact .done _
    · rw [Nat.sub_eq_zero_of_le hfull]
      exact .full p
  | case2 arr p hmore q hnext ih =>
    obtain ⟨hp, hsub⟩ := hroom hmore
    have hlist : NameList (n - arr.length) p ↔ NameList (n - arr.length) q := by
      rw [hsub, nameList_iff hp, hnext, jsonGetString_of_other hnext (by decide)]
      simp
    rw [(jsonStrings_next hmore).1 q hnext, hlist]
    exact ih
  | case3 arr p hmore hcomma hclose =>
    obtain ⟨q, hnext⟩ : ∃ q, jsonSkipWs p = 93 :: q := List.head?_eq_some_iff.mp hclose
    exact Or.inl ⟨.close hnext, arr, (jsonStrings_next hmore).2.1 q hnext⟩
  | case4 arr p hmore hcomma hclose hnone =>
    obtain ⟨hp, hsub⟩ := hroom hmore
    rw [jsonGetString_skip] at hnone
    have hlist : ¬NameList (n - arr.length) p := by
      rw [hsub, nameList_iff hp, hnone]
      rintro (⟨q, hnext⟩ | ⟨q, hnext, -⟩ | ⟨s, q, hsome, -⟩)
      · exact hclose (by rw [hnext]; rfl)
      · exact hcomma q hnext
      · cases hsome
    refine Or.inr ⟨hlist, ?_⟩
    rw [(jsonStrings_next hmore).2.2 hcomma hclose, hnone]
  | case5 arr p hmore s q hcomma hclose hsome ih =>
    obtain ⟨hp, hsub⟩ := hroom hmore
    rw [jsonGetString_skip] at hsome
    have hlist : NameList (n - arr.length) p ↔ NameList (n - (arr ++ [s]).length) q := by
      rw [hsub, nameList_iff hp, hsome, List.length_append, List.length_singleton]
      constructor
      · rintro (⟨q', hnext⟩ | ⟨q', hnext, -⟩ | ⟨s', q', hread, hrest⟩)
        · exact absurd (by rw [hnext]; rfl) hclose
        · exact absurd hnext (hcomma q')
        · cases hread
          exact hrest
      · exact fun hrest => Or.inr (Or.inr ⟨s, q, rfl, hrest⟩)
    rw [(jsonStrings_next hmore).2.2 hcomma hclose, hsome, hlist]
    exact ih

/-- The value under `server_name` is no list, or a list from which all names can be read. -/
def NamesRead (v : CStr) : Prop := ∀ p ∈ behindBracket v, NameList maxServerNames p

theorem jsonGetStringArray_cases (v : CStr) :
    (NamesRead v ∧ ∃ names, jsonGetStringArray v maxServerNames = .ok names) ∨
      ¬NamesRead v ∧ jsonGetStringArray v maxServerNames = .error .nullPointer := by
  have hread : jsonGetStringArray v maxServerNames =
      (behindBracket v).elim (.ok []) (jsonStrings maxServerNames []) :=
    match_bracket v (jsonStrings maxServerNames []) (.ok [])
  rw [NamesRead, hread]
  cases behindBracket v with
  | none => exact Or.inl ⟨fun p hp => absurd hp (by simp), [], rfl⟩
  | some p => simpa using jsonStrings_cases maxServerNames [] p

/-! ## Routes -/

/-- The route of an object that has the fields it needs and names a handler that there is. -/
def objectRoute (p : CStr) : Option Route :=
  match jsonFindKey p (ascii "method"), jsonFindKey p (ascii "path"),
    jsonFindKey p (ascii "handler") with
  | some method, some path, some handler =>
    let (path, matchType) := pathMatch (jsonGetStr path 256)
    let htype := routeTableLookupHandler (jsonGetStr handler 64)
    if htype = .none then none
    else
      some
        { method := (jsonGetStr method 16).map toUpper
          path := path
          matchType := matchType
          handler := htype
          authRealm := ((jsonFindKey p (ascii "auth")).map (jsonGetStr · 64)).getD []
          requiredRole := ((jsonFindKey p (ascii "role")).map (jsonGetStr · 32)).getD [] }
  | _, _, _ => none

theorem jsonParseRoute_eq (p : CStr) (rt : RouteTable) :
    jsonParseRoute p rt = (objectRoute p).elim (.error .refused) fun r => addRoute r rt := by
  rw [jsonParseRoute, objectRoute]
  cases jsonFindKey p (ascii "method") with
  | none => rfl
  | some method =>
    cases jsonFindKey p (ascii "path") with
    | none => rfl
    | some path =>
      cases jsonFindKey p (ascii "handler") with
      | none => rfl
      | some handler =>
        by_cases hnone : routeTableLookupHandler (jsonGetStr handler 64) = .none
        · simp only [hnone, if_true]
          rfl
        · simp only [hnone, if_false]
          rfl

theorem length_jsonChars_fst_le (room : Nat) (p : CStr) : (jsonChars room p).1.length ≤ room := by
  fun_induction jsonChars room p with
  | case1 p => exact le_refl _
  | case2 room => exact Nat.zero_le _
  | case3 room p => exact Nat.zero_le _
  | case4 room e p dst q hq ih =>
    simp only [hq, List.length_cons] at ih ⊢
    omega
  | case5 room c p h34 h92 dst q hq ih =>
    simp only [hq, List.length_cons] at ih ⊢
    omega

/-- A string fits its buffer. -/
theorem length_jsonGetStr_lt {size : Nat} (hsize : 0 < size) (p : CStr) :
    (jsonGetStr p size).length < size := by
  rw [jsonGetStr]
  split
  · cases hread : jsonGetString (jsonSkipWs p) size with
    | none => exact hsize
    | some read =>
      rw [jsonGetString] at hread
      split at hread
      next q hq =>
        have hchars := length_jsonChars_fst_le (size - 1) q
        cases hread
        show (jsonChars (size - 1) q).1.length < size
        omega
      next => cases hread
  · rw [cut]
    have htake := List.length_take_le (size - 1)
      ((jsonSkipWs p).takeWhile fun c => c ≠ 44 ∧ c ≠ 125 ∧ c ≠ 93 ∧ c ≠ 10)
    omega

theorem objectRoute_fits {r : Route} (h : objectRoute p = some r) : RouteFits r := by
  rw [objectRoute] at h
  split at h
  next method path handler hmethod hpath hhandler =>
    simp only at h
    split at h
    · cases h
    · cases h
      have hpath : (jsonGetStr path 256).length < 256 := length_jsonGetStr_lt (by decide) path
      refine ⟨?_, lt_of_le_of_lt (length_pathMatch_le _) hpath⟩
      rw [List.length_map]
      exact length_jsonGetStr_lt (by decide) method
  next => cases h

theorem objectRoute_handler {r : Route} (h : objectRoute p = some r) : r.handler ≠ .none := by
  rw [objectRoute] at h
  split at h
  next method path handler hmethod hpath hhandler =>
    simp only at h
    split at h
    next => cases h
    next hknown =>
      cases h
      exact hknown
  next => cases h

/-! ## Places -/

/-- What the loader comes by: an object of the `servers` array, the value under its `server_name`,
an object of a `routes` array, and the end of the text in an array that is not closed. -/
inductive Place
  | server
  | names (v : CStr)
  | route (o : CStr)
  | unclosed

def Place.isServer : Place → Bool
  | .server => true
  | _ => false

def Place.route? : Place → Option Route
  | .route o => objectRoute o
  | _ => none

def endPlaces (p : CStr) : List Place := if closedArray p then [] else [.unclosed]

/-- The places of the `routes` array of an object. -/
def routePlaces (p : CStr) : List Place :=
  match jsonFindKey p (ascii "routes") with
  | some v => (behindBracket v).elim [] fun q => (arrayObjects 1024 q).map .route ++ endPlaces q
  | none => []

def serverPlaces (p : CStr) : List Place :=
  .server :: ((jsonFindKey p (ascii "server_name")).map .names).toList ++ routePlaces p

/-- The places of the `servers` array of an object. -/
def serversPlaces (p : CStr) : List Place :=
  match jsonFindKey p (ascii "servers") with
  | some v =>
    (behindBracket v).elim [] fun q => (arrayObjects 2048 q).flatMap serverPlaces ++ endPlaces q
  | none => []

/-- The places of a text, in the order in which the loader comes by them. -/
def places (raw : CStr) : List Place := routePlaces raw ++ serversPlaces raw

/-- What the loader does at a place, with the number of servers and the routes before. -/
def visit : Place → Nat × RouteTable → Loaded (Nat × RouteTable)
  | .server, (n, rt) => if maxServerBlocks ≤ n then .error .refused else .ok (n + 1, rt)
  | .names v, (n, rt) => (jsonGetStringArray v maxServerNames).map fun _ => (n, rt)
  | .route o, (n, rt) => (jsonParseRoute o rt).map fun rt => (n, rt)
  | .unclosed, _ => .error .pastEnd

def visits (ps : List Place) (state : Nat × RouteTable) : Loaded (Nat × RouteTable) :=
  ps.foldlM (fun state place => visit place state) state

theorem visits_append : visits (ps ++ qs) state = (visits ps state).bind (visits qs) :=
  List.foldlM_append

theorem visits_routes (os : List CStr) (n : Nat) (rt : RouteTable) :
    visits (os.map .route) (n, rt) =
      (os.foldlM (fun rt o => jsonParseRoute o rt) rt).map fun rt => (n, rt) := by
  induction os generalizing rt with
  | nil => rfl
  | cons o os ih =>
    rw [List.map_cons, List.foldlM_cons, visits, List.foldlM_cons, visit]
    cases jsonParseRoute o rt with
    | error e => rfl
    | ok rt => exact ih rt

theorem visits_end (p : CStr) (state : Nat × RouteTable) :
    visits (endPlaces p) state = if closedArray p then .ok state else .error .pastEnd := by
  rw [endPlaces]
  split
  · rfl
  · rfl

theorem visits_routePlaces (p : CStr) (n : Nat) (rt : RouteTable) :
    visits (routePlaces p) (n, rt) = (jsonRoutesOf p rt).map fun rt => (n, rt) := by
  rw [routePlaces, jsonRoutesOf]
  cases jsonFindKey p (ascii "routes") with
  | none => rfl
  | some v =>
    have hroutes : jsonParseRoutes v rt =
        (behindBracket v).elim (.ok rt) fun q => jsonObjects 1024 jsonParseRoute q rt :=
      match_bracket v (fun q => jsonObjects 1024 jsonParseRoute q rt) (.ok rt)
    simp only [hroutes]
    cases behindBracket v with
    | none => rfl
    | some q =>
      simp only [Option.elim_some]
      rw [visits_append, visits_routes, jsonObjects_eq]
      cases (arrayObjects 1024 q).foldlM (fun rt o => jsonParseRoute o rt) rt with
      | error e => rfl
      | ok rt =>
        refine (visits_end q (n, rt)).trans ?_
        cases closedArray q with
        | true => rfl
        | false => rfl

theorem visits_serverPlaces (p : CStr) (config : LoadedConfig) :
    visits (serverPlaces p) config.summary = (jsonParseServer p config).map (·.summary) := by
  rw [serverPlaces, List.cons_append, visits, List.foldlM_cons, LoadedConfig.summary, visit,
    jsonParseServer]
  by_cases hfull : maxServerBlocks ≤ config.servers.length
  · rw [if_pos hfull, if_pos hfull]
    rfl
  · rw [if_neg hfull, if_neg hfull]
    have hroutes := visits_routePlaces p (config.servers.length + 1) config.routeTable
    cases jsonFindKey p (ascii "server_name") with
    | none =>
      refine hroutes.trans ?_
      cases jsonRoutesOf p config.routeTable with
      | error e => rfl
      | ok rt => exact congrArg Except.ok (summary_add config _ rt).symm
    | some v =>
      show ((jsonGetStringArray v maxServerNames).map fun _ =>
        (config.servers.length + 1, config.routeTable)).bind (visits (routePlaces p)) = _
      simp only
      cases jsonGetStringArray v maxServerNames with
      | error e => rfl
      | ok names =>
        refine hroutes.trans ?_
        cases jsonRoutesOf p config.routeTable with
        | error e => rfl
        | ok rt => exact congrArg Except.ok (summary_add config _ rt).symm

theorem visits_servers (os : List CStr) (config : LoadedConfig) :
    visits (os.flatMap serverPlaces) config.summary =
      (os.foldlM (fun config o => jsonParseServer o config) config).map (·.summary) := by
  induction os generalizing config with
  | nil => rfl
  | cons o os ih =>
    rw [List.flatMap_cons, visits_append, visits_serverPlaces, List.foldlM_cons]
    cases jsonParseServer o config with
    | error e => rfl
    | ok config => exact ih config

theorem visits_serversPlaces (raw : CStr) (config : LoadedConfig) :
    visits (serversPlaces raw) config.summary = (jsonServersOf raw config).map (·.summary) := by
  rw [serversPlaces, jsonServersOf]
  cases jsonFindKey raw (ascii "servers") with
  | none => rfl
  | some v =>
    refine Eq.trans ?_ (congrArg (Except.map (·.summary))
      (match_bracket v (fun q => jsonObjects 2048 jsonParseServer q config) (.ok config)).symm)
    simp only
    cases behindBracket v with
    | none => rfl
    | some q =>
      simp only [Option.elim_some]
      rw [visits_append, visits_servers, jsonObjects_eq]
      cases (arrayObjects 2048 q).foldlM (fun config o => jsonParseServer o config) config with
      | error e => rfl
      | ok config =>
        refine (visits_end q config.summary).trans ?_
        cases closedArray q with
        | true => rfl
        | false => rfl

/-- The loader does at the places of a text what it does with the text. -/
theorem visits_places (raw : CStr) (config : LoadedConfig) :
    visits (places raw) config.summary = (loadJsonConfig raw config).map (·.summary) := by
  have hroutes := visits_routePlaces raw config.servers.length config.routeTable
  rw [places, visits_append, LoadedConfig.summary, hroutes, loadJsonConfig]
  cases jsonRoutesOf raw config.routeTable with
  | error e => rfl
  | ok rt => exact visits_serversPlaces raw ⟨jsonSettings raw config.settings, config.servers, rt⟩

/-! ## When the loader survives -/

/-- It returns `0` or `-1`. -/
def Survives {α : Type} (run : Loaded α) : Prop := run = .error .refused ∨ ∃ a, run = .ok a

theorem survives_map {α β : Type} {run : Loaded α} (f : α → β) :
    Survives (run.map f) ↔ Survives run := by
  cases run with
  | ok a => exact iff_of_true (Or.inr ⟨f a, rfl⟩) (Or.inr ⟨a, rfl⟩)
  | error e => simp [Survives, Except.map]

/-- A place that the loader does not survive. -/
def Place.Faulty : Place → Prop
  | .server => False
  | .names v => ¬NamesRead v
  | .route _ => False
  | .unclosed => True

/-- There are more servers than a configuration has room for, or routes that cannot be added. -/
def TurnedDown (ps : List Place) : Prop :=
  maxServerBlocks < ps.countP Place.isServer ∨ (∃ o, .route o ∈ ps ∧ objectRoute o = none) ∨
    ¬Addable (ps.filterMap Place.route?)

theorem TurnedDown.append (h : TurnedDown ps) (qs : List Place) : TurnedDown (ps ++ qs) := by
  rcases h with hmany | ⟨o, ho, hnone⟩ | hadd
  · left
    rw [List.countP_append]
    omega
  · exact Or.inr (Or.inl ⟨o, List.mem_append_left _ ho, hnone⟩)
  · right
    right
    rw [List.filterMap_append]
    exact fun hall => hadd hall.of_append

/-- What the loader has after places that it does not turn down. -/
structure Visited (ps : List Place) (state : Nat × RouteTable) : Prop where
  servers : state.1 = ps.countP Place.isServer
  holds : Holds (ps.filterMap Place.route?) state.2
  standing : ¬TurnedDown ps

theorem visited_nil : Visited [] LoadedConfig.zero.summary where
  servers := rfl
  holds := holds_init
  standing := by
    rintro (hmany | ⟨o, ho, -⟩ | hadd)
    · exact absurd hmany (by decide)
    · cases ho
    · exact hadd addable_nil

theorem route?_fits : ∀ r ∈ ps.filterMap Place.route?, RouteFits r := by
  intro r hr
  obtain ⟨place, -, hroute⟩ := List.mem_filterMap.mp hr
  cases place with
  | route o => exact objectRoute_fits hroute
  | server => cases hroute
  | names v => cases hroute
  | unclosed => cases hroute

theorem routes_concat (hnone : place.route? = none) :
    (ps ++ [place]).filterMap Place.route? = ps.filterMap Place.route? := by
  rw [List.filterMap_append, List.filterMap_cons_none hnone, List.filterMap_nil, List.append_nil]

/-- Places without a new route. -/
theorem TurnedDown.of_concat (hroute : ∀ o, place ≠ .route o) (h : TurnedDown (ps ++ [place])) :
    TurnedDown ps ∨ maxServerBlocks < (ps ++ [place]).countP Place.isServer := by
  rcases h with hmany | ⟨o, ho, hnone⟩ | hadd
  · exact Or.inr hmany
  · rw [List.mem_append, List.mem_singleton] at ho
    exact Or.inl (Or.inr (Or.inl ⟨o, ho.resolve_right fun heq => hroute o heq.symm, hnone⟩))
  · have hnone : place.route? = none := by
      cases place with
      | route o => exact absurd rfl (hroute o)
      | server => rfl
      | names v => rfl
      | unclosed => rfl
    rw [routes_concat hnone] at hadd
    exact Or.inl (Or.inr (Or.inr hadd))

theorem Visited.server (h : Visited ps state) :
    (TurnedDown (ps ++ [.server]) ∧ visit .server state = .error .refused) ∨
      ∃ state', visit .server state = .ok state' ∧ Visited (ps ++ [.server]) state' := by
  obtain ⟨n, rt⟩ := state
  have hcount : (ps ++ [Place.server]).countP Place.isServer = n + 1 := by
    rw [List.countP_append, ← h.servers]
    rfl
  by_cases hfull : maxServerBlocks ≤ n
  · refine Or.inl ⟨Or.inl ?_, if_pos hfull⟩
    omega
  · refine Or.inr ⟨(n + 1, rt), if_neg hfull, hcount.symm, ?_, fun hdown => ?_⟩
    · rw [routes_concat rfl]
      exact h.holds
    · rcases hdown.of_concat (fun o heq => by cases heq) with hdown | hmany
      · exact h.standing hdown
      · omega

/-- A place that leaves the servers and the routes as they are. -/
theorem Visited.names (h : Visited ps state) (v : CStr) : Visited (ps ++ [.names v]) state where
  servers := by
    rw [List.countP_append, ← h.servers]
    rfl
  holds := by
    rw [routes_concat rfl]
    exact h.holds
  standing := by
    intro hdown
    rcases hdown.of_concat (fun o heq => by cases heq) with hdown | hmany
    · exact h.standing hdown
    · rw [List.countP_append] at hmany
      exact h.standing (Or.inl hmany)

theorem Visited.route (h : Visited ps state) (o : CStr) :
    (TurnedDown (ps ++ [.route o]) ∧ visit (.route o) state = .error .refused) ∨
      ∃ state', visit (.route o) state = .ok state' ∧ Visited (ps ++ [.route o]) state' := by
  obtain ⟨n, rt⟩ := state
  rw [visit, jsonParseRoute_eq]
  cases hroute : objectRoute o with
  | none =>
    refine Or.inl ⟨Or.inr (Or.inl ⟨o, ?_, hroute⟩), rfl⟩
    exact List.mem_append_right _ (List.mem_singleton_self _)
  | some r =>
    have hroutes : (ps ++ [Place.route o]).filterMap Place.route? =
        ps.filterMap Place.route? ++ [r] := by
      have hsome : Place.route? (.route o) = some r := hroute
      rw [List.filterMap_append, List.filterMap_cons_some hsome]
      rfl
    have hadd : Addable (ps.filterMap Place.route?) := by
      by_contra hnot
      exact h.standing (Or.inr (Or.inr hnot))
    have hrefuses := h.holds.refuses_iff (r := r) hadd route?_fits
    by_cases hrefuse : Refuses rt r
    · refine Or.inl ⟨Or.inr (Or.inr ?_), ?_⟩
      · rw [hroutes]
        exact hrefuses.mp hrefuse
      · rw [Option.elim_some, addRoute_refused hrefuse]
        rfl
    · obtain ⟨t', hok, hbuilt, hentries⟩ := addRoute_ok h.holds.built hrefuse
      refine Or.inr ⟨(n, t'), ?_, ?_, ?_, ?_⟩
      · rw [Option.elim_some, hok]
        rfl
      · rw [List.countP_append, ← h.servers]
        rfl
      · rw [hroutes]
        exact h.holds.add hbuilt hentries
      · rintro (hmany | ⟨o', ho', hnone⟩ | hnot)
        · rw [List.countP_append] at hmany
          exact h.standing (Or.inl hmany)
        · rw [List.mem_append, List.mem_singleton] at ho'
          rcases ho' with hmem | heq
          · exact h.standing (Or.inr (Or.inl ⟨o', hmem, hnone⟩))
          · cases heq
            rw [hroute] at hnone
            cases hnone
        · rw [hroutes] at hnot
          exact hrefuse (hrefuses.mpr hnot)

/-- One place: the loader falls over it, turns it down, or goes on. -/
theorem Visited.step (h : Visited ps state) (place : Place) :
    (place.Faulty ∧ ¬Survives (visit place state)) ∨
    (¬place.Faulty ∧ TurnedDown (ps ++ [place]) ∧ visit place state = .error .refused) ∨
    ¬place.Faulty ∧ ∃ state', visit place state = .ok state' ∧ Visited (ps ++ [place]) state' := by
  cases place with
  | server =>
    rcases h.server with hdown | hok
    · exact Or.inr (Or.inl ⟨not_false, hdown⟩)
    · exact Or.inr (Or.inr ⟨not_false, hok⟩)
  | names v =>
    obtain ⟨n, rt⟩ := state
    rw [visit]
    rcases jsonGetStringArray_cases v with ⟨hread, names, hok⟩ | ⟨hnot, herror⟩
    · rw [hok]
      exact Or.inr (Or.inr ⟨not_not_intro hread, (n, rt), rfl, h.names v⟩)
    · rw [herror]
      refine Or.inl ⟨hnot, ?_⟩
      rintro (hrefused | ⟨state', hok⟩)
      · cases hrefused
      · cases hok
  | route o =>
    rcases h.route o with hdown | hok
    · exact Or.inr (Or.inl ⟨not_false, hdown⟩)
    · exact Or.inr (Or.inr ⟨not_false, hok⟩)
  | unclosed =>
    refine Or.inl ⟨trivial, ?_⟩
    rintro (hrefused | ⟨state', hok⟩)
    · cases hrefused
    · cases hok

/-- No place that the loader falls over, unless it turns down what comes before. -/
def Readable (before places : List Place) : Prop :=
  ∀ mid bad after, places = mid ++ bad :: after → bad.Faulty → TurnedDown (before ++ mid)

theorem Visited.run (h : Visited ps state) (qs : List Place) :
    Survives (visits qs state) ↔ Readable ps qs := by
  induction qs generalizing ps state with
  | nil =>
    refine iff_of_true (Or.inr ⟨state, rfl⟩) ?_
    intro mid bad after hsplit
    exact absurd hsplit (by simp)
  | cons q qs ih =>
    rw [visits, List.foldlM_cons]
    rcases h.step q with ⟨hfaulty, hfails⟩ | ⟨hfine, hdown, hrefused⟩ | ⟨hfine, state', hok, hnext⟩
    · refine iff_of_false (fun hsurvives => ?_) fun hreadable => ?_
      · apply hfails
        cases hvisit : visit q state with
        | ok state' => exact Or.inr ⟨state', rfl⟩
        | error e =>
          rw [hvisit] at hsurvives
          rcases hsurvives with hrefused | ⟨_, hok⟩
          · cases hrefused
            exact Or.inl rfl
          · cases hok
      · have hdown := hreadable [] q qs rfl hfaulty
        rw [List.append_nil] at hdown
        exact h.standing hdown
    · rw [hrefused]
      refine iff_of_true (Or.inl rfl) ?_
      intro mid bad after hsplit hbad
      cases mid with
      | nil =>
        cases hsplit
        exact absurd hbad hfine
      | cons first mid =>
        cases hsplit
        rw [List.append_cons]
        exact hdown.append mid
    · rw [hok]
      refine (ih hnext).trans ?_
      constructor
      · intro hreadable mid bad after hsplit hbad
        cases mid with
        | nil =>
          cases hsplit
          exact absurd hbad hfine
        | cons first mid =>
          cases hsplit
          rw [List.append_cons]
          exact hreadable mid bad after rfl hbad
      · intro hreadable mid bad after hsplit hbad
        rw [hsplit] at hreadable
        rw [← List.append_cons]
        exact hreadable (q :: mid) bad after rfl hbad

/-- The places are turned down before the loader falls over one. -/
def Turned (before places : List Place) : Prop :=
  ∃ mid after, places = mid ++ after ∧ TurnedDown (before ++ mid) ∧ ∀ place ∈ mid, ¬place.Faulty

theorem Visited.not_turned_nil (h : Visited ps state) : ¬Turned ps [] := by
  rintro ⟨mid, after, hsplit, hdown, -⟩
  rw [(List.append_eq_nil_iff.mp hsplit.symm).1, List.append_nil] at hdown
  exact h.standing hdown

theorem turned_cons_iff (hps : ¬TurnedDown ps) (hfine : ¬place.Faulty) :
    Turned ps (place :: qs) ↔ Turned (ps ++ [place]) qs := by
  constructor
  · rintro ⟨mid, after, hsplit, hdown, hmid⟩
    cases mid with
    | nil =>
      rw [List.append_nil] at hdown
      exact absurd hdown hps
    | cons first mid =>
      cases hsplit
      rw [List.append_cons] at hdown
      exact ⟨mid, after, rfl, hdown, fun p hp => hmid p (List.mem_cons_of_mem _ hp)⟩
  · rintro ⟨mid, after, hsplit, hdown, hmid⟩
    refine ⟨place :: mid, after, congrArg (place :: ·) hsplit, ?_, ?_⟩
    · rw [List.append_cons]
      exact hdown
    · exact List.forall_mem_cons.mpr ⟨hfine, hmid⟩

/-- The loader returns `-1` when it turns down the places, and else has what they ask for. -/
theorem Visited.outcome (h : Visited ps state) (qs : List Place) :
    (visits qs state = .error .refused ↔ Turned ps qs) ∧
      ∀ state', visits qs state = .ok state' → Visited (ps ++ qs) state' := by
  induction qs generalizing ps state with
  | nil =>
    refine ⟨iff_of_false (fun hrefused => ?_) h.not_turned_nil, fun state' hok => ?_⟩
    · cases hrefused
    · cases hok
      rw [List.append_nil]
      exact h
  | cons q qs ih =>
    rw [visits, List.foldlM_cons]
    rcases h.step q with ⟨hfaulty, hfails⟩ | ⟨hfine, hdown, hrefused⟩ | ⟨hfine, state₁, hok, hnext⟩
    · have hnot : ¬Turned ps (q :: qs) := by
        rintro ⟨mid, after, hsplit, hdown, hmid⟩
        cases mid with
        | nil =>
          rw [List.append_nil] at hdown
          exact h.standing hdown
        | cons first mid =>
          cases hsplit
          exact hmid q (List.mem_cons_self ..) hfaulty
      cases hvisit : visit q state with
      | ok state₁ => exact absurd (Or.inr ⟨state₁, hvisit⟩) hfails
      | error e =>
        refine ⟨iff_of_false (fun hrefused => ?_) hnot, fun state' hok => ?_⟩
        · cases hrefused
          exact hfails (Or.inl hvisit)
        · cases hok
    · rw [hrefused]
      refine ⟨iff_of_true rfl ⟨[q], qs, rfl, hdown, ?_⟩, fun state' hok => ?_⟩
      · exact List.forall_mem_singleton.mpr hfine
      · cases hok
    · rw [hok, turned_cons_iff h.standing hfine]
      obtain ⟨hrefused, hvisited⟩ := ih hnext
      refine ⟨hrefused, fun state' hrest => ?_⟩
      rw [List.append_cons]
      exact hvisited state' hrest

/-- The loader survives a text exactly when each list of names that it comes by can be read and each
array of objects is closed or does not end in white space, up to where it turns the text down. -/
theorem loadJsonConfig_survives_iff (raw : CStr) :
    Survives (loadJsonConfig raw .zero) ↔
      ∀ before bad after, places raw = before ++ bad :: after → bad.Faulty → TurnedDown before := by
  rw [← survives_map (fun config => config.summary), ← visits_places]
  exact visited_nil.run (places raw)

/-- A number in `server_name`. -/
def numberAsName : CStr := ascii "\x7b\"servers\":[\x7b\"server_name\":[5]\x7d]\x7d"

theorem numberAsName_fails : ¬Survives (loadJsonConfig numberAsName .zero) := by
  have hnull : ((loadJsonConfig numberAsName .zero).map fun _ => ()) = .error .nullPointer := by
    decide +kernel
  rw [← survives_map (fun _ => ()), hnull]
  rintro (hrefused | ⟨_, hok⟩)
  · cases hrefused
  · cases hok

end MiniWeb.Config
