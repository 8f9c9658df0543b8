import MiniWeb.Config.Document
import MiniWeb.Config.JsonStrings

/-!
# Reading objects

What the JSON loader reads of texts that are written as `jsonObject` and `jsonArray` write them:
the value under a key, and the objects of an array one after the other.
-/

namespace MiniWeb.Config

open CStr Routing

variable {p x y sep key s rest : CStr} {left right c : UInt8} {n : Nat}

/-! ## Strings -/

/-- No quote and no backslash. -/
def Unescaped (s : CStr) : Prop := ∀ c ∈ s, c ≠ 34 ∧ c ≠ 92

/-- A text without quote and backslash is read as it is. -/
theorem Unescaped.readsAs (hs : Unescaped s) : ReadsAs s s := by
  have hbytes : ReadsAs (s.flatMap fun c => [c]) s :=
    readsAs_bytes fun c hc => readsAs_plain (hs c hc).1 (hs c hc).2
  rwa [List.flatMap_singleton'] at hbytes

theorem jsonGetString_quote (hs : Unescaped s) (hlen : s.length < n) (rest : CStr) :
    jsonGetString (quote s ++ rest) n = some (s, rest) := by
  have hopen : quote s ++ rest = 34 :: (s ++ 34 :: rest) := by simp [quote, ascii]
  rw [hopen]
  exact hs.readsAs.jsonGetString hlen rest

theorem jsonGetStr_quote (hs : Unescaped s) (hlen : s.length < n) :
    jsonGetStr (quote s ++ rest) n = s := by
  have hopen : quote s ++ rest = 34 :: (s ++ 34 :: rest) := by simp [quote, ascii]
  have hread := jsonGetString_quote hs hlen rest
  rw [hopen] at hread
  rw [hopen, jsonGetStr, jsonSkipWs_cons (by decide)]
  simp [hread]

/-! ## Nested values -/

/-- The skipping loops pass over the text and are as deep behind it as before it. -/
def Balanced (left right : UInt8) (x : CStr) : Prop :=
  ∀ depth rest, skipNested left right (depth + 1) (x ++ rest)
    = skipNested left right (depth + 1) rest

theorem balanced_of_notMem (hleft : left ∉ x) (hright : right ∉ x) : Balanced left right x := by
  intro depth rest
  induction x with
  | nil => rfl
  | cons c x ih =>
    rw [List.mem_cons, not_or] at hleft hright
    rw [List.cons_append, skipNested, if_neg (Ne.symm hleft.1), if_neg (Ne.symm hright.1)]
    exact ih hleft.2 hright.2

theorem Balanced.append (hx : Balanced left right x) (hy : Balanced left right y) :
    Balanced left right (x ++ y) := by
  intro depth rest
  rw [List.append_assoc, hx, hy]

/-- A closing bracket at depth one ends the value. -/
theorem Balanced.skip (hx : Balanced left right x) (h : right ≠ left) :
    skipNested left right 1 (x ++ right :: rest) = rest := by
  rw [hx 0, skipNested, if_neg h, if_pos rfl, skipNested]

theorem Balanced.wrap (hx : Balanced left right x) (h : right ≠ left) :
    Balanced left right (left :: (x ++ [right])) := by
  intro depth rest
  rw [List.cons_append, List.append_assoc, List.singleton_append, skipNested, if_pos rfl,
    hx (depth + 1), skipNested, if_neg h, if_pos rfl]

/-- A value that `json_find_key` passes over. -/
structure Skips (value : CStr) : Prop where
  starts : ∀ rest, jsonSkipWs (value ++ rest) = value ++ rest
  skip : ∀ rest, jsonSkipValue (value ++ rest) = rest

theorem skips_quote (hs : Unescaped s) (hlen : s.length < 256) : Skips (quote s) where
  starts := fun _ => jsonSkipWs_cons (by decide)
  skip := by
    intro rest
    have hread := jsonGetString_quote hs hlen rest
    have hopen : quote s ++ rest = 34 :: (s ++ 34 :: rest) := by simp [quote, ascii]
    rw [hopen] at hread ⊢
    rw [jsonSkipValue]
    simp [hread]

theorem skips_array (hx : Balanced 91 93 x) : Skips (ascii "[" ++ x ++ ascii "]") where
  starts := fun _ => jsonSkipWs_cons (by decide)
  skip := by
    intro rest
    have hopen : ascii "[" ++ x ++ ascii "]" ++ rest = 91 :: (x ++ 93 :: rest) := by simp [ascii]
    rw [hopen, jsonSkipValue]
    simp only [show (91 : UInt8) ≠ 34 by decide, show (91 : UInt8) ≠ 123 by decide, if_false,
      if_true]
    exact hx.skip (by decide)

/-! ## Members -/

/-- A key and a value of an object. -/
structure IsMember (m : CStr × CStr) : Prop where
  key : Unescaped m.1 ∧ m.1.length < 128
  value : Skips m.2

theorem jsonMember_pair {m : CStr × CStr} (hm : IsMember m) (rest : CStr) :
    jsonMember (jsonPair m.1 m.2 ++ rest) = some (m.1, m.2 ++ rest) := by
  have hsplit : jsonPair m.1 m.2 ++ rest = quote m.1 ++ (58 :: 32 :: (m.2 ++ rest)) := by
    simp [jsonPair, ascii]
  have hblank : jsonSkipWs (32 :: (m.2 ++ rest)) = m.2 ++ rest := by
    conv_rhs => rw [← hm.value.starts]
    exact List.dropWhile_cons_of_pos (by decide)
  rw [hsplit, jsonMember, jsonGetString_quote hm.key.1 hm.key.2]
  simp only [jsonSkipWs_cons (show isJsonSpace 58 = false by decide), hblank]

theorem findMember_comma (h : jsonSkipWs p = 44 :: x) : findMember key p = findMember key x := by
  rw [findMember]
  split
  next q hq =>
    rw [h] at hq
    cases hq
    rfl
  next hne => exact absurd h (hne x)

theorem findMember_other (h : ∀ q, jsonSkipWs p ≠ 44 :: q) : findMember key p =
    if (jsonSkipWs p).head? = some 125 then none
    else (jsonMember (jsonSkipWs p)).bind fun (kbuf, v) =>
      if kbuf = key then some v else findMember key (jsonSkipValue v) := by
  rw [findMember]
  split
  next q hq => exact absurd hq (h q)
  next =>
    generalize jsonMember (jsonSkipWs p) = member
    cases member <;> rfl

/-- Only what follows the white space counts. -/
theorem findMember_congr (h : jsonSkipWs p = jsonSkipWs x) :
    findMember key p = findMember key x := by
  by_cases hcomma : ∃ q, jsonSkipWs p = 44 :: q
  · obtain ⟨q, hq⟩ := hcomma
    have hx : jsonSkipWs x = 44 :: q := h ▸ hq
    rw [findMember_comma hq, findMember_comma hx]
  · rw [not_exists] at hcomma
    rw [findMember_other hcomma, findMember_other (h ▸ hcomma), h]

theorem findMember_sep (hsep : ∀ c ∈ sep, isJsonSpace c = true ∨ c = 44) :
    findMember key (sep ++ p) = findMember key p := by
  induction sep with
  | nil => rfl
  | cons c sep ih =>
    have htail := ih fun c hc => hsep c (List.mem_cons_of_mem _ hc)
    rw [List.cons_append, ← htail]
    by_cases hcomma : c = 44
    · subst hcomma
      exact findMember_comma (jsonSkipWs_cons (by decide))
    · have hspace := (hsep c (List.mem_cons_self ..)).resolve_right hcomma
      exact findMember_congr (List.dropWhile_cons_of_pos hspace)

theorem findMember_pair {m : CStr × CStr} (hm : IsMember m) :
    findMember key (jsonPair m.1 m.2 ++ rest)
      = if m.1 = key then some (m.2 ++ rest) else findMember key rest := by
  obtain ⟨q, hq⟩ : ∃ q, jsonPair m.1 m.2 ++ rest = 34 :: q := ⟨_, rfl⟩
  have hmember := jsonMember_pair hm rest
  have hskip : jsonSkipWs (34 :: q) = 34 :: q := jsonSkipWs_cons (by decide)
  rw [hq] at hmember ⊢
  rw [findMember_other (by simp [hskip]), hskip, hmember]
  simp [hm.value.skip]

theorem findMember_close (hsep : ∀ c ∈ sep, isJsonSpace c = true) (key rest : CStr) :
    findMember key (sep ++ 125 :: rest) = none := by
  have hskip : jsonSkipWs (125 :: rest) = 125 :: rest := jsonSkipWs_cons (by decide)
  rw [findMember_sep fun c hc => Or.inl (hsep c hc), findMember_other (by simp [hskip]), hskip]
  simp

theorem intercalate_cons (sep x : CStr) (xs : List CStr) :
    sep.intercalate (x :: xs) = x ++ xs.flatMap (sep ++ ·) := by
  induction xs generalizing x with
  | nil => simp [List.intercalate]
  | cons y xs ih =>
    have hcons : sep.intercalate (x :: y :: xs) = x ++ (sep ++ sep.intercalate (y :: xs)) := by
      simp [List.intercalate]
    rw [hcons, ih, List.flatMap_cons, List.append_assoc]

/-- The value under a key of an object, with what follows it in the text. -/
theorem findMember_members {ms : List (CStr × CStr)} (hms : ∀ m ∈ ms, IsMember m)
    (hsep : ∀ c ∈ sep, isJsonSpace c = true ∨ c = 44) (hrest : findMember key rest = none) :
    ∃ tail, findMember key (ms.flatMap (fun m => sep ++ jsonPair m.1 m.2) ++ rest)
      = (ms.lookup key).map (· ++ tail) := by
  induction ms with
  | nil => exact ⟨[], hrest⟩
  | cons m ms ih =>
    obtain ⟨tail, htail⟩ := ih fun m' hm' => hms m' (List.mem_cons_of_mem _ hm')
    rw [List.flatMap_cons, List.append_assoc, List.append_assoc, findMember_sep hsep,
      findMember_pair (hms m (List.mem_cons_self ..)), List.lookup_cons]
    by_cases hkey : m.1 = key
    · refine ⟨ms.flatMap (fun m => sep ++ jsonPair m.1 m.2) ++ rest, ?_⟩
      simp [hkey]
    · refine ⟨tail, ?_⟩
      have hne : (key == m.1) = false := by simp [Ne.symm hkey]
      rw [if_neg hkey, htail, hne]

/-- The value under a key of an object that may span several lines. -/
theorem jsonFindKey_members {ms : List (CStr × CStr)} {pre post : CStr}
    (hms : ∀ m ∈ ms, IsMember m) (hsep : ∀ c ∈ sep, isJsonSpace c = true ∨ c = 44)
    (hpre : ∀ c ∈ pre, isJsonSpace c = true) (hpost : ∀ c ∈ post, isJsonSpace c = true) :
    ∃ tail, jsonFindKey (ascii "\x7b" ++
        (pre ++ (sep.intercalate (ms.map fun m => jsonPair m.1 m.2) ++ (post ++ 125 :: rest)))) key
      = (ms.lookup key).map (· ++ tail) := by
  have hclose := findMember_close hpost key rest
  have hopen : ∀ q, jsonFindKey (ascii "\x7b" ++ q) key = findMember key q := fun q => rfl
  rw [hopen, findMember_sep fun c hc => Or.inl (hpre c hc)]
  cases ms with
  | nil => exact ⟨[], hclose⟩
  | cons m ms =>
    have htails : ∀ m ∈ ms, IsMember m := fun m' hm' => hms m' (List.mem_cons_of_mem _ hm')
    obtain ⟨tail, htail⟩ := findMember_members htails hsep hclose
    rw [List.map_cons, intercalate_cons, List.flatMap_map, List.append_assoc,
      findMember_pair (hms m (List.mem_cons_self ..)), List.lookup_cons]
    by_cases hkey : m.1 = key
    · exact ⟨_, by simp [hkey]; rfl⟩
    · refine ⟨tail, ?_⟩
      have hne : (key == m.1) = false := by simp [Ne.symm hkey]
      rw [if_neg hkey, htail, hne]

/-! ## Arrays of objects -/

/-- An object whose braces the loops match. -/
def IsObject (o : CStr) : Prop := ∃ x, o = 123 :: (x ++ [125]) ∧ Balanced 123 125 x

section

variable {σ : Type} {size : Nat} {parse : CStr → σ → Loaded σ} {state : σ}

theorem jsonObjects_cons (h : jsonSkipWs p = c :: x) :
    jsonObjects size parse p state =
      if c = 93 then .ok state
      else if c = 123 then
        (parse (objectText size x) state).bind (jsonObjects size parse (skipNested 123 125 1 x))
      else jsonObjects size parse x state := by
  have hp : p ≠ [] := by
    rintro rfl
    exact absurd h (by simp [jsonSkipWs])
  rw [jsonObjects, if_neg hp]
  split
  next hnil => exact absurd (h.symm.trans hnil) (by simp)
  next d q hq =>
    rw [h] at hq
    cases hq
    rfl

theorem jsonObjects_sep (hsep : ∀ c ∈ sep, isJsonSpace c = true ∨ c = 44)
    (hc : isJsonSpace c = false) :
    jsonObjects size parse (sep ++ c :: x) state = jsonObjects size parse (c :: x) state := by
  induction sep with
  | nil => rfl
  | cons d sep ih =>
    rw [List.cons_append, ← ih fun c hc => hsep c (List.mem_cons_of_mem _ hc)]
    by_cases hcomma : d = 44
    · subst hcomma
      rw [jsonObjects_cons (jsonSkipWs_cons (by decide))]
      rfl
    · have hspace := (hsep d (List.mem_cons_self ..)).resolve_right hcomma
      have hskip : jsonSkipWs (d :: (sep ++ c :: x)) = jsonSkipWs (sep ++ c :: x) :=
        List.dropWhile_cons_of_pos hspace
      obtain ⟨e, q, hq⟩ : ∃ e q, jsonSkipWs (sep ++ c :: x) = e :: q := by
        apply List.exists_cons_of_ne_nil
        intro h
        have hmem := List.dropWhile_eq_nil_iff.1 h c (by simp)
        rw [hc] at hmem
        cases hmem
      rw [jsonObjects_cons hq, jsonObjects_cons (hskip.trans hq)]

theorem objectText_eq (hx : Balanced 123 125 x) (hlen : (123 :: (x ++ [125])).length < size) :
    objectText size (x ++ 125 :: rest) = 123 :: (x ++ [125]) := by
  have htake : (x ++ 125 :: rest).take ((x ++ 125 :: rest).length - rest.length) = x ++ [125] := by
    have hlen : (x ++ 125 :: rest).length - rest.length = (x ++ [125]).length := by
      simp only [List.length_append, List.length_cons, List.length_nil]
      omega
    have hsplit : x ++ 125 :: rest = x ++ [125] ++ rest := by simp
    rw [hlen, hsplit, List.take_left]
  rw [objectText, hx.skip (by decide), htake, cut, List.take_of_length_le (by omega)]

theorem jsonObjects_object {o : CStr} (ho : IsObject o) (hlen : o.length < size) :
    jsonObjects size parse (o ++ rest) state
      = (parse o state).bind (jsonObjects size parse rest) := by
  obtain ⟨x, rfl, hx⟩ := ho
  have happend : 123 :: (x ++ [125]) ++ rest = 123 :: (x ++ 125 :: rest) := by simp
  rw [happend, jsonObjects_cons (jsonSkipWs_cons (by decide)), objectText_eq hx hlen,
    hx.skip (by decide)]
  rfl

theorem jsonObjects_flatMap {os : List CStr} {post : CStr}
    (hos : ∀ o ∈ os, IsObject o ∧ o.length < size)
    (hsep : ∀ c ∈ sep, isJsonSpace c = true ∨ c = 44)
    (hpost : ∀ c ∈ post, isJsonSpace c = true) :
    jsonObjects size parse (os.flatMap (sep ++ ·) ++ (post ++ 93 :: rest)) state
      = os.foldlM (fun state o => parse o state) state := by
  induction os generalizing state with
  | nil =>
    rw [List.flatMap_nil, List.nil_append,
      jsonObjects_sep (fun c hc => Or.inl (hpost c hc)) (by decide),
      jsonObjects_cons (jsonSkipWs_cons (by decide))]
    rfl
  | cons o os ih =>
    obtain ⟨ho, hlen⟩ := hos o (List.mem_cons_self ..)
    obtain ⟨x, hx⟩ : ∃ x, o ++ (os.flatMap (sep ++ ·) ++ (post ++ 93 :: rest)) = 123 :: x := by
      obtain ⟨x, rfl, -⟩ := ho
      exact ⟨_, rfl⟩
    rw [List.flatMap_cons, List.append_assoc, List.append_assoc, hx,
      jsonObjects_sep hsep (by decide), ← hx, jsonObjects_object ho hlen, List.foldlM_cons]
    change Except.bind _ _ = Except.bind _ _
    congr 1
    funext state
    exact ih fun o ho => hos o (List.mem_cons_of_mem _ ho)

/-- The loops read the objects of an array one after the other. -/
theorem jsonObjects_array {os : List CStr} (hos : ∀ o ∈ os, IsObject o ∧ o.length < size) :
    ∃ q, jsonSkipWs (jsonArray os ++ rest) = 91 :: q ∧
      jsonObjects size parse q state = os.foldlM (fun state o => parse o state) state := by
  cases os with
  | nil =>
    refine ⟨_, jsonSkipWs_cons (by decide), ?_⟩
    change jsonObjects size parse (ascii "\n    \n  " ++ 93 :: rest) state = .ok state
    rw [jsonObjects_sep (by decide) (by decide), jsonObjects_cons (jsonSkipWs_cons (by decide))]
    rfl
  | cons o os =>
    refine ⟨_, jsonSkipWs_cons (by decide), ?_⟩
    have hread : jsonObjects size parse ((o :: os).flatMap (ascii ",\n    " ++ ·) ++
        (ascii "\n  " ++ 93 :: rest)) state
          = (o :: os).foldlM (fun state o => parse o state) state :=
      jsonObjects_flatMap hos (by decide) (by decide)
    obtain ⟨x, hx⟩ : ∃ x, o ++ (os.flatMap (ascii ",\n    " ++ ·) ++ (ascii "\n  " ++ 93 :: rest))
        = 123 :: x := by
      obtain ⟨x, rfl, -⟩ := (hos o (List.mem_cons_self ..)).1
      exact ⟨_, rfl⟩
    have hsplit : ascii "\n    " ++ (ascii ",\n    ").intercalate (o :: os) ++ ascii "\n  ]" ++ rest
        = ascii "\n    " ++ (o ++ (os.flatMap (ascii ",\n    " ++ ·) ++
          (ascii "\n  " ++ 93 :: rest))) := by
      rw [intercalate_cons]
      simp [ascii]
    rw [List.flatMap_cons, List.append_assoc, List.append_assoc, hx,
      jsonObjects_sep (by decide) (by decide)] at hread
    change jsonObjects size parse (ascii "\n    " ++ _ ++ ascii "\n  ]" ++ rest) state = _
    rw [hsplit, hx, jsonObjects_sep (by decide) (by decide)]
    exact hread

end

end MiniWeb.Config
