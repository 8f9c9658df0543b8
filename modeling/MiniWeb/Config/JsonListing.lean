import MiniWeb.Config.JsonObjects

/-!
# A listing in JSON

The JSON loader reads every listing as it is meant: its objects are found whole, and each yields
the routes or the server block it was written for.
-/

namespace MiniWeb.Config

open CStr Routing

variable {key s : CStr} {c : UInt8} {n : Nat}

/-! ## Plain texts -/

def Plain (s : CStr) : Prop := ∀ c ∈ s, isPlain c = true

theorem Plain.append {x y : CStr} (hx : Plain x) (hy : Plain y) : Plain (x ++ y) := by
  intro c hc
  exact (List.mem_append.1 hc).elim (hx c) (hy c)

theorem isPlain_ne (h : isPlain c = true) : c ≠ 34 ∧ c ≠ 92 ∧ c ≠ 91 ∧ c ≠ 93 ∧ c ≠ 123 ∧
    c ≠ 125 := by
  have hmem := (of_decide_eq_true h).2
  refine ⟨?_, ?_, ?_, ?_, ?_, ?_⟩ <;>
    (rintro rfl; exact hmem (by decide))

theorem Plain.unescaped (h : Plain s) : Unescaped s :=
  fun c hc => ⟨(isPlain_ne (h c hc)).1, (isPlain_ne (h c hc)).2.1⟩

/-- Neither brackets nor braces. -/
def Unnested (s : CStr) : Prop := ∀ c ∈ s, c ≠ 91 ∧ c ≠ 93 ∧ c ≠ 123 ∧ c ≠ 125

theorem Plain.unnested (h : Plain s) : Unnested s := fun c hc => (isPlain_ne (h c hc)).2.2

theorem Unnested.append {x y : CStr} (hx : Unnested x) (hy : Unnested y) : Unnested (x ++ y) := by
  intro c hc
  exact (List.mem_append.1 hc).elim (hx c) (hy c)

theorem Unnested.brackets (h : Unnested s) : Balanced 91 93 s :=
  balanced_of_notMem (fun hc => (h _ hc).1 rfl) (fun hc => (h _ hc).2.1 rfl)

theorem Unnested.braces (h : Unnested s) : Balanced 123 125 s :=
  balanced_of_notMem (fun hc => (h _ hc).2.2.1 rfl) (fun hc => (h _ hc).2.2.2 rfl)

theorem Unnested.quote (h : Unnested s) : Unnested (quote s) := by
  have hquote : Unnested (ascii "\"") := by unfold Unnested; decide
  exact (hquote.append h).append hquote

theorem Unnested.pair {value : CStr} (hkey : Unnested key) (hvalue : Unnested value) :
    Unnested (jsonPair key value) := by
  have hcolon : Unnested (ascii ": ") := by unfold Unnested; decide
  exact (hkey.quote.append hcolon).append hvalue

theorem Unnested.intercalate {sep : CStr} {xs : List CStr} (hsep : Unnested sep)
    (hxs : ∀ x ∈ xs, Unnested x) : Unnested (sep.intercalate xs) := by
  cases xs with
  | nil => exact List.forall_mem_nil _
  | cons x xs =>
    rw [intercalate_cons]
    apply (hxs x (List.mem_cons_self ..)).append
    intro c hc
    obtain ⟨y, hy, hcy⟩ := List.mem_flatMap.1 hc
    exact (hsep.append (hxs y (List.mem_cons_of_mem _ hy))) c hcy

theorem balanced_intercalate {left right : UInt8} {sep : CStr} {xs : List CStr}
    (hsep : Balanced left right sep) (hxs : ∀ x ∈ xs, Balanced left right x) :
    Balanced left right (sep.intercalate xs) := by
  cases xs with
  | nil => exact fun _ _ => rfl
  | cons x xs =>
    rw [intercalate_cons]
    apply (hxs x (List.mem_cons_self ..)).append
    have htails : ∀ y ∈ xs, Balanced left right y := fun y hy => hxs y (List.mem_cons_of_mem _ hy)
    clear hxs
    induction xs with
    | nil => exact fun _ _ => rfl
    | cons y xs ih =>
      rw [List.flatMap_cons]
      exact (hsep.append (htails y (List.mem_cons_self ..))).append
        (ih fun z hz => htails z (List.mem_cons_of_mem _ hz))

/-! ## Fields -/

/-- A field that fits the buffers of `json_find_key`. -/
structure IsField (f : CStr × CStr) : Prop where
  key : Plain f.1 ∧ f.1.length < 128
  value : Plain f.2 ∧ f.2.length < 256

theorem IsField.isMember {f : CStr × CStr} (hf : IsField f) : IsMember (f.1, quote f.2) where
  key := ⟨hf.key.1.unescaped, hf.key.2⟩
  value := skips_quote hf.value.1.unescaped hf.value.2

/-- What `json_find_key` and `json_get_str` read of an object in one line. -/
theorem jsonFindKey_object {ms : List (CStr × CStr)} (hms : ∀ m ∈ ms, IsMember m) (key : CStr) :
    ∃ tail, jsonFindKey (jsonObject (ms.map fun m => jsonPair m.1 m.2)) key
      = (ms.lookup key).map (· ++ tail) := by
  have hfind : ∃ tail, jsonFindKey (ascii "\x7b" ++ ([] ++ ((ascii ", ").intercalate
      (ms.map fun m => jsonPair m.1 m.2) ++ ([] ++ 125 :: [])))) key
        = (ms.lookup key).map (· ++ tail) :=
    jsonFindKey_members hms (by decide) (by simp) (by simp)
  exact hfind

theorem lookup_map_quote {fields : List (CStr × CStr)} :
    (fields.map fun f => (f.1, quote f.2)).lookup key = (fields.lookup key).map quote := by
  induction fields with
  | nil => rfl
  | cons f fields ih =>
    rw [List.map_cons, List.lookup_cons, List.lookup_cons, ih]
    cases key == f.1 <;> rfl

theorem mem_of_lookup {fields : List (CStr × CStr)} {v : CStr} (h : fields.lookup key = some v) :
    ∃ f ∈ fields, f.2 = v := by
  induction fields with
  | nil => cases h
  | cons f fields ih =>
    rw [List.lookup_cons] at h
    cases hkey : key == f.1 with
    | true =>
      rw [hkey] at h
      exact ⟨f, List.mem_cons_self .., Option.some.inj h⟩
    | false =>
      rw [hkey] at h
      obtain ⟨f', hf', hv⟩ := ih h
      exact ⟨f', List.mem_cons_of_mem _ hf', hv⟩

/-- The text under a key of a route. -/
theorem jsonRoute_get {fields : List (CStr × CStr)} (hfields : ∀ f ∈ fields, IsField f)
    (hfit : ∀ v ∈ fields.lookup key, v.length < n) :
    (jsonFindKey (jsonRoute fields) key).map (jsonGetStr · n) = fields.lookup key := by
  have hms : ∀ m ∈ fields.map fun f => (f.1, quote f.2), IsMember m := by
    simp only [List.mem_map, forall_exists_index, and_imp]
    rintro m f hf rfl
    exact (hfields f hf).isMember
  obtain ⟨tail, htail⟩ := jsonFindKey_object hms key
  rw [List.map_map] at htail
  have hroute : jsonRoute fields = jsonObject (fields.map
      ((fun m : CStr × CStr => jsonPair m.1 m.2) ∘ fun f => (f.1, quote f.2))) := rfl
  rw [hroute, htail, lookup_map_quote, Option.map_map, Option.map_map]
  cases hlookup : fields.lookup key with
  | none => rfl
  | some v =>
    obtain ⟨f, hf, rfl⟩ := mem_of_lookup hlookup
    have hv := hfit f.2 hlookup
    simp [jsonGetStr_quote (hfields f hf).value.1.unescaped hv]

/-! ## Routes -/

/-- The keys of a route. -/
def routeKeys : List CStr := ["method", "path", "handler", "auth", "role"].map ascii

theorem RouteDef.mem_fields (d : RouteDef) (m : Option (Word 16)) :
    ∀ f ∈ d.fields m, f.1 ∈ routeKeys ∧ ∃ size ≤ 256, ∃ p : Phrase size, f.2 = p.text := by
  have hkey : ∀ k ∈ ["method", "path", "handler", "auth", "role"], ascii k ∈ routeKeys :=
    fun k hk => List.mem_map_of_mem hk
  intro f hf
  simp only [RouteDef.fields, List.mem_append, Option.mem_toList, List.mem_cons,
    List.not_mem_nil, or_false] at hf
  rcases hf with ((hf | (rfl | rfl)) | hf) | hf
  · obtain ⟨w, -, rfl⟩ := Option.map_eq_some_iff.1 hf
    exact ⟨hkey "method" (by simp), 16, by omega, w.toPhrase, rfl⟩
  · exact ⟨hkey "path" (by simp), 256, by omega, d.path.toPhrase, rfl⟩
  · exact ⟨hkey "handler" (by simp), 64, by omega, d.handler.toPhrase, rfl⟩
  · by_cases h : d.realm.text = []
    · simp [h] at hf
    · rw [if_neg h, List.mem_singleton] at hf
      exact hf ▸ ⟨hkey "auth" (by simp), 64, by omega, d.realm, rfl⟩
  · by_cases h : d.role.text = []
    · simp [h] at hf
    · rw [if_neg h, List.mem_singleton] at hf
      exact hf ▸ ⟨hkey "role" (by simp), 32, by omega, d.role, rfl⟩

theorem RouteDef.isField (d : RouteDef) (m : Option (Word 16)) :
    ∀ f ∈ d.fields m, IsField f := by
  have hkeys : ∀ k ∈ routeKeys, Plain k ∧ k.length < 128 := by
    unfold Plain
    decide +kernel
  intro f hf
  obtain ⟨hkey, size, hsize, p, hp⟩ := d.mem_fields m f hf
  exact ⟨hkeys f.1 hkey, hp ▸ p.plain, hp ▸ p.short.trans_le hsize⟩

/-- The fields under their keys; a missing realm or role is empty. -/
theorem RouteDef.lookup_fields (d : RouteDef) (m : Option (Word 16)) :
    (d.fields m).lookup (ascii "method") = m.map (·.text) ∧
    (d.fields m).lookup (ascii "path") = some d.path.text ∧
    (d.fields m).lookup (ascii "handler") = some d.handler.text ∧
    ((d.fields m).lookup (ascii "auth")).getD [] = d.realm.text ∧
    ((d.fields m).lookup (ascii "role")).getD [] = d.role.text := by
  rw [RouteDef.fields]
  cases m <;> by_cases hrealm : d.realm.text = [] <;> by_cases hrole : d.role.text = [] <;>
    simp only [hrealm, hrole, if_true, if_false] <;>
    exact ⟨rfl, rfl, rfl, rfl, rfl⟩

/-- `json_parse_route` on the object written for a method, or for none. -/
theorem jsonParseRoute_fields (d : RouteDef) (m : Option (Word 16)) (rt : RouteTable) :
    jsonParseRoute (jsonRoute (d.fields m)) rt =
      match m with
      | none => .error .refused
      | some w =>
        if d.handlerType = .none then .error .refused else addRoute (d.route w) rt := by
  obtain ⟨hmethod, hpath, hhandler, hrealm, hrole⟩ := d.lookup_fields m
  have hget : ∀ key n, (∀ v ∈ (d.fields m).lookup key, v.length < n) →
      (jsonFindKey (jsonRoute (d.fields m)) key).map (jsonGetStr · n)
        = (d.fields m).lookup key := fun key n => jsonRoute_get (d.isField m)
  have hpath' := hget (ascii "path") 256 (by rw [hpath]; simpa using d.path.short)
  have hhandler' := hget (ascii "handler") 64 (by rw [hhandler]; simpa using d.handler.short)
  have hmethod' := hget (ascii "method") 16 (by rw [hmethod]; cases m <;> simp [Phrase.short])
  have hrealm' := hget (ascii "auth") 64 (by
    intro v hv
    rw [Option.mem_def] at hv
    rw [hv, Option.getD_some] at hrealm
    exact hrealm ▸ d.realm.short)
  have hrole' := hget (ascii "role") 32 (by
    intro v hv
    rw [Option.mem_def] at hv
    rw [hv, Option.getD_some] at hrole
    exact hrole ▸ d.role.short)
  rw [hpath, Option.map_eq_some_iff] at hpath'
  rw [hhandler, Option.map_eq_some_iff] at hhandler'
  obtain ⟨path, hpath, hpathText⟩ := hpath'
  obtain ⟨handler, hhandler, hhandlerText⟩ := hhandler'
  rw [hmethod] at hmethod'
  rw [jsonParseRoute, hpath, hhandler, hrealm', hrole', hrealm, hrole]
  cases m with
  | none =>
    rw [Option.map_none, Option.map_eq_none_iff] at hmethod'
    rw [hmethod']
  | some w =>
    rw [Option.map_some, Option.map_eq_some_iff] at hmethod'
    obtain ⟨method, hmethod, hmethodText⟩ := hmethod'
    rw [hmethod]
    simp only [hpathText, hhandlerText, hmethodText]
    rfl

/-- The objects of a definition add its routes. -/
theorem foldlM_records (d : RouteDef) (rt : RouteTable) :
    d.records.foldlM (fun rt fields => jsonParseRoute (jsonRoute fields) rt) rt = d.addTo rt := by
  rw [RouteDef.records, RouteDef.addTo]
  by_cases hmethods : d.methods = []
  · rw [if_pos hmethods, if_pos (Or.inr hmethods), List.foldlM_cons, jsonParseRoute_fields]
    rfl
  · rw [if_neg hmethods, List.foldlM_map]
    simp only [jsonParseRoute_fields]
    by_cases hhandler : d.handlerType = .none
    · obtain ⟨m, ms, hcons⟩ := List.exists_cons_of_ne_nil hmethods
      rw [if_pos (Or.inl hhandler), hcons, List.foldlM_cons, if_pos hhandler]
      rfl
    · rw [if_neg (by simp [hhandler, hmethods])]
      simp only [if_neg hhandler]

theorem isObject_jsonRoute {fields : List (CStr × CStr)} (hfields : ∀ f ∈ fields, IsField f) :
    IsObject (jsonRoute fields) ∧ Balanced 91 93 (jsonRoute fields) := by
  have hsep : Unnested (ascii ", ") := by unfold Unnested; decide
  have hpairs : ∀ x ∈ fields.map fun f => jsonPair f.1 (quote f.2), Unnested x := by
    simp only [List.mem_map, forall_exists_index, and_imp]
    rintro x f hf rfl
    exact (hfields f hf).key.1.unnested.pair (hfields f hf).value.1.unnested.quote
  have hbraces := balanced_intercalate hsep.braces fun x hx => (hpairs x hx).braces
  have hbrackets := balanced_intercalate hsep.brackets fun x hx => (hpairs x hx).brackets
  refine ⟨⟨_, rfl, hbraces⟩, ?_⟩
  have hopen : Balanced 91 93 (ascii "\x7b") := balanced_of_notMem (by decide) (by decide)
  have hclose : Balanced 91 93 (ascii "\x7d") := balanced_of_notMem (by decide) (by decide)
  exact (hopen.append hbrackets).append hclose

theorem length_jsonPair (key value : CStr) :
    (jsonPair key value).length = key.length + value.length + 4 := by
  simp [jsonPair, quote, ascii]
  omega

theorem length_quote (s : CStr) : (quote s).length = s.length + 2 := by
  simp [quote, ascii]

theorem length_intercalate_le (xs : List CStr) :
    ((ascii ", ").intercalate xs).length ≤ (xs.map (·.length + 2)).sum := by
  cases xs with
  | nil => simp [List.intercalate]
  | cons x xs =>
    have hsep : ∀ y : CStr, (ascii ", " ++ y).length = y.length + 2 := by
      intro y
      simp [ascii]
    rw [intercalate_cons, List.length_append, List.length_flatMap, List.map_cons, List.sum_cons]
    simp only [hsep]
    omega

theorem length_jsonObject (members : List CStr) :
    (jsonObject members).length ≤ (members.map (·.length + 2)).sum + 2 := by
  have hlen := length_intercalate_le members
  have hbraces : (ascii "\x7b").length = 1 ∧ (ascii "\x7d").length = 1 := by decide
  rw [jsonObject, List.length_append, List.length_append, hbraces.1, hbraces.2]
  omega

theorem length_jsonRoute (d : RouteDef) (m : Option (Word 16)) :
    (jsonRoute (d.fields m)).length < 1024 := by
  have hpath := d.path.short
  have hhandler := d.handler.short
  have hrealm := d.realm.short
  have hrole := d.role.short
  have hkeys : (ascii "method").length = 6 ∧ (ascii "path").length = 4 ∧
      (ascii "handler").length = 7 ∧ (ascii "auth").length = 4 ∧ (ascii "role").length = 4 := by
    decide
  apply (length_jsonObject _).trans_lt
  have hmethod : ∀ w : Word 16, w.text.length < 16 := fun w => w.short
  rw [List.map_map, RouteDef.fields]
  cases m with
  | none =>
    by_cases hr : d.realm.text = [] <;> by_cases ho : d.role.text = [] <;>
      simp [hr, ho, length_jsonPair, length_quote, hkeys] <;> omega
  | some w =>
    have := hmethod w
    by_cases hr : d.realm.text = [] <;> by_cases ho : d.role.text = [] <;>
      simp [hr, ho, length_jsonPair, length_quote, hkeys] <;> omega

/-! ## Names -/

theorem jsonStrings_comma {max : Nat} {arr : List CStr} {p : CStr} (h : arr.length < max) :
    jsonStrings max arr (44 :: p) = jsonStrings max arr p := by
  rw [jsonStrings, if_neg (by simp; omega)]
  split
  next q hq =>
    cases (jsonSkipWs_cons (by decide)).symm.trans hq
    rfl
  next hne => exact absurd (jsonSkipWs_cons (by decide)) (hne p)

theorem jsonStrings_quote {max : Nat} {arr : List CStr} {sep rest : CStr}
    (hsep : ∀ c ∈ sep, isJsonSpace c = true) (h : arr.length < max) (hs : Unescaped s)
    (hlen : s.length < 128) :
    jsonStrings max arr (sep ++ (quote s ++ rest)) = jsonStrings max (arr ++ [s]) rest := by
  obtain ⟨q, hq⟩ : ∃ q, quote s ++ rest = 34 :: q := ⟨_, rfl⟩
  have hread := jsonGetString_quote hs hlen rest
  have hskip : jsonSkipWs (sep ++ 34 :: q) = 34 :: q := by
    rw [jsonSkipWs_append hsep, jsonSkipWs_cons (by decide)]
  rw [hq] at hread ⊢
  rw [jsonStrings, if_neg (by simp; omega)]
  split
  next r hr => cases hskip.symm.trans hr
  next =>
    rw [hskip, hread]
    rfl

theorem jsonStrings_close {max : Nat} {arr : List CStr} {rest : CStr} :
    jsonStrings max arr (93 :: rest) = .ok arr := by
  have hskip : jsonSkipWs (93 :: rest) = 93 :: rest := jsonSkipWs_cons (by decide)
  rw [jsonStrings]
  by_cases h : 93 :: rest = [] ∨ max ≤ arr.length
  · rw [if_pos h]
  · rw [if_neg h]
    split
    next q hq => cases hskip.symm.trans hq
    next => rw [hskip]; rfl

/-- The strings of an array, behind those already read. -/
theorem jsonStrings_flatMap {max : Nat} {arr ws : List CStr} {rest : CStr}
    (hws : ∀ w ∈ ws, Unescaped w ∧ w.length < 128) (hmax : arr.length + ws.length ≤ max) :
    jsonStrings max arr (ws.flatMap (fun w => ascii ", " ++ quote w) ++ 93 :: rest)
      = .ok (arr ++ ws) := by
  induction ws generalizing arr with
  | nil => rw [List.flatMap_nil, List.nil_append, jsonStrings_close, List.append_nil]
  | cons w ws ih =>
    obtain ⟨hw, hlen⟩ := hws w (List.mem_cons_self ..)
    rw [List.length_cons] at hmax
    have hsplit : (w :: ws).flatMap (fun w => ascii ", " ++ quote w) ++ 93 :: rest
        = 44 :: ([32] ++ (quote w ++
            (ws.flatMap (fun w => ascii ", " ++ quote w) ++ 93 :: rest))) := by
      simp [ascii]
    rw [hsplit, jsonStrings_comma (by omega),
      jsonStrings_quote (by decide) (by omega) hw hlen,
      ih (fun w hw => hws w (List.mem_cons_of_mem _ hw)) (by simp; omega), List.append_assoc]
    rfl

theorem jsonGetStringArray_names (b : BlockDef) (rest : CStr) :
    jsonGetStringArray (b.jsonNames ++ rest) maxServerNames = .ok (b.names.map (·.text)) := by
  have hws : ∀ w ∈ b.names.map (·.text), Unescaped w ∧ w.length < 128 := by
    simp only [List.mem_map, forall_exists_index, and_imp]
    rintro w n - rfl
    exact ⟨Plain.unescaped n.plain, n.short⟩
  have hfew := b.few
  have hopen : ∀ x : CStr, jsonGetStringArray (91 :: x) maxServerNames
      = jsonStrings maxServerNames [] x := by
    intro x
    rw [jsonGetStringArray, jsonSkipWs_cons (by decide)]
    rfl
  have hnames : b.jsonNames ++ rest = 91 :: ((ascii ", ").intercalate
      ((b.names.map (·.text)).map quote) ++ 93 :: rest) := by
    simp [BlockDef.jsonNames, ascii, Function.comp_def]
  rw [hnames, hopen]
  cases hcons : b.names.map (·.text) with
  | nil => exact jsonStrings_close
  | cons w ws =>
    rw [hcons] at hws
    have hlen : (w :: ws).length ≤ maxServerNames := by
      rw [← hcons, List.length_map]
      exact hfew
    obtain ⟨hw, hwlen⟩ := hws w (List.mem_cons_self ..)
    rw [List.map_cons, intercalate_cons, List.flatMap_map, List.append_assoc]
    have hfirst : ∀ tail, jsonStrings maxServerNames [] (quote w ++ tail)
        = jsonStrings maxServerNames [w] tail :=
      fun tail => jsonStrings_quote (List.forall_mem_nil _) (by decide) hw hwlen
    rw [hfirst, jsonStrings_flatMap (fun w hw => hws w (List.mem_cons_of_mem _ hw))
      (by rw [List.length_cons] at hlen; simp; omega)]
    rfl

/-! ## Server blocks -/

/-- The keys and the values of a block. -/
def BlockDef.members (b : BlockDef) : List (CStr × CStr) :=
  [(ascii "listen", quote b.listen.text)] ++
    (if b.names = [] then [] else [(ascii "server_name", b.jsonNames)]) ++
    (if b.root.text = [] then [] else [(ascii "root", quote b.root.text)]) ++
    (if b.accessLog.text = [] then [] else [(ascii "access_log", quote b.accessLog.text)])

theorem BlockDef.json_eq (b : BlockDef) :
    b.json = jsonObject (b.members.map fun m => jsonPair m.1 m.2) := by
  rw [BlockDef.json, BlockDef.members, optionalLine, optionalLine]
  by_cases hnames : b.names = [] <;> by_cases hroot : b.root.text = [] <;>
    by_cases hlog : b.accessLog.text = [] <;>
    simp [hnames, hroot, hlog]

theorem BlockDef.unnested_names (b : BlockDef) :
    Unnested ((ascii ", ").intercalate (b.names.map fun w => quote w.text)) := by
  apply Unnested.intercalate
  · unfold Unnested
    decide
  · simp only [List.mem_map, forall_exists_index, and_imp]
    rintro x w - rfl
    exact (Plain.unnested w.plain).quote

theorem BlockDef.isMember (b : BlockDef) : ∀ m ∈ b.members, IsMember m := by
  have hkey : ∀ k ∈ ["listen", "server_name", "root", "access_log"].map ascii,
      Unescaped k ∧ k.length < 128 := by
    unfold Unescaped
    decide +kernel
  have hphrase : ∀ {n : Nat} (p : Phrase n), n ≤ 256 → Skips (quote p.text) :=
    fun p hn => skips_quote (Plain.unescaped p.plain) (p.short.trans_le hn)
  intro m hm
  simp only [BlockDef.members, List.mem_append, List.mem_singleton] at hm
  rcases hm with ((rfl | hm) | hm) | hm
  · exact ⟨hkey _ (by simp), hphrase b.listen (by decide)⟩
  · by_cases h : b.names = []
    · simp [h] at hm
    · rw [if_neg h, List.mem_singleton] at hm
      rw [hm]
      exact ⟨hkey _ (by simp), skips_array b.unnested_names.brackets⟩
  · by_cases h : b.root.text = []
    · simp [h] at hm
    · rw [if_neg h, List.mem_singleton] at hm
      rw [hm]
      exact ⟨hkey _ (by simp), hphrase b.root (by decide)⟩
  · by_cases h : b.accessLog.text = []
    · simp [h] at hm
    · rw [if_neg h, List.mem_singleton] at hm
      rw [hm]
      exact ⟨hkey _ (by simp), hphrase b.accessLog (by decide)⟩

theorem BlockDef.lookup_members (b : BlockDef) :
    b.members.lookup (ascii "listen") = some (quote b.listen.text) ∧
    b.members.lookup (ascii "server_name") = (if b.names = [] then none else some b.jsonNames) ∧
    b.members.lookup (ascii "root")
      = (if b.root.text = [] then none else some (quote b.root.text)) ∧
    b.members.lookup (ascii "access_log")
      = (if b.accessLog.text = [] then none else some (quote b.accessLog.text)) ∧
    b.members.lookup (ascii "routes") = none := by
  rw [BlockDef.members]
  by_cases hnames : b.names = [] <;> by_cases hroot : b.root.text = [] <;>
    by_cases hlog : b.accessLog.text = [] <;>
    simp only [hnames, hroot, hlog, if_true, if_false] <;>
    exact ⟨rfl, rfl, rfl, rfl, rfl⟩

theorem BlockDef.isObject (b : BlockDef) : IsObject b.json ∧ Balanced 91 93 b.json := by
  have hphrase : ∀ {n : Nat} (p : Phrase n), Unnested (quote p.text) :=
    fun p => (Plain.unnested p.plain).quote
  have hkey : ∀ k ∈ ["listen", "server_name", "root", "access_log"].map ascii, Unnested k := by
    unfold Unnested
    decide
  have hsep : Unnested (ascii ", ") := by unfold Unnested; decide
  have harray : Balanced 123 125 b.jsonNames ∧ Balanced 91 93 b.jsonNames := by
    have hopen : Balanced 123 125 (ascii "[") := balanced_of_notMem (by decide) (by decide)
    have hclose : Balanced 123 125 (ascii "]") := balanced_of_notMem (by decide) (by decide)
    exact ⟨(hopen.append b.unnested_names.braces).append hclose,
      b.unnested_names.brackets.wrap (by decide)⟩
  have hpair : ∀ {left right : UInt8} {key value : CStr}, Balanced left right (quote key) →
      Balanced left right (ascii ": ") → Balanced left right value →
      Balanced left right (jsonPair key value) := fun hk hc hv => (hk.append hc).append hv
  have hcolon : Unnested (ascii ": ") := by unfold Unnested; decide
  have hmembers : ∀ m ∈ b.members, Balanced 123 125 (jsonPair m.1 m.2) ∧
      Balanced 91 93 (jsonPair m.1 m.2) := by
    have htext : ∀ {k v : CStr}, Unnested k → Unnested v →
        Balanced 123 125 (jsonPair k v) ∧ Balanced 91 93 (jsonPair k v) :=
      fun hk hv => ⟨(hk.pair hv).braces, (hk.pair hv).brackets⟩
    intro m hm
    simp only [BlockDef.members, List.mem_append, List.mem_singleton] at hm
    rcases hm with ((rfl | hm) | hm) | hm
    · exact htext (hkey _ (by simp)) (hphrase b.listen)
    · by_cases h : b.names = []
      · simp [h] at hm
      · rw [if_neg h, List.mem_singleton] at hm
        have hname : Unnested (ascii "server_name") := hkey _ (by simp)
        rw [hm]
        exact ⟨hpair hname.quote.braces hcolon.braces harray.1,
          hpair hname.quote.brackets hcolon.brackets harray.2⟩
    · by_cases h : b.root.text = []
      · simp [h] at hm
      · rw [if_neg h, List.mem_singleton] at hm
        rw [hm]
        exact htext (hkey _ (by simp)) (hphrase b.root)
    · by_cases h : b.accessLog.text = []
      · simp [h] at hm
      · rw [if_neg h, List.mem_singleton] at hm
        rw [hm]
        exact htext (hkey _ (by simp)) (hphrase b.accessLog)
  have hbraces : Balanced 123 125 ((ascii ", ").intercalate
      (b.members.map fun m => jsonPair m.1 m.2)) := by
    apply balanced_intercalate hsep.braces
    simp only [List.mem_map, forall_exists_index, and_imp]
    rintro x m hm rfl
    exact (hmembers m hm).1
  have hbrackets : Balanced 91 93 ((ascii ", ").intercalate
      (b.members.map fun m => jsonPair m.1 m.2)) := by
    apply balanced_intercalate hsep.brackets
    simp only [List.mem_map, forall_exists_index, and_imp]
    rintro x m hm rfl
    exact (hmembers m hm).2
  have hopen : Balanced 91 93 (ascii "\x7b") := balanced_of_notMem (by decide) (by decide)
  have hclose : Balanced 91 93 (ascii "\x7d") := balanced_of_notMem (by decide) (by decide)
  rw [b.json_eq]
  exact ⟨⟨_, rfl, hbraces⟩, (hopen.append hbrackets).append hclose⟩

theorem BlockDef.length_json (b : BlockDef) : b.json.length < 2048 := by
  have hlisten := b.listen.short
  have hroot := b.root.short
  have hlog := b.accessLog.short
  have hfew := b.few
  have hkeys : (ascii "listen").length = 6 ∧ (ascii "server_name").length = 11 ∧
      (ascii "root").length = 4 ∧ (ascii "access_log").length = 10 := by decide
  have hnames : b.jsonNames.length ≤ 1050 := by
    have hlen := length_intercalate_le (b.names.map fun w => quote w.text)
    have hsum : ∀ names : List (Word 128),
        ((names.map fun w => quote w.text).map (·.length + 2)).sum ≤ names.length * 131 := by
      intro names
      induction names with
      | nil => simp
      | cons w names ih =>
        have := w.short
        simp only [List.map_cons, List.sum_cons, List.length_cons, length_quote] at ih ⊢
        omega
    have := hsum b.names
    have hbrackets : (ascii "[").length = 1 ∧ (ascii "]").length = 1 := by decide
    rw [maxServerNames] at hfew
    rw [BlockDef.jsonNames, List.length_append, List.length_append, hbrackets.1, hbrackets.2]
    omega
  rw [b.json_eq]
  apply (length_jsonObject _).trans_lt
  rw [List.map_map, BlockDef.members]
  by_cases hn : b.names = [] <;> by_cases hr : b.root.text = [] <;>
    by_cases ho : b.accessLog.text = [] <;>
    simp [hn, hr, ho, length_jsonPair, length_quote, hkeys] <;> omega

/-- `json_parse_server` on the object of a block. -/
theorem jsonParseServer_block (b : BlockDef) {config : LoadedConfig}
    (hroom : config.servers.length < maxServerBlocks) :
    jsonParseServer b.json config
      = .ok { config with servers := config.servers ++ [b.block] } := by
  obtain ⟨hlisten, hnames, hroot, hlog, hroutes⟩ := b.lookup_members
  have hfind : ∀ key, ∃ tail, jsonFindKey b.json key = (b.members.lookup key).map (· ++ tail) :=
    fun key => b.json_eq ▸ jsonFindKey_object b.isMember key
  have hphrase : ∀ {n : Nat} (p : Phrase n) (tail : CStr),
      jsonGetStr (quote p.text ++ tail) n = p.text :=
    fun p tail => jsonGetStr_quote (Plain.unescaped p.plain) p.short
  obtain ⟨t₁, hlisten'⟩ := hfind (ascii "listen")
  obtain ⟨t₂, hnames'⟩ := hfind (ascii "server_name")
  obtain ⟨t₃, hroot'⟩ := hfind (ascii "root")
  obtain ⟨t₄, hlog'⟩ := hfind (ascii "access_log")
  obtain ⟨t₅, hroutes'⟩ := hfind (ascii "routes")
  rw [hlisten] at hlisten'
  rw [hnames] at hnames'
  rw [hroot] at hroot'
  rw [hlog] at hlog'
  rw [hroutes] at hroutes'
  have hrootText : ((jsonFindKey b.json (ascii "root")).map (jsonGetStr · 128)).getD []
      = b.root.text := by
    rw [hroot']
    by_cases h : b.root.text = []
    · simp [h]
    · simp [h, hphrase]
  have hlogText : ((jsonFindKey b.json (ascii "access_log")).map (jsonGetStr · 128)).getD []
      = b.accessLog.text := by
    rw [hlog']
    by_cases h : b.accessLog.text = []
    · simp [h]
    · simp [h, hphrase]
  rw [jsonParseServer, if_neg (by omega), jsonRoutesOf, hlisten', hnames', hrootText, hlogText,
    hroutes']
  by_cases h : b.names = []
  · simp only [h, if_true, Option.map_some, Option.map_none, hphrase, BlockDef.block]
    rfl
  · simp only [h, if_false, Option.map_some, Option.map_none, hphrase, BlockDef.block,
      jsonGetStringArray_names]
    rfl

/-! ## The loader -/

theorem skips_jsonArray {os : List CStr} (hos : ∀ o ∈ os, Balanced 91 93 o) :
    Skips (jsonArray os) := by
  have hsep : Balanced 91 93 (ascii ",\n    ") := balanced_of_notMem (by decide) (by decide)
  have hpre : Balanced 91 93 (ascii "\n    ") := balanced_of_notMem (by decide) (by decide)
  have hpost : Balanced 91 93 (ascii "\n  ") := balanced_of_notMem (by decide) (by decide)
  have hinside := (hpre.append (balanced_intercalate hsep hos)).append hpost
  have harray : jsonArray os = ascii "[" ++ (ascii "\n    " ++ (ascii ",\n    ").intercalate os ++
      ascii "\n  ") ++ ascii "]" := by
    simp [jsonArray, ascii]
  rw [harray]
  exact skips_array hinside

theorem mem_records {d : RouteDef} {fields : List (CStr × CStr)} (h : fields ∈ d.records) :
    ∃ m, fields = d.fields m := by
  rw [RouteDef.records] at h
  by_cases hmethods : d.methods = []
  · rw [if_pos hmethods, List.mem_singleton] at h
    exact ⟨none, h⟩
  · rw [if_neg hmethods, List.mem_map] at h
    obtain ⟨m, -, rfl⟩ := h
    exact ⟨some m, rfl⟩

/-- The two arrays of a listing. -/
theorem Listing.jsonFindKey (l : Listing) (key : CStr) : ∃ tail,
    jsonFindKey l.json key = (List.lookup key
      [(ascii "servers", jsonArray (l.blocks.map (·.json))),
        (ascii "routes", jsonArray ((l.routes.flatMap (·.records)).map jsonRoute))]).map
          (· ++ tail) := by
  have hservers : ∀ o ∈ l.blocks.map (·.json), Balanced 91 93 o := by
    simp only [List.mem_map, forall_exists_index, and_imp]
    rintro o b - rfl
    exact b.isObject.2
  have hroutes : ∀ o ∈ (l.routes.flatMap (·.records)).map jsonRoute, Balanced 91 93 o := by
    simp only [List.mem_map, List.mem_flatMap, forall_exists_index, and_imp]
    rintro o fields d - hfields rfl
    obtain ⟨m, rfl⟩ := mem_records hfields
    exact (isObject_jsonRoute (d.isField m)).2
  have hkeys : ∀ k ∈ ["servers", "routes"].map ascii, Unescaped k ∧ k.length < 128 := by
    unfold Unescaped
    decide +kernel
  have hms : ∀ m ∈ [(ascii "servers", jsonArray (l.blocks.map (·.json))),
      (ascii "routes", jsonArray ((l.routes.flatMap (·.records)).map jsonRoute))], IsMember m := by
    simp only [List.forall_mem_cons]
    exact ⟨⟨hkeys _ (by simp), skips_jsonArray hservers⟩,
      ⟨hkeys _ (by simp), skips_jsonArray hroutes⟩, List.forall_mem_nil _⟩
  have hfind : ∃ tail, Config.jsonFindKey (ascii "\x7b" ++ (ascii "\n  " ++
      ((ascii ",\n  ").intercalate ([(ascii "servers", jsonArray (l.blocks.map (·.json))),
        (ascii "routes", jsonArray ((l.routes.flatMap (·.records)).map jsonRoute))].map
          fun m => jsonPair m.1 m.2) ++ (ascii "\n" ++ 125 :: ascii "\n")))) key = _ :=
    jsonFindKey_members hms (by decide) (by decide) (by decide)
  have htext : l.json = ascii "\x7b" ++ (ascii "\n  " ++
      ((ascii ",\n  ").intercalate ([(ascii "servers", jsonArray (l.blocks.map (·.json))),
        (ascii "routes", jsonArray ((l.routes.flatMap (·.records)).map jsonRoute))].map
          fun m => jsonPair m.1 m.2) ++ (ascii "\n" ++ 125 :: ascii "\n"))) := by
    rw [List.map_cons, intercalate_cons]
    simp [Listing.json, ascii]
  rw [htext]
  exact hfind

/-- The objects of all definitions add their routes. -/
theorem foldlM_jsonRoutes (routes : List RouteDef) (rt : RouteTable) :
    ((routes.flatMap (·.records)).map jsonRoute).foldlM (fun rt o => jsonParseRoute o rt) rt
      = routes.foldlM (fun rt d => d.addTo rt) rt := by
  induction routes generalizing rt with
  | nil => rfl
  | cons d routes ih =>
    have hd := foldlM_records d rt
    rw [List.flatMap_cons, List.map_append, List.foldlM_append, List.foldlM_map, hd,
      List.foldlM_cons]
    change Except.bind _ _ = Except.bind _ _
    congr 1
    funext rt
    exact ih rt

theorem foldlM_blocks {blocks : List BlockDef} {config : LoadedConfig}
    (hroom : config.servers.length + blocks.length ≤ maxServerBlocks) :
    (blocks.map (·.json)).foldlM (fun config o => jsonParseServer o config) config
      = .ok { config with servers := config.servers ++ blocks.map (·.block) } := by
  induction blocks generalizing config with
  | nil => simp; rfl
  | cons b blocks ih =>
    rw [List.length_cons] at hroom
    rw [List.map_cons, List.foldlM_cons, jsonParseServer_block b (by omega)]
    change List.foldlM _ _ _ = _
    rw [ih (by simp; omega)]
    simp

theorem Listing.jsonRoutesOf (l : Listing) (rt : RouteTable) :
    jsonRoutesOf l.json rt = l.routes.foldlM (fun rt d => d.addTo rt) rt := by
  obtain ⟨tail, hfind⟩ := l.jsonFindKey (ascii "routes")
  have hobjects : ∀ o ∈ (l.routes.flatMap (·.records)).map jsonRoute,
      IsObject o ∧ o.length < 1024 := by
    simp only [List.mem_map, List.mem_flatMap, forall_exists_index, and_imp]
    rintro o fields d - hfields rfl
    obtain ⟨m, rfl⟩ := mem_records hfields
    exact ⟨(isObject_jsonRoute (d.isField m)).1, length_jsonRoute d m⟩
  obtain ⟨q, hq, hread⟩ : ∃ q, jsonSkipWs (jsonArray ((l.routes.flatMap (·.records)).map jsonRoute)
      ++ tail) = 91 :: q ∧ jsonObjects 1024 jsonParseRoute q rt = _ := jsonObjects_array hobjects
  have hfound : Config.jsonFindKey l.json (ascii "routes")
      = some (jsonArray ((l.routes.flatMap (·.records)).map jsonRoute) ++ tail) := hfind
  rw [Config.jsonRoutesOf, hfound]
  simp only [jsonParseRoutes, hq]
  rw [hread, foldlM_jsonRoutes]

theorem Listing.jsonServersOf (l : Listing) {config : LoadedConfig} (hnone : config.servers = []) :
    jsonServersOf l.json config = .ok { config with servers := l.blocks.map (·.block) } := by
  obtain ⟨tail, hfind⟩ := l.jsonFindKey (ascii "servers")
  have hobjects : ∀ o ∈ l.blocks.map (·.json), IsObject o ∧ o.length < 2048 := by
    simp only [List.mem_map, forall_exists_index, and_imp]
    rintro o b - rfl
    exact ⟨b.isObject.1, b.length_json⟩
  obtain ⟨q, hq, hread⟩ : ∃ q, jsonSkipWs (jsonArray (l.blocks.map (·.json)) ++ tail) = 91 :: q ∧
      jsonObjects 2048 jsonParseServer q config = _ := jsonObjects_array hobjects
  have hfound : Config.jsonFindKey l.json (ascii "servers")
      = some (jsonArray (l.blocks.map (·.json)) ++ tail) := hfind
  rw [Config.jsonServersOf, hfound]
  simp only [hq]
  rw [hread, foldlM_blocks (by simpa [hnone] using l.fits), hnone, List.nil_append]

/-- The JSON loader reads a listing as it is meant. -/
theorem loadJsonConfig_listing (l : Listing) :
    loadJsonConfig l.json .zero = l.routeTable.map fun rt =>
      ⟨jsonSettings l.json .zero, l.blocks.map (·.block), rt⟩ := by
  rw [loadJsonConfig, l.jsonRoutesOf, Listing.routeTable]
  change Except.bind (List.foldlM _ routeTableInit _) _ = Except.map _ (List.foldlM _ _ _)
  cases l.routes.foldlM (fun rt d => d.addTo rt) routeTableInit with
  | error e => rfl
  | ok rt => exact l.jsonServersOf rfl

end MiniWeb.Config
