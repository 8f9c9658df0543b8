import MiniWeb.Config.YamlLines

/-!
# A listing in YAML

The functions of the YAML loader do not end an item where the next one begins: all routes of a list
are read into one set of fields, and all server blocks into one block. This says what becomes of a
listing.
-/

namespace MiniWeb.Config

open CStr Routing

variable {lines rest : List CStr} {fields : List (CStr × CStr)} {rt : RouteTable}

/-! ## Routes -/

/-- The line has the key and the value. -/
def Shows (line : CStr) (field : CStr × CStr) : Prop :=
  ∃ pre ∈ itemIndents, line = pre ++ yamlPair field.1 field.2

/-- A key and a value that a line of YAML takes as they are. -/
def IsYamlField (field : CStr × CStr) : Prop :=
  (IsKey field.1 ∧ field.1.length < 64) ∧
    ∃ size ≤ 256, ∃ p : Phrase size, field.2 = p.text

theorem shows_yamlRoute (fields : List (CStr × CStr)) :
    List.Forall₂ Shows (yamlRoute fields) fields := by
  cases fields with
  | nil => exact .nil
  | cons f fs =>
    have hitem : ascii "  - " ∈ itemIndents := by decide
    have hbelow : ascii "    " ∈ itemIndents := by decide
    apply List.Forall₂.cons
    · exact ⟨_, hitem, rfl⟩
    · rw [List.map_map, List.forall₂_map_left_iff, List.forall₂_same]
      intro g _
      exact ⟨_, hbelow, rfl⟩

theorem shows_records (records : List (List (CStr × CStr))) :
    List.Forall₂ Shows (records.flatMap yamlRoute) records.flatten := by
  induction records with
  | nil => exact .nil
  | cons fields records ih =>
    rw [List.flatMap_cons, List.flatten_cons]
    exact List.rel_append (shows_yamlRoute fields) ih

theorem Shows.routeMapLine {line : CStr} {f : CStr × CStr} (h : Shows line f) (hf : IsYamlField f)
    (fields : RouteFields) : routeMapLine line fields = fields.set f.1 f.2 := by
  obtain ⟨pre, hpre, rfl⟩ := h
  obtain ⟨⟨hkey, hshort⟩, size, hsize, p, hp⟩ := hf
  rw [routeMapLine_pair hpre hkey hshort, hp, yamlGetValue_phrase p hsize hpre hkey]

/-- The fields a list of keys and values leaves, whatever the items they are from. -/
def mergeFields (fields : List (CStr × CStr)) : RouteFields :=
  fields.foldl (fun merged f => merged.set f.1 f.2) .empty

theorem foldl_shows (h : List.Forall₂ Shows lines fields) (hfields : ∀ f ∈ fields, IsYamlField f)
    (merged : RouteFields) :
    lines.foldl (fun merged line => routeMapLine line merged) merged
      = fields.foldl (fun merged f => merged.set f.1 f.2) merged := by
  induction h generalizing merged with
  | nil => rfl
  | cons hline _ ih =>
    rw [List.foldl_cons, List.foldl_cons, hline.routeMapLine (hfields _ (List.mem_cons_self ..))]
    exact ih (fun f hf => hfields f (List.mem_cons_of_mem _ hf)) _

theorem inRouteMap_shows (h : List.Forall₂ Shows lines fields)
    (hfields : ∀ f ∈ fields, IsYamlField f) : ∀ line ∈ lines, inRouteMap 2 line = true := by
  induction h with
  | nil => exact List.forall_mem_nil _
  | cons hline _ ih =>
    obtain ⟨pre, hpre, rfl⟩ := hline
    rw [List.forall_mem_cons]
    exact ⟨inRouteMap_pair hpre (hfields _ (List.mem_cons_self ..)).1.1,
      ih fun f hf => hfields f (List.mem_cons_of_mem _ hf)⟩

/-- All items of a list of routes make one route. -/
theorem yamlParseRoutes_shows (h : List.Forall₂ Shows lines fields)
    (hfields : ∀ f ∈ fields, IsYamlField f)
    (hfirst : ∀ line ∈ lines.head?, ∃ x, line = ascii "  - " ++ x) (rt : RouteTable) :
    yamlParseRoutes 0 lines rt = (addRouteMap (mergeFields fields) rt).map fun rt => (rt, []) := by
  have hin := inRouteMap_shows h hfields
  have hmerged := foldl_shows h hfields .empty
  cases lines with
  | nil =>
    cases h
    rw [yamlParseRoutes]
    rfl
  | cons line lines =>
    obtain ⟨x, rfl⟩ := hfirst line rfl
    have hblank : ¬(yamlBlank (ascii "  - " ++ x) = true ∨
        yamlIsDocMarker (ascii "  - " ++ x) = true) :=
      not_or.2 ⟨Bool.false_ne_true, Bool.false_ne_true⟩
    have hitem : yamlIsListItem (ascii "  - " ++ x) (0 + 2) = true := rfl
    have hmap : yamlParseRouteMap ((ascii "  - " ++ x) :: lines) (0 + 2) rt
        = (addRouteMap (mergeFields fields) rt).map fun rt => (rt, []) := by
      rw [yamlParseRouteMap, List.takeWhile_eq_self_iff.2 hin, hmerged,
        List.dropWhile_eq_nil_iff.2 hin]
      rfl
    rw [yamlParseRoutes, if_neg hblank, yamlIndent_item, if_neg (by omega), if_neg (by omega),
      dif_pos hitem]
    split
    next e he => exact he.symm.trans hmap
    next rt' rest hok =>
      have hok' := hok.symm.trans hmap
      cases hadd : addRouteMap (mergeFields fields) rt with
      | error e =>
        rw [hadd] at hok'
        cases hok'
      | ok rt'' =>
        rw [hadd] at hok'
        cases hok'
        rw [yamlParseRoutes]
        rfl

/-! ## Server blocks -/

/-- What is read of a name: the loader looks for a value behind a colon. -/
def yamlNameText (name : CStr) : CStr := yamlGetValue (ascii "      - " ++ name) 128

/-- The block when the lines of `b` have been read. -/
def BlockDef.yamlOnto (b : BlockDef) (block : ServerBlock) : ServerBlock :=
  let block := parseListen b.listen.text block
  let block := if b.names = [] then block
    else { block with serverNames := b.names.map (yamlNameText ·.text) }
  let block := if b.root.text = [] then block else { block with root := b.root.text }
  if b.accessLog.text = [] then block else { block with accessLog := b.accessLog.text }

/-- The line ends a list of names, and it is there. -/
def EndsNames (lines : List CStr) : Prop :=
  ∃ line rest, lines = line :: rest ∧ yamlBlank line = false ∧ yamlIndent line ≤ 4

/-- What a key of a server block does, unless it opens a list. -/
def serverField (key value : CStr) (block : ServerBlock) : ServerBlock :=
  if key = ascii "listen" then parseListen value block
  else if key = ascii "root" then { block with root := cut 128 value }
  else if key = ascii "access_log" then { block with accessLog := cut 128 value }
  else block

theorem yamlServerLines_pair {pre key value v : CStr} (hpre : pre ∈ itemIndents) (hkey : IsKey key)
    (hshort : key.length < 64) (hlist : key ≠ ascii "server_name" ∧ key ≠ ascii "routes")
    (hvalue : yamlGetValue (pre ++ yamlPair key value) 256 = v) (rest : List CStr)
    (block : ServerBlock) (rt : RouteTable) :
    yamlServerLines 2 ((pre ++ yamlPair key value) :: rest) block rt
      = yamlServerLines 2 rest (serverField key v block) rt := by
  have hindent : 2 ≤ yamlIndent (pre ++ yamlPair key value) ∧
      ¬(yamlIndent (pre ++ yamlPair key value) = 2 ∧ ¬yamlDashed (pre ++ yamlPair key value)) := by
    simp only [itemIndents, List.mem_cons, List.not_mem_nil, or_false] at hpre
    rcases hpre with rfl | rfl
    · rw [yamlIndent_item, yamlDashed_item]
      simp
    · rw [yamlIndent_pair hkey]
      simp
  rw [yamlServerLines, yamlBlank_indent hpre, if_neg Bool.false_ne_true, if_neg (by omega),
    if_neg hindent.2, yamlParseKeyValue_pair hpre hkey hshort, hvalue]
  dsimp only
  rw [if_neg hlist.1, if_neg hlist.2, serverField]
  split_ifs <;> rfl

/-- The line at the end of the list of server blocks. -/
theorem yamlServerLines_routes (tail : List CStr) (block : ServerBlock) (rt : RouteTable) :
    yamlServerLines 2 (ascii "routes:" :: tail) block rt
      = .ok (block, rt, ascii "routes:" :: tail) := by
  have hblank : yamlBlank (ascii "routes:") = false := by decide
  have hindent : yamlIndent (ascii "routes:") < 2 := by decide
  rw [yamlServerLines, hblank, if_neg Bool.false_ne_true, if_pos hindent]

theorem yamlParseStringList_names {names : List CStr} (hfew : names.length ≤ maxServerNames)
    (hrest : EndsNames rest) :
    yamlParseStringList 4 maxServerNames (names.map (ascii "      - " ++ ·) ++ rest)
      = (names.map yamlNameText, rest) := by
  obtain ⟨line, tail, rfl, hblank, hindent⟩ := hrest
  have hin : ∀ l ∈ names.map (ascii "      - " ++ ·),
      (yamlBlank l || decide (4 < yamlIndent l)) = true := by
    simp only [List.mem_map, forall_exists_index, and_imp]
    rintro l x - rfl
    rfl
  have hout : ¬(yamlBlank line || decide (4 < yamlIndent line)) = true := by
    rw [hblank, Bool.false_or, decide_eq_true_eq]
    omega
  have hitems : ∀ l ∈ names.map (ascii "      - " ++ ·),
      (!yamlBlank l && yamlIsListItem l (4 + 2)) = true := by
    simp only [List.mem_map, forall_exists_index, and_imp]
    rintro l x - rfl
    rfl
  have htake : (names.map (ascii "      - " ++ ·) ++ line :: tail).takeWhile
      (fun l => yamlBlank l || decide (4 < yamlIndent l)) = names.map (ascii "      - " ++ ·) := by
    rw [List.takeWhile_append_of_pos hin, List.takeWhile_cons, if_neg hout, List.append_nil]
  have hdrop : (names.map (ascii "      - " ++ ·) ++ line :: tail).dropWhile
      (fun l => yamlBlank l || decide (4 < yamlIndent l)) = line :: tail := by
    rw [List.dropWhile_append_of_pos hin, List.dropWhile_cons, if_neg hout]
  rw [yamlParseStringList, htake, hdrop, List.filter_eq_self.2 hitems,
    List.take_of_length_le (by simpa using hfew), List.map_map]
  rfl

theorem yamlServerLines_names {names : List CStr} (hfew : names.length ≤ maxServerNames)
    (hrest : EndsNames rest) (block : ServerBlock) (rt : RouteTable) :
    yamlServerLines 2 (ascii "    server_name:" :: (names.map (ascii "      - " ++ ·) ++ rest))
        block rt
      = yamlServerLines 2 rest { block with serverNames := names.map yamlNameText } rt := by
  have hblank : yamlBlank (ascii "    server_name:") = false := by decide
  have hindent : yamlIndent (ascii "    server_name:") = 4 := by decide
  have hkey : yamlParseKeyValue (ascii "    server_name:") = some (ascii "server_name", []) := by
    decide
  rw [yamlServerLines, hblank, if_neg Bool.false_ne_true, hindent, if_neg (by omega),
    if_neg (by omega), hkey]
  dsimp only
  rw [if_neg (by decide), if_pos rfl, yamlParseStringList_names hfew hrest]

theorem BlockDef.yaml_eq (b : BlockDef) : b.yaml =
    (ascii "  - " ++ yamlPair (ascii "listen") (quote b.listen.text)) ::
      ((if b.names = [] then []
        else ascii "    server_name:" :: (b.names.map (·.text)).map (ascii "      - " ++ ·)) ++
      ((if b.root.text = [] then []
        else [ascii "    " ++ yamlPair (ascii "root") b.root.text]) ++
      (if b.accessLog.text = [] then []
        else [ascii "    " ++ yamlPair (ascii "access_log") b.accessLog.text]))) := by
  have hname : ∀ x : CStr, ascii "    " ++ (ascii "  - " ++ x) = ascii "      - " ++ x :=
    fun _ => rfl
  have hkey : ascii "    " ++ ascii "server_name:" = ascii "    server_name:" := rfl
  by_cases hn : b.names = [] <;> by_cases hr : b.root.text = [] <;>
    by_cases ha : b.accessLog.text = [] <;>
    simp [BlockDef.yaml, BlockDef.yamlNames, yamlItem, optionalLine, hn, hr, ha, hname, hkey,
      Function.comp_def]

theorem endsNames_pair {key value : CStr} (hkey : IsKey key) (rest : List CStr) :
    EndsNames ((ascii "    " ++ yamlPair key value) :: rest) :=
  ⟨_, rest, rfl, rfl, by rw [yamlIndent_pair hkey]⟩

/-- The lines of a block behind its names. -/
def optionalField (key value : CStr) : List CStr :=
  if value = [] then [] else [ascii "    " ++ yamlPair key value]

theorem EndsNames.optional {key : CStr} (hrest : EndsNames rest) (hkey : IsKey key) (value : CStr) :
    EndsNames (optionalField key value ++ rest) := by
  rw [optionalField]
  by_cases h : value = []
  · rw [if_pos h]
    exact hrest
  · rw [if_neg h]
    exact endsNames_pair hkey rest

theorem yamlServerLines_optional {key : CStr} (p : Phrase 128) (hkey : IsKey key)
    (hshort : key.length < 64) (hlist : key ≠ ascii "server_name" ∧ key ≠ ascii "routes")
    (rest : List CStr) (block : ServerBlock) (rt : RouteTable) :
    yamlServerLines 2 (optionalField key p.text ++ rest) block rt
      = yamlServerLines 2 rest (if p.text = [] then block else serverField key p.text block)
          rt := by
  have hbelow : ascii "    " ∈ itemIndents := by decide
  rw [optionalField]
  by_cases h : p.text = []
  · rw [if_pos h, if_pos h, List.nil_append]
  · rw [if_neg h, if_neg h, List.singleton_append,
      yamlServerLines_pair hbelow hkey hshort hlist (yamlGetValue_phrase p (by omega) hbelow hkey)]

/-- The lines of a block are read onto whatever was read before. -/
theorem yamlServerLines_block (b : BlockDef) (hrest : EndsNames rest) (block : ServerBlock)
    (rt : RouteTable) :
    yamlServerLines 2 (b.yaml ++ rest) block rt = yamlServerLines 2 rest (b.yamlOnto block) rt := by
  have hkeys : ∀ k ∈ ["listen", "root", "access_log"].map ascii, IsKey k ∧ k.length < 64 ∧
      k ≠ ascii "server_name" ∧ k ≠ ascii "routes" := by
    unfold IsKey
    decide +kernel
  obtain ⟨hkey₁, hshort₁, hlist₁⟩ := hkeys (ascii "listen") (by simp)
  obtain ⟨hkey₂, hshort₂, hlist₂⟩ := hkeys (ascii "root") (by simp)
  obtain ⟨hkey₃, hshort₃, hlist₃⟩ := hkeys (ascii "access_log") (by simp)
  have hitem : ascii "  - " ∈ itemIndents := by decide
  have hlines : b.yaml ++ rest =
      (ascii "  - " ++ yamlPair (ascii "listen") (quote b.listen.text)) ::
      ((if b.names = [] then []
        else ascii "    server_name:" :: (b.names.map (·.text)).map (ascii "      - " ++ ·)) ++
      (optionalField (ascii "root") b.root.text ++
        (optionalField (ascii "access_log") b.accessLog.text ++ rest))) := by
    rw [b.yaml_eq]
    simp [optionalField]
  have hbehind := (hrest.optional hkey₃ b.accessLog.text).optional hkey₂ b.root.text
  have hnames : ∀ block, yamlServerLines 2 ((if b.names = [] then []
        else ascii "    server_name:" :: (b.names.map (·.text)).map (ascii "      - " ++ ·)) ++
      (optionalField (ascii "root") b.root.text ++
        (optionalField (ascii "access_log") b.accessLog.text ++ rest))) block rt
      = yamlServerLines 2 (optionalField (ascii "root") b.root.text ++
          (optionalField (ascii "access_log") b.accessLog.text ++ rest))
        (if b.names = [] then block
          else { block with serverNames := b.names.map (yamlNameText ·.text) }) rt := by
    intro block
    by_cases h : b.names = []
    · rw [if_pos h, if_pos h, List.nil_append]
    · rw [if_neg h, if_neg h, List.cons_append,
        yamlServerLines_names (by simpa using b.few) hbehind, List.map_map]
      rfl
  rw [hlines, yamlServerLines_pair hitem hkey₁ hshort₁ hlist₁
      (yamlGetValue_quote b.listen (by omega) hitem hkey₁), hnames,
    yamlServerLines_optional b.root hkey₂ hshort₂ hlist₂,
    yamlServerLines_optional b.accessLog hkey₃ hshort₃ hlist₃]
  have hroot : ∀ block, serverField (ascii "root") b.root.text block
      = { block with root := b.root.text } := fun block =>
    congrArg (fun root => { block with root := root }) b.root.cut_text
  have haccess : ∀ block, serverField (ascii "access_log") b.accessLog.text block
      = { block with accessLog := b.accessLog.text } := fun block =>
    congrArg (fun accessLog => { block with accessLog := accessLog }) b.accessLog.cut_text
  rw [hroot, haccess]
  rfl

theorem endsNames_routes (tail : List CStr) : EndsNames (ascii "routes:" :: tail) :=
  ⟨ascii "routes:", tail, rfl, by decide, by decide⟩

theorem endsNames_blocks (blocks : List BlockDef) (tail : List CStr) :
    EndsNames (blocks.flatMap (·.yaml) ++ ascii "routes:" :: tail) := by
  cases blocks with
  | nil => exact endsNames_routes tail
  | cons b blocks =>
    rw [List.flatMap_cons, b.yaml_eq]
    exact ⟨_, _, rfl, rfl, by rw [yamlIndent_item]; omega⟩

/-- All blocks of a list are read into one. -/
theorem yamlServerLines_blocks (blocks : List BlockDef) (tail : List CStr) (block : ServerBlock)
    (rt : RouteTable) :
    yamlServerLines 2 (blocks.flatMap (·.yaml) ++ ascii "routes:" :: tail) block rt
      = .ok (blocks.foldl (fun block b => b.yamlOnto block) block, rt,
          ascii "routes:" :: tail) := by
  induction blocks generalizing block with
  | nil => exact yamlServerLines_routes tail block rt
  | cons b blocks ih =>
    rw [List.flatMap_cons, List.append_assoc,
      yamlServerLines_block b (endsNames_blocks blocks tail), ih, List.foldl_cons]

/-- The blocks of a list, as the YAML loader reads them. -/
def mergeBlocks (blocks : List BlockDef) : List ServerBlock :=
  if blocks = [] then [] else [blocks.foldl (fun block b => b.yamlOnto block) .fresh]

theorem yamlParseServers_blocks (blocks : List BlockDef) (tail : List CStr) {config : LoadedConfig}
    (hnone : config.servers = []) :
    yamlParseServers (blocks.flatMap (·.yaml) ++ ascii "routes:" :: tail) config
      = .ok ({ config with servers := mergeBlocks blocks }, ascii "routes:" :: tail) := by
  have hend : ∀ config, yamlParseServers (ascii "routes:" :: tail) config
      = .ok (config, ascii "routes:" :: tail) := by
    intro config
    have hblank : yamlBlank (ascii "routes:") = false := by decide
    have hindent : yamlIndent (ascii "routes:") = 0 := by decide
    rw [yamlParseServers, hblank, if_neg Bool.false_ne_true, if_pos hindent]
  cases blocks with
  | nil =>
    rw [List.flatMap_nil, List.nil_append, hend, mergeBlocks, if_pos rfl, ← hnone]
  | cons b blocks =>
    have hlines := yamlServerLines_blocks (b :: blocks) tail .fresh config.routeTable
    obtain ⟨x, rest, hcons⟩ : ∃ x rest, (b :: blocks).flatMap (·.yaml) ++ ascii "routes:" :: tail
        = (ascii "  - " ++ x) :: rest := by
      rw [List.flatMap_cons, b.yaml_eq]
      exact ⟨_, _, rfl⟩
    rw [hcons] at hlines ⊢
    have hserver : yamlParseServer 2 ((ascii "  - " ++ x) :: rest) config
        = .ok ({ config with servers := mergeBlocks (b :: blocks) }, ascii "routes:" :: tail) := by
      rw [yamlParseServer, hnone, if_neg (by decide), hlines]
      rfl
    have hblank : yamlBlank (ascii "  - " ++ x) = false := rfl
    have hitem : yamlIsListItem (ascii "  - " ++ x) 2 = true := rfl
    rw [yamlParseServers, hblank, if_neg Bool.false_ne_true, yamlIndent_item, if_neg (by omega),
      dif_pos hitem]
    split
    next e he => exact absurd (he.symm.trans hserver) (by simp)
    next config' lines hok =>
      have hok' := hok.symm.trans hserver
      cases hok'
      exact hend _

/-! ## The listing -/

/-- The lines above the routes. -/
def Listing.yamlHead (l : Listing) : List CStr :=
  [ascii "---", ascii "servers:"] ++ l.blocks.flatMap (·.yaml) ++ [ascii "routes:"]

/-- The keys and values of all routes. -/
def Listing.yamlFields (l : Listing) : List (CStr × CStr) := (l.routes.flatMap (·.records)).flatten

/-- Those in the lines that the loader sees. -/
def Listing.yamlFieldsSeen (l : Listing) : List (CStr × CStr) :=
  l.yamlFields.take (500 - l.yamlHead.length)

theorem BlockDef.length_yaml (b : BlockDef) : b.yaml.length ≤ 12 := by
  have hfew := b.few
  rw [maxServerNames] at hfew
  rw [b.yaml_eq]
  by_cases hn : b.names = [] <;> by_cases hr : b.root.text = [] <;>
    by_cases ha : b.accessLog.text = [] <;> simp [hn, hr, ha] <;> omega

theorem Listing.length_yamlHead (l : Listing) : l.yamlHead.length ≤ 500 := by
  have hfits := l.fits
  have hblocks : (l.blocks.flatMap (·.yaml)).length ≤ 12 * l.blocks.length := by
    induction l.blocks with
    | nil => exact le_refl _
    | cons b blocks ih =>
      have := b.length_yaml
      rw [List.flatMap_cons, List.length_append, List.length_cons]
      omega
  rw [maxServerBlocks] at hfits
  simp only [Listing.yamlHead, List.length_append, List.length_cons, List.length_nil]
  omega

theorem RouteDef.isYamlField (d : RouteDef) (m : Option (Word 16)) :
    ∀ f ∈ d.fields m, IsYamlField f := by
  have hkeys : ∀ k ∈ routeKeys, IsKey k ∧ k.length < 64 := by
    unfold IsKey
    decide +kernel
  intro f hf
  obtain ⟨hkey, hvalue⟩ := d.mem_fields m f hf
  exact ⟨hkeys f.1 hkey, hvalue⟩

theorem Listing.isYamlField (l : Listing) : ∀ f ∈ l.yamlFields, IsYamlField f := by
  intro f hf
  obtain ⟨fields, hfields, hmem⟩ := List.mem_flatten.1 hf
  obtain ⟨d, -, hd⟩ := List.mem_flatMap.1 hfields
  obtain ⟨m, rfl⟩ := mem_records hd
  exact d.isYamlField m f hmem

/-- A line that the loader reads as it stands. -/
def IsYamlLine (line : CStr) : Prop := (∀ c ∈ line, 32 ≤ c) ∧ line.length ≤ 510

theorem isYamlLine_pair {pre key value : CStr} (hpre : pre ∈ itemIndents) (hkey : IsKey key)
    (hshort : key.length < 64) (hvalue : ∀ c ∈ value, 32 ≤ c) (hlength : value.length < 258) :
    IsYamlLine (pre ++ yamlPair key value) := by
  have hindent : ∀ pre ∈ itemIndents, (∀ c ∈ pre, 32 ≤ c) ∧ pre.length = 4 := by decide
  obtain ⟨hprintable, hlength4⟩ := hindent pre hpre
  constructor
  · intro c hc
    simp only [yamlPair, List.mem_append] at hc
    rcases hc with hc | (hc | hc) | hc
    · exact hprintable c hc
    · exact hkey.shown.printable c hc
    · revert c
      decide
    · exact hvalue c hc
  · simp [yamlPair, ascii, hlength4]
    omega

theorem isYamlLine_shows {lines : List CStr} (h : List.Forall₂ Shows lines fields)
    (hfields : ∀ f ∈ fields, IsYamlField f) : ∀ line ∈ lines, IsYamlLine line := by
  induction h with
  | nil => exact List.forall_mem_nil _
  | cons hline _ ih =>
    obtain ⟨pre, hpre, rfl⟩ := hline
    obtain ⟨⟨hkey, hshort⟩, size, hsize, p, hp⟩ := hfields _ (List.mem_cons_self ..)
    have hlength := p.short
    rw [List.forall_mem_cons]
    refine ⟨?_, ih fun f hf => hfields f (List.mem_cons_of_mem _ hf)⟩
    rw [hp]
    exact isYamlLine_pair hpre hkey hshort p.shown.printable (by omega)

theorem BlockDef.isYamlLine (b : BlockDef) : ∀ line ∈ b.yaml, IsYamlLine line := by
  have hkeys : ∀ k ∈ ["listen", "root", "access_log"].map ascii, IsKey k ∧ k.length < 64 := by
    unfold IsKey
    decide +kernel
  have hitem : ascii "  - " ∈ itemIndents := by decide
  have hbelow : ascii "    " ∈ itemIndents := by decide
  have hoptional : ∀ k ∈ ["listen", "root", "access_log"].map ascii, ∀ p : Phrase 128,
      IsYamlLine (ascii "    " ++ yamlPair k p.text) := fun k hk p =>
    have hlength := p.short
    isYamlLine_pair hbelow (hkeys k hk).1 (hkeys k hk).2 p.shown.printable (by omega)
  have hname : ∀ w : Word 128, IsYamlLine (ascii "      - " ++ w.text) := by
    intro w
    have hlength := w.short
    have hdash : ∀ c ∈ ascii "      - ", 32 ≤ c := by decide
    constructor
    · intro c hc
      exact (List.mem_append.1 hc).elim (hdash c) (w.shown.printable c)
    · simp [ascii]
      omega
  have hlisten : IsYamlLine (ascii "  - " ++ yamlPair (ascii "listen") (quote b.listen.text)) := by
    have hlength := b.listen.short
    obtain ⟨hkey, hshort⟩ := hkeys (ascii "listen") (by simp)
    have hquote : ∀ c ∈ quote b.listen.text, 32 ≤ c := by
      have hmark : ∀ c ∈ ascii "\"", 32 ≤ c := by decide
      simp only [quote, List.mem_append]
      rintro c ((hc | hc) | hc)
      · exact hmark c hc
      · exact b.listen.shown.printable c hc
      · exact hmark c hc
    exact isYamlLine_pair hitem hkey hshort hquote (by rw [length_quote]; omega)
  have hserverName : IsYamlLine (ascii "    server_name:") := by
    unfold IsYamlLine
    decide
  rw [b.yaml_eq, List.forall_mem_cons]
  simp only [List.forall_mem_append]
  refine ⟨hlisten, ?_, ?_, ?_⟩
  · by_cases h : b.names = []
    · rw [if_pos h]
      exact List.forall_mem_nil _
    · rw [if_neg h, List.forall_mem_cons]
      refine ⟨hserverName, ?_⟩
      simp only [List.map_map, List.mem_map, forall_exists_index, and_imp]
      rintro line w - rfl
      exact hname w
  · by_cases h : b.root.text = []
    · rw [if_pos h]
      exact List.forall_mem_nil _
    · rw [if_neg h, List.forall_mem_singleton]
      exact hoptional _ (by simp) b.root
  · by_cases h : b.accessLog.text = []
    · rw [if_pos h]
      exact List.forall_mem_nil _
    · rw [if_neg h, List.forall_mem_singleton]
      exact hoptional _ (by simp) b.accessLog

/-- The lines that the loader sees. -/
theorem Listing.yamlLines_eq (l : Listing) :
    yamlLines l.yaml = l.yamlHead ++
      ((l.routes.flatMap (·.records)).flatMap yamlRoute).take (500 - l.yamlHead.length) := by
  have hitems := isYamlLine_shows (shows_records (l.routes.flatMap RouteDef.records)) l.isYamlField
  have hfixed : ∀ line ∈ ["---", "servers:", "routes:"].map ascii, IsYamlLine line := by
    unfold IsYamlLine
    decide
  have hlines : ∀ line ∈ l.yamlHead ++ (l.routes.flatMap (·.records)).flatMap yamlRoute,
      IsYamlLine line := by
    rw [List.forall_mem_append, Listing.yamlHead, List.forall_mem_append, List.forall_mem_append,
      List.forall_mem_cons, List.forall_mem_cons, List.forall_mem_cons]
    refine ⟨⟨⟨⟨hfixed (ascii "---") (by simp), hfixed (ascii "servers:") (by simp),
      List.forall_mem_nil _⟩, ?_⟩, ⟨hfixed (ascii "routes:") (by simp), List.forall_mem_nil _⟩⟩,
      hitems⟩
    intro line hline
    obtain ⟨b, -, hb⟩ := List.mem_flatMap.1 hline
    exact b.isYamlLine line hb
  have hyaml : l.yaml = unlines (l.yamlHead ++ (l.routes.flatMap (·.records)).flatMap yamlRoute) :=
    rfl
  rw [hyaml, yamlLines_unlines hlines, List.take_append, List.take_of_length_le l.length_yamlHead]

theorem head?_records (records : List (List (CStr × CStr))) :
    ∀ line ∈ (records.flatMap yamlRoute).head?, ∃ x, line = ascii "  - " ++ x := by
  induction records with
  | nil => simp
  | cons fields records ih =>
    cases fields with
    | nil => exact ih
    | cons f fs =>
      intro line hline
      exact ⟨yamlPair f.1 f.2, (Option.some.inj hline).symm⟩

/-- What the YAML loader makes of a listing. -/
theorem loadYamlConfig_listing (l : Listing) :
    loadYamlConfig (yamlLines l.yaml) .zero =
      (addRouteMap (mergeFields l.yamlFieldsSeen) routeTableInit).map fun rt =>
        ⟨.zero, mergeBlocks l.blocks, rt⟩ := by
  obtain ⟨items, hitems⟩ : ∃ items, items =
      ((l.routes.flatMap RouteDef.records).flatMap yamlRoute).take (500 - l.yamlHead.length) :=
    ⟨_, rfl⟩
  have hshows : List.Forall₂ Shows items l.yamlFieldsSeen := by
    rw [hitems]
    exact List.forall₂_take _ (shows_records (l.routes.flatMap RouteDef.records))
  have hfields : ∀ f ∈ l.yamlFieldsSeen, IsYamlField f := fun f hf =>
    l.isYamlField f (List.mem_of_mem_take hf)
  have hfirst : ∀ line ∈ items.head?, ∃ x, line = ascii "  - " ++ x := by
    intro line hline
    rw [hitems, List.head?_take] at hline
    split_ifs at hline
    · cases hline
    · exact head?_records _ line hline
  have hroutes := yamlParseRoutes_shows hshows hfields hfirst routeTableInit
  have hlines : yamlLines l.yaml = ascii "---" :: ascii "servers:" ::
      (l.blocks.flatMap (·.yaml) ++ ascii "routes:" :: items) := by
    rw [l.yamlLines_eq, hitems, Listing.yamlHead]
    simp
  have hkey₁ : cut 64 ((ascii "servers:").takeWhile (· ≠ 58)) = ascii "servers" := by decide
  have hkey₂ : cut 64 ((ascii "routes:").takeWhile (· ≠ 58)) = ascii "routes" := by decide
  have hservers : yamlParseServers (l.blocks.flatMap (·.yaml) ++ ascii "routes:" :: items) .zero
      = .ok ({ LoadedConfig.zero with servers := mergeBlocks l.blocks },
          ascii "routes:" :: items) := yamlParseServers_blocks l.blocks items rfl
  have hroutesLine : loadYamlConfig (ascii "routes:" :: items)
      { LoadedConfig.zero with servers := mergeBlocks l.blocks } =
        (addRouteMap (mergeFields l.yamlFieldsSeen) routeTableInit).map fun rt =>
          ⟨.zero, mergeBlocks l.blocks, rt⟩ := by
    rw [loadYamlConfig, if_neg (by decide), hkey₂, if_neg (by decide), if_pos rfl]
    cases hadd : addRouteMap (mergeFields l.yamlFieldsSeen) routeTableInit with
    | error e =>
      rw [hadd] at hroutes
      split
      next e' he => cases he.symm.trans hroutes; rfl
      next rt lines hok => exact absurd (hok.symm.trans hroutes) (by simp [Except.map])
    | ok rt =>
      rw [hadd] at hroutes
      split
      next e' he => exact absurd (he.symm.trans hroutes) (by simp [Except.map])
      next rt' lines hok =>
        cases hok.symm.trans hroutes
        rw [loadYamlConfig]
        rfl
  rw [hlines, loadYamlConfig, if_pos (by decide), loadYamlConfig, if_neg (by decide), hkey₁,
    if_neg (by decide), if_neg (by decide), if_pos rfl]
  split
  next e he => exact absurd (he.symm.trans hservers) (by simp)
  next config' lines hok =>
    cases hok.symm.trans hservers
    exact hroutesLine

end MiniWeb.Config
