import MiniWeb.Config.Document
import MiniWeb.Config.Signs
import MiniWeb.Lib.JsonText

/-!
# Guessing the format

Which documents `detect_config_format` takes for what they are: JSON texts of the structure the
loader documents, with any white space between their tokens, and YAML documents of the subset it
documents, with any indentation.
-/

namespace MiniWeb.Config

open CStr JsonText

/-! ## JSON documents -/

def jsonTextKeys : List CStr :=
  [ascii "host", ascii "www_root", ascii "user_file", ascii "log_level", ascii "error_log",
    ascii "system_log", ascii "access_log"]

def jsonNumberKeys : List CStr :=
  [ascii "port", ascii "worker_processes", ascii "worker_shutdown_timeout_ms",
    ascii "log_max_lines", ascii "log_max_roll_files", ascii "max_connections",
    ascii "max_request_bytes"]

def routeFieldKeys : List CStr :=
  [ascii "method", ascii "path", ascii "handler", ascii "auth", ascii "role"]

def loggingKeys : List CStr := [ascii "level", ascii "file", ascii "format"]

def serverTextKeys : List CStr := [ascii "listen", ascii "root", ascii "access_log"]

/-- A list of routes. -/
def IsJsonRoutes : CStr → Prop :=
  IsArrayOf (IsObjectOf fun name v => name ∈ routeFieldKeys ∧ IsText v)

def IsJsonServer : CStr → Prop :=
  IsObjectOf fun name v =>
    name ∈ serverTextKeys ∧ IsText v ∨ name = ascii "server_name" ∧ IsArrayOf IsText v ∨
      name = ascii "routes" ∧ IsJsonRoutes v

def IsJsonConfig : CStr → Prop :=
  IsObjectOf fun name v =>
    name ∈ jsonTextKeys ∧ IsText v ∨ name ∈ jsonNumberKeys ∧ IsNumber v ∨
      name = ascii "logging" ∧ IsObjectOf (fun name v => name ∈ loggingKeys ∧ IsText v) v ∨
      name = ascii "servers" ∧ IsArrayOf IsJsonServer v ∨ name = ascii "routes" ∧ IsJsonRoutes v

/-- A text of the documented structure. -/
structure JsonDocument where
  lead : CStr
  config : CStr
  trail : CStr
  lead_gap : IsGap lead
  documented : IsJsonConfig config
  trail_gap : IsGap trail

def JsonDocument.text (d : JsonDocument) : CStr := d.lead ++ d.config ++ d.trail

theorem IsJsonRoutes.isValue {v : CStr} (h : IsJsonRoutes v) : IsValue v :=
  IsArrayOf.isValue h fun _ hv => hv.isValue fun _ _ hfield => hfield.2.isValue

theorem IsJsonServer.isValue {v : CStr} (h : IsJsonServer v) : IsValue v := by
  refine IsObjectOf.isValue h fun name v hfield => ?_
  rcases hfield with ⟨-, htext⟩ | ⟨-, hnames⟩ | ⟨-, hroutes⟩
  · exact htext.isValue
  · exact hnames.isValue fun _ => IsText.isValue
  · exact IsJsonRoutes.isValue hroutes

/-- A document is a JSON value. -/
theorem IsJsonConfig.isValue {v : CStr} (h : IsJsonConfig v) : IsValue v := by
  refine IsObjectOf.isValue h fun name v hfield => ?_
  rcases hfield with ⟨-, htext⟩ | ⟨-, hnumber⟩ | ⟨-, hlogging⟩ | ⟨-, hservers⟩ | ⟨-, hroutes⟩
  · exact htext.isValue
  · exact .number hnumber
  · exact hlogging.isValue fun _ _ hfield => hfield.2.isValue
  · exact hservers.isValue fun _ => IsJsonServer.isValue
  · exact IsJsonRoutes.isValue hroutes

/-! ## YAML documents -/

/-- A scalar in quotes, without escapes. -/
def IsQuotedScalar (s : CStr) : Prop :=
  ∃ inner, s = 34 :: (inner ++ [34]) ∧ ∀ c ∈ inner, 32 ≤ c ∧ c ≠ 34 ∧ c ≠ 92

/-- The bytes that do not begin a scalar without quotes. -/
def yamlIndicators : List UInt8 := 32 :: ascii "-?:,[]\x7b\x7d#&*!|>'\"%@" ++ [96]

/-- A scalar without quotes. -/
structure IsPlainScalar (s : CStr) : Prop where
  starts : ∃ c rest, s = c :: rest ∧ c ∉ yamlIndicators
  printable : ∀ c ∈ s, 32 ≤ c
  ends : s.getLast? ≠ some 32 ∧ s.getLast? ≠ some 58
  noPair : ¬ascii ": " <:+: s
  noComment : ¬ascii " #" <:+: s

structure YamlScalar where
  text : CStr
  valid : IsPlainScalar text ∨ IsQuotedScalar text

/-- Pairs of keys and scalars, at least one. -/
structure YamlMap (keys : List CStr) where
  pairs : List (CStr × YamlScalar)
  known : ∀ p ∈ pairs, p.1 ∈ keys
  ne_nil : pairs ≠ []

inductive YamlServerEntry
  | scalar (key : CStr) (known : key ∈ serverTextKeys) (value : YamlScalar)
  | names (pad : Nat) (names : List YamlScalar)
  | routes (pad : Nat) (routes : List (YamlMap routeFieldKeys))

inductive YamlEntry
  | scalar (key : CStr) (known : key ∈ jsonTextKeys ++ jsonNumberKeys) (value : YamlScalar)
  | logging (pad : Nat) (fields : YamlMap loggingKeys)
  | servers (pad : Nat) (servers : List (List YamlServerEntry))
  | routes (pad : Nat) (routes : List (YamlMap routeFieldKeys))


/-! ### Lines -/

def padded (pad : Nat) (lines : List CStr) : List CStr := lines.map (List.replicate pad 32 ++ ·)

/-- The lines of a list item. -/
def dashed : List CStr → List CStr
  | [] => []
  | line :: lines => (ascii "- " ++ line) :: padded 2 lines

def YamlMap.lines {keys : List CStr} (m : YamlMap keys) : List CStr :=
  m.pairs.map fun (key, value) => yamlPair key value.text

def yamlRoutes (pad : Nat) (routes : List (YamlMap routeFieldKeys)) : List CStr :=
  ascii "routes:" :: padded pad (routes.flatMap fun m => dashed m.lines)

def YamlServerEntry.lines : YamlServerEntry → List CStr
  | .scalar key _ value => [yamlPair key value.text]
  | .names pad ns => ascii "server_name:" :: padded pad (ns.map (ascii "- " ++ ·.text))
  | .routes pad rs => yamlRoutes pad rs

def YamlEntry.lines : YamlEntry → List CStr
  | .scalar key _ value => [yamlPair key value.text]
  | .logging pad fields => ascii "logging:" :: padded (pad + 1) fields.lines
  | .servers pad ss =>
    ascii "servers:" :: padded pad (ss.flatMap fun s => dashed (s.flatMap (·.lines)))
  | .routes pad rs => yamlRoutes pad rs

/-- A line with a comment or nothing. -/
def isIdle (l : CStr) : Bool := (unblanked l).head?.all (· = 35)

/-- A document of the documented structure, with its marker or without. Comments and empty lines can
stand anywhere, before the marker too. -/
structure YamlDocument where
  lead : List CStr
  marked : Bool
  entries : List YamlEntry
  body : List CStr
  lead_idle : ∀ l ∈ lead, 10 ∉ l ∧ isIdle l = true
  body_lines : ∀ l ∈ body, 10 ∉ l
  body_entries : body.filter (fun l => !isIdle l) = entries.flatMap (·.lines)

def YamlDocument.text (d : YamlDocument) : CStr :=
  unlines (d.lead ++ (if d.marked then [ascii "---"] else []) ++ d.body)

/-- The marker is among the pieces that are looked at, and no definite sign stands before it. -/
structure YamlDocument.MarkerSeen (d : YamlDocument) : Prop where
  marked : d.marked = true
  reached : (fgets 256 (unlines d.lead)).length < 50
  noSign : ∀ t ∈ seenOf (goingOn true (fgets 256 (unlines d.lead))), definiteFormat t = none

/-! ## Starts of lines -/

theorem unblanked_of_head {c : UInt8} (hc : c ≠ 32 ∧ c ≠ 9) (s : CStr) :
    unblanked (c :: s) = c :: s := by
  rw [unblanked, List.dropWhile_cons_of_neg]
  simp [hc.1, hc.2]

/-! ### JSON -/

theorem ne_of_excluded {f : UInt8 → Bool} {c : UInt8} {ds : List UInt8} (hc : f c = true)
    (hds : ∀ d ∈ ds, f d = false) : ∀ d ∈ ds, c ≠ d := by
  rintro d hd rfl
  rw [hds c hd] at hc
  cases hc

theorem startsToken_ne {c : UInt8} (h : startsToken c = true) :
    (c ≠ 115 ∧ c ≠ 108 ∧ c ≠ 45) ∧ c ≠ 32 ∧ c ≠ 9 := by
  have hnot : ∀ d ∈ [115, 108, 45, 32, 9], startsToken d = false := by decide
  have hne := ne_of_excluded h hnot
  exact ⟨⟨hne 115 (by decide), hne 108 (by decide), hne 45 (by decide)⟩, hne 32 (by decide),
    hne 9 (by decide)⟩

/-- What follows blanks before tokens does not begin with a definite sign. -/
theorem plainStart_tokens {s : CStr} (h : IsTokens s) : PlainStart (unblanked s) := by
  induction h with
  | nil => exact plainStart_nil
  | @gap c s hc _ ih =>
    by_cases hblank : c = 32 ∨ c = 9
    · have hskip : unblanked (c :: s) = unblanked s := by
        rw [unblanked, List.dropWhile_cons, if_pos (decide_eq_true hblank)]
        rfl
      rw [hskip]
      exact ih
    · rw [not_or] at hblank
      rw [unblanked_of_head hblank]
      have hgap : ∀ d ∈ [115, 108, 45], isGap d = false := by decide
      have hne := ne_of_excluded hc hgap
      exact plainStart_cons ⟨hne 115 (by decide), hne 108 (by decide), hne 45 (by decide)⟩ s
  | @token t s ht _ _ =>
    obtain ⟨c, rest, hstart, hc⟩ := ht.starts
    have hne := startsToken_ne hc
    rcases hstart with rfl | rfl
    · rw [List.cons_append, unblanked_of_head hne.2]
      exact plainStart_cons hne.1 _
    · rw [List.cons_append, unblanked_of_head (by decide)]
      exact plainStart_dash hne.1.2.2 _

/-- No line of tokens begins with a definite sign. -/
theorem linesPlain_tokens {s : CStr} (h : IsTokens s) : LinesPlain s := by
  intro pre post q htext hpre hq _
  refine definiteFormat_piece (plainStart_tokens ?_) hq
  rcases hpre with rfl | hlast
  · rw [List.nil_append] at htext
    exact htext ▸ h
  · obtain ⟨front, rfl⟩ := List.getLast?_eq_some_iff.mp hlast
    have hbehind : s = front ++ 10 :: post := by
      rw [htext, List.append_assoc]
      rfl
    exact h.behind_line hbehind

theorem JsonDocument.tokens (d : JsonDocument) : IsTokens d.text :=
  (d.lead_gap.tokens.append d.documented.isValue.tokens).append d.trail_gap.tokens

/-! ### YAML -/

/-- All keys of scalars. -/
def yamlKeys : List CStr :=
  jsonTextKeys ++ jsonNumberKeys ++ loggingKeys ++ serverTextKeys ++ routeFieldKeys

theorem YamlScalar.oneLine (v : YamlScalar) : 10 ∉ v.text := by
  intro h
  rcases v.valid with hplain | ⟨inner, htext, hinner⟩
  · exact absurd (hplain.printable 10 h) (by decide)
  · rw [htext, List.mem_cons, List.mem_append, List.mem_singleton] at h
    rcases h with h34 | hmem | h34
    · cases h34
    · exact absurd (hinner 10 hmem).1 (by decide)
    · cases h34

/-- What begins with a key and nothing else does not begin with a word that is neither part of the
key nor longer. -/
theorem not_prefix_append {w key rest : CStr} (hw : ¬w <+: key) (hkey : ¬key <+: w) :
    ¬w <+: key ++ rest := by
  intro h
  rcases List.prefix_or_prefix_of_prefix h (List.prefix_append key rest) with hleft | hright
  · exact hw hleft
  · exact hkey hright

theorem plainLine_pair {key : CStr} (hkey : key ∈ yamlKeys) (v : YamlScalar) :
    PlainLine (yamlPair key v.text) := by
  have hlines : ∀ key ∈ yamlKeys, 10 ∉ key := by decide
  have hheads : ∀ key ∈ yamlKeys, key ≠ [] ∧ key.head? ≠ some 32 ∧ key.head? ≠ some 9 := by decide
  have hwords : ∀ key ∈ yamlKeys, ∀ w ∈ [ascii "server", ascii "location", ascii "---"],
      ¬w <+: key ∧ ¬key <+: w := by decide
  obtain ⟨hne, hblank⟩ := hheads key hkey
  obtain ⟨c, rest, hcons⟩ := List.exists_cons_of_ne_nil hne
  have hc : c ≠ 32 ∧ c ≠ 9 := by simpa [hcons] using hblank
  have hstart : ∀ w ∈ [ascii "server", ascii "location", ascii "---"],
      ¬w <+: unblanked (yamlPair key v.text ++ [10]) := by
    intro w hw
    have hpair : yamlPair key v.text ++ [10] = key ++ (ascii ": " ++ v.text ++ [10]) := by
      simp [yamlPair]
    rw [hpair, hcons, List.cons_append, unblanked_of_head hc, ← List.cons_append, ← hcons]
    exact not_prefix_append (hwords key hkey w hw).1 (hwords key hkey w hw).2
  refine ⟨?_, fun h => absurd h (hstart _ (by decide)), hstart _ (by decide), hstart _ (by decide)⟩
  rw [yamlPair, List.mem_append, List.mem_append, not_or, not_or]
  exact ⟨⟨hlines key hkey, by decide⟩, v.oneLine⟩

theorem PlainLine.padded {l : CStr} (h : PlainLine l) (pad : Nat) :
    PlainLine (List.replicate pad 32 ++ l) where
  oneLine := by
    rw [List.mem_append, not_or]
    exact ⟨fun hmem => absurd (List.eq_of_mem_replicate hmem) (by decide), h.oneLine⟩
  starts := by
    have hskip : unblanked (List.replicate pad 32 ++ l ++ [10]) = unblanked (l ++ [10]) := by
      induction pad with
      | zero => rfl
      | succ pad ih =>
        rw [← ih]
        rfl
    rw [hskip]
    exact h.starts

theorem plainLine_dash {l : CStr} (h : 10 ∉ l) : PlainLine (ascii "- " ++ l) where
  oneLine := by
    rw [List.mem_append, not_or]
    exact ⟨by decide, h⟩
  starts := plainStart_dash (by decide) _

theorem plainLines_padded {ls : List CStr} (h : ∀ l ∈ ls, PlainLine l) (pad : Nat) :
    ∀ l ∈ padded pad ls, PlainLine l := by
  intro l hl
  obtain ⟨l', hl', rfl⟩ := List.mem_map.mp hl
  exact (h l' hl').padded pad

theorem plainLines_dashed {ls : List CStr} (h : ∀ l ∈ ls, PlainLine l) :
    ∀ l ∈ dashed ls, PlainLine l := by
  cases ls with
  | nil => exact List.forall_mem_nil _
  | cons l ls =>
    refine List.forall_mem_cons.mpr ⟨plainLine_dash (h l List.mem_cons_self).oneLine, ?_⟩
    exact plainLines_padded (fun r hr => h r (List.mem_cons_of_mem _ hr)) 2

theorem plainLines_flatMap {α : Type} {xs : List α} {f : α → List CStr}
    (h : ∀ x ∈ xs, ∀ l ∈ f x, PlainLine l) : ∀ l ∈ xs.flatMap f, PlainLine l := by
  intro l hl
  obtain ⟨x, hx, hmem⟩ := List.mem_flatMap.mp hl
  exact h x hx l hmem

theorem YamlMap.plainLines {keys : List CStr} (m : YamlMap keys) (hkeys : keys ⊆ yamlKeys) :
    ∀ l ∈ m.lines, PlainLine l := by
  intro l hl
  obtain ⟨p, hp, rfl⟩ := List.mem_map.mp hl
  exact plainLine_pair (hkeys (m.known p hp)) p.2

theorem yamlRoutes_plain (pad : Nat) (rs : List (YamlMap routeFieldKeys)) :
    ∀ l ∈ yamlRoutes pad rs, PlainLine l := by
  refine List.forall_mem_cons.mpr ⟨⟨by decide, plainStart_cons (by decide) _⟩, ?_⟩
  apply plainLines_padded
  refine plainLines_flatMap fun m _ => plainLines_dashed (m.plainLines ?_)
  exact List.subset_append_right _ _

/-- `servers:` and `server_name:` begin like a block, but have no brace. -/
theorem plainLine_server {l : CStr} (h : l = ascii "servers:" ∨ l = ascii "server_name:") :
    PlainLine l := by
  rcases h with rfl | rfl
  · exact ⟨by decide, fun _ => by decide, by decide, by decide⟩
  · exact ⟨by decide, fun _ => by decide, by decide, by decide⟩

theorem YamlServerEntry.plainLines (e : YamlServerEntry) : ∀ l ∈ e.lines, PlainLine l := by
  cases e with
  | scalar key known value =>
    have hkey : key ∈ yamlKeys :=
      List.mem_append_left _ (List.mem_append_right _ known)
    exact List.forall_mem_singleton.mpr (plainLine_pair hkey value)
  | names pad ns =>
    refine List.forall_mem_cons.mpr ⟨plainLine_server (Or.inr rfl), ?_⟩
    apply plainLines_padded
    intro l hl
    obtain ⟨v, -, rfl⟩ := List.mem_map.mp hl
    exact plainLine_dash v.oneLine
  | routes pad rs => exact yamlRoutes_plain pad rs

theorem YamlEntry.plainLines (e : YamlEntry) : ∀ l ∈ e.lines, PlainLine l := by
  cases e with
  | scalar key known value =>
    have hkey : key ∈ yamlKeys :=
      List.mem_append_left _ (List.mem_append_left _ (List.mem_append_left _ known))
    exact List.forall_mem_singleton.mpr (plainLine_pair hkey value)
  | logging pad fields =>
    refine List.forall_mem_cons.mpr ⟨⟨by decide, by decide, by decide, by decide⟩, ?_⟩
    refine plainLines_padded (fields.plainLines ?_) _
    intro key hkey
    exact List.mem_append_left _ (List.mem_append_left _ (List.mem_append_right _ hkey))
  | servers pad ss =>
    refine List.forall_mem_cons.mpr ⟨plainLine_server (Or.inl rfl), ?_⟩
    apply plainLines_padded
    refine plainLines_flatMap fun s _ => plainLines_dashed ?_
    exact plainLines_flatMap fun e _ => e.plainLines
  | routes pad rs => exact yamlRoutes_plain pad rs

theorem plainLine_idle {l : CStr} (h10 : 10 ∉ l) (h : isIdle l = true) : PlainLine l := by
  refine ⟨h10, ?_⟩
  rw [isIdle, unblanked] at h
  rw [unblanked, List.dropWhile_append]
  cases hrest : l.dropWhile fun c => decide (c = 32 ∨ c = 9) with
  | nil => exact plainStart_cons (by decide) []
  | cons c rest =>
    rw [hrest, List.head?_cons, Option.all_some, decide_eq_true_eq] at h
    rw [if_neg (by simp), List.cons_append, h]
    exact plainStart_cons (by decide) _

theorem seenOf_append (ps qs : List (List UInt8)) : seenOf (ps ++ qs) = seenOf ps ++ seenOf qs := by
  rw [seenOf, List.map_append, List.filter_append, ← seenOf, ← seenOf]

/-- The pieces that go on a line are found from the start. -/
theorem goingOn_append (start : Bool) (ps qs : List (List UInt8)) :
    ∃ more, goingOn start (ps ++ qs) = goingOn start ps ++ more := by
  induction ps generalizing start with
  | nil => exact ⟨goingOn start qs, rfl⟩
  | cons p ps ih =>
    obtain ⟨more, hmore⟩ := ih (decide (p.getLast? = some 10))
    refine ⟨more, ?_⟩
    rw [List.cons_append, goingOn, hmore, goingOn, List.append_assoc]

section

variable {d : YamlDocument}

theorem YamlDocument.lead_plain : ∀ l ∈ d.lead, PlainLine l := fun l hl =>
  plainLine_idle (d.lead_idle l hl).1 (d.lead_idle l hl).2

theorem YamlDocument.body_plain : ∀ l ∈ d.body, PlainLine l := by
  intro l hl
  cases hidle : isIdle l with
  | true => exact plainLine_idle (d.body_lines l hl) hidle
  | false =>
    have hmem : l ∈ d.body.filter (fun l => !isIdle l) :=
      List.mem_filter.mpr ⟨hl, by rw [hidle]; rfl⟩
    rw [d.body_entries] at hmem
    exact plainLines_flatMap (fun e _ => e.plainLines) l hmem

theorem YamlDocument.linesPlain (h : d.marked = false) : LinesPlain d.text := by
  rw [text, h]
  refine linesPlain_unlines (List.forall_mem_append.mpr ⟨?_, d.body_plain⟩)
  rw [if_neg Bool.false_ne_true, List.append_nil]
  exact d.lead_plain

/-- A document is detected by its marker if the marker is seen, and else by what is seen. -/
theorem YamlDocument.detected_iff (h : d.marked = true) :
    detectConfigFormat d.text = .yaml ↔
      d.MarkerSeen ∨ MarkedInside d.text ∨ ShowsYaml d.text := by
  have hlead : LinesPlain (unlines d.lead) := linesPlain_unlines d.lead_plain
  have hpieces : fgets 256 d.text = fgets 256 (unlines d.lead) ++
      (ascii "---" ++ [10]) :: fgets 256 (unlines d.body) := by
    rw [text, h, if_pos rfl, List.append_assoc, unlines_append, fgets_unlines_append]
    have hmarker : fgets 256 (ascii "---" ++ 10 :: unlines d.body) = _ :=
      fgets_line (by decide) (by decide)
    exact congrArg (_ ++ ·) hmarker
  have hfirst : (seenOf (fgets 256 (unlines d.lead))).findSome? definiteFormat =
      (seenOf (goingOn true (fgets 256 (unlines d.lead)))).findSome? definiteFormat := by
    have hwhole : unlines d.lead = [] ++ ((fgets 256 (unlines d.lead)).flatten ++ []) := by
      rw [fgets, fgetsFrom_flatten, List.append_nil]
      rfl
    exact findSome_goingOn hlead (fun _ => Or.inl rfl) (fgetsFrom_line_end List.not_mem_nil _)
      hwhole
  by_cases hreached : (fgets 256 (unlines d.lead)).length < 50
  · obtain ⟨k, hk⟩ : ∃ k, 50 - (fgets 256 (unlines d.lead)).length = k + 1 :=
      Nat.exists_eq_succ_of_ne_zero (Nat.sub_ne_zero_of_lt hreached)
    have hlooked : firstPieces d.text = fgets 256 (unlines d.lead) ++
        (ascii "---" ++ [10]) :: (fgets 256 (unlines d.body)).take k := by
      rw [firstPieces, hpieces, List.take_append, List.take_of_length_le hreached.le, hk,
        List.take_succ_cons]
    have hsigns : (seen d.text).findSome? definiteFormat =
        ((seenOf (goingOn true (fgets 256 (unlines d.lead)))).findSome? definiteFormat).or
          (some .yaml) := by
      rw [seen, hlooked, seenOf_append, List.findSome?_append, hfirst]
      rfl
    obtain ⟨more, hmore⟩ := goingOn_append true (fgets 256 (unlines d.lead))
      ((ascii "---" ++ [10]) :: (fgets 256 (unlines d.body)).take k)
    have hinside : seenInside d.text =
        seenOf (goingOn true (fgets 256 (unlines d.lead))) ++ seenOf more := by
      rw [seenInside, hlooked, hmore, seenOf_append]
    rw [detect_iff, hsigns]
    cases hsign : (seenOf (goingOn true (fgets 256 (unlines d.lead)))).findSome? definiteFormat with
    | none =>
      rw [List.findSome?_eq_none_iff] at hsign
      exact iff_of_true (Or.inl rfl) (Or.inl ⟨h, hreached, hsign⟩)
    | some format =>
      obtain ⟨t, ht, hformat⟩ := List.exists_of_findSome?_eq_some hsign
      have hne : definiteFormat t ≠ none := by
        rw [hformat]
        exact Option.some_ne_none format
      have hnot : ¬d.MarkerSeen := fun hseen => hne (hseen.noSign t ht)
      have hshows : ¬ShowsYaml d.text := fun hseen =>
        hne (hseen.noSign t (hinside ▸ List.mem_append_left _ ht))
      rw [MarkedInside, hinside, List.findSome?_append, hsign, or_iff_right hnot,
        or_iff_left hshows]
      simp
  · -- Only the lines before the marker are looked at.
    have hsame : firstPieces d.text = firstPieces (unlines d.lead) := by
      rw [firstPieces, hpieces, List.take_append_of_le_length (not_lt.mp hreached), firstPieces]
    have hdetect : detectConfigFormat d.text = detectConfigFormat (unlines d.lead) :=
      congrArg (detectFrom · ⟨false, false, false⟩) hsame
    have hnot : ¬d.MarkerSeen := fun hseen => hreached hseen.reached
    have hseen : seen d.text = seen (unlines d.lead) := congrArg seenOf hsame
    have hinside : seenInside d.text = seenInside (unlines d.lead) :=
      congrArg (fun ps => seenOf (goingOn true ps)) hsame
    have hmarked : MarkedInside d.text ↔ MarkedInside (unlines d.lead) := by
      rw [MarkedInside, MarkedInside, hinside]
    have hshows : ShowsYaml d.text ↔ ShowsYaml (unlines d.lead) := by
      constructor
      · rintro ⟨h₁, h₂, h₃, h₄⟩
        exact ⟨hinside ▸ h₁, hseen ▸ h₂, hseen ▸ h₃, hseen ▸ h₄⟩
      · rintro ⟨h₁, h₂, h₃, h₄⟩
        exact ⟨hinside ▸ h₁, hseen ▸ h₂, hseen ▸ h₃, hseen ▸ h₄⟩
    rw [hdetect, hlead.detect_yaml_iff, or_iff_right hnot, hmarked, hshows]

end

/-! ## Documents -/

/-- A JSON document is detected exactly when what is seen of it shows one, a YAML document exactly
when its marker is seen or what is seen of it shows one. -/
theorem detects_iff (json : JsonDocument) (yaml : YamlDocument) :
    (detectConfigFormat json.text = .json ↔ ShowsJson json.text) ∧
    (detectConfigFormat yaml.text = .yaml ↔
      yaml.MarkerSeen ∨ MarkedInside yaml.text ∨ ShowsYaml yaml.text) := by
  refine ⟨(linesPlain_tokens json.tokens).detect_json_iff, ?_⟩
  cases hmarked : yaml.marked with
  | true => exact YamlDocument.detected_iff hmarked
  | false =>
    have hnot : ¬yaml.MarkerSeen := fun hseen =>
      Bool.false_ne_true (hmarked.symm.trans hseen.marked)
    rw [(YamlDocument.linesPlain hmarked).detect_yaml_iff, or_iff_right hnot]

/-! ### Names on lines of their own -/

def plainUnits (s : CStr) : List StringUnit := s.map .plain

theorem plainUnits_valid {s : CStr} (h : ∀ c ∈ s, (StringUnit.plain c).isValid = true) :
    ∀ u ∈ plainUnits s, u.isValid = true := by
  rintro u hu
  obtain ⟨c, hc, rfl⟩ := List.mem_map.mp hu
  exact h c hc

theorem isText_plain {s : CStr} (h : ∀ c ∈ s, (StringUnit.plain c).isValid = true) :
    IsText (quoted (plainUnits s)) := ⟨_, plainUnits_valid h, rfl⟩

/-- Two names on a line between those with the brackets. -/
def nameLines : CStr :=
  arrayOf [] [⟨[10], quoted (plainUnits (ascii "a")), []⟩,
    ⟨[32], quoted (plainUnits (ascii "b")), [10]⟩]

theorem nameLines_texts : IsArrayOf IsText nameLines := by
  refine ⟨[], _, isGap_nil, ?_, rfl⟩
  refine List.forall_mem_cons.mpr ⟨⟨⟨?_, isGap_nil⟩, isText_plain (by decide)⟩, ?_⟩
  · exact List.forall_mem_singleton.mpr rfl
  · refine List.forall_mem_singleton.mpr ⟨⟨?_, ?_⟩, isText_plain (by decide)⟩
    · exact List.forall_mem_singleton.mpr rfl
    · exact List.forall_mem_singleton.mpr rfl

def nameLinesServer : CStr := objectOf [] [tightMember (plainUnits (ascii "server_name")) nameLines]

theorem nameLinesServer_server : IsJsonServer nameLinesServer :=
  isObjectOf_one (plainUnits_valid (by decide)) (Or.inr (Or.inl ⟨by decide, nameLines_texts⟩))

def nameLinesConfig : CStr :=
  objectOf [] [tightMember (plainUnits (ascii "servers")) (arrayOf [] [⟨[], nameLinesServer, []⟩])]

theorem nameLinesConfig_config : IsJsonConfig nameLinesConfig := by
  refine isObjectOf_one (plainUnits_valid (by decide)) ?_
  exact Or.inr (Or.inr (Or.inr (Or.inl ⟨by decide, isArrayOf_one nameLinesServer_server⟩)))

def nameLinesDocument : JsonDocument where
  lead := []
  config := nameLinesConfig
  trail := []
  lead_gap := isGap_nil
  documented := nameLinesConfig_config
  trail_gap := isGap_nil

theorem isPlainScalar_localhost : IsPlainScalar (ascii "localhost") where
  starts := ⟨108, ascii "ocalhost", rfl, by decide⟩
  printable := by decide
  ends := by decide
  noPair := by decide
  noComment := by decide

def localhost : YamlScalar := ⟨ascii "localhost", Or.inl isPlainScalar_localhost⟩

/-- `servers:`, `server_name:` and `- localhost` on three lines. -/
def nameItemsDocument : YamlDocument where
  lead := []
  marked := false
  entries := [.servers 2 [[.names 2 [localhost]]]]
  body := [ascii "servers:", ascii "  - server_name:", ascii "      - localhost"]
  lead_idle := List.forall_mem_nil _
  body_lines := by decide
  body_entries := by decide

/-- Both are taken for Nginx. -/
theorem name_lists_mistaken :
    detectConfigFormat nameLinesDocument.text ≠ .json ∧
      detectConfigFormat nameItemsDocument.text ≠ .yaml := by
  constructor
  · decide +kernel
  · decide +kernel

end MiniWeb.Config
