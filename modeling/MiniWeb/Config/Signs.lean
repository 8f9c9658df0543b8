import MiniWeb.Config.Load

/-!
# Signs of a format

What `detect_config_format` goes by: the first pieces of a file, cut as `fgets` cuts them, and what
it finds in each. Where no line of the file begins with a definite sign, only pieces that go on a
line can be one.
-/

namespace MiniWeb.Config

open CStr

variable {file text pre post : CStr} {ps : List (List UInt8)}

/-! ## Pieces -/

/-- A piece without the blanks in front. -/
def unindented (piece : List UInt8) : CStr := (ofBuffer piece).dropWhile fun c => c = 32 ∨ c = 9

/-- The pieces with more than a comment or a line end. -/
def seenOf (pieces : List (List UInt8)) : List CStr :=
  (pieces.map unindented).filter fun t => !detectSkips t

def firstPieces (file : List UInt8) : List (List UInt8) := (fgets 256 file).take 50

/-- The texts that are looked at. -/
def seen (file : List UInt8) : List CStr := seenOf (firstPieces file)

/-- The pieces that go on a line; `start` says whether the first one starts one. -/
def goingOn : Bool → List (List UInt8) → List (List UInt8)
  | _, [] => []
  | start, p :: ps => (if start then [] else [p]) ++ goingOn (p.getLast? = some 10) ps

/-- The texts that are looked at and do not start a line. -/
def seenInside (file : List UInt8) : List CStr := seenOf (goingOn true (firstPieces file))

theorem fgetsFrom_flatten (size : Nat) (buf s : List UInt8) :
    (fgetsFrom size buf s).flatten = buf ++ s := by
  induction s generalizing buf with
  | nil =>
    rw [fgetsFrom]
    by_cases hnil : buf = []
    · rw [if_pos hnil, hnil]
      rfl
    · rw [if_neg hnil]
      simp
  | cons c s ih =>
    rw [fgetsFrom]
    split
    · rw [List.flatten_cons, ih]
      simp
    · rw [ih]
      simp

/-- A line end is the last byte of its piece. -/
theorem fgetsFrom_line_end {size : Nat} {buf : List UInt8} (hbuf : 10 ∉ buf) (s : List UInt8) :
    ∀ p ∈ fgetsFrom size buf s, 10 ∉ p.dropLast := by
  induction s generalizing buf with
  | nil =>
    rw [fgetsFrom]
    split
    · exact List.forall_mem_nil _
    · exact List.forall_mem_singleton.mpr fun h => hbuf (List.mem_of_mem_dropLast h)
  | cons c s ih =>
    rw [fgetsFrom]
    split
    · refine List.forall_mem_cons.mpr ⟨?_, ih List.not_mem_nil⟩
      rw [List.dropLast_concat]
      exact hbuf
    · next hgo =>
      apply ih
      rw [List.mem_append, List.mem_singleton, not_or]
      exact ⟨hbuf, fun h => hgo (Or.inl h.symm)⟩

/-! ## What is gathered -/

def gathered (ts : List CStr) (e : Evidence) : Evidence where
  hasBrace := e.hasBrace || ts.any fun t => decide (123 ∈ t ∨ 125 ∈ t)
  hasColon := e.hasColon || ts.any fun t => decide (58 ∈ t ∧ t.head? ≠ some 125)
  hasAssign := e.hasAssign || ts.any isAssign

theorem gathered_cons (t : CStr) (ts : List CStr) (e : Evidence) :
    gathered (t :: ts) e = gathered ts (e.add t) := by
  simp [gathered, Evidence.add, Bool.or_assoc]

theorem seenOf_cons (p : List UInt8) (ps : List (List UInt8)) :
    seenOf (p :: ps) =
      if detectSkips (unindented p) then seenOf ps else unindented p :: seenOf ps := by
  rw [seenOf, List.map_cons, List.filter_cons]
  cases detectSkips (unindented p) with
  | true => rfl
  | false => rfl

/-- The first definite sign decides, and else all that is gathered. -/
theorem detectFrom_eq (ps : List (List UInt8)) (e : Evidence) :
    detectFrom ps e =
      ((seenOf ps).findSome? definiteFormat).getD (gathered (seenOf ps) e).decide := by
  induction ps generalizing e with
  | nil => simp [detectFrom, seenOf, gathered]
  | cons p ps ih =>
    rw [detectFrom, seenOf_cons, unindented]
    by_cases hskips : detectSkips ((ofBuffer p).dropWhile fun c => c = 32 ∨ c = 9) = true
    · rw [if_pos hskips, if_pos hskips]
      exact ih e
    · rw [if_neg hskips, if_neg hskips, List.findSome?_cons, gathered_cons]
      cases definiteFormat ((ofBuffer p).dropWhile fun c => c = 32 ∨ c = 9) with
      | some format => rfl
      | none => exact ih _

theorem decide_json_iff (e : Evidence) :
    e.decide = .json ↔ e.hasAssign = false ∧ e.hasBrace = true := by
  obtain ⟨brace, colon, assign⟩ := e
  revert brace colon assign
  decide

theorem decide_yaml_iff (e : Evidence) :
    e.decide = .yaml ↔ e.hasAssign = false ∧ e.hasBrace = false ∧ e.hasColon = true := by
  obtain ⟨brace, colon, assign⟩ := e
  revert brace colon assign
  decide

theorem definiteFormat_ne_json (t : CStr) : definiteFormat t ≠ some .json := by
  rw [definiteFormat]
  split
  · simp
  · split
    · simp
    · split
      · simp
      · simp

/-- A file is taken for what its first definite sign says, or for what is gathered. -/
theorem detect_iff (file : List UInt8) (format : ConfigFormat) :
    detectConfigFormat file = format ↔
      (seen file).findSome? definiteFormat = some format ∨
        (seen file).findSome? definiteFormat = none ∧
          (gathered (seen file) ⟨false, false, false⟩).decide = format := by
  rw [detectConfigFormat, detectFrom_eq, ← firstPieces, ← seen]
  cases hfound : (seen file).findSome? definiteFormat with
  | none => simp
  | some found => simp

/-! ## Starts of lines -/

/-- No piece that starts a line is a definite sign. -/
def LinesPlain (text : CStr) : Prop :=
  ∀ pre post q, text = pre ++ post → (pre = [] ∨ pre.getLast? = some 10) → q <+: post →
    10 ∉ q.dropLast → definiteFormat (unindented q) = none

/-- A text that does not begin with a word of a definite sign, or with `server` and has no brace. -/
structure PlainStart (s : CStr) : Prop where
  server : ascii "server" <+: s → 123 ∉ s
  location : ¬ascii "location" <+: s
  marker : ¬ascii "---" <+: s

def unblanked (s : CStr) : CStr := s.dropWhile fun c => c = 32 ∨ c = 9

theorem startsWith_iff {s w : CStr} : startsWith s w = true ↔ w <+: s := List.isPrefixOf_iff_prefix

theorem definiteFormat_of_plainStart {s : CStr} (h : PlainStart s) : definiteFormat s = none := by
  have hserver : ¬(startsWith s (ascii "server") = true ∧ 123 ∈ s) :=
    fun hboth => h.server (startsWith_iff.mp hboth.1) hboth.2
  have hlocation : ¬startsWith s (ascii "location") = true :=
    fun hstarts => h.location (startsWith_iff.mp hstarts)
  have hmarker : ¬startsWith s (ascii "---") = true :=
    fun hstarts => h.marker (startsWith_iff.mp hstarts)
  rw [definiteFormat, if_neg hserver, if_neg hlocation, if_neg hmarker]

theorem plainStart_nil : PlainStart [] where
  server := fun hw => absurd hw (by decide)
  location := by decide
  marker := by decide

/-- The words begin with `s`, `l` and a dash. -/
theorem plainStart_cons {c : UInt8} (hc : c ≠ 115 ∧ c ≠ 108 ∧ c ≠ 45) (s : CStr) :
    PlainStart (c :: s) where
  server := fun hw => absurd (List.cons_prefix_cons.mp hw).1.symm hc.1
  location := fun hw => hc.2.1 (List.cons_prefix_cons.mp hw).1.symm
  marker := fun hw => hc.2.2 (List.cons_prefix_cons.mp hw).1.symm

theorem plainStart_dash {c : UInt8} (hc : c ≠ 45) (s : CStr) : PlainStart (45 :: c :: s) where
  server := fun hw => absurd (List.cons_prefix_cons.mp hw).1 (by decide)
  location := fun hw => absurd (List.cons_prefix_cons.mp hw).1 (by decide)
  marker := fun hw => hc (List.cons_prefix_cons.mp (List.cons_prefix_cons.mp hw).2).1.symm

/-- What stands at the start of a part of a text stands at the start of the text. -/
theorem unblanked_mono {q s w : CStr} (hq : q <+: s) (hw : w <+: unblanked q) (hne : w ≠ []) :
    unblanked q <+: unblanked s := by
  obtain ⟨more, rfl⟩ := hq
  have hkeep : ¬(unblanked q).isEmpty = true := by
    intro hnil
    rw [List.isEmpty_iff] at hnil
    rw [hnil, List.prefix_nil] at hw
    exact hne hw
  rw [unblanked, unblanked, List.dropWhile_append]
  rw [unblanked] at hkeep
  rw [if_neg hkeep]
  exact List.prefix_append _ _

theorem PlainStart.mono {q s : CStr} (h : PlainStart (unblanked s)) (hq : q <+: s) :
    PlainStart (unblanked q) where
  server := by
    intro hw h123
    have hpre := unblanked_mono hq hw (by decide)
    exact h.server (hw.trans hpre) (hpre.subset h123)
  location := fun hw => h.location (hw.trans (unblanked_mono hq hw (by decide)))
  marker := fun hw => h.marker (hw.trans (unblanked_mono hq hw (by decide)))

/-- A piece of a text that starts plainly. -/
theorem definiteFormat_piece {q s : CStr} (h : PlainStart (unblanked s)) (hq : q <+: s) :
    definiteFormat (unindented q) = none := by
  have hbuffer : ofBuffer q <+: s := (List.takeWhile_prefix _).trans hq
  exact definiteFormat_of_plainStart (h.mono hbuffer)

/-- A text of lines from the start of one of them on. -/
theorem unlines_rest {ls : List CStr} (hls : ∀ l ∈ ls, 10 ∉ l) (htext : unlines ls = pre ++ post)
    (hpre : pre = [] ∨ pre.getLast? = some 10) : ∃ rest, rest <:+ ls ∧ post = unlines rest := by
  induction ls generalizing pre with
  | nil =>
    have hnil : pre ++ post = [] := htext.symm
    exact ⟨[], List.suffix_rfl, (List.append_eq_nil_iff.mp hnil).2⟩
  | cons l ls ih =>
    have hlater : ∀ {pre : CStr}, unlines ls = pre ++ post → (pre = [] ∨ pre.getLast? = some 10) →
        ∃ rest, rest <:+ l :: ls ∧ post = unlines rest := by
      intro pre htext hpre
      obtain ⟨rest, hrest, hpost⟩ := ih (fun r hr => hls r (List.mem_cons_of_mem _ hr)) htext hpre
      exact ⟨rest, hrest.trans (List.suffix_cons l ls), hpost⟩
    rcases hpre with rfl | hlast
    · exact ⟨l :: ls, List.suffix_rfl, htext.symm⟩
    have hline : (l ++ [10]) ++ unlines ls = pre ++ post := htext
    rcases List.append_eq_append_iff.mp hline with ⟨more, hwhole, hrest⟩ | ⟨more, hpart, hrest⟩
    · refine hlater hrest ?_
      rw [hwhole, List.getLast?_append] at hlast
      cases more with
      | nil => exact Or.inl rfl
      | cons c more =>
        right
        rw [List.getLast?_eq_some_getLast (List.cons_ne_nil c more)] at hlast ⊢
        exact hlast
    · -- The first line holds its line end only behind all else.
      rcases List.eq_nil_or_concat more with rfl | ⟨front, c, rfl⟩
      · have hnext : unlines ls = [] ++ post := hrest.symm
        exact hlater hnext (Or.inl rfl)
      · rw [List.concat_eq_append, ← List.append_assoc] at hpart
        have hfront := (List.append_inj' hpart rfl).1
        refine absurd ?_ (hls l List.mem_cons_self)
        rw [hfront]
        exact List.mem_append_left _ (List.mem_of_getLast? hlast)

/-- A line that does not begin with a definite sign. -/
structure PlainLine (l : CStr) : Prop where
  oneLine : 10 ∉ l
  starts : PlainStart (unblanked (l ++ [10]))

theorem linesPlain_unlines {ls : List CStr} (hls : ∀ l ∈ ls, PlainLine l) :
    LinesPlain (unlines ls) := by
  intro pre post q htext hpre hq hline
  obtain ⟨rest, hsuffix, rfl⟩ := unlines_rest (fun l hl => (hls l hl).oneLine) htext hpre
  cases rest with
  | nil =>
    have hnil : q = [] := List.prefix_nil.mp hq
    rw [hnil]
    rfl
  | cons l rest =>
    have hl := (hls l (hsuffix.subset List.mem_cons_self)).starts
    have hfirst : l ++ [10] <+: unlines (l :: rest) := List.prefix_append _ _
    rcases List.prefix_or_prefix_of_prefix hq hfirst with hwithin | ⟨more, hbeyond⟩
    · exact definiteFormat_piece hl hwithin
    · rcases List.eq_nil_or_concat more with rfl | ⟨front, c, rfl⟩
      · rw [List.append_nil] at hbeyond
        exact definiteFormat_piece hl (hbeyond ▸ List.prefix_rfl)
      · refine absurd ?_ hline
        rw [← hbeyond, List.concat_eq_append, ← List.append_assoc, List.dropLast_concat]
        simp

theorem findSome_goingOn (hplain : LinesPlain text) {start : Bool}
    (hstart : start = true → pre = [] ∨ pre.getLast? = some 10)
    (hline : ∀ p ∈ ps, 10 ∉ p.dropLast) (htext : text = pre ++ (ps.flatten ++ post)) :
    (seenOf ps).findSome? definiteFormat =
      (seenOf (goingOn start ps)).findSome? definiteFormat := by
  induction ps generalizing pre start with
  | nil => rfl
  | cons p ps ih =>
    have hnext : text = (pre ++ p) ++ (ps.flatten ++ post) := by
      rw [htext]
      simp
    have hend : decide (p.getLast? = some 10) = true →
        pre ++ p = [] ∨ (pre ++ p).getLast? = some 10 := by
      intro h
      rw [decide_eq_true_eq] at h
      right
      rw [List.getLast?_append, h]
      rfl
    have htail := ih hend (fun q hq => hline q (List.mem_cons_of_mem _ hq)) hnext
    rw [goingOn, seenOf_cons]
    cases start with
    | true =>
      have hnone : definiteFormat (unindented p) = none := by
        refine hplain pre (p ++ (ps.flatten ++ post)) p ?_ (hstart rfl) (List.prefix_append _ _)
          (hline p List.mem_cons_self)
        rw [htext, List.flatten_cons, List.append_assoc]
      rw [if_pos rfl, List.nil_append, ← htail]
      split
      · rfl
      · rw [List.findSome?_cons, hnone]
    | false =>
      rw [if_neg Bool.false_ne_true, List.singleton_append, seenOf_cons]
      split
      · exact htail
      · rw [List.findSome?_cons, List.findSome?_cons, htail]

/-- Definite signs are then inside of lines. -/
theorem LinesPlain.findSome (h : LinesPlain file) :
    (seen file).findSome? definiteFormat = (seenInside file).findSome? definiteFormat := by
  have hpieces : file =
      [] ++ ((firstPieces file).flatten ++ ((fgets 256 file).drop 50).flatten) := by
    rw [List.nil_append, firstPieces, ← List.flatten_append, List.take_append_drop, fgets,
      fgetsFrom_flatten, List.nil_append]
  refine findSome_goingOn h (fun _ => Or.inl rfl) ?_ hpieces
  intro p hp
  exact fgetsFrom_line_end List.not_mem_nil file p (List.mem_of_mem_take hp)

/-- What is seen of a file shows JSON: a brace, no assignment, and inside of lines no definite
sign. -/
structure ShowsJson (file : CStr) : Prop where
  noSign : ∀ t ∈ seenInside file, definiteFormat t = none
  noAssign : ∀ t ∈ seen file, isAssign t = false
  brace : ∃ t ∈ seen file, 123 ∈ t ∨ 125 ∈ t

/-- What is seen of a file shows YAML: a colon, no brace, no assignment, and inside of lines no
definite sign. -/
structure ShowsYaml (file : CStr) : Prop where
  noSign : ∀ t ∈ seenInside file, definiteFormat t = none
  noAssign : ∀ t ∈ seen file, isAssign t = false
  noBrace : ∀ t ∈ seen file, 123 ∉ t ∧ 125 ∉ t
  colon : ∃ t ∈ seen file, 58 ∈ t

/-- The first definite sign inside of a line is that of YAML. -/
def MarkedInside (file : CStr) : Prop :=
  (seenInside file).findSome? definiteFormat = some .yaml

theorem LinesPlain.detect_json_iff (h : LinesPlain file) :
    detectConfigFormat file = .json ↔ ShowsJson file := by
  have hfirst : (seenInside file).findSome? definiteFormat ≠ some .json := by
    intro hsome
    obtain ⟨t, -, ht⟩ := List.exists_of_findSome?_eq_some hsome
    exact definiteFormat_ne_json t ht
  rw [detect_iff, h.findSome, or_iff_right hfirst, List.findSome?_eq_none_iff, decide_json_iff]
  simp only [gathered, Bool.false_or, List.any_eq_false, List.any_eq_true, decide_eq_true_eq,
    Bool.not_eq_true]
  constructor
  · rintro ⟨hnone, hassign, hbrace⟩
    exact ⟨hnone, hassign, hbrace⟩
  · rintro ⟨hnone, hassign, hbrace⟩
    exact ⟨hnone, hassign, hbrace⟩

theorem LinesPlain.detect_yaml_iff (h : LinesPlain file) :
    detectConfigFormat file = .yaml ↔ MarkedInside file ∨ ShowsYaml file := by
  rw [detect_iff, h.findSome, MarkedInside, List.findSome?_eq_none_iff, decide_yaml_iff]
  refine or_congr_right ?_
  simp only [gathered, Bool.false_or, List.any_eq_false, List.any_eq_true, decide_eq_true_eq,
    Bool.not_eq_true, not_or]
  constructor
  · rintro ⟨hnone, hassign, hbrace, t, ht, hcolon, -⟩
    exact ⟨hnone, hassign, hbrace, t, ht, hcolon⟩
  · rintro ⟨hnone, hassign, hbrace, t, ht, hcolon⟩
    refine ⟨hnone, hassign, hbrace, t, ht, hcolon, fun hhead => ?_⟩
    exact (hbrace t ht).2 (List.mem_of_mem_head? hhead)

end MiniWeb.Config
