import MiniWeb.Config.Phrases
import MiniWeb.Config.JsonListing

/-!
# Lines of a YAML document

What the functions of the YAML loader make of a line with a key and a value, whether it begins a
list item or not.
-/

namespace MiniWeb.Config

open CStr Routing

variable {key value pre : CStr}

/-! ## A line with a key and a value -/

/-- The first line of an item and the lines below it. -/
def itemIndents : List CStr := [ascii "  - ", ascii "    "]

theorem colon_notMem_indent (hpre : pre ∈ itemIndents) : 58 ∉ pre := by
  have h : ∀ pre ∈ itemIndents, 58 ∉ pre := by decide
  exact h pre hpre

theorem dropWhile_colon (hpre : pre ∈ itemIndents) (hkey : IsKey key) :
    (pre ++ yamlPair key value).dropWhile (· ≠ 58) = 58 :: 32 :: value := by
  have hno : ∀ c ∈ pre ++ key, c ≠ 58 := by
    rintro c hc rfl
    rcases List.mem_append.1 hc with hc | hc
    · exact colon_notMem_indent hpre hc
    · exact hkey.notMem (by decide) hc
  have hsplit : pre ++ yamlPair key value = pre ++ key ++ 58 :: 32 :: value := by
    simp [yamlPair, ascii]
  rw [hsplit, List.dropWhile_append_of_pos (by simpa using hno)]
  simp

/-- A value as it stands. -/
theorem yamlGetValue_phrase {size : Nat} (p : Phrase size) (hsize : size ≤ 256)
    (hpre : pre ∈ itemIndents) (hkey : IsKey key) :
    yamlGetValue (pre ++ yamlPair key p.text) 256 = p.text := by
  have hshort := p.short
  have hdrop : (32 :: p.text).dropWhile (· = 32) = p.text := by
    rw [List.dropWhile_cons_of_pos (by decide), List.dropWhile_eq_self_iff]
    intro hpos h32
    apply p.starts
    rw [List.head?_eq_getElem?, List.getElem?_eq_getElem hpos]
    simpa using h32
  have htake : p.text.takeWhile (fun c => c ≠ 10 ∧ c ≠ 13 ∧ c ≠ 35) = p.text := by
    apply List.takeWhile_eq_self_iff.2
    intro c hc
    have hne : ∀ d : UInt8, isPlain d = false → c ≠ d := fun d hd h => p.notMem hd (h ▸ hc)
    simp [hne 10 (by decide), hne 13 (by decide), hne 35 (by decide)]
  have hend : p.text.rdropWhile (· = 32) = p.text := by
    rw [List.rdropWhile_eq_self_iff]
    intro hne h32
    apply p.ends
    rw [List.getLast?_eq_getLast_of_ne_nil hne]
    simpa using h32
  rw [yamlGetValue, dropWhile_colon hpre hkey, List.drop_one, List.tail_cons, hdrop]
  cases htext : p.text with
  | nil => rfl
  | cons c v =>
    have hne : ∀ d : UInt8, isPlain d = false → c ≠ d := fun d hd h =>
      p.notMem hd (by rw [htext, ← h]; exact List.mem_cons_self ..)
    dsimp only
    rw [if_neg (hne 34 (by decide)), if_neg (hne 39 (by decide)), ← htext, htake,
      cut_of_lt (by omega), hend]

/-- A value in double quotes. -/
theorem yamlGetValue_quote {size : Nat} (p : Phrase size) (hsize : size ≤ 256)
    (hpre : pre ∈ itemIndents) (hkey : IsKey key) :
    yamlGetValue (pre ++ yamlPair key (quote p.text)) 256 = p.text := by
  have hshort := p.short
  have hquote : quote p.text = 34 :: (p.text ++ [34]) := by simp [quote, ascii]
  have hget : jsonGetString (quote p.text ++ []) 256 = some (p.text, []) :=
    jsonGetString_quote (Plain.unescaped p.plain) (by omega) []
  have hdrop : (32 :: quote p.text).dropWhile (· = 32) = quote p.text := by
    rw [hquote, List.dropWhile_cons_of_pos (by decide), List.dropWhile_cons_of_neg (by decide)]
  rw [List.append_nil] at hget
  rw [yamlGetValue, dropWhile_colon hpre hkey, List.drop_one, List.tail_cons, hdrop, hquote]
  dsimp only
  rw [if_pos rfl, ← hquote, hget]
  rfl

/-! ## The key -/

theorem yamlKey_pair (hkey : IsKey key) (hshort : key.length < 64) :
    yamlKey (yamlPair key value) = key := by
  have hno : ∀ c ∈ key, c ≠ 58 := fun c hc h => hkey.notMem (by decide) (h ▸ hc)
  have htake : (yamlPair key value).takeWhile (· ≠ 58) = key := by
    rw [yamlPair, List.append_assoc, List.takeWhile_append_of_pos (by simpa using hno)]
    simp [ascii]
  rw [yamlKey, htake, cut_of_lt hshort, List.rdropWhile_eq_self_iff]
  intro hne h32
  apply hkey.shown.ends
  rw [List.getLast?_eq_getLast_of_ne_nil hne]
  simpa using h32

/-- What the functions test of a line is decided by what it begins with. -/
theorem yamlPair_cons (hkey : IsKey key) :
    ∃ c t, yamlPair key value = c :: t ∧ c ≠ 32 ∧ c ≠ 45 := by
  obtain ⟨c, t, rfl⟩ := List.exists_cons_of_ne_nil hkey.1
  have hno : ∀ d : UInt8, d < 95 → c ≠ d := fun d hd h =>
    hkey.notMem hd (h ▸ List.mem_cons_self ..)
  exact ⟨c, t ++ ascii ": " ++ value, by simp [yamlPair], hno 32 (by decide), hno 45 (by decide)⟩

theorem colon_mem_yamlPair : 58 ∈ yamlPair key value := by simp [yamlPair, ascii]

theorem yamlBlank_indent (hpre : pre ∈ itemIndents) (x : CStr) : yamlBlank (pre ++ x) = false := by
  simp only [itemIndents, List.mem_cons, List.not_mem_nil, or_false] at hpre
  rcases hpre with rfl | rfl
  · rfl
  · rfl

theorem yamlDashed_item (x : CStr) : yamlDashed (ascii "  - " ++ x) = true := rfl

theorem yamlIndent_item (x : CStr) : yamlIndent (ascii "  - " ++ x) = 2 := rfl

theorem dropWhile_pair (hkey : IsKey key) :
    (ascii "    " ++ yamlPair key value).dropWhile (· = 32) = yamlPair key value := by
  obtain ⟨c, t, hpair, h32, -⟩ := yamlPair_cons hkey
  rw [List.dropWhile_append_of_pos (by decide), hpair, List.dropWhile_cons_of_neg (by simpa)]

theorem yamlIndent_pair (hkey : IsKey key) :
    yamlIndent (ascii "    " ++ yamlPair key value) = 4 := by
  obtain ⟨c, t, hpair, h32, -⟩ := yamlPair_cons hkey
  rw [yamlIndent, List.takeWhile_append_of_pos (by decide), hpair,
    List.takeWhile_cons_of_neg (by simpa)]
  rfl

theorem not_startsWith_dash (hkey : IsKey key) :
    startsWith (yamlPair key value) (ascii "- ") = false := by
  obtain ⟨c, t, hpair, -, h45⟩ := yamlPair_cons hkey
  have hne : ((45 : UInt8) == c) = false := beq_eq_false_iff_ne.2 (Ne.symm h45)
  rw [hpair]
  change ((45 == c) && _) = false
  rw [hne, Bool.false_and]

theorem yamlDashed_pair (hkey : IsKey key) :
    yamlDashed (ascii "    " ++ yamlPair key value) = false := by
  rw [yamlDashed, dropWhile_pair hkey]
  exact not_startsWith_dash hkey

/-- Both kinds of lines belong to the item. -/
theorem inRouteMap_pair (hpre : pre ∈ itemIndents) (hkey : IsKey key) :
    inRouteMap 2 (pre ++ yamlPair key value) = true := by
  simp only [itemIndents, List.mem_cons, List.not_mem_nil, or_false] at hpre
  rcases hpre with rfl | rfl
  · rw [inRouteMap, yamlDashed_item, Bool.or_true]
  · rw [inRouteMap, yamlIndent_pair hkey]
    simp

theorem yamlParseKeyValue_pair (hpre : pre ∈ itemIndents) (hkey : IsKey key)
    (hshort : key.length < 64) :
    yamlParseKeyValue (pre ++ yamlPair key value)
      = some (key, yamlGetValue (pre ++ yamlPair key value) 256) := by
  have hcontent : (let content := (pre ++ yamlPair key value).dropWhile (· = 32)
      if startsWith content (ascii "- ") then content.drop 2 else content)
        = yamlPair key value := by
    simp only [itemIndents, List.mem_cons, List.not_mem_nil, or_false] at hpre
    rcases hpre with rfl | rfl
    · rfl
    · rw [dropWhile_pair hkey]
      simp [not_startsWith_dash hkey]
  dsimp only at hcontent
  rw [yamlParseKeyValue, hcontent, if_pos colon_mem_yamlPair, yamlKey_pair hkey hshort]

theorem routeMapLine_pair (hpre : pre ∈ itemIndents) (hkey : IsKey key) (hshort : key.length < 64)
    (fields : RouteFields) :
    routeMapLine (pre ++ yamlPair key value) fields
      = fields.set key (yamlGetValue (pre ++ yamlPair key value) 256) := by
  have hcontent : (let line := pre ++ yamlPair key value
      (if yamlDashed line then line.drop (yamlIndent line + 2) else line).dropWhile (· = 32))
        = yamlPair key value := by
    simp only [itemIndents, List.mem_cons, List.not_mem_nil, or_false] at hpre
    rcases hpre with rfl | rfl
    · obtain ⟨c, t, hpair, h32, -⟩ := yamlPair_cons hkey
      have hdrop : (ascii "  - " ++ yamlPair key value).drop (2 + 2) = yamlPair key value := rfl
      dsimp only
      rw [yamlDashed_item, if_pos rfl, yamlIndent_item, hdrop, hpair,
        List.dropWhile_cons_of_neg (by simpa)]
    · dsimp only
      rw [yamlDashed_pair hkey, if_neg Bool.false_ne_true, dropWhile_pair hkey]
  dsimp only at hcontent
  rw [routeMapLine, yamlBlank_indent hpre, if_neg Bool.false_ne_true]
  dsimp only
  rw [hcontent, if_pos colon_mem_yamlPair, yamlKey_pair hkey hshort]

/-! ## Lines of a file -/

theorem yamlLine_line {line : CStr} (h : ∀ c ∈ line, 32 ≤ c) : yamlLine (line ++ [10]) = line := by
  have hno : ∀ d : UInt8, d < 32 → d ∉ line := fun d hd hmem => absurd (h d hmem) (not_le.2 hd)
  have h0 : ofBuffer (line ++ [10]) = line ++ [10] := by
    apply ofBuffer_of_notMem
    rw [List.mem_append, not_or]
    exact ⟨hno 0 (by decide), by decide⟩
  have h13 : line.getLast? ≠ some 13 := fun hlast =>
    hno 13 (by decide) (List.mem_of_getLast? hlast)
  rw [yamlLine, h0, List.getLast?_concat, if_pos (Or.inl rfl), List.dropLast_concat, if_neg h13]

/-- The loader sees the first 500 lines. -/
theorem yamlLines_unlines {lines : List CStr}
    (h : ∀ l ∈ lines, (∀ c ∈ l, 32 ≤ c) ∧ l.length ≤ 510) :
    yamlLines (unlines lines) = lines.take 500 := by
  have hfits : ∀ l ∈ lines, 10 ∉ l ∧ l.length + 2 ≤ 512 := by
    intro l hl
    obtain ⟨hprintable, hlength⟩ := h l hl
    exact ⟨fun hmem => absurd (hprintable 10 hmem) (by decide), by omega⟩
  have hread : fgets 512 (unlines lines ++ []) = _ := fgets_unlines hfits
  rw [List.append_nil] at hread
  have hend : fgets 512 [] = [] := rfl
  have hline : ∀ l ∈ lines.take 500, yamlLine (l ++ [10]) = id l := fun l hl =>
    yamlLine_line (h l (List.mem_of_mem_take hl)).1
  rw [yamlLines, hread, hend, List.append_nil, ← List.map_take, List.map_map]
  exact (List.map_congr_left hline).trans (List.map_id _)

end MiniWeb.Config
