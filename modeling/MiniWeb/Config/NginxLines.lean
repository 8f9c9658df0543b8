import MiniWeb.Config.Phrases

/-!
# Lines of Nginx blocks

What the Nginx loader sees of a line that fits its buffer, and how it reads on behind a text whose
effect is known.
-/

namespace MiniWeb.Config

open CStr Routing

variable {s pre post key value : CStr} {lines rest : List (List UInt8)} {reader : Reader}
  {config : LoadedConfig}

/-! ## Lines -/

theorem rdropWhile_append_of_pos {p : UInt8 → Bool} (h : ∀ c ∈ post, p c = true) :
    (s ++ post).rdropWhile p = s.rdropWhile p := by
  rw [List.rdropWhile, List.reverse_append, List.dropWhile_append_of_pos, List.rdropWhile]
  intro c hc
  exact h c (List.mem_reverse.1 hc)

/-- Nothing is trimmed from a text without white space at its ends. -/
theorem trim_of_ends (hhead : ∀ c, s.head? = some c → isSpace c = false)
    (hlast : ∀ c, s.getLast? = some c → isSpace c = false) : trim s = s := by
  have hdrop : s.dropWhile isSpace = s := by
    rw [List.dropWhile_eq_self_iff]
    intro hpos
    rw [Bool.not_eq_true]
    apply hhead
    rw [List.head?_eq_getElem?, List.getElem?_eq_getElem hpos]
  rw [trim, hdrop, List.rdropWhile_eq_self_iff]
  intro hne
  rw [Bool.not_eq_true]
  exact hlast _ (List.getLast?_eq_getLast_of_ne_nil hne)

theorem trim_shown (hs : Shown s) : trim s = s := by
  apply trim_of_ends
  · intro c hc
    rw [← Bool.not_eq_true, isSpace_iff (hs.printable c (List.mem_of_mem_head? hc))]
    exact fun h => hs.starts (h ▸ hc)
  · intro c hc
    rw [← Bool.not_eq_true, isSpace_iff (hs.printable c (List.mem_of_getLast? hc))]
    exact fun h => hs.ends (h ▸ hc)

/-- White space around a text is trimmed. -/
theorem trim_pad (htrim : trim s = s) (hpre : ∀ c ∈ pre, isSpace c = true)
    (hpost : ∀ c ∈ post, isSpace c = true) : trim (pre ++ s ++ post) = s := by
  have hdrop : (pre ++ s ++ post).dropWhile isSpace = (s ++ post).dropWhile isSpace := by
    rw [List.append_assoc]
    exact List.dropWhile_append_of_pos hpre
  rw [trim] at htrim ⊢
  rw [hdrop]
  by_cases hnil : s = []
  · rw [hnil, List.nil_append, List.dropWhile_eq_nil_iff.2 hpost]
    rfl
  · have hkeep : s.dropWhile isSpace ≠ [] := by
      intro hempty
      rw [hempty] at htrim
      exact hnil htrim.symm
    rw [List.dropWhile_append, if_neg (by simpa using hkeep), rdropWhile_append_of_pos hpost]
    exact htrim

theorem trim_append (hs : Shown s) (hpre : ∀ c ∈ pre, isSpace c = true)
    (hpost : ∀ c ∈ post, isSpace c = true) : trim (pre ++ s ++ post) = s :=
  trim_pad (trim_shown hs) hpre hpost

/-- A line as it is in the file: with blanks around it and its end. -/
theorem lineText_line (hs : Shown s) (hpre : ∀ c ∈ pre, c = 32) (hpost : ∀ c ∈ post, c = 32)
    {nl : List UInt8} (hnl : ∀ c ∈ nl, c = 10) : lineText (pre ++ s ++ post ++ nl) = s := by
  have hbytes : ∀ c ∈ pre ++ s ++ post, 32 ≤ c := by
    simp only [List.mem_append]
    rintro c ((hc | hc) | hc)
    · rw [hpre c hc]
    · exact hs.printable c hc
    · rw [hpost c hc]
  have hno : ∀ d : UInt8, d < 32 → d ∉ pre ++ s ++ post := fun d hd hmem =>
    absurd (hbytes d hmem) (not_le.2 hd)
  have h0 : ofBuffer (pre ++ s ++ post ++ nl) = pre ++ s ++ post ++ nl := by
    apply ofBuffer_of_notMem
    rw [List.mem_append, not_or]
    exact ⟨hno 0 (by decide), fun h => absurd (hnl 0 h) (by decide)⟩
  have hline : removeNewline (pre ++ s ++ post ++ nl) = pre ++ s ++ post := by
    rw [removeNewline, List.takeWhile_append_of_pos, List.append_right_eq_self]
    · rw [List.takeWhile_eq_nil_iff]
      intro hpos
      simp [hnl _ (List.getElem_mem hpos)]
    · intro c hc
      rw [decide_eq_true_eq]
      constructor
      · rintro rfl
        exact hno 13 (by decide) hc
      · rintro rfl
        exact hno 10 (by decide) hc
  have hspace : ∀ c : UInt8, c = 32 → isSpace c = true := by
    rintro c rfl
    decide
  rw [lineText, h0, hline]
  exact trim_append hs (fun c hc => hspace c (hpre c hc)) fun c hc => hspace c (hpost c hc)

/-- The key and the value of a line. -/
theorem keyValue_eq {separator : UInt8} (hnot : separator ∉ key) (hkey : Shown key)
    (hvalue : Shown value) :
    keyValue separator (key ++ separator :: value) = some (key, value) := by
  have hin : separator ∈ key ++ separator :: value := by simp
  have hsplit : ∀ c ∈ key, c ≠ separator := fun c hc h => hnot (h ▸ hc)
  have htake : (key ++ separator :: value).takeWhile (· ≠ separator) = key := by
    rw [List.takeWhile_append_of_pos (by simpa using hsplit)]
    simp
  have hdrop : (key ++ separator :: value).dropWhile (· ≠ separator) = separator :: value := by
    rw [List.dropWhile_append_of_pos (by simpa using hsplit)]
    simp
  rw [keyValue, if_pos hin, htake, hdrop, List.drop_one, List.tail_cons, trim_shown hkey,
    trim_shown hvalue]

theorem keyValue_eq_none {separator : UInt8} (h : separator ∉ s) : keyValue separator s = none :=
  if_neg h

/-- A directive with its semicolon. -/
def directiveText (key value : CStr) : CStr := key ++ 32 :: (value ++ [59])

theorem stripSemicolon_directiveText :
    stripSemicolon (directiveText key value) = key ++ 32 :: value := by
  have hsplit : directiveText key value = key ++ 32 :: value ++ [59] := by simp [directiveText]
  rw [stripSemicolon, hsplit, List.getLast?_concat, if_pos rfl, List.dropLast_concat]

/-! ## Words -/

/-- A word has no blank for `strtok_r` to stop at. -/
theorem Word.unbroken {size : Nat} (w : Word size) : ∀ c ∈ w.text, ¬(c = 32 ∨ c = 9) := by
  rintro c hc (rfl | rfl)
  · exact w.solid hc
  · exact w.notMem (by decide) hc

theorem joinWords_cons {size : Nat} (w w' : Word size) (ws : List (Word size)) :
    joinWords (w :: w' :: ws) = w.text ++ 32 :: joinWords (w' :: ws) := by
  simp [joinWords, List.intercalate_cons_cons]

theorem joinWords_ne_nil {size : Nat} {ws : List (Word size)} (h : ws ≠ []) :
    joinWords ws ≠ [] := by
  cases ws with
  | nil => exact absurd rfl h
  | cons w ws =>
    cases ws with
    | nil => simpa [joinWords] using w.nonempty
    | cons w' ws => simp [joinWords_cons]

theorem shown_joinWords {size : Nat} (ws : List (Word size)) : Shown (joinWords ws) := by
  induction ws with
  | nil => exact ⟨List.forall_mem_nil _, by simp [joinWords], by simp [joinWords]⟩
  | cons w ws ih =>
    cases ws with
    | nil => simpa [joinWords] using w.shown
    | cons w' ws =>
      rw [joinWords_cons]
      refine ⟨?_, ?_, ?_⟩
      · intro c hc
        rcases List.mem_append.1 hc with hc | hc
        · exact w.shown.printable c hc
        · rcases List.mem_cons.1 hc with rfl | hc
          · exact le_refl _
          · exact ih.printable c hc
      · rw [List.head?_append_of_ne_nil _ w.nonempty]
        exact w.starts
      · have hne : joinWords (w' :: ws) ≠ [] := joinWords_ne_nil (by simp)
        obtain ⟨c, t, hcons⟩ := List.exists_cons_of_ne_nil hne
        rw [hcons] at ih ⊢
        rw [List.getLast?_append_of_ne_nil _ (by simp), List.getLast?_cons_cons]
        exact ih.ends

theorem equals_notMem_joinWords {size : Nat} {ws : List (Word size)} (h : ∀ w ∈ ws, 61 ∉ w.text) :
    61 ∉ joinWords ws := by
  induction ws with
  | nil => simp [joinWords]
  | cons w ws ih =>
    have hw := h w (List.mem_cons_self ..)
    cases ws with
    | nil => simpa [joinWords] using hw
    | cons w' ws =>
      rw [joinWords_cons, List.mem_append, List.mem_cons, not_or, not_or]
      exact ⟨hw, by decide, ih fun v hv => h v (List.mem_cons_of_mem _ hv)⟩

/-- The words of a line are its tokens. -/
theorem tokens_joinWords {size : Nat} (ws : List (Word size)) :
    tokens (joinWords ws) = ws.map (·.text) := by
  induction ws with
  | nil => rfl
  | cons w ws ih =>
    have hw : (w.text.splitOnP fun c => decide (c = 32 ∨ c = 9)) = [w.text] :=
      List.splitOnP_eq_singleton fun c hc => by simpa using w.unbroken c hc
    have hone : ([w.text] : List CStr).filter (· ≠ []) = [w.text] := by simp [w.nonempty]
    cases ws with
    | nil =>
      rw [joinWords, List.map_singleton, List.intercalate_singleton, tokens, hw, hone]
    | cons w' ws =>
      rw [joinWords_cons, tokens, List.splitOnP_append_cons _ _ (by decide), List.filter_append, hw,
        hone, ← tokens, ih]
      rfl

/-! ## Directives -/

theorem directiveText_head (h : IsKey key) {d : UInt8} (hd : d < 95 ∨ 122 < d) :
    (directiveText key value).head? ≠ some d := by
  obtain ⟨c, t, rfl⟩ := List.exists_cons_of_ne_nil h.1
  rw [directiveText, List.cons_append, List.head?_cons, Ne, Option.some.injEq]
  rintro rfl
  have hc := h.2 c (List.mem_cons_self ..)
  exact hd.elim (not_lt.2 hc.1) (not_lt.2 hc.2)

theorem directiveText_shown (hkey : IsKey key) (hvalue : Shown value) :
    Shown (directiveText key value) where
  printable := by
    intro c hc
    simp only [directiveText, List.mem_append, List.mem_cons, List.not_mem_nil, or_false] at hc
    rcases hc with hc | rfl | hc | rfl
    · exact hkey.shown.printable c hc
    · decide
    · exact hvalue.printable c hc
    · decide
  starts := directiveText_head hkey (Or.inl (by decide))
  ends := by
    have hsplit : directiveText key value = key ++ 32 :: value ++ [59] := by simp [directiveText]
    rw [hsplit, List.getLast?_concat]
    decide

/-- A line of a block. -/
def blockLine (key value : CStr) : CStr := ascii "    " ++ directiveText key value

theorem lineText_blockLine (hkey : IsKey key) (hvalue : Shown value) :
    lineText (blockLine key value ++ [10]) = directiveText key value := by
  have hblanks : ∀ c ∈ ascii "    ", c = 32 := by decide
  have hnewline : ∀ c ∈ [(10 : UInt8)], c = 10 := by simp
  have h := lineText_line (directiveText_shown hkey hvalue) hblanks (List.forall_mem_nil _) hnewline
  rwa [List.append_nil] at h

theorem newline_notMem_blockLine (hkey : IsKey key) (hvalue : Shown value) :
    10 ∉ blockLine key value := by
  intro h
  rcases List.mem_append.1 h with h | h
  · revert h
    decide
  · exact absurd ((directiveText_shown hkey hvalue).printable 10 h) (by decide)

theorem directiveText_ne_nil : directiveText key value ≠ [] := by simp [directiveText]

/-- A directive in a location block. -/
theorem readLine_location (hkey : IsKey key) (hvalue : Shown value) (loc : Location)
    (caller : Option ServerBlock) (config : LoadedConfig) :
    readLine (blockLine key value ++ [10]) (.location loc caller) config
      = .ok (.location (locationDirective key value loc) caller, config) := by
  rw [readLine, lineText_blockLine hkey hvalue]
  have hskip : ¬(directiveText key value = [] ∨ (directiveText key value).head? = some 35) :=
    not_or.2 ⟨directiveText_ne_nil, directiveText_head hkey (Or.inl (by decide))⟩
  have hopen : (directiveText key value).head? ≠ some 125 :=
    directiveText_head hkey (Or.inr (by decide))
  rw [readLocation, if_neg hskip, if_neg hopen, stripSemicolon_directiveText,
    keyValue_eq (hkey.notMem (by decide)) hkey.shown hvalue]

/-- A directive in a server block. -/
theorem readLine_serverBlock (hkey : IsKey key) (hvalue : Shown value) (hequals : 61 ∉ value)
    (hlocation : startsWith (directiveText key value) (ascii "location") = false)
    (block : ServerBlock) (config : LoadedConfig) :
    readLine (blockLine key value ++ [10]) (.serverBlock block) config
      = .ok (.serverBlock (parseBlockDirective key value block), config) := by
  rw [readLine, lineText_blockLine hkey hvalue]
  have hskip : ¬(directiveText key value = [] ∨ (directiveText key value).head? = some 35) :=
    not_or.2 ⟨directiveText_ne_nil, directiveText_head hkey (Or.inl (by decide))⟩
  have hopen : (directiveText key value).head? ≠ some 125 :=
    directiveText_head hkey (Or.inr (by decide))
  have hno : 61 ∉ key ++ 32 :: value := by
    simp only [List.mem_append, List.mem_cons, not_or]
    exact ⟨hkey.notMem (by decide), by decide, hequals⟩
  have hdirective : directive (key ++ 32 :: value) = some (key, value) := by
    rw [directive, keyValue_eq_none hno, keyValue_eq (hkey.notMem (by decide)) hkey.shown hvalue]
    simp [hkey.1]
  rw [readServerBlock, if_neg hskip, if_neg hopen, if_neg (by simp [hlocation]),
    stripSemicolon_directiveText, hdirective]

/-! ## Reading on -/

/-- What is read of a text when the loader is at its start, whatever follows it. -/
def Reads (text : List UInt8) (reader : Reader) (config : LoadedConfig)
    (result : Loaded (Reader × LoadedConfig)) : Prop :=
  ∀ rest, readLines (fgets 256 (text ++ rest)) reader config
    = result.bind fun (reader, config) => readLines (fgets 256 rest) reader config

theorem reads_nil (reader : Reader) (config : LoadedConfig) :
    Reads [] reader config (.ok (reader, config)) := fun _ => rfl

/-- Nothing is read behind an error. -/
theorem Reads.error {x : List UInt8} {e : Failure} (hx : Reads x reader config (.error e))
    (y : List UInt8) : Reads (x ++ y) reader config (.error e) := by
  intro rest
  rw [List.append_assoc, hx]
  rfl

theorem Reads.trans {x y : List UInt8} {reader' : Reader} {config' : LoadedConfig}
    {result : Loaded (Reader × LoadedConfig)} (hx : Reads x reader config (.ok (reader', config')))
    (hy : Reads y reader' config' result) : Reads (x ++ y) reader config result := by
  intro rest
  rw [List.append_assoc, hx]
  exact hy rest

/-- A line that fits the buffer. -/
theorem reads_line {line : CStr} (hline : 10 ∉ line ∧ line.length ≤ 254) (reader : Reader)
    (config : LoadedConfig) :
    Reads (line ++ [10]) reader config (readLine (line ++ [10]) reader config) := by
  intro rest
  rw [List.append_assoc, List.singleton_append, fgets_line hline.1 (by omega), readLines]

theorem reads_directive {β : Type} {mk : β → Reader} {f : β → β} (hkey : IsKey key)
    (hvalue : Shown value) (hlength : (blockLine key value).length ≤ 254)
    (hread : ∀ b, readLine (blockLine key value ++ [10]) (mk b) config = .ok (mk (f b), config))
    (b : β) : Reads (unlines [blockLine key value]) (mk b) config (.ok (mk (f b), config)) := by
  rw [← hread, unlines, List.flatMap_singleton]
  exact reads_line ⟨newline_notMem_blockLine hkey hvalue, hlength⟩ _ _

/-- A line that can be missing. -/
theorem reads_optional {β : Type} {mk : β → Reader} {f : β → β} (p : Prop) [Decidable p]
    (hkey : IsKey key) (hvalue : Shown value) (hlength : ¬p → (blockLine key value).length ≤ 254)
    (hread : ∀ b, readLine (blockLine key value ++ [10]) (mk b) config = .ok (mk (f b), config))
    (b : β) :
    Reads (unlines (if p then [] else [blockLine key value])) (mk b) config
      (.ok (mk (if p then b else f b), config)) := by
  by_cases hp : p
  · rw [if_pos hp, if_pos hp]
    exact reads_nil _ _
  · rw [if_neg hp, if_neg hp]
    exact reads_directive hkey hvalue (hlength hp) hread b

end MiniWeb.Config
