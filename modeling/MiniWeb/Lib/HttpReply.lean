import MiniWeb.Lib.CText

/-!
# Reading a reply

What an HTTP/1.1 client does with the bytes of a reply: it reads lines up to the first empty one,
takes the length of the body from the `Content-Length` lines, which must agree, and reads that
many bytes. A server that writes lines of its own cannot rely on the client seeing the same
lines, as one written with a line end inside is read as several: `pieces` are the lines the
client sees. `framed_iff` says when the client reads exactly what was sent.
-/

namespace MiniWeb.HttpReply

open CStr

variable {line x : CStr} {lines : List CStr} {s body sent text : List UInt8} {head : Bool}

/-! ## The client -/

/-- The lines before the first empty one, and the bytes behind it. `line` was read of the line
that has not ended. -/
def readLines (line : CStr) : List UInt8 → Option (List CStr × List UInt8)
  | [] => none
  | 13 :: 10 :: s =>
    if line = [] then some ([], s)
    else (readLines [] s).map fun (lines, rest) => (line :: lines, rest)
  | c :: s => readLines (line ++ [c]) s

def lowerByte (c : UInt8) : UInt8 := if 65 ≤ c ∧ c ≤ 90 then c + 32 else c

/-- The number in a `Content-Length` line. -/
def contentLengthOf (line : CStr) : Option Nat :=
  if (ascii "content-length:").isPrefixOf (line.map lowerByte) then
    some (digits ((line.drop 15).dropWhile isSpace))
  else none

/-- The length the header lines declare: all lines that declare one must agree. -/
def declaredLength (lines : List CStr) : Option Nat :=
  match lines.filterMap contentLengthOf with
  | [] => none
  | n :: ns => if ns.all (· = n) then some n else none

/-- The body of a reply and the bytes behind it. The reply to a `HEAD` request has no body. -/
def readReply (head : Bool) (bytes : List UInt8) : Option (List UInt8 × List UInt8) :=
  match readLines [] bytes with
  | none => none
  | some (lines, s) =>
    match declaredLength lines with
    | none => none
    | some n =>
      if head then some ([], s)
      else if s.length < n then none
      else some (s.take n, s.drop n)

/-- The client reads all that was sent, and the body it reads is the text. -/
def Framed (head : Bool) (bytes text : List UInt8) : Prop :=
  readReply head bytes = some (if head then [] else text, [])

/-! ## Lines as written and lines as read -/

/-- Lines with their ends, and the empty line. -/
def headerText (lines : List CStr) : List UInt8 := lines.flatMap (· ++ crlf) ++ crlf

/-- The lines a text is read as, the last one still without its end. -/
def piecesFrom (line : CStr) : List UInt8 → List CStr
  | [] => [line]
  | 13 :: 10 :: s => line :: piecesFrom [] s
  | c :: s => piecesFrom (line ++ [c]) s

def pieces (s : CStr) : List CStr := piecesFrom [] s

theorem readLines_cons {c : UInt8} (h : c ≠ 13 ∨ s.head? ≠ some 10) :
    readLines line (c :: s) = readLines (line ++ [c]) s := by
  rw [readLines]
  rintro s' rfl rfl
  rcases h with h | h
  · exact h rfl
  · exact h rfl

theorem piecesFrom_cons {c : UInt8} (h : c ≠ 13 ∨ s.head? ≠ some 10) :
    piecesFrom line (c :: s) = piecesFrom (line ++ [c]) s := by
  rw [piecesFrom]
  rintro s' rfl rfl
  rcases h with h | h
  · exact h rfl
  · exact h rfl

/-- A text without `\r` is one line. -/
theorem piecesFrom_line (hs : 13 ∉ s) : piecesFrom line s = [line ++ s] := by
  induction s generalizing line with
  | nil => rw [piecesFrom, List.append_nil]
  | cons c s ih =>
    have hc : c ≠ 13 := fun h => hs (h ▸ List.mem_cons_self ..)
    rw [piecesFrom_cons (Or.inl hc), ih fun h => hs (List.mem_cons_of_mem _ h),
      List.append_assoc, List.singleton_append]

theorem pieces_line (hs : 13 ∉ s) : pieces s = [s] := piecesFrom_line hs

/-- The bytes at the head are no line end. -/
theorem cons_not_crlf {c : UInt8} (hcs : ∀ s', c = 13 → s = 10 :: s' → False) :
    c ≠ 13 ∨ s.head? ≠ some 10 := by
  by_contra hcon
  simp only [not_or, not_not] at hcon
  obtain ⟨hc, hs⟩ := hcon
  cases s with
  | nil => simp at hs
  | cons d s =>
    simp only [List.head?_cons, Option.some.injEq] at hs
    exact hcs s hc (by rw [hs])

theorem not_crlf_append {c : UInt8} (hc : c ≠ 13 ∨ s.head? ≠ some 10) :
    c ≠ 13 ∨ (s ++ (crlf ++ x)).head? ≠ some 10 := by
  rcases hc with hc | hc
  · exact Or.inl hc
  · right
    cases s with
    | nil => simp [crlf]
    | cons d s => simpa using hc

/-- The lines read are those of the first text, then those of what follows its line end. -/
theorem readLines_append (h : [] ∉ piecesFrom line s) :
    readLines line (s ++ (crlf ++ x))
      = (readLines [] x).map fun (lines, rest) => (piecesFrom line s ++ lines, rest) := by
  induction line, s using piecesFrom.induct with
  | case1 line =>
    have hline : line ≠ [] := by
      intro h0
      exact h (by simp [piecesFrom, h0])
    simp [crlf, readLines, piecesFrom, hline]
  | case2 line s ih =>
    rw [piecesFrom, List.mem_cons, not_or] at h
    have hline : line ≠ [] := fun h0 => h.1 h0.symm
    rw [List.cons_append, List.cons_append, readLines, if_neg hline, ih h.2, piecesFrom,
      Option.map_map]
    rfl
  | case3 line c s hcs ih =>
    have hc := cons_not_crlf hcs
    rw [piecesFrom_cons hc] at h ⊢
    rw [List.cons_append, readLines_cons (not_crlf_append hc), ih h]

/-- An empty line in the text ends the header there or behind the text. -/
theorem readLines_append_empty (h : [] ∈ piecesFrom line s) :
    ∃ lines rest, readLines line (s ++ (crlf ++ x)) = some (lines, rest ++ x) := by
  induction line, s using piecesFrom.induct with
  | case1 line =>
    have hline : line = [] := by simpa [piecesFrom, eq_comm] using h
    exact ⟨[], [], by simp [crlf, readLines, hline]⟩
  | case2 line s ih =>
    rw [List.cons_append, List.cons_append, readLines]
    by_cases hline : line = []
    · exact ⟨[], s ++ crlf, by simp [hline]⟩
    · have hs : [] ∈ piecesFrom [] s := by
        rw [piecesFrom, List.mem_cons] at h
        exact h.resolve_left fun h0 => hline h0.symm
      obtain ⟨lines, rest, hread⟩ := ih hs
      exact ⟨line :: lines, rest, by rw [if_neg hline, hread, Option.map_some]⟩
  | case3 line c s hcs ih =>
    have hc := cons_not_crlf hcs
    rw [piecesFrom_cons hc] at h
    rw [List.cons_append, readLines_cons (not_crlf_append hc)]
    exact ih h

theorem readLines_headerText (h : ∀ l ∈ lines, [] ∉ pieces l) :
    readLines [] (headerText lines ++ body) = some (lines.flatMap pieces, body) := by
  induction lines with
  | nil => simp [headerText, crlf, readLines]
  | cons l lines ih =>
    have hsplit : headerText (l :: lines) ++ body = l ++ (crlf ++ (headerText lines ++ body)) := by
      simp [headerText]
    rw [hsplit, readLines_append (h l (List.mem_cons_self ..)),
      ih fun m hm => h m (List.mem_cons_of_mem _ hm)]
    rfl

/-- A line that is read as an empty one ends the header before its end. -/
theorem readLines_headerText_empty (h : ∃ l ∈ lines, [] ∈ pieces l) (body : CStr) :
    ∃ read rest,
      readLines [] (headerText lines ++ body) = some (read, rest ++ body) ∧ rest ≠ [] := by
  induction lines with
  | nil => simp at h
  | cons l lines ih =>
    have hsplit : headerText (l :: lines) ++ body = l ++ (crlf ++ (headerText lines ++ body)) := by
      simp [headerText]
    rw [hsplit]
    by_cases hl : [] ∈ pieces l
    · obtain ⟨read, rest, hread⟩ := readLines_append_empty (x := headerText lines ++ body) hl
      refine ⟨read, rest ++ headerText lines, ?_, ?_⟩
      · rw [List.append_assoc]
        exact hread
      · simp [headerText, crlf]
    · have hlines : ∃ m ∈ lines, [] ∈ pieces m := by
        obtain ⟨m, hm, hnil⟩ := h
        rcases List.mem_cons.1 hm with rfl | hm
        · exact absurd hnil hl
        · exact ⟨m, hm, hnil⟩
      obtain ⟨read, rest, hread, hrest⟩ := ih hlines
      refine ⟨pieces l ++ read, rest, ?_, hrest⟩
      rw [readLines_append hl, hread]
      rfl

/-! ## Framing -/

theorem readReply_of_read {bytes : List UInt8} (h : readLines [] bytes = some (lines, s)) :
    readReply head bytes = match declaredLength lines with
      | none => none
      | some n =>
        if head then some ([], s)
        else if s.length < n then none
        else some (s.take n, s.drop n) := by
  unfold readReply
  rw [h]

/-- A reply is framed where the lines the client sees declare a length, and, but for `HEAD`, it is
the length of the bytes behind the header and these are the text; for `HEAD` there are none. -/
theorem framed_iff (h : ∀ l ∈ lines, [] ∉ pieces l) :
    Framed head (headerText lines ++ sent) text ↔
      ∃ n, declaredLength (lines.flatMap pieces) = some n ∧
        if head then sent = [] else n = sent.length ∧ sent = text := by
  rw [Framed, readReply_of_read (readLines_headerText h)]
  cases declaredLength (lines.flatMap pieces) with
  | none => simp
  | some n =>
    cases head with
    | true => simp
    | false =>
      simp only [Bool.false_eq_true, if_false, Option.some.injEq, exists_eq_left']
      by_cases hlen : sent.length < n
      · simp only [if_pos hlen, reduceCtorEq, false_iff, not_and]
        intro hn
        omega
      · rw [if_neg hlen, Option.some.injEq, Prod.mk.injEq, List.drop_eq_nil_iff]
        constructor
        · rintro ⟨htext, hn⟩
          have heq : n = sent.length := by omega
          rw [heq, List.take_length] at htext
          exact ⟨heq, htext⟩
        · rintro ⟨rfl, rfl⟩
          exact ⟨List.take_length, le_refl _⟩

/-- A reply whose header ends early is not framed when all of the text is sent. -/
theorem not_framed_of_empty (h : ∃ l ∈ lines, [] ∈ pieces l) (hsent : text.length ≤ sent.length) :
    ¬Framed head (headerText lines ++ sent) text := by
  obtain ⟨read, rest, hread, hrest⟩ := readLines_headerText_empty h sent
  have hpos : 0 < rest.length := List.length_pos_iff.2 hrest
  rw [Framed, readReply_of_read hread]
  cases declaredLength read with
  | none => simp
  | some n =>
    cases head with
    | true => simp [hrest]
    | false =>
      simp only [Bool.false_eq_true, if_false]
      by_cases hlen : (rest ++ sent).length < n
      · rw [if_pos hlen]
        simp
      · rw [if_neg hlen, Option.some.injEq, Prod.mk.injEq, List.drop_eq_nil_iff]
        rintro ⟨htext, hn⟩
        have := congrArg List.length htext
        rw [List.length_take] at this
        rw [List.length_append] at this hn hlen
        omega

/-! ## Declared lengths -/

theorem declaredLength_eq_some_iff {n : Nat} : declaredLength lines = some n ↔
    (∃ l ∈ lines, contentLengthOf l = some n) ∧
      ∀ l ∈ lines, ∀ k ∈ contentLengthOf l, k = n := by
  unfold declaredLength
  cases hvals : lines.filterMap contentLengthOf with
  | nil =>
    rw [List.filterMap_eq_nil_iff] at hvals
    simp only [reduceCtorEq, false_iff, not_and]
    rintro ⟨l, hl, hn⟩
    rw [hvals l hl] at hn
    exact absurd hn (by simp)
  | cons k ks =>
    have hmem : ∀ v, v ∈ k :: ks ↔ ∃ l ∈ lines, contentLengthOf l = some v := by
      intro v
      rw [← hvals, List.mem_filterMap]
    have hall : (∀ l ∈ lines, ∀ v ∈ contentLengthOf l, v = n) ↔ ∀ v ∈ k :: ks, v = n := by
      constructor
      · intro h v hv
        obtain ⟨l, hl, hlv⟩ := (hmem v).1 hv
        exact h l hl v hlv
      · intro h l hl v hv
        exact h v ((hmem v).2 ⟨l, hl, hv⟩)
    rw [hall, ← hmem]
    simp only
    by_cases hks : ks.all (· = k) = true
    · rw [if_pos hks, Option.some.injEq]
      constructor
      · rintro rfl
        refine ⟨List.mem_cons_self .., ?_⟩
        intro v hv
        rcases List.mem_cons.1 hv with rfl | hv
        · rfl
        · simpa using List.all_eq_true.1 hks v hv
      · rintro ⟨-, h⟩
        exact h k (List.mem_cons_self ..)
    · rw [if_neg hks]
      simp only [reduceCtorEq, false_iff, not_and]
      intro _ h
      apply hks
      rw [List.all_eq_true]
      intro v hv
      rw [h v (List.mem_cons_of_mem _ hv), h k (List.mem_cons_self ..)]
      exact decide_eq_true rfl

end MiniWeb.HttpReply
