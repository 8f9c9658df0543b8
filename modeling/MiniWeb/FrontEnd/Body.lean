import MiniWeb.FrontEnd.Parse

/-!
# Stripping the body leaves the headers

`extract_body` writes NULs into the receive buffer before the header scans run over it. The bytes
it overwrites are the `\r` and `\n` at the end of the text. No scan finds more or less for it and
every value is the same, so the headers `request_handler_handle_connection` reads are those of
the bytes received.
-/

namespace MiniWeb.FrontEnd

open CStr Search

/-- The end of the text `extract_body` overwrites: `a` is kept, `z` becomes NULs, and behind it
the buffer ends or goes on with a NUL. -/
structure Stripped (a z r : List UInt8) : Prop where
  text : 0 ∉ a
  crLf : ∀ c ∈ z, isCrLf c = true
  rest : ∀ d ∈ r.head?, d = 0

variable {a z r : List UInt8}

theorem not_inLine_of_isCrLf {c : UInt8} (h : isCrLf c = true) : inLine c = false := by
  simp only [isCrLf, decide_eq_true_eq] at h
  rcases h with h | h <;> subst h <;> decide

theorem isSpace_of_isCrLf {c : UInt8} (h : isCrLf c = true) : isSpace c = true := by
  simp only [isCrLf, decide_eq_true_eq] at h
  rcases h with h | h <;> subst h <;> decide

theorem ne_zero_of_isCrLf {c : UInt8} (h : isCrLf c = true) : c ≠ 0 := by
  intro h0
  subst h0
  exact absurd h (by decide)

/-- What `extract_body` does to the buffer. -/
theorem extractBody_split (raw : List UInt8) :
    ∃ a z r, Stripped a z r ∧ raw = a ++ z ++ r ∧
      (extractBody raw).2 = a ++ List.replicate z.length 0 ++ r := by
  have htext := notMem_ofBuffer raw
  have hsplit : ofBuffer raw ++ raw.dropWhile (· ≠ 0) = raw := List.takeWhile_append_dropWhile
  have hdrop : raw.drop (ofBuffer raw).length = raw.dropWhile (· ≠ 0) := by
    have h : (ofBuffer raw ++ raw.dropWhile (· ≠ 0)).drop (ofBuffer raw).length
        = raw.dropWhile (· ≠ 0) := List.drop_left
    rwa [hsplit] at h
  have hrest : ∀ d ∈ (raw.dropWhile (· ≠ 0)).head?, d = 0 := by
    intro d hd
    have := List.head?_dropWhile_not (· ≠ (0 : UInt8)) raw
    rw [Option.mem_def.1 hd] at this
    simpa using this
  unfold extractBody
  cases hb : bodyStart raw with
  | none =>
    refine ⟨ofBuffer raw, [], _, ⟨htext, by simp, hrest⟩, ?_, ?_⟩
    · rw [List.append_nil, hsplit]
    · show raw = _
      rw [List.length_nil, List.replicate_zero, List.append_nil, hsplit]
  | some body =>
    -- the text is `pre ++ body`, and `body` its stripped part and the bytes overwritten
    obtain ⟨pre, hpre⟩ : body <:+ ofBuffer raw := by
      rw [bodyStart, Option.map_eq_some_iff] at hb
      obtain ⟨s, hs, rfl⟩ := hb
      rw [strstr_eq_first? (by decide)] at hs
      exact (List.drop_suffix 4 s).trans (first?_spec hs).1
    have hbody : stripCrLf body ++ body.rtakeWhile isCrLf = body :=
      List.rdropWhile_append_rtakeWhile
    have hlen : body.length - (stripCrLf body).length = (body.rtakeWhile isCrLf).length := by
      have := congrArg List.length hbody
      rw [List.length_append] at this
      omega
    have htake : raw.take ((ofBuffer raw).length - (body.rtakeWhile isCrLf).length)
        = pre ++ stripCrLf body := by
      have hraw : raw = (pre ++ stripCrLf body)
          ++ (body.rtakeWhile isCrLf ++ raw.dropWhile (· ≠ 0)) := by
        rw [List.append_assoc, ← List.append_assoc (stripCrLf body), hbody,
          ← List.append_assoc, hpre, hsplit]
      have hk : (ofBuffer raw).length - (body.rtakeWhile isCrLf).length
          = (pre ++ stripCrLf body).length := by
        have h₁ := congrArg List.length hpre
        have h₂ := congrArg List.length hbody
        rw [List.length_append] at h₁ h₂ ⊢
        omega
      rw [hk, hraw]
      exact List.take_left
    refine ⟨pre ++ stripCrLf body, body.rtakeWhile isCrLf, raw.dropWhile (· ≠ 0),
      ⟨?_, fun c hc => List.mem_rtakeWhile_imp hc, hrest⟩, ?_, ?_⟩
    · intro h
      apply htext
      rw [← hpre, ← hbody, ← List.append_assoc]
      exact List.mem_append_left _ h
    · rw [List.append_assoc pre, hbody, hpre, hsplit]
    · simp only [hlen, htake, hdrop]

/-! ## The byte loops -/

section Loops

variable {β : Type*} {f : List UInt8 → β} {pat : List (List UInt8)} {m k : Nat}

/-- The values behind a match in the part that is kept. -/
theorem Stripped.drop_value (h : Stripped a z r)
    (hf : ∀ w, 0 ∉ w → f (w ++ z ++ r) = f (w ++ List.replicate z.length 0 ++ r)) {v : List UInt8}
    (hv : v <:+ a) (hk : k ≤ v.length) :
    f ((v ++ z ++ r).drop k) = f ((v ++ List.replicate z.length 0 ++ r).drop k) := by
  rw [List.append_assoc, List.append_assoc, List.drop_append_of_le_length hk,
    List.drop_append_of_le_length hk, ← List.append_assoc, ← List.append_assoc]
  apply hf
  intro h0
  exact h.text (hv.subset (List.mem_of_mem_drop h0))

theorem Stripped.fences (h : Stripped a z r) (hpat : LinePattern pat) :
    ∀ d ∈ z, ∀ cls ∈ pat.tail, d ∉ cls :=
  fun d hd => hpat.fence (not_inLine_of_isCrLf (h.crLf d hd))

theorem Stripped.rest_fence (h : Stripped a z r) (hpat : LinePattern pat) :
    ∀ d ∈ r.head?, ∀ cls ∈ pat.tail, d ∉ cls := by
  intro d hd
  rw [h.rest d hd]
  exact hpat.fence (by decide)

theorem zeros_fences (hpat : LinePattern pat) (n : Nat) :
    ∀ d ∈ List.replicate n (0 : UInt8), ∀ cls ∈ pat.tail, d ∉ cls := by
  intro d hd
  rw [List.eq_of_mem_replicate hd]
  exact hpat.fence (by decide)

theorem Stripped.map_last? (h : Stripped a z r) (hpat : LinePattern pat)
    (hm : m ≤ pat.length + 1) (hk : k ≤ pat.length)
    (hf : ∀ w, 0 ∉ w → f (w ++ z ++ r) = f (w ++ List.replicate z.length 0 ++ r)) :
    (last? pat m (a ++ z ++ r)).map (fun p => f (p.drop k))
      = (last? pat m (a ++ List.replicate z.length 0 ++ r)).map fun p => f (p.drop k) := by
  cases z with
  | nil => simp
  | cons d z =>
    have hz : last? pat m (d :: (z ++ r)) = last? pat m r :=
      last?_fences hpat.long (h.fences hpat) (h.rest_fence hpat)
    have h0 : last? pat m (0 :: (List.replicate z.length 0 ++ r)) = last? pat m r :=
      last?_fences hpat.long (zeros_fences hpat (z.length + 1)) (h.rest_fence hpat)
    have hm' : ∀ (d : UInt8) (y : List UInt8), m ≤ pat.length + (d :: y).length := by
      intro d y
      rw [List.length_cons]
      omega
    have hd := hpat.fence (not_inLine_of_isCrLf (h.crLf d (List.mem_cons_self ..)))
    simp only [List.length_cons, List.replicate_succ, List.append_assoc, List.cons_append]
    rw [last?_append hpat.ne_nil hd (hm' ..),
      last?_append hpat.ne_nil (hpat.fence (by decide)) (hm' ..), hz, h0]
    cases last? pat m r with
    | some p => rfl
    | none =>
      cases hv : last? pat 0 a with
      | none => rfl
      | some v =>
        obtain ⟨hva, hvm⟩ := last?_spec hv
        have hvalue := h.drop_value hf hva (hk.trans (length_of_matchesAt hvm))
        simp only [List.length_cons, List.replicate_succ, List.append_assoc, List.cons_append]
          at hvalue
        exact congrArg some hvalue

theorem Stripped.map_first? (h : Stripped a z r) (hpat : LinePattern pat)
    (hm : m ≤ pat.length + 1) (hk : k ≤ pat.length)
    (hf : ∀ w, 0 ∉ w → f (w ++ z ++ r) = f (w ++ List.replicate z.length 0 ++ r)) :
    (first? pat m (a ++ z ++ r)).map (fun p => f (p.drop k))
      = (first? pat m (a ++ List.replicate z.length 0 ++ r)).map fun p => f (p.drop k) := by
  cases z with
  | nil => simp
  | cons d z =>
    have hz : first? pat m (d :: (z ++ r)) = first? pat m r :=
      first?_fences hpat.long (h.fences hpat) (h.rest_fence hpat)
    have h0 : first? pat m (0 :: (List.replicate z.length 0 ++ r)) = first? pat m r :=
      first?_fences hpat.long (zeros_fences hpat (z.length + 1)) (h.rest_fence hpat)
    have hm' : ∀ (d : UInt8) (y : List UInt8), m ≤ pat.length + (d :: y).length := by
      intro d y
      rw [List.length_cons]
      omega
    have hd := hpat.fence (not_inLine_of_isCrLf (h.crLf d (List.mem_cons_self ..)))
    simp only [List.length_cons, List.replicate_succ, List.append_assoc, List.cons_append]
    rw [first?_append hpat.ne_nil hd (hm' ..),
      first?_append hpat.ne_nil (hpat.fence (by decide)) (hm' ..), hz, h0]
    cases hv : first? pat 0 a with
    | none => rfl
    | some v =>
      obtain ⟨hva, hvm⟩ := first?_spec hv
      have hvalue := h.drop_value hf hva (hk.trans (length_of_matchesAt hvm))
      simp only [List.length_cons, List.replicate_succ, List.append_assoc, List.cons_append]
        at hvalue
      exact congrArg some hvalue

end Loops

/-- A value ends at the stripped bytes as it does at the NULs. -/
theorem Stripped.lineValue (h : Stripped a z r) (size : Nat) (w : List UInt8) :
    lineValue size (w ++ z ++ r) = lineValue size (w ++ List.replicate z.length 0 ++ r) := by
  cases z with
  | nil => simp
  | cons d z =>
    have hd := not_inLine_of_isCrLf (h.crLf d (List.mem_cons_self ..))
    simp only [List.length_cons, List.replicate_succ, List.append_assoc, List.cons_append]
    rw [lineValue_append hd, lineValue_append (by decide)]

/-! ## The text -/

/-- The text before the stripping. -/
theorem Stripped.ofBuffer_eq (h : Stripped a z r) : ofBuffer (a ++ z ++ r) = a ++ z := by
  have htext : ∀ c ∈ a ++ z, decide (c ≠ 0) = true := by
    intro c hc
    rw [decide_eq_true_eq]
    rcases List.mem_append.1 hc with hc | hc
    · intro h0
      exact h.text (h0 ▸ hc)
    · exact ne_zero_of_isCrLf (h.crLf c hc)
  rw [ofBuffer, List.takeWhile_append_of_pos htext]
  cases hr : r with
  | nil => simp
  | cons d r' =>
    have hd : d = 0 := h.rest d (by simp [hr])
    simp [hd]

theorem Stripped.zeros (h : Stripped a z r) :
    Stripped a [] (List.replicate z.length 0 ++ r) where
  text := h.text
  crLf := by simp
  rest := by
    intro d hd
    cases z with
    | nil => exact h.rest d hd
    | cons c z => simpa [List.replicate_succ, eq_comm] using hd

/-- The text after the stripping. -/
theorem Stripped.ofBuffer_zeros (h : Stripped a z r) :
    ofBuffer (a ++ List.replicate z.length 0 ++ r) = a := by
  have := h.zeros.ofBuffer_eq
  rwa [List.append_nil, ← List.append_assoc] at this

/-- No search finds the stripped bytes. -/
theorem Stripped.strstr (h : Stripped a z r) {lit : CStr} (hlit : lit.length ≠ 0)
    (hin : ∀ c ∈ lit, inLine c = true) : strstr (a ++ z) lit = (strstr a lit).map (· ++ z) := by
  have hne : lit ≠ [] := fun h => hlit (by rw [h]; rfl)
  have hnot : ∀ d ∈ z, d ∉ lit := by
    intro d hd hmem
    have := not_inLine_of_isCrLf (h.crLf d hd)
    rw [hin d hmem] at this
    exact absurd this (by decide)
  have hz : ∀ x, (∀ d ∈ x, d ∉ lit) → CStr.strstr x lit = none := by
    intro x hx
    induction x with
    | nil => simp [CStr.strstr, hne]
    | cons d x ih =>
      rw [strstr_cons hne (hx d (List.mem_cons_self ..))]
      exact ih fun d hd => hx d (List.mem_cons_of_mem _ hd)
  cases z with
  | nil => simp
  | cons d z =>
    rw [strstr_append hne fun hd => hnot d (List.mem_cons_self ..) (List.mem_of_mem_tail hd),
      hz _ hnot, Option.or_none]

/-- The answers of two searches, with the stripped bytes behind them. -/
theorem Stripped.searches (h : Stripped a z r) {lit lit' : CStr} {k : Nat} (hk : k ≠ 0)
    (hlit : lit.length = k) (hlit' : lit'.length = k) (hin : ∀ c ∈ lit, inLine c = true)
    (hin' : ∀ c ∈ lit', inLine c = true) :
    ((CStr.strstr (a ++ z) lit).or (CStr.strstr (a ++ z) lit')).map (·.drop k)
      = (((CStr.strstr a lit).or (CStr.strstr a lit')).map (·.drop k)).map (· ++ z) := by
  rw [h.strstr (hlit ▸ hk) hin, h.strstr (hlit' ▸ hk) hin']
  have hlong : ∀ lit : CStr, lit.length = k → ∀ v, CStr.strstr a lit = some v →
      (v ++ z).drop k = v.drop k ++ z := by
    intro lit hlit v hv
    have hne : lit ≠ [] := by
      intro h
      rw [h] at hlit
      exact hk hlit.symm
    have hlen := (strstr_spec hne hv).2.length_le
    rw [hlit] at hlen
    exact List.drop_append_of_le_length hlen
  cases hv : CStr.strstr a lit with
  | some v => exact congrArg some (hlong lit hlit v hv)
  | none =>
    cases hv' : CStr.strstr a lit' with
    | some v => exact congrArg some (hlong lit' hlit' v hv')
    | none => rfl

/-! ## The headers -/

variable (raw : List UInt8)

theorem contentType_extractBody : contentType (extractBody raw).2 = contentType raw := by
  obtain ⟨a, z, r, h, hraw, hbuf⟩ := extractBody_split raw
  rw [contentType_eq, contentType_eq, hbuf, hraw]
  have hvalue := h.map_last? (f := fun p => trimEnd (FrontEnd.lineValue 64 p)) (m := 15) (k := 14)
    linePattern_contentType (by decide) (by decide) fun w _ => congrArg trimEnd (h.lineValue 64 w)
  exact (congrArg (·.getD []) hvalue).symm

theorem contentLengthHdr_extractBody :
    contentLengthHdr (extractBody raw).2 = contentLengthHdr raw := by
  obtain ⟨a, z, r, h, hraw, hbuf⟩ := extractBody_split raw
  rw [contentLengthHdr_eq, contentLengthHdr_eq, hbuf, hraw]
  have hnumber : ∀ w, 0 ∉ w → max (atoi (ofBuffer (w ++ z ++ r))) 0
      = max (atoi (ofBuffer (w ++ List.replicate z.length 0 ++ r))) 0 := by
    intro w hw
    have hstripped : Stripped w z r := ⟨hw, h.crLf, h.rest⟩
    rw [hstripped.ofBuffer_eq, hstripped.ofBuffer_zeros, atoi_append_space]
    exact List.all_eq_true.2 fun c hc => isSpace_of_isCrLf (h.crLf c hc)
  have hvalue := h.map_last? (f := fun p => max (atoi (ofBuffer p)) 0) (m := 15) (k := 16)
    linePattern_contentLength (by decide) (by decide) hnumber
  exact (congrArg (·.getD (-1)) hvalue).symm

theorem hostBuf_extractBody : hostBuf (extractBody raw).2 = hostBuf raw := by
  obtain ⟨a, z, r, h, hraw, hbuf⟩ := extractBody_split raw
  rw [hostBuf_eq, hostBuf_eq, hbuf, hraw]
  have hvalue := h.map_first? (m := 7) (k := 6)
    (f := fun p => (trimEnd (FrontEnd.lineValue 256 p)).takeWhile (· ≠ 58)) linePattern_host
    (by decide) (by decide) fun w _ => by rw [h.lineValue]
  exact (congrArg (·.getD []) hvalue).symm

theorem Stripped.lineValue_text (h : Stripped a z r) (size : Nat) (w : List UInt8) :
    FrontEnd.lineValue size (w ++ z) = FrontEnd.lineValue size w := by
  cases z with
  | nil => rw [List.append_nil]
  | cons d z => exact lineValue_append (not_inLine_of_isCrLf (h.crLf d (List.mem_cons_self ..)))

theorem cookie_extractBody : cookie (extractBody raw).2 = cookie raw := by
  obtain ⟨a, z, r, h, hraw, hbuf⟩ := extractBody_split raw
  rw [cookie, cookie, cookieStart, cookieStart, hbuf, hraw, h.ofBuffer_eq, h.ofBuffer_zeros,
    h.searches (by decide) (by decide) (by decide) (by decide) (by decide)]
  cases ((CStr.strstr a (ascii "Cookie:")).or (CStr.strstr a (ascii "cookie:"))).map (·.drop 7) with
  | none => rfl
  | some v => exact (h.lineValue_text 512 v).symm

theorem authorization_extractBody : authorization (extractBody raw).2 = authorization raw := by
  obtain ⟨a, z, r, h, hraw, hbuf⟩ := extractBody_split raw
  rw [authorization, authorization, authorizationStart, authorizationStart, hbuf, hraw,
    h.ofBuffer_eq, h.ofBuffer_zeros,
    h.searches (by decide) (by decide) (by decide) (by decide) (by decide)]
  cases ((CStr.strstr a (ascii "Authorization:")).or
    (CStr.strstr a (ascii "authorization:"))).map (·.drop 14) with
  | none => rfl
  | some v => exact congrArg trimEnd (h.lineValue_text 256 v).symm

end MiniWeb.FrontEnd
