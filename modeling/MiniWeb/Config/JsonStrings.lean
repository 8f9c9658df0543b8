import MiniWeb.Config.Json

/-!
# Reading strings

What the loop of `json_get_string` makes of a text: parts that are read one after the other each
stand for bytes of the value, and a quote behind the last part ends the string. A text with its
quotes, backslashes, newlines and tabs escaped is read back.
-/

namespace MiniWeb.Config

open CStr

variable {p sep ws s text value text' value' : CStr} {c : UInt8} {room n : Nat}

/-! ## White space -/

theorem jsonSkipWs_cons (h : isJsonSpace c = false) : jsonSkipWs (c :: p) = c :: p :=
  List.dropWhile_cons_of_neg (by simp [h])

theorem jsonSkipWs_append (h : ∀ c ∈ sep, isJsonSpace c = true) :
    jsonSkipWs (sep ++ p) = jsonSkipWs p :=
  List.dropWhile_append_of_pos h

theorem jsonGetString_append (h : ∀ c ∈ ws, isJsonSpace c = true) :
    jsonGetString (ws ++ p) n = jsonGetString p n := by
  rw [jsonGetString, jsonGetString, jsonSkipWs_append h]

/-! ## Parts of a string -/

theorem jsonChars_plain (h34 : c ≠ 34) (h92 : c ≠ 92) (room : Nat) (p : CStr) :
    jsonChars (room + 1) (c :: p) = (c :: (jsonChars room p).1, (jsonChars room p).2) := by
  rw [jsonChars]
  · exact fun h => h34 h
  · exact fun e q h _ => h92 h

theorem jsonChars_escape (room : Nat) (e : UInt8) (p : CStr) :
    jsonChars (room + 1) (92 :: e :: p) =
      (unescape e :: (jsonChars room p).1, (jsonChars room p).2) := by
  rw [jsonChars]

/-- The text is read as the value if there is room for it, whatever follows. -/
def ReadsAs (text value : CStr) : Prop :=
  ∀ room p, jsonChars (room + value.length) (text ++ p) =
    (value ++ (jsonChars room p).1, (jsonChars room p).2)

theorem readsAs_nil : ReadsAs [] [] := fun _ _ => rfl

theorem readsAs_plain (h34 : c ≠ 34) (h92 : c ≠ 92) : ReadsAs [c] [c] :=
  fun room p => jsonChars_plain h34 h92 room p

theorem readsAs_escape (e : UInt8) : ReadsAs [92, e] [unescape e] :=
  fun room p => jsonChars_escape room e p

theorem ReadsAs.append (h : ReadsAs text value) (h' : ReadsAs text' value') :
    ReadsAs (text ++ text') (value ++ value') := by
  intro room p
  have hroom : room + (value ++ value').length = room + value'.length + value.length := by
    rw [List.length_append]
    omega
  rw [hroom, List.append_assoc, h, h', List.append_assoc]

theorem ReadsAs.flatMap {α : Type} {xs : List α} {text value : α → CStr}
    (h : ∀ x ∈ xs, ReadsAs (text x) (value x)) : ReadsAs (xs.flatMap text) (xs.flatMap value) := by
  induction xs with
  | nil => exact readsAs_nil
  | cons x xs ih =>
    rw [List.flatMap_cons, List.flatMap_cons]
    exact (h x List.mem_cons_self).append (ih fun y hy => h y (List.mem_cons_of_mem _ hy))

/-- Byte by byte. -/
theorem readsAs_bytes {text : UInt8 → CStr} (h : ∀ c ∈ s, ReadsAs (text c) [c]) :
    ReadsAs (s.flatMap text) s := by
  have hbytes := ReadsAs.flatMap h
  rwa [List.flatMap_singleton'] at hbytes

/-! ## Whole strings -/

theorem jsonChars_close (room : Nat) (p : CStr) : jsonChars room (34 :: p) = ([], 34 :: p) := by
  cases room with
  | zero => rfl
  | succ room => rfl

/-- A text that is read as a value is read up to the quote behind it, also if there is room for no
more than the value. -/
theorem ReadsAs.jsonGetString (h : ReadsAs text value) (hlen : value.length < n) (rest : CStr) :
    jsonGetString (34 :: (text ++ 34 :: rest)) n = some (value, rest) := by
  obtain ⟨room, hroom⟩ : ∃ room, n - 1 = room + value.length :=
    ⟨n - 1 - value.length, by omega⟩
  have hchars : jsonChars (n - 1) (text ++ 34 :: rest) = (value, 34 :: rest) := by
    rw [hroom, h, jsonChars_close, List.append_nil]
  rw [Config.jsonGetString, jsonSkipWs_cons (by decide)]
  simp [hchars]

/-! ## Escaping -/

/-- Quote, backslash, newline and tab behind a backslash. -/
def jsonEscapeByte (c : UInt8) : CStr :=
  if c = 34 then [92, 34]
  else if c = 92 then [92, 92]
  else if c = 10 then [92, 110]
  else if c = 9 then [92, 116]
  else [c]

def jsonEscape (s : CStr) : CStr := s.flatMap jsonEscapeByte

theorem readsAs_jsonEscapeByte (c : UInt8) : ReadsAs (jsonEscapeByte c) [c] := by
  rw [jsonEscapeByte]
  by_cases h34 : c = 34
  · rw [if_pos h34, h34]
    exact readsAs_escape 34
  rw [if_neg h34]
  by_cases h92 : c = 92
  · rw [if_pos h92, h92]
    exact readsAs_escape 92
  rw [if_neg h92]
  by_cases h10 : c = 10
  · rw [if_pos h10, h10]
    exact readsAs_escape 110
  rw [if_neg h10]
  by_cases h9 : c = 9
  · rw [if_pos h9, h9]
    exact readsAs_escape 116
  rw [if_neg h9]
  exact readsAs_plain h34 h92

/-- **Round trip.** A string is read back from its escaped text. -/
theorem jsonGetString_jsonEscape {ws : CStr} (hws : ∀ c ∈ ws, isJsonSpace c = true) {s : CStr}
    {dstSize : Nat} (hlen : s.length < dstSize) (rest : CStr) :
    jsonGetString (ws ++ 34 :: (jsonEscape s ++ 34 :: rest)) dstSize = some (s, rest) := by
  have hreads : ReadsAs (jsonEscape s) s := readsAs_bytes fun c _ => readsAs_jsonEscapeByte c
  rw [jsonGetString_append hws]
  exact hreads.jsonGetString hlen rest

/-- A string that ends with a backslash and fills the buffer. -/
theorem jsonGetString_backslash :
    jsonGetString ([32, 10] ++ 34 :: (jsonEscape [34, 9, 97, 10, 92] ++ 34 :: [44])) 6 =
      some ([34, 9, 97, 10, 92], [44]) :=
  jsonGetString_jsonEscape (by decide) (by decide) [44]

end MiniWeb.Config
