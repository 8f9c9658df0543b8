import Mathlib.Data.List.DropRight
import MiniWeb.Lib.CText
import MiniWeb.Lib.JsonText

/-!
# Values and their notations

Texts, lists and mappings, as JSON and the block style of YAML write them down. In the block style a
value takes whole lines, and the indentation of the lines tells where it ends.
-/

namespace MiniWeb.DataText

open CStr JsonText

/-! ## Values -/

inductive Value
  | text (s : CStr)
  | list (items : List Value)
  | map (entries : List (CStr × Value))

/-- The values under a key. -/
def Value.under (key : CStr) : Value → List Value
  | .map entries => (entries.filter fun e => decide (e.1 = key)).map (·.2)
  | _ => []

def Value.items : Value → List Value
  | .list items => items
  | _ => []

def Value.text? : Value → Option CStr
  | .text s => some s
  | _ => none

/-! ## JSON -/

/-- A JSON text for a value. Numbers and literals stand for themselves. -/
inductive IsJson : CStr → Value → Prop
  | string {us : List StringUnit} (hus : ∀ u ∈ us, u.isValid = true) :
      IsJson (quoted us) (.text (decode us))
  | number {s : CStr} (hs : IsNumber s) : IsJson s (.text s)
  | literal {s : CStr} (hs : s ∈ literals) : IsJson s (.text s)
  | array {gap : CStr} {es : List (Element × Value)} (hgap : IsGap gap)
      (hspaced : ∀ e ∈ es, e.1.Spaced) (hvalues : ∀ e ∈ es, IsJson e.1.value e.2) :
      IsJson (arrayOf gap (es.map (·.1))) (.list (es.map (·.2)))
  | object {gap : CStr} {ms : List (Member × Value)} (hgap : IsGap gap)
      (hspaced : ∀ m ∈ ms, m.1.Spaced) (hvalues : ∀ m ∈ ms, IsJson m.1.value m.2) :
      IsJson (objectOf gap (ms.map (·.1))) (.map (ms.map fun m => (decode m.1.name, m.2)))

/-! ## The block style of YAML -/

/-- The bytes with which no scalar starts that is not quoted. -/
def indicators : List UInt8 := ascii " -?:,[]\x7b\x7d#&*!|>'\"%@`"

/-- A scalar without quotes, which stands for itself. -/
def isPlainScalar (s : CStr) : Bool :=
  s.head?.any (fun c => !indicators.contains c) &&
    s.getLast?.all (fun c => c != 32 && c != 58) &&
    (strstr s (ascii ": ")).isNone && (strstr s (ascii " #")).isNone

/-- A scalar and the text it stands for. In single quotes only the quote is doubled. -/
inductive IsScalar : CStr → CStr → Prop
  | plain {s : CStr} (hs : isPlainScalar s = true) : IsScalar s s
  | single (s : CStr) :
      IsScalar (39 :: (s.flatMap fun c => if c = 39 then [39, 39] else [c]) ++ [39]) s
  | double {us : List StringUnit} (hus : ∀ u ∈ us, u.isValid = true) :
      IsScalar (quoted us) (decode us)

def blanks (n : Nat) : CStr := List.replicate n 32

/-- Nothing, or a comment behind blanks. -/
def IsRemark (s : CStr) : Prop := s = [] ∨ ∃ n comment, s = blanks (n + 1) ++ 35 :: comment

mutual

/-- The lines of a mapping or of a list at an indentation. -/
inductive IsBlock : Nat → List CStr → Value → Prop
  | mapping {n : Nat} {es : List (List CStr × CStr × Value)} (hsome : es ≠ [])
      (hes : ∀ e ∈ es, IsEntry n e.1 e.2.1 e.2.2) :
      IsBlock n (es.flatMap (·.1)) (.map (es.map (·.2)))
  | sequence {n : Nat} {es : List (List CStr × Value)} (hsome : es ≠ [])
      (hes : ∀ e ∈ es, IsItem n e.1 e.2) :
      IsBlock n (es.flatMap (·.1)) (.list (es.map (·.2)))

/-- The lines of a key and its value. A list may stand at the indentation of its key. -/
inductive IsEntry : Nat → List CStr → CStr → Value → Prop
  | scalar {n m : Nat} {line k key v value remark : CStr} (hkey : IsScalar k key)
      (hvalue : IsScalar v value) (hremark : IsRemark remark)
      (hline : line = blanks n ++ k ++ 58 :: (blanks (m + 1) ++ v ++ remark)) :
      IsEntry n [line] key (.text value)
  | empty {n : Nat} {line k key remark : CStr} (hkey : IsScalar k key) (hremark : IsRemark remark)
      (hline : line = blanks n ++ k ++ 58 :: remark) : IsEntry n [line] key (.text [])
  | block {n m : Nat} {line k key remark : CStr} {lines : List CStr} {value : Value}
      (hkey : IsScalar k key) (hremark : IsRemark remark)
      (hline : line = blanks n ++ k ++ 58 :: remark) (hdeeper : n < m)
      (hlines : IsBlock m lines value) : IsEntry n (line :: lines) key value
  | sequence {n : Nat} {line k key remark : CStr} {es : List (List CStr × Value)}
      (hkey : IsScalar k key) (hremark : IsRemark remark)
      (hline : line = blanks n ++ k ++ 58 :: remark) (hsome : es ≠ [])
      (hes : ∀ e ∈ es, IsItem n e.1 e.2) :
      IsEntry n (line :: es.flatMap (·.1)) key (.list (es.map (·.2)))

/-- The lines of an item of a list. What the dash introduces is indented to where it starts. -/
inductive IsItem : Nat → List CStr → Value → Prop
  | scalar {n m : Nat} {line v value remark : CStr} (hvalue : IsScalar v value)
      (hremark : IsRemark remark)
      (hline : line = blanks n ++ 45 :: (blanks (m + 1) ++ v ++ remark)) :
      IsItem n [line] (.text value)
  | block {n m : Nat} {first line : CStr} {lines : List CStr} {value : Value}
      (hlines : IsBlock (n + m + 2) ((blanks (n + m + 2) ++ first) :: lines) value)
      (hline : line = blanks n ++ 45 :: (blanks (m + 1) ++ first)) :
      IsItem n (line :: lines) value

end

/-- The lines of a text that are no comments and not empty, without the marks between documents. -/
def contentLines (text : List UInt8) : List CStr :=
  ((text.splitOn 10).map (·.rdropWhile isSpace)).filter fun line =>
    line ≠ ascii "---" ∧ (line.dropWhile isSpace).head?.any (· ≠ 35)

/-! ### Building blocks -/

section

variable {n : Nat} {lines : List CStr} {key value : CStr} {v : Value}

end

def IsYaml (text : List UInt8) (value : Value) : Prop := IsBlock 0 (contentLines text) value

end MiniWeb.DataText
