import Mathlib.Data.List.Lex
import Mathlib.Data.List.Basic
import Mathlib.Order.Compare
import Mathlib.Tactic.Common

/-!
# C strings

A C string is modelled by its bytes before the terminating NUL. The functions of `<string.h>`
and `<stdio.h>` that the server calls are given here with their documented behaviour on such
strings; `strcmp` is the lexicographic order of unsigned bytes.
-/

namespace MiniWeb

/-- The bytes of a C string, without the terminating NUL. -/
abbrev CStr := List UInt8

instance uint8LinearOrder : LinearOrder UInt8 where
  le_refl := UInt8.le_refl
  le_trans _ _ _ := UInt8.le_trans
  le_antisymm _ _ := UInt8.le_antisymm
  le_total := UInt8.le_total
  lt_iff_le_not_ge a b := by
    rw [UInt8.lt_iff_toNat_lt, UInt8.le_iff_toNat_le, UInt8.le_iff_toNat_le]
    omega
  toDecidableLE := inferInstance
  toDecidableEq := inferInstance
  toDecidableLT := inferInstance

instance uint8LawfulBEq : LawfulBEq UInt8 := inferInstance

instance cstrLawfulBEq : LawfulBEq CStr := inferInstance

/-- What holds of every byte of a string is decided on the string, not on all 256 bytes. -/
instance (priority := 2000) cstrDecidableBAll {p : UInt8 → Prop} [DecidablePred p] (s : CStr) :
    Decidable (∀ c ∈ s, p c) := List.decidableBAll p s

namespace CStr

/-- A string literal of the source. -/
def ascii (s : String) : CStr := s.toList.map fun c => c.toNat.toUInt8

/-- The string held by a buffer: its bytes up to the first NUL. -/
def ofBuffer (buf : List UInt8) : CStr := buf.takeWhile (· ≠ 0)

/-- `strcmp`: less, equal or greater, by the first differing byte taken as unsigned. -/
def strcmp : CStr → CStr → Ordering
  | [], [] => .eq
  | [], _ :: _ => .lt
  | _ :: _, [] => .gt
  | a :: s, b :: t => if a < b then .lt else if b < a then .gt else strcmp s t

@[simp] theorem strcmp_eq_iff {s t : CStr} : strcmp s t = .eq ↔ s = t := by
  induction s generalizing t with
  | nil => cases t <;> simp [strcmp]
  | cons a s ih =>
    cases t with
    | nil => simp [strcmp]
    | cons b t =>
      unfold strcmp
      rcases lt_trichotomy a b with h | rfl | h
      · simp [h, h.ne]
      · simp [ih]
      · simp [h, h.ne', h.not_gt]

/-- `strcmp` is the lexicographic order. -/
@[simp] theorem strcmp_lt_iff {s t : CStr} : strcmp s t = .lt ↔ s < t := by
  induction s generalizing t with
  | nil => cases t <;> simp [strcmp]
  | cons a s ih =>
    cases t with
    | nil => simp [strcmp]
    | cons b t =>
      unfold strcmp
      rw [List.cons_lt_cons_iff]
      rcases lt_trichotomy a b with h | rfl | h
      · simp [h]
      · simp [ih]
      · simp [h.not_gt, h.ne', h]

/-- The djb2 hash in `unsigned int` arithmetic: `h = ((h << 5) + h) + c` over the bytes. -/
def djb2 (s : CStr) : UInt32 := s.foldl (fun h c => ((h <<< 5) + h) + c.toUInt32) 5381

/-- `strncpy` into a zeroed field of `size` bytes that keeps its last byte NUL. -/
def cut (size : Nat) (s : CStr) : CStr := s.take (size - 1)

theorem cut_of_lt {size : Nat} {s : CStr} (h : s.length < size) : cut size s = s :=
  List.take_of_length_le (Nat.le_pred_of_lt h)

/-- `strncmp(s, lit, strlen(lit)) == 0`. -/
def startsWith (s lit : CStr) : Bool := lit.isPrefixOf s

/-- `strstr`: the rest of `s` from the first occurrence of `lit`. -/
def strstr (s lit : CStr) : Option CStr :=
  match s with
  | [] => if lit = [] then some [] else none
  | c :: s => if lit.isPrefixOf (c :: s) then some (c :: s) else strstr s lit

/-- The tokens `strtok` returns on repeated calls: the maximal nonempty runs without a
delimiter. `tok` is the run read so far. -/
def strtokFrom (delim : UInt8) (tok : CStr) : CStr → List CStr
  | [] => if tok = [] then [] else [tok]
  | c :: s =>
    if c = delim then
      if tok = [] then strtokFrom delim [] s else tok :: strtokFrom delim [] s
    else strtokFrom delim (tok ++ [c]) s

def strtok (delim : UInt8) (s : CStr) : List CStr := strtokFrom delim [] s

/-- The buffers `fgets(buf, size, fp)` fills on repeated calls: a line with its newline, or
`size - 1` bytes of a longer one. `buf` holds the bytes read so far. -/
def fgetsFrom (size : Nat) (buf : List UInt8) : List UInt8 → List (List UInt8)
  | [] => if buf = [] then [] else [buf]
  | c :: s =>
    if c = 10 ∨ buf.length + 2 = size then (buf ++ [c]) :: fgetsFrom size [] s
    else fgetsFrom size (buf ++ [c]) s

def fgets (size : Nat) (file : List UInt8) : List (List UInt8) := fgetsFrom size [] file

end CStr

end MiniWeb
