import Mathlib.Data.List.Basic
import Mathlib.Tactic.Common
import Mathlib.Tactic.IntervalCases

/-!
# Base64

The encoding of RFC 4648: three bytes are four symbols of six bits, and one or two bytes at the end
are padded to four symbols with `=`; the bits of a symbol that no byte fills are zero.
-/

namespace MiniWeb.Base64

/-- The symbol of a value below 64. -/
def symbol (v : UInt8) : UInt8 :=
  if v < 26 then v + 65
  else if v < 52 then v + 71
  else if v < 62 then v - 4
  else if v = 62 then 43
  else 47

/-! The six-bit values of up to three bytes. -/

def value₀ (a : UInt8) : UInt8 := a >>> 2
def value₁ (a b : UInt8) : UInt8 := (a &&& 3) <<< 4 ||| b >>> 4
def value₂ (b c : UInt8) : UInt8 := (b &&& 15) <<< 2 ||| c >>> 6
def value₃ (c : UInt8) : UInt8 := c &&& 63

/-- `61` is the padding. -/
def encode : List UInt8 → List UInt8
  | a :: b :: c :: s =>
    symbol (value₀ a) :: symbol (value₁ a b) :: symbol (value₂ b c) :: symbol (value₃ c) ::
      encode s
  | [a, b] => [symbol (value₀ a), symbol (value₁ a b), symbol (value₂ b 0), 61]
  | [a] => [symbol (value₀ a), symbol (value₁ a 0), 61, 61]
  | [] => []

/-! The bytes of four six-bit values. -/

def byte₀ (v₀ v₁ : UInt8) : UInt8 := v₀ <<< 2 ||| v₁ >>> 4
def byte₁ (v₁ v₂ : UInt8) : UInt8 := v₁ <<< 4 ||| v₂ >>> 2
def byte₂ (v₂ v₃ : UInt8) : UInt8 := v₂ <<< 6 ||| v₃

/-! ## Regrouping the bits -/

section

variable {a b c : UInt8}

theorem eq_of_bits {x y : UInt8}
    (h : ∀ i < 8, x.toBitVec.getLsbD i = y.toBitVec.getLsbD i) : x = y :=
  UInt8.eq_of_toBitVec_eq (BitVec.eq_of_getLsbD_eq h)

@[simp] theorem byte₀_value : byte₀ (value₀ a) (value₁ a b) = a := by
  apply eq_of_bits
  intro i hi
  simp only [byte₀, value₀, value₁]
  interval_cases i <;> simp

@[simp] theorem byte₁_value : byte₁ (value₁ a b) (value₂ b c) = b := by
  apply eq_of_bits
  intro i hi
  simp only [byte₁, value₁, value₂]
  interval_cases i <;> simp

@[simp] theorem byte₂_value : byte₂ (value₂ b c) (value₃ c) = c := by
  apply eq_of_bits
  intro i hi
  simp only [byte₂, value₂, value₃]
  interval_cases i <;> simp

theorem lt_of_bits {x : UInt8} (h₆ : x.toBitVec.getLsbD 6 = false)
    (h₇ : x.toBitVec.getLsbD 7 = false) : x < 64 := by
  have h : x = x &&& 63 := by
    apply eq_of_bits
    intro i hi
    interval_cases i <;> simp_all
  rw [h]
  exact Nat.lt_of_le_of_lt (Nat.and_le_right) (by decide)

theorem value₀_lt : value₀ a < 64 := lt_of_bits (by simp [value₀]) (by simp [value₀])

theorem value₁_lt : value₁ a b < 64 := lt_of_bits (by simp [value₁]) (by simp [value₁])

theorem value₂_lt : value₂ b c < 64 := lt_of_bits (by simp [value₂]) (by simp [value₂])

theorem value₃_lt : value₃ c < 64 := lt_of_bits (by simp [value₃]) (by simp [value₃])

end

/-! ## Symbols of an encoding -/

section

variable {s : List UInt8} {c : UInt8}

theorem length_encode (s : List UInt8) : (encode s).length = 4 * ((s.length + 2) / 3) := by
  induction s using encode.induct with
  | case1 a b c s ih =>
    simp only [encode, List.length_cons, ih]
    omega
  | case2 a b => simp [encode]
  | case3 a => simp [encode]
  | case4 => rfl

/-- An encoding is made of symbols and padding. -/
theorem mem_encode (h : c ∈ encode s) : c = 61 ∨ ∃ v < 64, c = symbol v := by
  induction s using encode.induct with
  | case1 a b d s ih =>
    simp only [encode, List.mem_cons] at h
    rcases h with rfl | rfl | rfl | rfl | h
    · exact .inr ⟨_, value₀_lt, rfl⟩
    · exact .inr ⟨_, value₁_lt, rfl⟩
    · exact .inr ⟨_, value₂_lt, rfl⟩
    · exact .inr ⟨_, value₃_lt, rfl⟩
    · exact ih h
  | case2 a b =>
    simp only [encode, List.mem_cons, List.not_mem_nil, or_false] at h
    rcases h with rfl | rfl | rfl | rfl
    · exact .inr ⟨_, value₀_lt, rfl⟩
    · exact .inr ⟨_, value₁_lt, rfl⟩
    · exact .inr ⟨_, value₂_lt, rfl⟩
    · exact .inl rfl
  | case3 a =>
    simp only [encode, List.mem_cons, List.not_mem_nil, or_false] at h
    rcases h with rfl | rfl | rfl | rfl
    · exact .inr ⟨_, value₀_lt, rfl⟩
    · exact .inr ⟨_, value₁_lt, rfl⟩
    · exact .inl rfl
    · exact .inl rfl
  | case4 => cases h

end

end MiniWeb.Base64
