import MiniWeb.Config.Document

/-!
# Texts as they are shown

What the lines of a listing are made of: values with blanks only inside, and keys.
-/

namespace MiniWeb.Config

open CStr

variable {s key : CStr}

/-! ## Values -/

/-- No control characters, and blanks only inside. -/
structure Shown (s : CStr) : Prop where
  printable : ∀ c ∈ s, 32 ≤ c
  starts : s.head? ≠ some 32
  ends : s.getLast? ≠ some 32

theorem isSpace_iff {c : UInt8} (h : 32 ≤ c) : isSpace c = true ↔ c = 32 := by
  simp only [isSpace, decide_eq_true_eq, UInt8.le_iff_toNat_le, ← UInt8.toNat_inj] at h ⊢
  simp at h ⊢
  omega

theorem Phrase.shown {size : Nat} (p : Phrase size) : Shown p.text where
  printable := fun c hc => (of_decide_eq_true (p.plain c hc)).1
  starts := p.starts
  ends := p.ends

theorem Phrase.cut_text {size : Nat} (p : Phrase size) : cut size p.text = p.text :=
  cut_of_lt p.short

theorem Phrase.notMem {size : Nat} (p : Phrase size) {d : UInt8} (hd : isPlain d = false) :
    d ∉ p.text := fun h => absurd (p.plain d h) (by simp [hd])

/-! ## Keys -/

/-- A key is made of small letters and underscores. -/
def IsKey (key : CStr) : Prop := key ≠ [] ∧ ∀ c ∈ key, 95 ≤ c ∧ c ≤ 122

theorem IsKey.shown (h : IsKey key) : Shown key where
  printable := fun c hc => le_trans (by decide) (h.2 c hc).1
  starts := fun h32 => absurd (h.2 32 (List.mem_of_mem_head? h32)).1 (by decide)
  ends := fun h32 => absurd (h.2 32 (List.mem_of_getLast? h32)).1 (by decide)

theorem IsKey.notMem (h : IsKey key) {d : UInt8} (hd : d < 95) : d ∉ key :=
  fun hmem => absurd (h.2 d hmem).1 (not_le.2 hd)

end MiniWeb.Config
