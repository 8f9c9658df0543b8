import Mathlib.Data.List.Nodup
import Mathlib.Data.List.Perm.Basic

/-!
# Descriptor tables

A process knows its open files by descriptors. `Table.close` takes a descriptor out of the table;
a new one is any that the table does not have. `Held` says that each open descriptor is in one
place of the program: what the program passes on stays held, and the close of a held descriptor
closes that one file.
-/

namespace MiniWeb.Descriptors

universe u

variable {φ : Type u}

/-- The open descriptors of a process, each with its file. -/
abbrev Table (φ : Type u) := List (Nat × φ)

namespace Table

def fds (t : Table φ) : List Nat := t.map Prod.fst

/-- `close(fd)`; a descriptor that is not open is refused and nothing changes. -/
def close (t : Table φ) (fd : Nat) : Table φ := t.filter fun entry => entry.1 ≠ fd

variable {t : Table φ} {fd fd' : Nat} {f : φ}

@[simp] theorem close_nil : close ([] : Table φ) fd = [] := rfl

@[simp] theorem close_cons_self : close ((fd, f) :: t) fd = close t fd := by
  simp [close]

theorem close_cons_ne (h : fd' ≠ fd) : close ((fd', f) :: t) fd = (fd', f) :: close t fd := by
  simp [close, h]

theorem fds_close : (t.close fd).fds = t.fds.filter fun fd' => fd' ≠ fd := by
  unfold fds close
  rw [List.filter_map]
  rfl

end Table

/-! ## Descriptors held -/

/-- The open descriptors are those in the list, each once. -/
structure Held (t : Table φ) (held : List Nat) : Prop where
  nodup : t.fds.Nodup
  perm : t.fds.Perm held

variable {t : Table φ} {fd : Nat} {f : φ} {held held' : List Nat}

theorem held_nil : Held ([] : Table φ) [] := ⟨List.nodup_nil, List.Perm.nil⟩

theorem Held.congr (h : Held t held) (hperm : held.Perm held') : Held t held' :=
  ⟨h.nodup, h.perm.trans hperm⟩

theorem Held.nodup_held (h : Held t held) : held.Nodup := h.perm.nodup_iff.mp h.nodup

/-- A new descriptor. -/
theorem Held.open (h : Held t held) (hfd : fd ∉ t.fds) : Held ((fd, f) :: t) (fd :: held) :=
  ⟨List.nodup_cons.mpr ⟨hfd, h.nodup⟩, h.perm.cons fd⟩

/-- A held descriptor is closed. -/
theorem Held.close (h : Held t (fd :: held)) : Held (t.close fd) held := by
  have hfd : fd ∉ held := (List.nodup_cons.mp h.nodup_held).1
  have hrest : (fd :: held).filter (fun fd' => decide (fd' ≠ fd)) = held := by
    rw [List.filter_cons_of_neg (by simp), List.filter_eq_self]
    intro fd' hmem
    exact decide_eq_true fun heq => hfd (heq ▸ hmem)
  refine ⟨?_, ?_⟩
  · rw [Table.fds_close]
    exact h.nodup.filter _
  · rw [Table.fds_close]
    exact hrest ▸ h.perm.filter _

theorem Table.mem_close {entry : Nat × φ} (hentry : entry ∈ t) (hne : entry.1 ≠ fd) :
    entry ∈ t.close fd := List.mem_filter.mpr ⟨hentry, decide_eq_true hne⟩

/-- A descriptor has one file. -/
theorem Held.lookup_of_mem (h : Held t held) (hmem : (fd, f) ∈ t) : t.lookup fd = some f := by
  have hnodup := h.nodup
  clear h
  induction t with
  | nil => exact absurd hmem List.not_mem_nil
  | cons entry t ih =>
    obtain ⟨fd', g⟩ := entry
    obtain ⟨hnew, hrest⟩ := List.nodup_cons.mp hnodup
    rcases List.mem_cons.mp hmem with heq | hmem
    · cases heq
      exact List.lookup_cons_self
    · have hne : fd ≠ fd' := fun h => hnew (h ▸ List.mem_map.mpr ⟨(fd, f), hmem, rfl⟩)
      rw [List.lookup_cons, beq_false_of_ne hne]
      exact ih hmem hrest

/-- The file of a held descriptor, and those that are left when it is closed. -/
theorem Held.lookup (h : Held t (fd :: held)) :
    ∃ f, t.lookup fd = some f ∧ (t.map Prod.snd).Perm (f :: (t.close fd).map Prod.snd) := by
  obtain ⟨hnodup, hperm⟩ := h
  have hmem : fd ∈ t.fds := hperm.mem_iff.mpr List.mem_cons_self
  clear hperm
  induction t with
  | nil => exact absurd hmem List.not_mem_nil
  | cons entry t ih =>
    obtain ⟨fd', f⟩ := entry
    obtain ⟨hnew, hrest⟩ := List.nodup_cons.mp hnodup
    by_cases heq : fd' = fd
    · subst heq
      have hclose : Table.close t fd' = t := by
        unfold Table.close
        rw [List.filter_eq_self]
        intro other hother
        exact decide_eq_true fun h => hnew (h ▸ List.mem_map.mpr ⟨other, hother, rfl⟩)
      refine ⟨f, List.lookup_cons_self, ?_⟩
      rw [Table.close_cons_self, hclose]
      rfl
    · obtain ⟨g, hg, hgperm⟩ := ih hrest ((List.mem_cons.mp hmem).resolve_left (Ne.symm heq))
      refine ⟨g, ?_, ?_⟩
      · rw [List.lookup_cons, beq_false_of_ne (Ne.symm heq)]
        exact hg
      · rw [Table.close_cons_ne heq]
        exact (hgperm.cons f).trans (List.Perm.swap g f _)

end MiniWeb.Descriptors
