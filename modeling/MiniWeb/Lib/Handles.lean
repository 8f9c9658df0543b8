import Mathlib.Data.List.Nodup
import Mathlib.Data.List.Count
import MiniWeb.Lib.Runs

/-!
# Handles

A program acquires handles (streams, descriptors), uses them and releases them. `Op.step` replays
the operations against the list of live handles: a use or a release of a handle that is not live
has no step, so a trace has a run exactly when every use and release is of a live handle, and its
last state is what is left open.

The library gives the live handles of the operations one by one, and the balance of a whole trace:
each handle was acquired as often as it was released, and once more if it is live.
-/

namespace MiniWeb.Handles

open Runs

universe u

variable {η : Type u}

inductive Op (η : Type u)
  | acquire (h : η)
  | use (h : η)
  | release (h : η)
deriving DecidableEq, Repr

variable [DecidableEq η]

/-- One operation on the live handles; none if it is not allowed. -/
def Op.step : Op η → List η → Option (List η)
  | .acquire h, live => if h ∈ live then none else some (h :: live)
  | .use h, live => if h ∈ live then some live else none
  | .release h, live => if h ∈ live then some (live.erase h) else none

/-- `live` are the live handles after a trace in which every use is of a live handle. -/
def Replays (ops : List (Op η)) (live : List η) : Prop := runs Op.step ops [] = some live

variable {ops ops' : List (Op η)} {live live' : List η} {h : η}

theorem replays_nil : Replays ([] : List (Op η)) [] := rfl

theorem replays_concat {op : Op η} (hops : Replays ops live) :
    Replays (ops ++ [op]) live' ↔ op.step live = some live' := by
  unfold Replays
  rw [runs_append, hops, Option.bind_some, runs_cons]
  show (op.step live).bind some = some live' ↔ op.step live = some live'
  rw [Option.bind_fun_some]

theorem Replays.acquire (hops : Replays ops live) (hh : h ∉ live) :
    Replays (ops ++ [.acquire h]) (h :: live) :=
  (replays_concat hops).mpr (if_neg hh)

theorem Replays.use (hops : Replays ops live) (hh : h ∈ live) :
    Replays (ops ++ [.use h]) live :=
  (replays_concat hops).mpr (if_pos hh)

theorem Replays.release (hops : Replays ops live) (hh : h ∈ live) :
    Replays (ops ++ [.release h]) (live.erase h) :=
  (replays_concat hops).mpr (if_pos hh)

/-- A trace has at most one set of live handles at its end. -/
theorem Replays.unique (hops : Replays ops live) (hops' : Replays ops live') : live = live' := by
  have h := hops.symm.trans hops'
  rwa [Option.some.injEq] at h

/-- What holds of a longer trace holds of the part before it. -/
theorem Replays.of_append (hops : Replays (ops ++ ops') live) : ∃ live', Replays ops live' := by
  unfold Replays at hops
  rw [runs_append] at hops
  obtain ⟨live', hlive', -⟩ := Option.bind_eq_some_iff.mp hops
  exact ⟨live', hlive'⟩

/-- After the release of a handle that is not live there is no way on. -/
theorem not_replays_release (hops : Replays ops live) (hh : h ∉ live) :
    ¬Replays (ops ++ .release h :: ops') live' := by
  intro hall
  rw [List.append_cons] at hall
  obtain ⟨live'', hlive''⟩ := hall.of_append
  rw [replays_concat hops] at hlive''
  simp only [Op.step, if_neg hh] at hlive''
  cases hlive''

theorem Op.step_nodup {op : Op η} (hstep : op.step live = some live') (hlive : live.Nodup) :
    live'.Nodup := by
  cases op with
  | acquire h =>
    simp only [Op.step] at hstep
    by_cases hh : h ∈ live
    · rw [if_pos hh] at hstep
      cases hstep
    · rw [if_neg hh, Option.some.injEq] at hstep
      rw [← hstep]
      exact List.nodup_cons.mpr ⟨hh, hlive⟩
  | use h =>
    simp only [Op.step] at hstep
    split at hstep
    · rw [Option.some.injEq] at hstep
      rwa [← hstep]
    · cases hstep
  | release h =>
    simp only [Op.step] at hstep
    split at hstep
    · rw [Option.some.injEq] at hstep
      rw [← hstep]
      exact hlive.erase h
    · cases hstep

theorem Replays.nodup (hops : Replays ops live) : live.Nodup :=
  runs_invariant (fun _ _ _ hlive hstep => Op.step_nodup hstep hlive)
    List.nodup_nil hops

/-- **A released handle is not live.** -/
theorem Replays.not_mem_erase (hops : Replays ops live) : h ∉ live.erase h :=
  hops.nodup.not_mem_erase

/-- Every handle was acquired as often as it was released, and once more if it is live. -/
theorem Replays.balance (hops : Replays ops live) (h : η) :
    ops.count (.acquire h) = ops.count (.release h) + live.count h := by
  have hrun : ∀ (ops : List (Op η)) (before : List η), runs Op.step ops before = some live →
      ops.count (.acquire h) + before.count h = ops.count (.release h) + live.count h := by
    intro ops
    induction ops with
    | nil =>
      intro before hrun
      cases hrun
      rfl
    | cons op ops ih =>
      intro before hrun
      obtain ⟨next, hnext, hrest⟩ := Option.bind_eq_some_iff.mp hrun
      have hcount := ih next hrest
      cases op with
      | acquire k =>
        simp only [Op.step] at hnext
        split at hnext
        · cases hnext
        · cases hnext
          by_cases hk : k = h
          · subst hk
            rw [List.count_cons_self] at hcount
            rw [List.count_cons_self, List.count_cons_of_ne (by intro heq; cases heq)]
            omega
          · rw [List.count_cons_of_ne hk] at hcount
            rw [List.count_cons_of_ne (by intro heq; cases heq; exact hk rfl),
              List.count_cons_of_ne (by intro heq; cases heq)]
            exact hcount
      | use k =>
        simp only [Op.step] at hnext
        split at hnext
        · cases hnext
          rw [List.count_cons_of_ne (by intro heq; cases heq),
            List.count_cons_of_ne (by intro heq; cases heq)]
          exact hcount
        · cases hnext
      | release k =>
        simp only [Op.step] at hnext
        split at hnext
        next hlive =>
          cases hnext
          rw [List.count_cons_of_ne (by intro heq; cases heq)]
          by_cases hk : k = h
          · subst hk
            have hpos := List.count_pos_iff.mpr hlive
            rw [List.count_erase_self] at hcount
            rw [List.count_cons_self]
            omega
          · rw [List.count_erase_of_ne (Ne.symm hk)] at hcount
            rw [List.count_cons_of_ne (by intro heq; cases heq; exact hk rfl)]
            exact hcount
        · cases hnext
  exact hrun ops [] hops

/-! ## Traces with their live handles -/

/-- The operations so far, with the handles live after them. -/
structure Trace (η : Type u) where
  live : List η
  ops : List (Op η)
deriving DecidableEq, Repr

def Trace.perform (op : Op η) (t : Trace η) : Trace η :=
  ⟨(op.step t.live).getD t.live, t.ops ++ [op]⟩

/-- Every use was of a live handle. -/
def Trace.Sound (t : Trace η) : Prop := Replays t.ops t.live

namespace Trace

variable {t : Trace η}

theorem Sound.acquire (ht : t.Sound) (hh : h ∉ t.live) :
    (t.perform (.acquire h)).Sound ∧ (t.perform (.acquire h)).live = h :: t.live := by
  have hlive : (t.perform (.acquire h)).live = h :: t.live := by
    simp only [perform, Op.step, if_neg hh, Option.getD_some]
  refine ⟨?_, hlive⟩
  unfold Sound
  rw [hlive]
  exact Replays.acquire ht hh

theorem Sound.use (ht : t.Sound) (hh : h ∈ t.live) :
    (t.perform (.use h)).Sound ∧ (t.perform (.use h)).live = t.live := by
  have hlive : (t.perform (.use h)).live = t.live := by
    simp only [perform, Op.step, if_pos hh, Option.getD_some]
  refine ⟨?_, hlive⟩
  unfold Sound
  rw [hlive]
  exact Replays.use ht hh

theorem Sound.release (ht : t.Sound) (hh : h ∈ t.live) :
    (t.perform (.release h)).Sound ∧ (t.perform (.release h)).live = t.live.erase h := by
  have hlive : (t.perform (.release h)).live = t.live.erase h := by
    simp only [perform, Op.step, if_pos hh, Option.getD_some]
  refine ⟨?_, hlive⟩
  unfold Sound
  rw [hlive]
  exact Replays.release ht hh

/-- The release of a handle that is not live leaves the others. -/
theorem live_release_of_not_mem (hh : h ∉ t.live) : (t.perform (.release h)).live = t.live := by
  simp only [perform, Op.step, if_neg hh, Option.getD_none]

end Trace

/-- An operation that does not acquire the handle. -/
theorem count_acquire_concat {op : Op η} (hop : op ≠ .acquire h) :
    (ops ++ [op]).count (.acquire h) = ops.count (.acquire h) := by
  rw [List.count_append, List.count_singleton, if_neg (by simpa using hop), Nat.add_zero]

end MiniWeb.Handles
