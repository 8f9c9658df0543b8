import MiniWeb.UserStore.Runs

/-!
# The length of an index search

`bst_find_with_steps` counts the nodes it looks at. The index is a red-black tree after every run,
so the count is at most twice the logarithm of the number of nodes.
-/

namespace MiniWeb.UserStore

open RedBlack Loop CStr ColorTree TreePath

/-- The loop of `bst_find_with_steps`: `s` is counted before the node is looked at. -/
def bstFindWithStepsStep (lists : Off → ListNode) (trees : Off → BSTnode) (name : CStr)
    (st : Off × Nat) : Step (Off × Nat) (Off × Nat) :=
  let (x, s) := st
  if x = gNil then .done (0, s)
  else if (trees x).userOff = 0 then .done (0, s + 1)
  else
    match strcmp name (nameAt lists trees x) with
    | .eq => .done ((trees x).userOff, s + 1)
    | .lt => .next ((trees x).leftOff, s + 1)
    | .gt => .next ((trees x).rightOff, s + 1)

/-- `bst_find_with_steps`: the list node and `*steps`. -/
def bstFindWithSteps (lists : Off → ListNode) (t : Index) (name : CStr) : Option (Off × Nat) :=
  run (bstFindWithStepsStep lists t.trees name) userStorePoolNodes (t.bst.rootOff, 0)

section

variable {lists : Off → ListNode} {t : Index} {X : ColorTree Off}

/-- What the search answers at the place it ends at. -/
def findEnd (t : Index) (p : TreePath Off) : ColorTree Off → Off × Nat
  | .nil => (0, p.length)
  | .node _ _ a _ => ((t.trees a).userOff, p.length + 1)

/-- The search ends, and takes no more steps than the tree is high. -/
theorem bstFindWithSteps_spec (h : IndexTree lists t X)
    (hlen : X.toList.length < userStorePoolNodes) (name : CStr) :
    ∃ user steps, bstFindWithSteps lists t name = some (user, steps) ∧
      bstFind lists t name = some user ∧ steps ≤ X.height := by
  have hrun := run_descend (findDir name (nameAt lists t.trees))
    (bstFindWithStepsStep lists t.trees name) (X := X) (p := [])
    (fun p s => (s.addr gNil, p.length)) (findEnd t)
    (fun p _ => by simp [bstFindWithStepsStep, findEnd])
    (fun p c l a r hp => by
      obtain ⟨ha, hu, hl, hr⟩ := h.node hp
      simp only [addr_node, bstFindWithStepsStep, if_neg ha, if_neg hu, findDir, hl, hr,
        List.length_cons, findEnd]
      cases strcmp name (nameAt lists t.trees a) <;> rfl)
    (plug_nil X) hlen
  have hfind := bstFind_spec h hlen name
  have hplace := plug_descend (findDir name (nameAt lists t.trees)) [] X
  rw [plug_nil] at hplace
  rw [bstFindWithSteps, h.root]
  generalize descend (findDir name (nameAt lists t.trees)) [] X = place at hrun hfind hplace
  obtain ⟨p, s⟩ := place
  have hheight := height_plug_le p s
  rw [hplace] at hheight
  cases s with
  | nil => exact ⟨0, p.length, hrun, hfind, by omega⟩
  | node c l a r =>
    refine ⟨(t.trees a).userOff, p.length + 1, hrun, hfind, ?_⟩
    rw [ColorTree.height] at hheight
    omega

end

/-- **Index search is logarithmic** after every run, whether or not the name is found. -/
theorem runOps_steps (ops : List Op) :
    ∃ s X, runOps ops userStoreShmInit = some s ∧ IndexTree s.shm.lists s.index X ∧
      ∀ name, ∃ user steps, bstFindWithSteps s.shm.lists s.index name = some (user, steps) ∧
        2 ^ steps ≤ (X.toList.length + 1) ^ 2 := by
  obtain ⟨s, X, L, hrun, hs⟩ := sound_init.run ops
  refine ⟨s, X, hrun, hs.index, fun name => ?_⟩
  obtain ⟨user, steps, hfind, -, hsteps⟩ := bstFindWithSteps_spec hs.index hs.labels_lt_pool name
  refine ⟨user, steps, hfind, ?_⟩
  calc
    2 ^ steps ≤ 2 ^ X.height := Nat.pow_le_pow_right (by omega) hsteps
    _ ≤ (X.toList.length + 1) ^ 2 := hs.index.rb.two_pow_height_le

end MiniWeb.UserStore
