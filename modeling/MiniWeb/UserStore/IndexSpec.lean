import MiniWeb.Lib.TreeSearch
import MiniWeb.UserStore.DeleteFixup

/-!
# What the index operations do

`IndexTree lists t X` says that the index is the red-black search tree `X`. Search, insertion
and deletion end, keep it, and change the labels by one.
-/

namespace MiniWeb.UserStore

open RedBlack Loop CStr ColorTree TreePath

/-- The nodes reachable from `root_off` form the red-black tree `X`: links and back-links are as
in `X` and the root hangs below `NIL`, the names in order do not decrease, every node has a
user, and the sentinel is a black node whose children are itself. -/
structure IndexTree (lists : Off → ListNode) (t : Index) (X : ColorTree Off) : Prop where
  place : IsPlace t.view gNil X.toList [] X
  rb : RBTree X
  sorted : X.toList.Pairwise fun a b => nameAt lists t.trees a ≤ nameAt lists t.trees b
  users : ∀ a ∈ X.toList, (t.trees a).userOff ≠ 0
  nil_left : (t.trees gNil).leftOff = gNil
  nil_right : (t.trees gNil).rightOff = gNil
  nil_color : (t.trees gNil).color = .black

/-- Where the search for a name goes at a node. -/
def findDir (name : CStr) (nm : Off → CStr) (a : Off) : Option Dir :=
  match strcmp name (nm a) with
  | .eq => none
  | .lt => some .left
  | .gt => some .right

/-- Where an insertion goes at a node: right also at an equal name. -/
def insertDir (name : CStr) (nm : Off → CStr) (a : Off) : Option Dir :=
  if strcmp name (nm a) = .lt then some .left else some .right

section Descent

variable {nm : Off → CStr} {X : ColorTree Off}
  (hs : X.toList.Pairwise fun a b => nm a ≤ nm b)

theorem findDir_eq_none {name : CStr} {a : Off} : findDir name nm a = none ↔ nm a = name := by
  unfold findDir
  cases h : strcmp name (nm a) with
  | eq => simp [(strcmp_eq_iff.mp h)]
  | lt =>
    have h' := strcmp_lt_iff.mp h
    simp [h'.ne']
  | gt =>
    have h' : name ≠ nm a := fun h0 => by rw [strcmp_eq_iff.mpr h0] at h; cases h
    simp [h'.symm]

theorem lt_of_findDir_left {name : CStr} {a : Off} (h : findDir name nm a = some .left) :
    name < nm a := by
  unfold findDir at h
  split at h
  · cases h
  next h0 => exact strcmp_lt_iff.mp h0
  · cases h

theorem lt_of_findDir_right {name : CStr} {a : Off} (h : findDir name nm a = some .right) :
    nm a < name := by
  have h1 : ¬ name < nm a := fun h0 => by
    rw [findDir, strcmp_lt_iff.mpr h0] at h; cases h
  have h2 : nm a ≠ name := fun h0 => by
    rw [findDir_eq_none.mpr h0] at h; cases h
  exact lt_of_le_of_ne (not_lt.mp h1) h2

include hs in
/-- The labels before a place reached from the root are pairwise ordered, and so are those
after it. -/
theorem sorted_sides {p : TreePath Off} {t : ColorTree Off} (h : plug p t = X) :
    (before p).Pairwise (fun a b => nm a ≤ nm b) ∧ (after p).Pairwise (fun a b => nm a ≤ nm b) := by
  rw [← h, toList_plug, List.pairwise_append, List.pairwise_append] at hs
  exact ⟨hs.1.1, hs.2.1⟩

include hs in
/-- The search for a name ends at a node of that name, or at an empty place when there is
none. -/
theorem descend_findDir (name : CStr) :
    (∃ c l a r, (descend (findDir name nm) [] X).2 = .node c l a r ∧ nm a = name) ∨
      (descend (findDir name nm) [] X).2 = .nil ∧ ∀ a ∈ X.toList, nm a ≠ name := by
  rcases descend_stop (findDir name nm) [] X with h | ⟨c, l, a, r, h, hgo⟩
  · refine Or.inr ⟨h, fun b hb => ?_⟩
    have hp := plug_descend (findDir name nm) [] X
    have hf := descend_frames (findDir name nm) (p := []) X (by simp)
    obtain ⟨h1, h2⟩ := sorted_sides hs hp
    have hb1 := before_forall (P := fun a => nm a < name)
      (h1.imp fun hab hb => lt_of_le_of_lt hab hb)
      fun f hm hd => lt_of_findDir_right (hd ▸ hf f hm)
    have hb2 := after_forall (P := fun a => name < nm a)
      (h2.imp fun hab hb => lt_of_lt_of_le hb hab)
      fun f hm hd => lt_of_findDir_left (hd ▸ hf f hm)
    rw [plug_nil, h] at hp
    rw [← hp, mem_toList_plug] at hb
    rcases hb with hb | hb
    · cases hb
    · rcases List.mem_append.mp hb with hb | hb
      · exact (hb1 b hb).ne
      · exact (hb2 b hb).ne'
  · exact Or.inl ⟨c, l, a, r, h, findDir_eq_none.mp hgo⟩

/-- The place an insertion goes to is empty. -/
theorem descend_insertDir (name : CStr) : (descend (insertDir name nm) [] X).2 = .nil := by
  rcases descend_stop (insertDir name nm) [] X with h | ⟨c, l, a, r, -, hgo⟩
  · exact h
  · unfold insertDir at hgo
    split at hgo <;> cases hgo

include hs in
/-- Names before the place of an insertion are at most the new name, names after it are
greater. -/
theorem insertDir_sides (name : CStr) :
    let p := (descend (insertDir name nm) [] X).1
    (∀ a ∈ before p, nm a ≤ name) ∧ ∀ a ∈ after p, name < nm a := by
  have hp := plug_descend (insertDir name nm) [] X
  have hf := descend_frames (insertDir name nm) (p := []) X (by simp)
  obtain ⟨h1, h2⟩ := sorted_sides hs hp
  refine ⟨before_forall (h1.imp fun hab hb => le_trans hab hb) fun f hm hd => ?_,
    after_forall (h2.imp fun hab hb => lt_of_lt_of_le hb hab) fun f hm hd => ?_⟩
  · have hgo := hf f hm
    rw [insertDir, hd] at hgo
    split at hgo
    · cases hgo
    next h => exact not_lt.mp (mt strcmp_lt_iff.mpr h)
  · have hgo := hf f hm
    rw [insertDir, hd] at hgo
    split at hgo
    next h => exact strcmp_lt_iff.mp h
    · cases hgo

end Descent

section

variable {lists : Off → ListNode} {t : Index} {X : ColorTree Off}

/-- Every node of a place of the tree is read as the tree says. -/
theorem IndexTree.node (h : IndexTree lists t X) {p : TreePath Off} {c : Color}
    {l r : ColorTree Off}
    {a : Off} (hp : plug p (.node c l a r) = X) :
    a ≠ gNil ∧ (t.trees a).userOff ≠ 0 ∧ (t.trees a).leftOff = l.addr gNil ∧
      (t.trees a).rightOff = r.addr gNil := by
  have hpl : IsPlace t.view gNil X.toList p (.node c l a r) := IsPlace.whole.mpr (hp ▸ h.place)
  have hm : a ∈ X.toList := by rw [← hp, mem_toList_plug]; simp
  have hcell := hpl.cell (d := .left)
  refine ⟨h.place.ne_nil a hm, h.users a hm, ?_, ?_⟩
  · rw [Index.leftOff_eq, hcell]; rfl
  · rw [Index.rightOff_eq, hcell]; rfl

theorem IndexTree.root (h : IndexTree lists t X) : t.bst.rootOff = X.addr gNil := h.place.root

/-- **`bst_find`** answers the user of the node the search ends at. -/
theorem bstFind_spec (h : IndexTree lists t X) (hlen : X.toList.length < userStorePoolNodes)
    (name : CStr) : bstFind lists t name = some
      (match (descend (findDir name (nameAt lists t.trees)) [] X).2 with
        | .nil => 0
        | .node _ _ a _ => (t.trees a).userOff) := by
  have hrun := run_descend (findDir name (nameAt lists t.trees))
    (bstFindStep lists t.trees name) (X := X) (p := [])
    (fun _ s => s.addr gNil) (fun _ s => match s with
      | .nil => 0
      | .node _ _ a _ => (t.trees a).userOff)
    (fun p _ => by simp [bstFindStep])
    (fun p c l a r hp => by
      obtain ⟨ha, hu, hl, hr⟩ := h.node hp
      simp only [addr_node, bstFindStep, if_neg ha, if_neg hu, findDir, hl, hr]
      cases strcmp name (nameAt lists t.trees a) <;> rfl)
    (plug_nil X) hlen
  rw [bstFind, h.root]
  exact hrun

/-- Names are read through the users of the nodes. -/
theorem nameAt_congr {t' : Index} (h : Index.SameUsers t t') :
    nameAt lists t'.trees = nameAt lists t.trees := by
  funext a
  rw [nameAt, nameAt, h.userOff]

/-- Writing a cell outside the tree keeps the tree. -/
theorem IndexTree.outside {t' : Index} {z : Off} (h : IndexTree lists t X) (hz : z ∉ X.toList)
    (hzn : z ≠ gNil) (ht : ∀ a, a ≠ z → t'.trees a = t.trees a)
    (hroot : t'.bst.rootOff = t.bst.rootOff) : IndexTree lists t' X := by
  have hX : ∀ a ∈ X.toList, t'.trees a = t.trees a := fun a ha => ht a fun h0 => hz (h0 ▸ ha)
  have hnil := ht gNil hzn.symm
  obtain ⟨⟨⟨hr, hrep⟩, hlab, hnd⟩, hrb, hsort, husers, h1, h2, h3⟩ := h
  refine ⟨⟨⟨hroot.trans hr, hrep.congr fun x hx => ?_⟩, hlab, hnd⟩, hrb, ?_, ?_, ?_, ?_, ?_⟩
  · rw [Index.view_cell, Index.view_cell, hX x hx]
  · refine hsort.imp_of_mem fun ha hb hab => ?_
    rwa [nameAt, nameAt, hX _ ha, hX _ hb]
  · intro a ha
    rw [hX a ha]
    exact husers a ha
  · rw [hnil, h1]
  · rw [hnil, h2]
  · rw [hnil, h3]

/-- A repaired tree with ordered labels is an index again. -/
theorem Repaired.indexTree {t₀ : Index} {T : List Off} {climbs : Bool}
    (h : Repaired t₀ T climbs t X)
    (hsort : T.Pairwise fun a b => nameAt lists t₀.trees a ≤ nameAt lists t₀.trees b)
    (husers : ∀ a ∈ T, (t₀.trees a).userOff ≠ 0) (h1 : (t₀.trees gNil).leftOff = gNil)
    (h2 : (t₀.trees gNil).rightOff = gNil) (h3 : (t₀.trees gNil).color = .black) :
    X.toList = T ∧ IndexTree lists t X := by
  have hT : X.toList = T := h.place.labels_eq
  have hcell : (t.trees gNil).links = (t₀.trees gNil).links := h.spares.nil_cell
  refine ⟨hT, hT ▸ h.place, h.rb, ?_, ?_, ?_, ?_, ?_⟩
  · rw [hT, nameAt_congr h.spares.users]
    exact hsort
  · intro a ha
    rw [h.spares.users.userOff]
    exact husers a (hT ▸ ha)
  · rw [← BSTnode.links_left, hcell, BSTnode.links_left, h1]
  · rw [← BSTnode.links_right, hcell, BSTnode.links_right, h2]
  · rw [← BSTnode.links_color, hcell, BSTnode.links_color, h3]

theorem IndexTree.setSize (h : IndexTree lists t X) (n : Int) : IndexTree lists (t.setSize n) X :=
  ⟨h.place, h.rb, h.sorted, h.users, h.nil_left, h.nil_right, h.nil_color⟩

/-! ## Insertion -/

/-- The place `bst_insert` hangs a new node of a name at. -/
def insertPath (lists : Off → ListNode) (trees : Off → BSTnode) (name : CStr) (X : ColorTree Off) :
    TreePath Off := (descend (insertDir name (nameAt lists trees)) [] X).1

theorem plug_insertPath (lists : Off → ListNode) (trees : Off → BSTnode) (name : CStr)
    (X : ColorTree Off) : plug (insertPath lists trees name X) .nil = X := by
  have hp := plug_descend (insertDir name (nameAt lists trees)) [] X
  rw [descend_insertDir, plug_nil] at hp
  exact hp

/-- Does inserting a name leave the root where it is? It moves in an empty tree and when the
repair rotates there. -/
def insertKeepsRoot (lists : Off → ListNode) (trees : Off → BSTnode) (name : CStr)
    (X : ColorTree Off) : Bool :=
  !(insertPath lists trees name X).isEmpty && !rotatesRoot (insertPath lists trees name X)

/-- The descent of `bst_insert` ends below the nearest ancestor of that place. -/
theorem bstInsert_search (h : IndexTree lists t X) (hlen : X.toList.length < userStorePoolNodes)
    (name : CStr) :
    run (bstInsertStep lists t.trees name) userStorePoolNodes (t.bst.rootOff, gNil) =
      some (topAddr gNil (insertPath lists t.trees name X)) := by
  have hrun := run_descend (insertDir name (nameAt lists t.trees))
    (bstInsertStep lists t.trees name) (X := X) (p := [])
    (fun p s => (s.addr gNil, topAddr gNil p)) (fun p _ => topAddr gNil p)
    (fun p _ => by simp [bstInsertStep])
    (fun p c l a r hp => by
      obtain ⟨ha, hu, hl, hr⟩ := h.node hp
      simp only [addr_node, bstInsertStep, if_neg ha, insertDir, hl, hr, ne_eq, hu,
        not_false_eq_true, true_and]
      split <;> rfl)
    (plug_nil X) hlen
  rw [h.root]
  exact hrun

/-- The link `bst_insert` makes below `y`. -/
def linkBelow (lists : Off → ListNode) (t : Index) (name : CStr) (y z : Off) : Index :=
  if y = gNil then t.setRoot z
  else if (t.trees y).userOff ≠ 0 ∧ strcmp name (nameAt lists t.trees y) = .lt then
    t.setChild y .left z
  else t.setChild y .right z

theorem view_linkBelow (h : IndexTree lists t X) (name : CStr) (z : Off) {p : TreePath Off}
    (hp : plug p .nil = X)
    (hf : ∀ f ∈ p, insertDir name (nameAt lists t.trees) f.label = some f.dir) :
    (linkBelow lists t name (topAddr gNil p) z).view = t.view.hang p z := by
  cases p with
  | nil => rw [linkBelow, if_pos (topAddr_nil _)]; rfl
  | cons f q =>
    have hm : f.label ∈ X.toList := by
      rw [← hp, mem_toList_plug]
      exact Or.inr (mem_labels_cons.mpr (Or.inl rfl))
    have hd := hf f List.mem_cons_self
    unfold insertDir at hd
    rw [linkBelow, topAddr_cons, if_neg (h.place.ne_nil _ hm)]
    simp only [ne_eq, h.users _ hm, not_false_eq_true, true_and]
    split at hd
    next h0 =>
      rw [if_pos h0, Index.view_setChild, Option.some.inj hd]
      rfl
    next h0 =>
      rw [if_neg h0, Index.view_setChild, Option.some.inj hd]
      rfl

theorem sameUsers_linkBelow (name : CStr) (y z : Off) :
    Index.SameUsers t (linkBelow lists t name y z) := by
  unfold linkBelow
  split
  · exact Index.sameUsers_setRoot ..
  · split
    · exact Index.sameUsers_setChild ..
    · exact Index.sameUsers_setChild ..

/-- The leaf hung at its place is where the insertion repair starts. -/
theorem IndexTree.insertInv (h : IndexTree lists t X) (name : CStr) {z : Off} {p : TreePath Off}
    (hp : p = insertPath lists t.trees name X) (hz : z ∉ X.toList) (hzn : z ≠ gNil)
    (hcell : t.view.cell z = ⟨gNil, gNil, topAddr gNil p, .red⟩) (size : Int) :
    let t' := (linkBelow lists t name (topAddr gNil p) z).setSize size
    InsertInv t' (before p ++ z :: after p) (rotatesRoot p) p.length (t', z) p
      (.node .red .nil z .nil) 0 := by
  have hplug : plug p .nil = X := hp ▸ plug_insertPath ..
  have hf : ∀ f ∈ p, insertDir name (nameAt lists t.trees) f.label = some f.dir := by
    rw [hp]
    exact descend_frames _ X (by simp)
  have hpl : IsPlace t.view gNil X.toList p .nil := IsPlace.whole.mpr (hplug ▸ h.place)
  have hrb := h.rb
  rw [← hplug] at hrb
  obtain ⟨n, hpath, hnil, -⟩ := hrb.unplug
  cases hnil
  refine ⟨rfl, ?_, rfl, rfl, .red rfl rfl .nil .nil, hpath, .refl _, fun hc => ⟨hc, rfl⟩⟩
  rw [Index.view_setSize, view_linkBelow h name z hplug hf]
  exact hpl.hang hz hzn hcell

/-- The new node as `bst_insert` prepares it. -/
def asLeaf (t : Index) (z : Off) : Index :=
  ((t.setChild z .left gNil).setChild z .right gNil).setColor z .red

/-- The index in which the repair of an insertion starts: the node `z` hangs below `y`. -/
def insertStart (lists : Off → ListNode) (t : Index) (name : CStr) (y z : Off) : Index :=
  let t := linkBelow lists ((asLeaf t z).setParent z y) name y z
  t.setSize (t.bst.size + 1)

theorem sameUsers_asLeaf (z : Off) : Index.SameUsers t (asLeaf t z) :=
  ((Index.sameUsers_setChild ..).trans (Index.sameUsers_setChild ..)).trans
    (Index.sameUsers_setColor ..)

/-- Preparing a node outside the tree keeps the tree. -/
theorem IndexTree.leaf (h : IndexTree lists t X) {z : Off} (hz : z ∉ X.toList) (hzn : z ≠ gNil) :
    IndexTree lists (asLeaf t z) X :=
  h.outside hz hzn
    (fun a ha => by
      simp [asLeaf, Index.setChild, Index.setColor, Index.modify, ha])
    rfl

/-- `bst_insert` descends to the place and starts the repair there. -/
theorem bstInsert_start (h : IndexTree lists t X) {n : Nat} {z : Off} (user : Off)
    (hzdef : z = treeSlot (n - 1)) (hlen : X.toList.length < userStorePoolNodes)
    (hz : z ∉ X.toList) (hzn : z ≠ gNil) :
    let name := (lists user).data.name
    run (bstInsertStep lists (asLeaf t z).trees name) userStorePoolNodes
        ((asLeaf t z).bst.rootOff, gNil) =
        some (topAddr gNil (insertPath lists t.trees name X)) ∧
      bstInsert lists n t user = rbtInsertFixup
        (insertStart lists t name (topAddr gNil (insertPath lists t.trees name X)) z) z := by
  intro name
  have hrun := bstInsert_search (h.leaf hz hzn) hlen name
  rw [insertPath, nameAt_congr (sameUsers_asLeaf z), ← insertPath] at hrun
  refine ⟨hrun, ?_⟩
  rw [bstInsert, ← hzdef]
  change (run (bstInsertStep lists (asLeaf t z).trees name) userStorePoolNodes
    ((asLeaf t z).bst.rootOff, gNil)).bind _ = _
  rw [hrun]
  rfl

/-- The repair of an insertion starts under its invariant, with the users, the sentinel's links
and, below the root, the root as they were. -/
theorem IndexTree.insertStart_inv (h : IndexTree lists t X) (name : CStr) {z : Off} {p : TreePath Off}
    (hp : p = insertPath lists t.trees name X) (hz : z ∉ X.toList) (hzn : z ≠ gNil) :
    let t' := insertStart lists t name (topAddr gNil p) z
    InsertInv t' (before p ++ z :: after p) (rotatesRoot p) p.length (t', z) p
        (.node .red .nil z .nil) 0 ∧
      Index.SameUsers t t' ∧ (t'.trees gNil).links = (t.trees gNil).links ∧
      (p ≠ [] → t'.bst.rootOff = t.bst.rootOff) := by
  intro t'
  obtain ⟨t₂, ht₂⟩ : ∃ t₂, t₂ = (asLeaf t z).setParent z (topAddr gNil p) := ⟨_, rfl⟩
  have hs₂ : Index.SameUsers t t₂ :=
    (sameUsers_asLeaf z).trans (ht₂ ▸ Index.sameUsers_setParent ..)
  have hother : ∀ a, a ≠ z → t₂.trees a = t.trees a := fun a ha => by
    simp [ht₂, asLeaf, Index.setChild, Index.setColor, Index.setParent, Index.modify, ha]
  have h₂ : IndexTree lists t₂ X := h.outside hz hzn hother (by rw [ht₂]; rfl)
  have hcell : t₂.view.cell z = ⟨gNil, gNil, topAddr gNil p, .red⟩ := by
    simp [ht₂, asLeaf, Index.setChild, Index.setColor, Index.setParent, Index.modify,
      BSTnode.setChild, BSTnode.links]
  have hp₂ : p = insertPath lists t₂.trees name X := by
    rw [hp, insertPath, insertPath, nameAt_congr hs₂]
  have ht' : t' = (linkBelow lists t₂ name (topAddr gNil p) z).setSize
      ((linkBelow lists t₂ name (topAddr gNil p) z).bst.size + 1) := by
    rw [ht₂]
    rfl
  have hplug : plug p .nil = X := hp ▸ plug_insertPath ..
  have hview : t'.view = t₂.view.hang p z := by
    rw [ht', Index.view_setSize]
    exact view_linkBelow h₂ name z hplug (hp₂ ▸ descend_frames _ X (by simp))
  refine ⟨ht' ▸ h₂.insertInv name hp₂ hz hzn hcell _, ?_, ?_, fun hne => ?_⟩
  · exact hs₂.trans (ht' ▸ (sameUsers_linkBelow ..).trans (Index.sameUsers_setSize ..))
  · have hmem : gNil ∉ labels p := fun hm => by
      refine h.place.ne_nil gNil ?_ rfl
      rw [plug_nil, ← hplug, mem_toList_plug]
      exact Or.inr hm
    rw [← Index.view_cell, hview, Linked.hang_cell hmem, Index.view_cell, hother gNil hzn.symm]
  · obtain ⟨f, q, hq⟩ := List.exists_cons_of_ne_nil hne
    rw [← Index.view_root, hview, hq]
    exact congrArg BST.rootOff (by rw [ht₂]; rfl)

/-- Inserting a name after those not above it keeps the names in order. -/
theorem IndexTree.sorted_insert (h : IndexTree lists t X) {z : Off} {name : CStr}
    (hname : nameAt lists t.trees z = name) :
    let p := insertPath lists t.trees name X
    (before p ++ z :: after p).Pairwise
      fun a b => nameAt lists t.trees a ≤ nameAt lists t.trees b := by
  intro p
  have hplug : plug p .nil = X := plug_insertPath ..
  obtain ⟨hb, ha⟩ := insertDir_sides h.sorted name
  have hsort := h.sorted
  rw [← hplug, toList_plug, toList_nil, List.append_nil, List.pairwise_append] at hsort
  rw [List.pairwise_append, List.pairwise_cons]
  refine ⟨hsort.1, ⟨fun a hm => ?_, hsort.2.1⟩, fun a hm b hm' => ?_⟩
  · rw [hname]
    exact (ha a hm).le
  · rcases List.mem_cons.mp hm' with rfl | hm'
    · rw [hname]
      exact hb a hm
    · exact hsort.2.2 a hm b hm'

/-- **`bst_insert`** is total, keeps the index and adds the node `z` at its place among the
names. -/
theorem bstInsert_spec (h : IndexTree lists t X) {n : Nat} {z : Off} (user : Off)
    (hzdef : z = treeSlot (n - 1)) (hlen : X.toList.length + 1 < userStorePoolNodes)
    (hz : z ∉ X.toList)
    (hzn : z ≠ gNil) (huser : (t.trees z).userOff = user) (hu0 : user ≠ 0) :
    let p := insertPath lists t.trees (lists user).data.name X
    ∃ t' X', bstInsert lists n t user = some t' ∧ IndexTree lists t' X' ∧
      X'.toList = before p ++ z :: after p ∧ Index.SameUsers t t' ∧
      (insertKeepsRoot lists t.trees (lists user).data.name X = true →
        t'.bst.rootOff = t.bst.rootOff) := by
  intro p
  obtain ⟨name, hname⟩ : ∃ name, name = (lists user).data.name := ⟨_, rfl⟩
  have hp : p = insertPath lists t.trees name X := by rw [hname]
  obtain ⟨-, hstart⟩ := bstInsert_start h user hzdef (by omega) hz hzn
  obtain ⟨hInv, hs, hnil, hroot⟩ := h.insertStart_inv name hp hz hzn
  rw [← hname, ← hp] at hstart
  have hplug : plug p .nil = X := plug_insertPath ..
  have hmem : ∀ a ∈ labels p, a ∈ X.toList := fun a ha => by
    rw [← hplug, mem_toList_plug]
    exact Or.inr ha
  have hlen' := length_le_labels p
  have hlab : (labels p).length = X.toList.length := by
    rw [← hplug, toList_plug, toList_nil, List.append_nil, labels]
  have hblack : ((insertStart lists t name (topAddr gNil p) z).trees gNil).color = .black := by
    rw [← BSTnode.links_color, hnil, BSTnode.links_color, h.nil_color]
  obtain ⟨t', X', hfix, hrep⟩ := rbtInsertFixup_spec hblack (by omega) hInv
  obtain ⟨hX', htree⟩ : _ ∧ IndexTree lists _ X' := hrep.indexTree
    (by rw [nameAt_congr hs]; exact hp ▸ h.sorted_insert (by rw [nameAt, huser, hname]))
    (fun a ha => by
      rw [hs.userOff]
      rcases List.mem_append.mp ha with ha | ha
      · exact h.users a (hmem a (List.mem_append_left _ ha))
      · rcases List.mem_cons.mp ha with rfl | ha
        · rwa [huser]
        · exact h.users a (hmem a (List.mem_append_right _ ha)))
    (by rw [← BSTnode.links_left, hnil, BSTnode.links_left, h.nil_left])
    (by rw [← BSTnode.links_right, hnil, BSTnode.links_right, h.nil_right]) hblack
  refine ⟨t', X', hstart.trans hfix, htree, hX', hs.trans hrep.spares.users, fun hkeep => ?_⟩
  rw [← hname, insertKeepsRoot, ← hp, Bool.and_eq_true, Bool.not_eq_true', Bool.not_eq_true',
    List.isEmpty_eq_false_iff] at hkeep
  obtain ⟨hne, hrot⟩ := hkeep
  rw [hrep.keeps hrot, hroot hne]

/-! ## Deletion -/

/-- `rbt_minimum` walks to the least node of a subtree. -/
theorem rbtMinimum_run {T : List Off} {p q : TreePath Off} {c : Color} {a : Off}
    {l r : ColorTree Off}
    {fuel : Nat} (h : IsPlace t.view gNil T p (.node c l a r)) (hfuel : l.toList.length < fuel) :
    run (fun node => if (t.trees node).leftOff = gNil then .done node
      else .next (t.trees node).leftOff) fuel a = some (least q c a r l).label := by
  induction l generalizing p q c a r fuel with
  | nil =>
    obtain ⟨fuel, rfl⟩ : ∃ k, fuel = k + 1 := ⟨fuel - 1, by omega⟩
    have hleft : (t.trees a).leftOff = gNil := by
      rw [Index.leftOff_eq, h.cell (d := .left)]; rfl
    exact run_succ_done (by rw [if_pos hleft]; rfl)
  | node c' l' a' r' ih _ =>
    obtain ⟨fuel, rfl⟩ : ∃ k, fuel = k + 1 := ⟨fuel - 1, by omega⟩
    have hleft : (t.trees a).leftOff = a' := by
      rw [Index.leftOff_eq, h.cell (d := .left)]; rfl
    have hchild := (IsPlace.child (d := .left)).mp h
    have hne : a' ≠ gNil := hchild.zip.2.1
    rw [run_succ_next (by rw [if_neg (by rw [hleft]; exact hne)]), hleft]
    rw [toList_node, List.length_append, List.length_cons] at hfuel
    exact ih hchild (by omega)

/-- **`bst_delete` takes the node out** as `splice` does, and leaves the sentinel's parent field
pointing above the place when the place is empty. -/
theorem bstSplice_spec {T : List Off} {p : TreePath Off} {c : Color} {z : Off} {l r : ColorTree Off}
    (h : IsPlace t.view gNil T p (.node c l z r)) (hlen : T.length < userStorePoolNodes) :
    let s := splice p c l r
    ∃ t' w, bstSplice t z = some (t', s.2.1.addr gNil, s.2.2) ∧
      IsPlace t'.view gNil (plug s.1 s.2.1).toList s.1 s.2.1 ∧
      t'.view.cell gNil = { t.view.cell gNil with parent := w } ∧
      (s.2.1 = .nil → w = topAddr gNil s.1) ∧ Index.SameUsers t t' ∧
      (p ≠ [] → t'.bst.rootOff = t.bst.rootOff) := by
  intro s
  have hcell := h.cell (d := .left)
  have hl : (t.trees z).leftOff = l.addr gNil := by rw [Index.leftOff_eq, hcell]; rfl
  have hr : (t.trees z).rightOff = r.addr gNil := by rw [Index.rightOff_eq, hcell]; rfl
  have hc : (t.trees z).color = c := by rw [Index.color_eq, hcell]; rfl
  have hln := ((IsPlace.child (d := .left)).mp h).addr_eq_nil
  have hrn := ((IsPlace.child (d := .right)).mp h).addr_eq_nil
  unfold bstSplice
  simp only [hl, hr, hc]
  rcases Classical.em (l = .nil) with rfl | hlne
  · -- no left child: the right child moves up
    have h' : IsPlace t.view gNil T p (build .right c r z .nil) := h
    obtain ⟨w, hw, hwt⟩ := h'.transplant_nil
    rw [if_pos (hln.mpr rfl)]
    refine ⟨_, w, rfl, ?_, ?_, hwt, Index.sameUsers_transplant .., fun hp => ?_⟩
    · rw [Index.view_transplant]; exact h'.transplant
    · rw [Index.view_transplant, hw]
    · rw [← Index.view_root, Index.view_transplant, h'.transplant_root, if_neg hp]; rfl
  rw [if_neg (mt hln.mp hlne)]
  rcases Classical.em (r = .nil) with rfl | hrne
  · -- no right child: the left child moves up
    have hs : s = (p, l, c) := by
      cases l with
      | nil => exact absurd rfl hlne
      | node _ _ _ _ => rfl
    have h' : IsPlace t.view gNil T p (build .left c l z .nil) := h
    obtain ⟨w, hw, hwt⟩ := h'.transplant_nil
    rw [if_pos (hrn.mpr rfl), hs]
    refine ⟨_, w, rfl, ?_, ?_, hwt, Index.sameUsers_transplant .., fun hp => ?_⟩
    · rw [Index.view_transplant]; exact h'.transplant
    · rw [Index.view_transplant, hw]
    · rw [← Index.view_root, Index.view_transplant, h'.transplant_root, if_neg hp]; rfl
  rw [if_neg (mt hrn.mp hrne)]
  obtain ⟨cr, lr, a, rr, rfl⟩ := exists_build .left hrne
  -- two children: the successor takes the place
  obtain ⟨m, hm⟩ : ∃ m, m = least [] cr a rr lr := ⟨_, rfl⟩
  have hs : s = (m.path ++ ⟨.right, c, m.label, l⟩ :: p, m.right, m.color) := by
    rw [hm]
    cases l with
    | nil => exact absurd rfl hlne
    | node _ _ _ _ => rfl
  have hplug : plug m.path (.node m.color .nil m.label m.right) = .node cr lr a rr := by
    rw [hm]
    exact plug_least ..
  have hmin : rbtMinimum t a = some m.label := by
    rw [hm]
    refine rbtMinimum_run ((IsPlace.child (d := .right)).mp h) ?_
    have hle : (plug p (.node c l z (build .left cr lr a rr))).toList.length = T.length := by
      rw [h.labels_eq]
    rw [toList_plug] at hle
    simp only [build, toList_node, List.length_append, List.length_cons] at hle
    omega
  have hy : IsPlace t.view gNil T p
      (.node c l z (plug m.path (.node m.color .nil m.label m.right))) := by
    rw [hplug]
    exact h
  have hsucc := hy.successor.cell
  have hyr : (t.trees m.label).rightOff = m.right.addr gNil := by
    rw [Index.rightOff_eq, hsucc]; rfl
  have hyc : (t.trees m.label).color = m.color := by
    rw [Index.color_eq, hsucc]; rfl
  obtain ⟨hpl, ⟨w, hw, hwt⟩, hroot⟩ := hy.takeOver hlne
  rw [← Index.view_detachSuccessor, ← Index.view_takePlace] at hpl hw hroot
  rw [addr_build, hmin, Option.map_some, hyr, hyc, hs]
  exact ⟨_, w, rfl, hpl, hw, hwt,
    (Index.sameUsers_detachSuccessor ..).trans (Index.sameUsers_takePlace ..), hroot⟩

/-- Does taking out the root of the subtree `node c l z r` at `p` move the root of the tree? It
does at the top, and when the repair rotates there. -/
def deleteMovesRoot (p : TreePath Off) (c : Color) (l r : ColorTree Off) : Bool :=
  let (q, x, k) := splice p c l r
  p.isEmpty || (k = .black && x.color = .black && shortRotatesRoot q)

/-- The repair of a deletion starts under its invariant where a black node was taken out. -/
theorem deleteInv_start {t₀ : Index} {p : TreePath Off} {x : ColorTree Off} {climbs : Bool} {n : Nat}
    (hpl : IsPlace t₀.view gNil (plug p x).toList p x)
    (hw : x = .nil → (t₀.view.cell gNil).parent = topAddr gNil p)
    (hp : RBPath p (n + 1)) (hshort : Short x n)
    (hclimbs : climbs = false → x.color = .black → shortRotatesRoot p = false) :
    DeleteInv t₀ (plug p x).toList climbs (p.length + if x.color = .black then 1 else 0)
      (t₀, x.addr gNil) p x n where
  measure_eq := rfl
  place := hpl
  addr_eq := rfl
  parent := hpl.parent_addr hw
  short := hshort
  path := hp
  spares := .refl _
  keeps := fun hc => ⟨hclimbs hc, rfl⟩

/-- The labels left bound the measure of the repair. -/
theorem measure_le_labels (p : TreePath Off) (x : ColorTree Off) :
    p.length + (if x.color = .black then 1 else 0) ≤ (plug p x).toList.length + 1 := by
  have hlab : (labels p).length ≤ (plug p x).toList.length := by
    rw [(toList_plug_perm p x).length_eq, List.length_append]
    omega
  have hle := length_le_labels p
  split <;> omega

/-- Painting and rotating after a node was taken out. -/
theorem bstDelete_repair {t₀ : Index} {s : TreePath Off × ColorTree Off × Color} {w : Off}
    (hlen : (plug s.1 s.2.1).toList.length + 1 < userStorePoolNodes)
    (hpl : IsPlace t₀.view gNil (plug s.1 s.2.1).toList s.1 s.2.1)
    (hnil : (t₀.view.cell gNil).color = .black) (hw : (t₀.view.cell gNil).parent = w)
    (hwt : s.2.1 = .nil → w = topAddr gNil s.1) (hrem : Remains s.1 s.2.1 s.2.2) :
    ∃ t' X', (if s.2.2 = .black then rbtDeleteFixup t₀ (s.2.1.addr gNil) else some t₀) = some t' ∧
      Repaired t₀ (plug s.1 s.2.1).toList
        (s.2.2 = .black && s.2.1.color = .black && shortRotatesRoot s.1) t' X' := by
  obtain ⟨p, x, k⟩ := s
  cases k with
  | red =>
    exact ⟨t₀, plug p x, if_neg (by simp), IsPlace.whole.mp hpl, hrem, .refl _, fun _ => rfl⟩
  | black =>
    obtain ⟨n, hp, hshort⟩ := hrem
    have hle := measure_le_labels p x
    simp only at hlen
    rw [if_pos rfl]
    refine rbtDeleteFixup_spec hnil (lt_of_le_of_lt hle hlen)
      (deleteInv_start hpl (fun hx => hw.trans (hwt hx)) hp hshort fun hc hx => ?_)
    simpa [hx] using hc

/-- The search of `bst_delete` ends where the search for the name ends. -/
theorem bstDelete_search (h : IndexTree lists t X) (hlen : X.toList.length < userStorePoolNodes)
    (name : CStr) : run (bstDeleteStep lists t.trees name) userStorePoolNodes t.bst.rootOff =
      some ((descend (findDir name (nameAt lists t.trees)) [] X).2.addr gNil) := by
  have hrun := run_descend (findDir name (nameAt lists t.trees))
    (bstDeleteStep lists t.trees name) (X := X) (p := [])
    (fun _ s => s.addr gNil) (fun _ s => s.addr gNil)
    (fun p _ => by simp [bstDeleteStep])
    (fun p c l a r hp => by
      obtain ⟨ha, hu, hl, hr⟩ := h.node hp
      simp only [addr_node, bstDeleteStep, if_neg ha, if_neg hu, findDir, hl, hr]
      cases strcmp name (nameAt lists t.trees a) <;> rfl)
    (plug_nil X) hlen
  rw [h.root]
  exact hrun

/-- **`bst_delete`** is total. It takes out the node of that name the search ends at and keeps
the index. -/
theorem bstDelete_found (h : IndexTree lists t X) (hlen : X.toList.length < userStorePoolNodes)
    {name : CStr} {p : TreePath Off} {c : Color} {l r : ColorTree Off} {z : Off}
    (hd : descend (findDir name (nameAt lists t.trees)) [] X = (p, .node c l z r)) :
    ∃ t' X', bstDelete lists t name = some (0, t') ∧ IndexTree lists t' X' ∧
      X'.toList = before p ++ (l.toList ++ r.toList) ++ after p ∧ Index.SameUsers t t' ∧
      (deleteMovesRoot p c l r = false → t'.bst.rootOff = t.bst.rootOff) := by
  have hplug : plug p (.node c l z r) = X := by
    have hp := plug_descend (findDir name (nameAt lists t.trees)) [] X
    rwa [hd, plug_nil] at hp
  have hpl : IsPlace t.view gNil X.toList p (.node c l z r) := IsPlace.whole.mpr (hplug ▸ h.place)
  have hrb := h.rb
  rw [← hplug] at hrb
  have hT := toList_splice p c l r
  have hX : X.toList = before p ++ (l.toList ++ z :: r.toList) ++ after p := by
    rw [← hplug, toList_plug, toList_node]
  have hsub : (plug (splice p c l r).1 (splice p c l r).2.1).toList.Sublist X.toList := by
    rw [hT, hX]
    simp
  obtain ⟨t₁, w, hsp, hpl₁, hnil₁, hwt, hs₁, hroot₁⟩ := bstSplice_spec hpl hlen
  obtain ⟨t₂, ht₂⟩ : ∃ t₂, t₂ = t₁.setUnused z := ⟨_, rfl⟩
  have hv : t₂.view = t₁.view := by rw [ht₂, Index.view_setUnused]
  have hs₂ : Index.SameUsers t t₂ := hs₁.trans (ht₂ ▸ Index.sameUsers_setUnused ..)
  rw [← hv] at hpl₁ hnil₁
  have hlen' : (plug (splice p c l r).1 (splice p c l r).2.1).toList.length + 1 <
      userStorePoolNodes := by
    rw [hT]
    rw [hX] at hlen
    simp only [List.length_append, List.length_cons] at hlen ⊢
    omega
  obtain ⟨t₃, X', hfix, hrep⟩ := bstDelete_repair hlen' hpl₁
    (by rw [hnil₁]; exact h.nil_color) (by rw [hnil₁]) hwt hrb.splice
  obtain ⟨hX', htree⟩ : _ ∧ IndexTree lists _ X' := hrep.indexTree
    (by rw [nameAt_congr hs₂]; exact h.sorted.sublist hsub)
    (fun a ha => by rw [hs₂.userOff]; exact h.users a (hsub.subset ha))
    (by
      rw [← BSTnode.links_left, ← Index.view_cell, hnil₁]
      exact h.nil_left)
    (by
      rw [← BSTnode.links_right, ← Index.view_cell, hnil₁]
      exact h.nil_right)
    (by
      rw [← BSTnode.links_color, ← Index.view_cell, hnil₁]
      exact h.nil_color)
  refine ⟨t₃.setSize (t₃.bst.size - 1), X', ?_, htree.setSize _, hX'.trans hT,
    (hs₂.trans hrep.spares.users).trans (Index.sameUsers_setSize ..), fun hroot => ?_⟩
  · have hz : z ≠ gNil := hpl.zip.2.1
    unfold bstDelete
    rw [bstDelete_search h hlen, Option.bind_some, hd, addr_node, if_neg hz, hsp,
      Option.bind_some]
    simp only [← ht₂, hfix, Option.map_some]
  · simp only [deleteMovesRoot, Bool.or_eq_false_iff, List.isEmpty_eq_false_iff] at hroot
    have h₃ : t₃.bst.rootOff = t₂.bst.rootOff := hrep.keeps hroot.2
    change t₃.bst.rootOff = _
    rw [h₃, ht₂]
    exact hroot₁ hroot.1

/-- The tree after the deletion of a name, given the tree before it: without the node the search
for the name ends at. -/
def Removed (lists : Off → ListNode) (trees : Off → BSTnode) (name : CStr) (X X' : ColorTree Off) :
    Prop :=
  match descend (findDir name (nameAt lists trees)) [] X with
  | (_, .nil) => X' = X
  | (p, .node _ l _ r) => X'.toList = before p ++ (l.toList ++ r.toList) ++ after p

/-- Does deleting a name leave the root where it is? -/
def deleteKeepsRoot (lists : Off → ListNode) (trees : Off → BSTnode) (name : CStr)
    (X : ColorTree Off) : Bool :=
  match descend (findDir name (nameAt lists trees)) [] X with
  | (_, .nil) => true
  | (p, .node c l _ r) => !deleteMovesRoot p c l r

/-- A deletion takes out one node of the name if there is one. -/
theorem Removed.cases (h : IndexTree lists t X) {name : CStr} {X' : ColorTree Off}
    (hr : Removed lists t.trees name X X') :
    (X' = X ∧ ∀ a ∈ X.toList, nameAt lists t.trees a ≠ name) ∨
      ∃ z, nameAt lists t.trees z = name ∧ X.toList.Perm (z :: X'.toList) ∧
        X'.toList.Sublist X.toList := by
  unfold Removed at hr
  rcases descend_findDir h.sorted name with ⟨c, l, z, r, hd, hz⟩ | ⟨hd, hno⟩
  · obtain ⟨p, hp⟩ : ∃ p, descend (findDir name (nameAt lists t.trees)) [] X =
        (p, .node c l z r) := ⟨_, Prod.ext rfl hd⟩
    have hplug := plug_descend (findDir name (nameAt lists t.trees)) [] X
    rw [hp, plug_nil] at hplug
    rw [hp] at hr
    refine Or.inr ⟨z, hz, ?_, ?_⟩
    · simp only at hr
      rw [← hplug, hr]
      exact toList_plug_node p c l z r
    · rw [← hplug, toList_plug, toList_node]
      simp only at hr
      rw [hr]
      simp
  · obtain ⟨p, hp⟩ : ∃ p, descend (findDir name (nameAt lists t.trees)) [] X = (p, .nil) :=
      ⟨_, Prod.ext rfl hd⟩
    rw [hp] at hr
    exact Or.inl ⟨hr, hno⟩

/-- **`bst_delete`** is total and keeps the index, whether or not a node has the name. -/
theorem bstDelete_spec (h : IndexTree lists t X) (hlen : X.toList.length < userStorePoolNodes)
    (name : CStr) : ∃ res t' X', bstDelete lists t name = some (res, t') ∧ IndexTree lists t' X' ∧
      Index.SameUsers t t' ∧ Removed lists t.trees name X X' ∧
      (deleteKeepsRoot lists t.trees name X = true → t'.bst.rootOff = t.bst.rootOff) := by
  unfold Removed deleteKeepsRoot
  rcases hd : descend (findDir name (nameAt lists t.trees)) [] X with ⟨p, _ | ⟨c, l, z, r⟩⟩
  · refine ⟨-1, t, X, ?_, h, .refl t, rfl, fun _ => rfl⟩
    unfold bstDelete
    rw [bstDelete_search h hlen, Option.bind_some, hd, addr_nil, if_pos rfl]
  · obtain ⟨t', X', hdel, htree, hX', hsame, hroot⟩ := bstDelete_found h hlen hd
    exact ⟨0, t', X', hdel, htree, hsame, hX', fun hk => hroot (by simpa using hk)⟩

end

end MiniWeb.UserStore
