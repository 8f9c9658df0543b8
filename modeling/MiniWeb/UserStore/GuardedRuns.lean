import MiniWeb.UserStore.GuardedFixup
import MiniWeb.UserStore.Runs

/-!
# No check fails in any run

The checked insertion and deletion answer what the unchecked ones do on every red-black index, so
they do in every store that a run of loads, additions and deletions goes through: the fixups end
within as many passes as the tree is high and never touch the sentinel.
-/

namespace MiniWeb.UserStore

open RedBlack Loop CStr ColorTree TreePath

/-! ## The height of the tree -/

theorem Layout.heightBelow {t : Index} {q : Off} {X : ColorTree Off} {depth : Nat}
    (h : Layout t.view gNil q X) (hdepth : X.height ≤ depth) :
    t.heightBelow depth (X.addr gNil) = X.height := by
  induction X generalizing q depth with
  | nil =>
    cases depth with
    | zero => rfl
    | succ depth => exact if_pos rfl
  | node c l a r ihl ihr =>
    obtain ⟨ha, hcell, hl, hr⟩ := h
    rw [ColorTree.height] at hdepth ⊢
    obtain ⟨depth, rfl⟩ : ∃ k, depth = k + 1 := ⟨depth - 1, by omega⟩
    have hleft : (t.trees a).leftOff = l.addr gNil := by rw [Index.leftOff_eq, hcell]
    have hright : (t.trees a).rightOff = r.addr gNil := by rw [Index.rightOff_eq, hcell]
    rw [Index.heightBelow, addr_node, if_neg ha, hleft, hright, ihl hl (by omega),
      ihr hr (by omega)]

section

variable {lists : Off → ListNode} {t : Index} {X : ColorTree Off}

theorem IndexTree.height_eq (h : IndexTree lists t X) (hlen : X.toList.length < userStorePoolNodes) :
    t.height = X.height := by
  have hle : X.height ≤ X.toList.length := X.height_le_length
  have hlay : Layout t.view gNil gNil X := h.place.zip.2
  rw [Index.height, h.root]
  exact Layout.heightBelow hlay (by omega)

/-! ## Insertion and deletion -/

theorem linkBelowGuarded_eq (lists : Off → ListNode) (t : Index) (name : CStr) (y z : Off) :
    linkBelowGuarded lists t name y z = some (linkBelow lists t name y z) := by
  unfold linkBelowGuarded linkBelow
  split
  · rfl
  next hy =>
    split
    · exact Index.putChild_of_ne hy z
    · exact Index.putChild_of_ne hy z

/-- The walk to the least node does not end at the sentinel. -/
theorem rbtMinimum_ne_gNil {t : Index} {a y : Off} (ha : a ≠ gNil)
    (h : rbtMinimum t a = some y) : y ≠ gNil := by
  obtain ⟨b, hb, hdone⟩ := run_exit (fun a => a ≠ gNil) (fun a b _ hstep => by
    split at hstep
    · cases hstep
    next hleft => cases hstep; exact hleft) ha h
  split at hdone
  · cases hdone
    exact hb
  · cases hdone

/-- Taking a node out writes no link and no colour of the sentinel. -/
theorem bstSpliceGuarded_eq (t : Index) (z : Off) : bstSpliceGuarded t z = bstSplice t z := by
  unfold bstSpliceGuarded bstSplice
  simp only [rbtTransplantGuarded_eq, Option.map_some]
  split
  · rfl
  · split
    · rfl
    next hr =>
      cases hmin : rbtMinimum t (t.trees z).rightOff with
      | none => rfl
      | some y =>
        have hy := rbtMinimum_ne_gNil hr hmin
        have hdetach : ∀ x, bstDetachSuccessorGuarded t z y x = some (bstDetachSuccessor t z y x) := by
          intro x
          unfold bstDetachSuccessorGuarded bstDetachSuccessor
          split
          · rfl
          · rw [rbtTransplantGuarded_eq, Option.bind_some, Index.putChild_of_ne hy]
            rfl
        have htake : ∀ t, bstTakePlaceGuarded t z y = some (bstTakePlace t z y) := by
          intro t
          simp only [bstTakePlaceGuarded, rbtTransplantGuarded_eq, Option.bind_some,
            Index.putChild_of_ne hy, Index.putColor_of_ne hy, bstTakePlace]
        simp only [Option.bind_some, Option.map_some, hdetach, htake]

theorem length_insertPath_le (lists : Off → ListNode) (trees : Off → BSTnode) (name : CStr)
    (X : ColorTree Off) : (insertPath lists trees name X).length ≤ X.height := by
  have h := height_plug_le (insertPath lists trees name X) .nil
  rw [plug_insertPath] at h
  omega

/-- **`bst_insert` meets its checks** on every index. -/
theorem bstInsertGuarded_eq (h : IndexTree lists t X) {n : Nat} {z : Off} (user : Off)
    (hzdef : z = treeSlot (n - 1)) (hlen : X.toList.length + 1 < userStorePoolNodes)
    (hz : z ∉ X.toList) (hzn : z ≠ gNil) :
    bstInsertGuarded lists n t user = bstInsert lists n t user := by
  obtain ⟨name, hname⟩ : ∃ name, name = (lists user).data.name := ⟨_, rfl⟩
  obtain ⟨hrun, hstart⟩ := bstInsert_start h user hzdef (by omega) hz hzn
  obtain ⟨p, hp⟩ : ∃ p, p = insertPath lists t.trees name X := ⟨_, rfl⟩
  obtain ⟨hInv, -, hnil, -⟩ := h.insertStart_inv name hp hz hzn
  rw [← hname, ← hp] at hrun hstart
  have hblack : ((insertStart lists t name (topAddr gNil p) z).trees gNil).color = .black := by
    rw [← BSTnode.links_color, hnil, BSTnode.links_color, h.nil_color]
  have hdepth : p.length ≤ t.height := by
    rw [h.height_eq (by omega), hp]
    exact length_insertPath_le ..
  have hle : X.height ≤ X.toList.length := X.height_le_length
  have hheight := h.height_eq (by omega)
  rw [hstart, bstInsertGuarded, ← hzdef, ← hname]
  simp only [Index.putChild_of_ne hzn, Index.putColor_of_ne hzn, Option.bind_some]
  change (run (bstInsertStep lists (asLeaf t z).trees name) userStorePoolNodes
    ((asLeaf t z).bst.rootOff, gNil)).bind _ = _
  rw [hrun, Option.bind_some, linkBelowGuarded_eq, Option.bind_some]
  exact rbtInsertFixupGuarded_eq hblack hdepth (by omega) hInv

/-- **`bst_delete` meets its checks** on every index. -/
theorem bstDeleteGuarded_eq (h : IndexTree lists t X) (hlen : X.toList.length < userStorePoolNodes)
    (name : CStr) : bstDeleteGuarded lists t name = bstDelete lists t name := by
  have hplug := plug_descend (findDir name (nameAt lists t.trees)) [] X
  unfold bstDeleteGuarded bstDelete
  simp only [bstDelete_search h hlen, Option.bind_some]
  generalize descend (findDir name (nameAt lists t.trees)) [] X = place at hplug
  obtain ⟨p, s⟩ := place
  rw [plug_nil] at hplug
  cases s with
  | nil => simp only [addr_nil, reduceIte]
  | node c l z r =>
    simp only at hplug
    have hpl : IsPlace t.view gNil X.toList p (.node c l z r) :=
      IsPlace.whole.mpr (hplug ▸ h.place)
    have hz : z ≠ gNil := hpl.zip.2.1
    have hrb := h.rb
    rw [← hplug] at hrb
    obtain ⟨t₁, w, hsp, hpl₁, hnil₁, hwt, -, -⟩ := bstSplice_spec hpl hlen
    obtain ⟨t₂, ht₂⟩ : ∃ t₂, t₂ = t₁.setUnused z := ⟨_, rfl⟩
    have hv : t₂.view = t₁.view := by rw [ht₂, Index.view_setUnused]
    rw [← hv] at hpl₁ hnil₁
    rw [addr_node, if_neg hz, if_neg hz, bstSpliceGuarded_eq, hsp, Option.bind_some,
      Option.bind_some]
    simp only [← ht₂]
    have hdepth := length_splice_lt p c l r z
    rw [hplug, ← h.height_eq hlen] at hdepth
    have hle := X.height_le_length
    have hheight := h.height_eq hlen
    have hrem := hrb.splice
    revert hpl₁ hwt hdepth hrem
    generalize splice p c l r = q
    intro hwt hpl₁ hdepth hrem
    obtain ⟨q, x, k⟩ := q
    cases k with
    | red => rw [if_neg (by simp), if_neg (by simp)]
    | black =>
      obtain ⟨n, hq, hshort⟩ := hrem
      have hInv := deleteInv_start hpl₁ (fun hx => by rw [hnil₁]; exact hwt hx) hq hshort
        fun hc : true = false => by cases hc
      rw [if_pos rfl, if_pos rfl, rbtDeleteFixupGuarded_eq _ _ _ hInv]
      · rw [hnil₁]
        exact h.nil_color
      · split <;> omega
      · split <;> omega

end

/-! ## The stores of a run -/

/-- The stores that runs of loads, additions and deletions go through: between operations, and
within a load after any of its lines. -/
inductive Reached : Store → Prop
  | between {s : Store} (ops : List Op) : runOps ops userStoreShmInit = some s → Reached s
  | loading {s s' : Store} {count : Nat} (ops : List Op) (lines : List (List UInt8)) :
    runOps ops userStoreShmInit = some s → loadLines lines s.reread 0 = some (s', count) →
      Reached s'

/-- A run leaves a sound store. -/
theorem sound_of_run {ops : List Op} {s : Store} (hrun : runOps ops userStoreShmInit = some s) :
    ∃ X L, Sound s X L := by
  obtain ⟨s', X, L, hrun', hs⟩ := sound_init.run ops
  rw [hrun] at hrun'
  cases hrun'
  exact ⟨X, L, hs⟩

/-- Loading lines keeps the invariant. -/
theorem StoreOK.loadLines {s : Store} {X : ColorTree Off} {L : List Off} (h : StoreOK s X L)
    (lines : List (List UInt8)) (count : Nat) :
    ∃ s' count', UserStore.loadLines lines s count = some (s', count') ∧ ∃ X L, StoreOK s' X L :=
  loadLines_rule (P := fun _ s => ∃ X L, StoreOK s X L) (fun _ h => h)
    (fun elem _ s ⟨X, L, hs⟩ => by
      rcases placeRecord_total hs elem with ⟨s', X', hp, hs', -⟩ | ⟨hp, -⟩
      · exact Or.inl ⟨s', hp, X', _, hs'.addSize 1⟩
      · exact Or.inr ⟨hp, X, L, hs⟩)
    ⟨X, L, h⟩

theorem Reached.storeOK {s : Store} (h : Reached s) : ∃ X L, StoreOK s X L := by
  cases h with
  | between ops hrun =>
    obtain ⟨X, L, hs⟩ := sound_of_run hrun
    exact ⟨X, L, hs.toStoreOK⟩
  | loading ops lines hrun hload =>
    obtain ⟨X, L, hs⟩ := sound_of_run hrun
    obtain ⟨s', count', hload', hs'⟩ := hs.reread.toStoreOK.loadLines lines 0
    rw [hload] at hload'
    cases hload'
    exact hs'

/-- The sentinel's colour, children and user are what they were. -/
structure SentinelKept (trees trees' : Off → BSTnode) : Prop where
  color : (trees' gNil).color = (trees gNil).color
  left : (trees' gNil).leftOff = (trees gNil).leftOff
  right : (trees' gNil).rightOff = (trees gNil).rightOff
  user : (trees' gNil).userOff = (trees gNil).userOff

/-- Two red-black indexes whose nodes have the same users have the same sentinel. -/
theorem IndexTree.sentinelKept {lists lists' : Off → ListNode} {t t' : Index} {X X' : ColorTree Off}
    (h : IndexTree lists t X) (h' : IndexTree lists' t' X')
    (hu : (t'.trees gNil).userOff = (t.trees gNil).userOff) : SentinelKept t.trees t'.trees :=
  ⟨h'.nil_color.trans h.nil_color.symm, h'.nil_left.trans h.nil_left.symm,
    h'.nil_right.trans h.nil_right.symm, hu⟩

section

variable {s : Store} {X : ColorTree Off} {L : List Off}

/-- Placing a record meets the checks of its insertion and spares the sentinel. -/
theorem StoreOK.placeGuarded (h : StoreOK s X L) (elem : ElemType) :
    ∃ placed s', placeRecordWith bstInsertGuarded elem s = some (placed, s') ∧
      placeRecord elem s = some (placed, s') ∧ SentinelKept s.shm.trees s'.shm.trees := by
  rcases Nat.lt_or_ge s.shm.header.listNextFree userStorePoolNodes with hfree | hfull
  · obtain ⟨t', X', hins, hidx, -, hsame, -⟩ := h.insert_fresh elem hfree
    have hf := h.fresh elem
    have hlen := h.labels_lt
    have hguard := bstInsertGuarded_eq hf.index (n := s.shm.header.listNextFree + 1)
      (listSlot s.shm.header.listNextFree) rfl (by omega) hf.outside (treeSlot_ne_gNil h.next_pos)
    have hkept := h.index.sentinelKept hidx <| by
      rw [hsame.userOff]
      exact congrArg BSTnode.userOff (treesWith_other (treeSlot_ne_gNil h.next_pos).symm)
    have hplace := placeRecord_eq h elem hfree
    simp only [hins, Option.map_some] at hplace
    refine ⟨true, _, ?_, hplace, hkept⟩
    rw [placeRecordWith_eq h _ elem hfree, hguard, hins, Option.map_some]
  · have hnone : placeRecordWith bstInsertGuarded elem s = some (false, s) := by
      simp only [placeRecordWith, listAlloc, ge_iff_le, if_pos hfull]
    exact ⟨false, s, hnone, placeRecord_full elem hfull, ⟨rfl, rfl, rfl, rfl⟩⟩

/-- The records that keep their data keep their names in the index. -/
theorem IndexTree.modifyList (h : IndexTree s.shm.lists s.index X) (a : Off)
    {f : ListNode → ListNode} (hf : ∀ n, (f n).data = n.data) :
    IndexTree (s.modifyList a f).shm.lists (s.modifyList a f).index X := by
  refine h.lists_congr _ fun b _ => ?_
  simp only [nameAt, Store.modifyList, Function.update_apply]
  split
  next hb => rw [hf, ← hb]
  next => rfl

/-- Deleting a record meets the checks of its deletion and spares the sentinel. -/
theorem StoreOK.deleteGuarded (h : StoreOK s X L) (name : CStr) :
    ∃ res s', userStoreDeleteWith bstDeleteGuarded name s = some (res, s') ∧
      userStoreDelete name s = some (res, s') ∧ SentinelKept s.shm.trees s'.shm.trees := by
  have hguard : userStoreDeleteWith bstDeleteGuarded name s = userStoreDelete name s := by
    rw [← userStoreDeleteWith_bstDelete]
    unfold userStoreDeleteWith
    simp only
    refine congrArg (Option.bind _) (funext fun found => ?_)
    rcases found with _ | ⟨prev, cur⟩
    · rfl
    · simp only
      have hprev := h.index.modifyList prev
        (f := fun n => { n with nextOff := (s.shm.lists cur).nextOff }) fun _ => rfl
      have hcur := hprev.modifyList cur (f := fun n => { n with used := false }) fun _ => rfl
      rw [bstDeleteGuarded_eq hcur h.labels_lt_pool]
  rw [hguard]
  rcases userStoreDelete_spec h name with ⟨-, hdel⟩ | ⟨L₁, a, L₂, s', X', -, -, hdel, hs', hd⟩
  · exact ⟨-1, s, hdel, hdel, ⟨rfl, rfl, rfl, rfl⟩⟩
  · exact ⟨0, s', hdel, hdel, h.index.sentinelKept hs'.index (hd.users gNil)⟩

end

/-- **The fixups end and spare the sentinel.** In every store that a run goes through, whatever
record is placed or deleted next, the checked insertion and deletion answer what the unchecked do:
no fixup takes more passes than the tree is high, no grandparent, sibling or lifted child is the
sentinel, no link of the sentinel is written and its colour never changes. -/
theorem reached_guarded {s : Store} (h : Reached s) :
    (∃ X, IndexTree s.shm.lists s.index X ∧ s.index.height = X.height) ∧
      (∀ elem, ∃ placed s', placeRecordWith bstInsertGuarded elem s = some (placed, s') ∧
        placeRecord elem s = some (placed, s') ∧ SentinelKept s.shm.trees s'.shm.trees) ∧
      ∀ name, ∃ res s', userStoreDeleteWith bstDeleteGuarded name s = some (res, s') ∧
        userStoreDelete name s = some (res, s') ∧ SentinelKept s.shm.trees s'.shm.trees := by
  obtain ⟨X, L, hs⟩ := h.storeOK
  refine ⟨⟨X, hs.index, hs.index.height_eq hs.labels_lt_pool⟩, ?_, ?_⟩
  · intro elem
    exact hs.placeGuarded elem
  · intro name
    exact hs.deleteGuarded name

/-- Four users: `b` on top, `a` and `c` below, and `d` red to the right of `c`. -/
def fourUsers : List Op :=
  [.add (ascii "b,1,2000"), .add (ascii "a,1,2000"), .add (ascii "c,1,2000"),
    .add (ascii "d,1,2000")]

/-- The record of a fifth user. -/
def userE : ElemType := ⟨ascii "e", ascii "1", ascii "2000", [], [], []⟩

/-- The fifth user turns `c` down by a rotation, and without `a` the whole tree is turned; the checked
operations do so too. -/
theorem reached_guarded_turned :
    ∃ s placed deleted, runOps fourUsers userStoreShmInit = some s ∧
      placeRecordWith bstInsertGuarded userE s = some (true, placed) ∧
      SentinelKept s.shm.trees placed.shm.trees ∧
      (s.shm.trees (treeSlot 1)).rightOff = treeSlot 3 ∧
      (placed.shm.trees (treeSlot 1)).rightOff = treeSlot 4 ∧
      userStoreDeleteWith bstDeleteGuarded (ascii "a") s = some (0, deleted) ∧
      SentinelKept s.shm.trees deleted.shm.trees ∧
      s.bst.rootOff = treeSlot 1 ∧ deleted.bst.rootOff = treeSlot 3 := by
  obtain ⟨s, X, L, hrun, -⟩ := sound_init.run fourUsers
  obtain ⟨-, hplace, hdelete⟩ := reached_guarded (Reached.between _ hrun)
  obtain ⟨placed, s₁, hguarded₁, hplaced, hkept₁⟩ := hplace userE
  obtain ⟨res, s₂, hguarded₂, hdeleted, hkept₂⟩ := hdelete (ascii "a")
  have heval : (runOps fourUsers userStoreShmInit).map (fun s =>
      ((placeRecord userE s).map fun r => (r.1, (r.2.shm.trees (treeSlot 1)).rightOff),
        (userStoreDelete (ascii "a") s).map fun r => (r.1, r.2.bst.rootOff),
        (s.shm.trees (treeSlot 1)).rightOff, s.bst.rootOff)) =
      some (some (true, treeSlot 4), some (0, treeSlot 3), treeSlot 3, treeSlot 1) := by
    decide +kernel
  rw [hrun, Option.map_some, hplaced, hdeleted] at heval
  simp only [Option.map_some, Option.some.injEq, Prod.mk.injEq] at heval
  obtain ⟨⟨rfl, hright₁⟩, ⟨rfl, hroot₂⟩, hright, hroot⟩ := heval
  exact ⟨s, s₁, s₂, hrun, hguarded₁, hkept₁, hright, hright₁, hguarded₂, hkept₂, hroot, hroot₂⟩

end MiniWeb.UserStore
