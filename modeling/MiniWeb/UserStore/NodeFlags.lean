import MiniWeb.UserStore.Census
import MiniWeb.UserStore.Listing

/-!
# Nodes in use

`tree_alloc` marks a node as used and `bst_delete` marks the node it takes out as free; nothing else
in `user_index.c` writes the mark. So the nodes of the index are in use after every run.
-/

namespace MiniWeb.UserStore

open RedBlack Loop CStr ColorTree TreePath

/-! ## What the index operations leave of a node -/

namespace Index

section

variable {B : Type} {f : BSTnode → B} (hf : LinkFree f) {lists : Off → ListNode} {t t' : Index}

include hf

/-- The paint and the rotation of an insertion repair. -/
theorem kept_paintRotate (d : Dir) (t : Index) (a b c : Off) :
    Kept f t (rbtRotate d ((t.setColor a .black).setColor b .red) c) :=
  ((kept_setColor hf ..).trans (kept_setColor hf ..)).trans (kept_rotate hf ..)

theorem kept_insertFixupBody (d : Dir) (t : Index) (z zp zpp : Off) :
    Kept f t (rbtInsertFixupBody d t z zp zpp).1 := by
  unfold rbtInsertFixupBody
  simp only
  split
  · exact ((kept_setColor hf ..).trans (kept_setColor hf ..)).trans (kept_setColor hf ..)
  · split
    · exact (kept_rotate hf ..).trans (kept_paintRotate hf ..)
    · exact kept_paintRotate hf ..

theorem kept_insertFixup {z : Off} (h : rbtInsertFixup t z = some t') : Kept f t t' := by
  obtain ⟨s, hs, hdone⟩ := run_exit (fun s : Index × Off => Kept f t s.1)
    (fun s s' hs hstep => by
      simp only [rbtInsertFixupStep] at hstep
      split at hstep
      · cases hstep
        exact hs.trans (kept_insertFixupBody hf ..)
      · cases hstep)
    (Kept.refl t) h
  simp only [rbtInsertFixupStep] at hdone
  split at hdone
  · cases hdone
  · cases hdone
    exact hs.trans (kept_setColor hf ..)

theorem kept_linkBelow (t : Index) (name : CStr) (y z : Off) :
    Kept f t (linkBelow lists t name y z) := by
  unfold linkBelow
  split
  · exact kept_setRoot ..
  · split
    · exact kept_setChild hf ..
    · exact kept_setChild hf ..

theorem kept_bstInsert {n : Nat} {user : Off} (h : bstInsert lists n t user = some t') :
    Kept f t t' := by
  unfold bstInsert at h
  obtain ⟨y, -, hfix⟩ := Option.bind_eq_some_iff.mp h
  refine Kept.trans ?_ (kept_insertFixup hf hfix)
  refine Kept.trans ?_ (kept_setSize ..)
  refine Kept.trans ?_ (kept_linkBelow hf ..)
  refine Kept.trans ?_ (kept_setParent hf ..)
  exact ((kept_setChild hf ..).trans (kept_setChild hf ..)).trans (kept_setColor hf ..)

theorem kept_deleteFixupRed (d : Dir) (t : Index) (x : Off) :
    Kept f t (rbtDeleteFixupRed d t x).1 := by
  unfold rbtDeleteFixupRed
  simp only
  split
  · exact kept_paintRotate hf ..
  · exact Kept.refl t

theorem kept_deleteFixupBlack (d : Dir) (t : Index) (x xp w : Off) :
    Kept f t (rbtDeleteFixupBlack d t x xp w).1 := by
  unfold rbtDeleteFixupBlack
  simp only
  split
  · exact kept_setColor hf ..
  · refine Kept.trans ?_ (kept_rotate hf ..)
    refine Kept.trans ?_ (kept_setColor hf ..)
    refine Kept.trans ?_ (kept_setColor hf ..)
    refine Kept.trans ?_ (kept_setColor hf ..)
    split
    · exact kept_paintRotate hf ..
    · exact Kept.refl t

theorem kept_deleteFixup {x : Off} (h : rbtDeleteFixup t x = some t') : Kept f t t' := by
  obtain ⟨s, hs, hdone⟩ := run_exit (fun s : Index × Off => Kept f t s.1)
    (fun s s' hs hstep => by
      simp only [rbtDeleteFixupStep] at hstep
      split at hstep
      · cases hstep
        exact (hs.trans (kept_deleteFixupRed hf ..)).trans (kept_deleteFixupBlack hf ..)
      · cases hstep)
    (Kept.refl t) h
  simp only [rbtDeleteFixupStep] at hdone
  split at hdone
  · cases hdone
  · cases hdone
    exact hs.trans (kept_setColor hf ..)

theorem kept_splice {z : Off} {r : Index × Off × Color} (h : bstSplice t z = some r) :
    Kept f t r.1 := by
  unfold bstSplice at h
  split at h
  · cases h
    exact kept_transplant hf ..
  split at h
  · cases h
    exact kept_transplant hf ..
  · obtain ⟨y, -, rfl⟩ := Option.map_eq_some_iff.mp h
    exact (kept_detachSuccessor hf ..).trans (kept_takePlace hf ..)

/-- `bst_delete` leaves all nodes but the one it takes out as they were. -/
theorem kept_bstDelete {name : CStr} {res : Int} (h : bstDelete lists t name = some (res, t')) :
    ∃ z, run (bstDeleteStep lists t.trees name) userStorePoolNodes t.bst.rootOff = some z ∧
      ∀ a, a ≠ z → f (t'.trees a) = f (t.trees a) := by
  unfold bstDelete at h
  obtain ⟨z, hrun, h⟩ := Option.bind_eq_some_iff.mp h
  refine ⟨z, hrun, fun a ha => ?_⟩
  split at h
  · obtain ⟨-, rfl⟩ := Prod.mk.inj (Option.some.inj h)
    rfl
  obtain ⟨⟨t₁, x, c⟩, hsplice, h⟩ := Option.bind_eq_some_iff.mp h
  obtain ⟨t₃, hfix, h⟩ := Option.map_eq_some_iff.mp h
  obtain ⟨-, rfl⟩ := Prod.mk.inj h
  have hfixed : Kept f (t₁.setUnused z) t₃ := by
    split at hfix
    · exact kept_deleteFixup hf hfix
    · obtain rfl := Option.some.inj hfix
      exact Kept.refl _
  calc
    f ((t₃.setSize (t₃.bst.size - 1)).trees a) = f (t₃.trees a) := rfl
    _ = f ((t₁.setUnused z).trees a) := hfixed.eq a
    _ = f (t₁.trees a) := by
      rw [setUnused, modify]
      exact congrArg f (Function.update_of_ne ha ..)
    _ = f (t.trees a) := (kept_splice hf hsplice).eq a

end

end Index

/-! ## Runs -/

section

variable {s s' : Store} {X X' : ColorTree Off} {L : List Off} {elem : ElemType} {name : CStr}

/-- The nodes of the index are in use. -/
def UsedNodes (s : Store) (X : ColorTree Off) (_ : List Off) : Prop :=
  ∀ a ∈ X.toList, (s.shm.trees a).used = true

/-- Placing a record makes the next slot a node of the index, and one in use. -/
theorem StoreOK.place_nodes (h : StoreOK s X L)
    (hplace : placeRecord elem s = some (true, s'))
    (h' : StoreOK s' X' (listSlot s.shm.header.listNextFree :: L)) :
    X'.toList.Perm (treeSlot s.shm.header.listNextFree :: X.toList) ∧
      ∀ a, (s'.shm.trees a).used =
        if a = treeSlot s.shm.header.listNextFree then true else (s.shm.trees a).used := by
  rcases Nat.lt_or_ge s.shm.header.listNextFree userStorePoolNodes with hfree | hfull
  · obtain ⟨t', X₁, hins, hidx, hperm, -, -⟩ := h.insert_fresh elem hfree
    rw [placeRecord_eq h elem hfree, hins] at hplace
    obtain ⟨-, rfl⟩ := Prod.mk.inj (Option.some.inj hplace)
    have hlen : X₁.toList.length < userStorePoolNodes := by
      have := h.labels_lt
      rw [hperm.length_eq, List.length_cons]
      omega
    have hnodes : indexNodes t' = X₁.toList := by
      rw [indexNodes, hidx.root]
      exact nodesBelow_eq hidx.place.zip.2 hlen
    refine ⟨?_, fun a => ?_⟩
    · rw [← h'.indexNodes_eq]
      exact hnodes ▸ hperm
    · refine ((Index.kept_bstInsert Index.linkFree_used hins).eq a).trans ?_
      simp only [treesWith, Function.update_apply]
      split <;> rfl
  · rw [placeRecord_full elem hfull] at hplace
    cases hplace

/-- The node the search for a name ends at is not among those a deletion leaves. -/
theorem Removed.ne_end {lists : Off → ListNode} {t : Index} (h : IndexTree lists t X)
    (hr : Removed lists t.trees name X X') :
    ∀ a ∈ X'.toList, a ∈ X.toList ∧
      a ≠ (descend (findDir name (nameAt lists t.trees)) [] X).2.addr gNil := by
  have hplug := plug_descend (findDir name (nameAt lists t.trees)) [] X
  unfold Removed at hr
  generalize descend (findDir name (nameAt lists t.trees)) [] X = place at hr hplug
  obtain ⟨p, _ | ⟨c, l, z, r⟩⟩ := place
  · intro a ha
    rw [hr] at ha
    exact ⟨ha, h.place.ne_nil a ha⟩
  · have hX : X.toList.Perm (z :: X'.toList) := by
      rw [plug_nil] at hplug
      simp only at hr
      rw [← hplug, hr]
      exact toList_plug_node p c l z r
    have hnd := List.nodup_cons.mp (hX.nodup_iff.mp h.place.distinct)
    intro a ha
    refine ⟨hX.mem_iff.mpr (List.mem_cons_of_mem z ha), ?_⟩
    rintro rfl
    exact hnd.1 ha

theorem modifyList_data {b : Off} {g : ListNode → ListNode} (hg : ∀ n, (g n).data = n.data)
    (a : Off) : ((s.modifyList b g).shm.lists a).data = (s.shm.lists a).data := by
  simp only [Store.modifyList, Function.update_apply]
  split
  next h => rw [hg, h]
  next => rfl

/-- A deletion runs `bst_delete` on records that carry the same data. -/
theorem userStoreDelete_index (h : userStoreDelete name s = some (0, s')) :
    ∃ lists res t', bstDelete lists s.index name = some (res, t') ∧ s'.shm.trees = t'.trees ∧
      ∀ a, (lists a).data = (s.shm.lists a).data := by
  simp only [userStoreDelete, Option.bind_eq_some_iff] at h
  obtain ⟨found, -, h⟩ := h
  cases found with
  | none => cases h
  | some pair =>
    obtain ⟨⟨res, t'⟩, hdel, hs'⟩ := Option.map_eq_some_iff.mp h
    obtain ⟨-, rfl⟩ := Prod.mk.inj hs'
    refine ⟨_, res, t', hdel, rfl, fun a => Eq.trans (modifyList_data ?_ a) (modifyList_data ?_ a)⟩
    · exact fun _ => rfl
    · exact fun _ => rfl

/-- A deletion leaves the marks of the nodes that stay in the index. -/
theorem Deleted.used_eq (h : StoreOK s X L) (hdel : userStoreDelete name s = some (0, s'))
    (hd : Deleted s s' name X X') :
    ∀ a ∈ X'.toList, a ∈ X.toList ∧ (s'.shm.trees a).used = (s.shm.trees a).used := by
  intro a ha
  obtain ⟨haX, hane⟩ := hd.removed.ne_end h.index a ha
  refine ⟨haX, ?_⟩
  obtain ⟨lists, res, t', hbst, htrees, hdata⟩ := userStoreDelete_index hdel
  have hname : nameAt lists s.index.trees = nameAt s.shm.lists s.index.trees := by
    funext b
    rw [nameAt, nameAt, hdata]
  have hidx : IndexTree lists s.index X :=
    h.index.lists_congr lists fun b _ => congrFun hname b
  obtain ⟨z, hrun, hkept⟩ := Index.kept_bstDelete Index.linkFree_used hbst
  rw [bstDelete_search hidx h.labels_lt_pool, hname, Option.some.injEq] at hrun
  rw [htrees]
  exact hkept a (hrun ▸ hane)

/-- **The nodes of the index stay in use.** -/
theorem usedNodes_invariant : Invariant UsedNodes where
  congr h _ ht a ha := by
    rw [ht]
    exact h a ha
  place h hs hplace h' _ a ha := by
    obtain ⟨hperm, hused⟩ := h.place_nodes hplace h'
    rw [hused]
    split
    · rfl
    next hne => exact hs a ((List.mem_cons.mp (hperm.mem_iff.mp ha)).resolve_left hne)
  delete h hs _ hdel hd a ha := by
    obtain ⟨haX, hused⟩ := hd.used_eq h hdel a ha
    rw [hused]
    exact hs a haX

end

end MiniWeb.UserStore
