import MiniWeb.Lib.Chain
import MiniWeb.UserStore.Guarded
import MiniWeb.UserStore.IndexSpec
import MiniWeb.UserStore.Store

/-!
# The invariant of the user store

`StoreOK s X L` says that the index of `s` is the tree `X`, that the list behind the head is `L`,
and that every node of either was taken from the pools. Placing a record and deleting one keep
it, and nothing the operations loop over is longer than a pool, so every operation ends.
-/

namespace MiniWeb.UserStore

open RedBlack Loop CStr ColorTree TreePath

/-! ## Allocated slots -/

/-- A slot taken from a pool whose next free slot is `n`; slot 0 is the sentinel or the head. -/
def Allocated (slot : Nat → Off) (n : Nat) (a : Off) : Prop := ∃ i, 0 < i ∧ i < n ∧ a = slot i

theorem Allocated.mono {slot : Nat → Off} {n m : Nat} {a : Off} (h : Allocated slot n a)
    (hnm : n ≤ m) : Allocated slot m a := by
  obtain ⟨i, hi, hin, rfl⟩ := h
  exact ⟨i, hi, by omega, rfl⟩

/-- The next free slot was not taken before. -/
theorem Allocated.ne_next {slot : Nat → Off} (hslot : ∀ {i j}, slot i = slot j → i = j) {n : Nat}
    {a : Off} (h : Allocated slot n a) : a ≠ slot n := by
  obtain ⟨i, -, hin, rfl⟩ := h
  intro h0
  have := hslot h0
  omega

/-- Distinct allocated slots are fewer than the next free slot. -/
theorem length_lt_of_allocated {slot : Nat → Off} {n : Nat} {L : List Off} (hn : 0 < n)
    (hnd : L.Nodup) (h : ∀ a ∈ L, Allocated slot n a) : L.length < n := by
  have hsub : L ⊆ (List.range' 1 (n - 1)).map slot := by
    intro a ha
    obtain ⟨i, hi, hin, rfl⟩ := h a ha
    exact List.mem_map_of_mem (List.mem_range'_1.mpr ⟨hi, by omega⟩)
  have hle := (List.subperm_of_subset hnd hsub).length_le
  rw [List.length_map, List.length_range'] at hle
  omega

/-! ## The invariant -/

/-- The index of `s` is `X`, the records behind the head are `L`, all of them live, and all nodes
come from the pools. -/
structure StoreOK (s : Store) (X : ColorTree Off) (L : List Off) : Prop where
  index : IndexTree s.shm.lists s.index X
  chain : Chain (fun a => (s.shm.lists a).nextOff) 0 (s.shm.lists (listSlot 0)).nextOff L
  distinct : L.Nodup
  live : ∀ a ∈ L, (s.shm.lists a).used = true
  head : s.shm.header.headOff = listSlot 0
  next_eq : s.shm.header.treeNextFree = s.shm.header.listNextFree
  next_pos : 0 < s.shm.header.listNextFree
  next_le : s.shm.header.listNextFree ≤ userStorePoolNodes
  nodes : ∀ a ∈ X.toList, Allocated treeSlot s.shm.header.listNextFree a
  users : ∀ a ∈ X.toList, Allocated listSlot s.shm.header.listNextFree (s.shm.trees a).userOff
  records : ∀ a ∈ L, Allocated listSlot s.shm.header.listNextFree a

section

variable {s : Store} {X : ColorTree Off} {L : List Off}

theorem StoreOK.labels_lt (h : StoreOK s X L) : X.toList.length < s.shm.header.listNextFree :=
  length_lt_of_allocated h.next_pos h.index.place.distinct h.nodes

theorem StoreOK.labels_lt_pool (h : StoreOK s X L) : X.toList.length < userStorePoolNodes :=
  lt_of_lt_of_le h.labels_lt h.next_le

theorem StoreOK.records_lt_pool (h : StoreOK s X L) : L.length < userStorePoolNodes :=
  lt_of_lt_of_le (length_lt_of_allocated h.next_pos h.distinct h.records) h.next_le

/-- The invariant sees of the header the head and the two cursors, and of `g_user_bst` the root. -/
theorem StoreOK.congr {s' : Store} (h : StoreOK s X L) (hl : s'.shm.lists = s.shm.lists)
    (ht : s'.shm.trees = s.shm.trees) (hb : s'.bst.rootOff = s.bst.rootOff)
    (hhead : s'.shm.header.headOff = s.shm.header.headOff)
    (hln : s'.shm.header.listNextFree = s.shm.header.listNextFree)
    (htn : s'.shm.header.treeNextFree = s.shm.header.treeNextFree) : StoreOK s' X L := by
  have hview : s'.index.view = s.index.view := by
    simp only [Index.view, Store.index, ht, hb]
  obtain ⟨⟨h1, h2, h3, h4, h5, h6, h7⟩, hc, hd, hlive, hh, hne, hnp, hnl, hn, hu, hr⟩ := h
  have htr : s'.index.trees = s.index.trees := ht
  refine ⟨⟨hview ▸ h1, h2, ?_, ?_, ?_, ?_, ?_⟩, ?_, hd, ?_, ?_, ?_, ?_, ?_, ?_, ?_, ?_⟩
  all_goals simp only [hl, ht, htr, hhead, hln, htn]
  all_goals assumption

/-- The start: an empty tree and an empty list. -/
theorem storeOK_init : StoreOK userStoreShmInit .nil [] where
  index :=
    { place := ⟨⟨rfl, trivial⟩, rfl, List.nodup_nil⟩
      rb := ⟨rfl, 0, .nil⟩
      sorted := List.Pairwise.nil
      users := by simp
      nil_left := rfl
      nil_right := rfl
      nil_color := rfl }
  chain := rfl
  distinct := List.nodup_nil
  live := by simp
  head := rfl
  next_eq := rfl
  next_pos := Nat.one_pos
  next_le := by decide
  nodes := by simp
  users := by simp
  records := by simp

/-! ## Placing a record -/

/-- The list pool with a record `elem` in slot `n`, linked behind the head. -/
def listsWith (lists : Off → ListNode) (n : Nat) (elem : ElemType) : Off → ListNode :=
  Function.update
    (Function.update lists (listSlot n) ⟨elem, (lists (listSlot 0)).nextOff, true⟩)
    (listSlot 0) { lists (listSlot 0) with nextOff := listSlot n }

/-- The tree pool with a fresh node for that record in slot `n`. -/
def treesWith (trees : Off → BSTnode) (n : Nat) : Off → BSTnode :=
  Function.update trees (treeSlot n) ⟨listSlot n, gNil, gNil, gNil, .red, true⟩

/-- An exhausted pool refuses the record. -/
theorem placeRecord_full (elem : ElemType)
    (hfull : userStorePoolNodes ≤ s.shm.header.listNextFree) :
    placeRecord elem s = some (false, s) := by
  simp only [placeRecord, listAlloc, ge_iff_le, if_pos hfull]

/-- Whatever inserts into the index, it is handed the fresh node in the next slot. -/
theorem placeRecordWith_eq (h : StoreOK s X L)
    (insert : (Off → ListNode) → Nat → Index → Off → Option Index) (elem : ElemType)
    (hfree : s.shm.header.listNextFree < userStorePoolNodes) :
    let n := s.shm.header.listNextFree
    placeRecordWith insert elem s =
      (insert (listsWith s.shm.lists n elem) (n + 1) ⟨treesWith s.shm.trees n, s.bst⟩
        (listSlot n)).map fun t =>
          (true,
            { shm :=
                { header := { s.shm.header with listNextFree := n + 1, treeNextFree := n + 1 }
                  lists := listsWith s.shm.lists n elem
                  trees := t.trees }
              bst := t.bst }) := by
  have hn : listSlot 0 ≠ listSlot s.shm.header.listNextFree := fun h0 => by
    have := listSlot_inj h0
    have := h.next_pos
    omega
  simp only [placeRecordWith, listAlloc, ge_iff_le, if_neg (not_le.mpr hfree), treeAlloc, h.next_eq,
    Store.modifyList, Function.update_self, h.head, Function.update_of_ne hn, Store.index,
    Index.modify, Index.setChild, Index.setParent, Index.setColor, Function.update_idem,
    BSTnode.setChild, BSTnode.zero, ListNode.zero, listsWith, treesWith]
  rfl

theorem placeRecord_eq (h : StoreOK s X L) (elem : ElemType)
    (hfree : s.shm.header.listNextFree < userStorePoolNodes) :
    let n := s.shm.header.listNextFree
    placeRecord elem s =
      (bstInsert (listsWith s.shm.lists n elem) (n + 1) ⟨treesWith s.shm.trees n, s.bst⟩
        (listSlot n)).map fun t =>
          (true,
            { shm :=
                { header := { s.shm.header with listNextFree := n + 1, treeNextFree := n + 1 }
                  lists := listsWith s.shm.lists n elem
                  trees := t.trees }
              bst := t.bst }) := by
  rw [← placeRecordWith_bstInsert]
  exact placeRecordWith_eq h bstInsert elem hfree

section Pools

variable {lists : Off → ListNode} {trees : Off → BSTnode} {n : Nat} {elem : ElemType}

theorem listsWith_other {a : Off} (h0 : a ≠ listSlot 0) (hn : a ≠ listSlot n) :
    listsWith lists n elem a = lists a := by
  rw [listsWith, Function.update_of_ne h0, Function.update_of_ne hn]

theorem listsWith_new (hn : 0 < n) : listsWith lists n elem (listSlot n) =
    ⟨elem, (lists (listSlot 0)).nextOff, true⟩ := by
  rw [listsWith, Function.update_of_ne, Function.update_self]
  intro h0
  have := listSlot_inj h0
  omega

theorem listsWith_data (hn : 0 < n) (a : Off) :
    (listsWith lists n elem a).data = if a = listSlot n then elem else (lists a).data := by
  split
  next h => rw [h, listsWith_new hn]
  next h =>
    by_cases h0 : a = listSlot 0
    · rw [h0, listsWith, Function.update_self]
    · rw [listsWith_other h0 h]

theorem treesWith_other {a : Off} (h : a ≠ treeSlot n) : treesWith trees n a = trees a :=
  Function.update_of_ne h ..

end Pools

/-- Records with the same names give the same index. -/
theorem IndexTree.lists_congr {lists : Off → ListNode} {t : Index}
    (h : IndexTree lists t X) (lists' : Off → ListNode)
    (hn : ∀ a ∈ X.toList, nameAt lists' t.trees a = nameAt lists t.trees a) :
    IndexTree lists' t X := by
  refine ⟨h.place, h.rb, h.sorted.imp_of_mem fun ha hb hab => ?_, h.users, h.nil_left,
    h.nil_right, h.nil_color⟩
  rwa [hn _ ha, hn _ hb]

theorem insertPath_congr {lists lists' : Off → ListNode} {trees trees' : Off → BSTnode}
    {name : CStr} (h : ∀ a ∈ X.toList, nameAt lists' trees' a = nameAt lists trees a) :
    insertPath lists' trees' name X = insertPath lists trees name X := by
  rw [insertPath, insertPath, descend_congr]
  intro a ha
  rw [insertDir, insertDir, h a ha]

/-- What placing the record `elem` changes: it takes the next slot of either pool, and the index
gains a node for it. -/
structure Placed (s s' : Store) (X X' : ColorTree Off) (elem : ElemType) : Prop where
  header : s'.shm.header = { s.shm.header with
    listNextFree := s.shm.header.listNextFree + 1
    treeNextFree := s.shm.header.listNextFree + 1 }
  data : ∀ a, (s'.shm.lists a).data =
    if a = listSlot s.shm.header.listNextFree then elem else (s.shm.lists a).data
  users : (X'.toList.map fun a => (s'.shm.trees a).userOff).Perm
    (listSlot s.shm.header.listNextFree :: X.toList.map fun a => (s.shm.trees a).userOff)
  root : insertKeepsRoot s.shm.lists s.shm.trees elem.name X = true →
    s'.bst.rootOff = s.bst.rootOff

/-- The index with the fresh node still outside it. -/
structure Fresh (s : Store) (X : ColorTree Off) (elem : ElemType) : Prop where
  index : IndexTree (listsWith s.shm.lists s.shm.header.listNextFree elem)
    ⟨treesWith s.shm.trees s.shm.header.listNextFree, s.bst⟩ X
  outside : treeSlot s.shm.header.listNextFree ∉ X.toList
  names : ∀ a ∈ X.toList,
    nameAt (listsWith s.shm.lists s.shm.header.listNextFree elem)
      (treesWith s.shm.trees s.shm.header.listNextFree) a = nameAt s.shm.lists s.shm.trees a

theorem StoreOK.fresh (h : StoreOK s X L) (elem : ElemType) : Fresh s X elem := by
  have hfresh : treeSlot s.shm.header.listNextFree ∉ X.toList := fun hm =>
    (h.nodes _ hm).ne_next treeSlot_inj rfl
  have htree : ∀ a ∈ X.toList, treesWith s.shm.trees s.shm.header.listNextFree a = s.shm.trees a :=
    fun a ha => treesWith_other ((h.nodes a ha).ne_next treeSlot_inj)
  have hname : ∀ a ∈ X.toList,
      nameAt (listsWith s.shm.lists s.shm.header.listNextFree elem)
        (treesWith s.shm.trees s.shm.header.listNextFree) a = nameAt s.shm.lists s.shm.trees a :=
    fun a ha => by
      rw [nameAt, nameAt, htree a ha, listsWith_data h.next_pos,
        if_neg ((h.users a ha).ne_next listSlot_inj)]
  have h₀ : IndexTree s.shm.lists ⟨treesWith s.shm.trees s.shm.header.listNextFree, s.bst⟩ X :=
    h.index.outside hfresh (treeSlot_ne_gNil h.next_pos) (fun a ha => treesWith_other ha) rfl
  refine ⟨h₀.lists_congr _ fun a ha => (hname a ha).trans ?_, hfresh, hname⟩
  exact congrArg (fun b : BSTnode => (s.shm.lists b.userOff).data.name) (htree a ha).symm

/-- Inserting the fresh node makes it a node of the index. -/
theorem StoreOK.insert_fresh (h : StoreOK s X L) (elem : ElemType)
    (hfree : s.shm.header.listNextFree < userStorePoolNodes) :
    let n := s.shm.header.listNextFree
    let t : Index := ⟨treesWith s.shm.trees n, s.bst⟩
    ∃ t' X', bstInsert (listsWith s.shm.lists n elem) (n + 1) t (listSlot n) = some t' ∧
      IndexTree (listsWith s.shm.lists n elem) t' X' ∧
      X'.toList.Perm (treeSlot n :: X.toList) ∧ Index.SameUsers t t' ∧
      (insertKeepsRoot s.shm.lists s.shm.trees elem.name X = true →
        t'.bst.rootOff = s.bst.rootOff) := by
  intro n t
  have hpos : 0 < n := h.next_pos
  have hf := h.fresh elem
  have hlen : X.toList.length < n := h.labels_lt
  obtain ⟨t', X', hins, hidx, hX', hsame, hroot⟩ := bstInsert_spec hf.index (n := n + 1)
    (listSlot n) (z := treeSlot n) rfl (by omega) hf.outside (treeSlot_ne_gNil hpos)
    (by simp [treesWith, n]) (listSlot_ne_zero n)
  rw [listsWith_new hpos, insertKeepsRoot, insertPath_congr hf.names] at hroot
  rw [listsWith_new hpos, insertPath_congr hf.names] at hX'
  have hX : X.toList = before (insertPath s.shm.lists s.shm.trees elem.name X) ++
      after (insertPath s.shm.lists s.shm.trees elem.name X) := by
    have hplug := plug_insertPath s.shm.lists s.shm.trees elem.name X
    have hl := congrArg toList hplug
    rw [toList_plug, toList_nil, List.append_nil] at hl
    exact hl.symm
  refine ⟨t', X', hins, hidx, ?_, hsame, hroot⟩
  rw [hX', hX]
  exact List.perm_middle

/-- **Placing a record** while the pools last: it becomes the first of the list and a node of the
index. -/
theorem placeRecord_spec (h : StoreOK s X L) (elem : ElemType)
    (hfree : s.shm.header.listNextFree < userStorePoolNodes) :
    ∃ s' X', placeRecord elem s = some (true, s') ∧
      StoreOK s' X' (listSlot s.shm.header.listNextFree :: L) ∧ Placed s s' X X' elem := by
  obtain ⟨t', X', hins, hidx, hperm, hsame, hroot⟩ := h.insert_fresh elem hfree
  obtain ⟨n, hn⟩ : ∃ n, n = s.shm.header.listNextFree := ⟨_, rfl⟩
  rw [← hn] at hins hidx hperm hsame
  have hpos : 0 < n := hn ▸ h.next_pos
  have hnodes : ∀ a ∈ X.toList, Allocated treeSlot n a := hn ▸ h.nodes
  have husers : ∀ a ∈ X.toList, Allocated listSlot n (s.shm.trees a).userOff := hn ▸ h.users
  have hrecs : ∀ a ∈ L, Allocated listSlot n a := hn ▸ h.records
  have huser : ∀ a, (t'.trees a).userOff =
      if a = treeSlot n then listSlot n else (s.shm.trees a).userOff := fun a => by
    rw [hsame.userOff]
    simp only [treesWith, Function.update_apply]
    split <;> rfl
  have hn0 : listSlot 0 ≠ listSlot n := fun h0 => by have := listSlot_inj h0; omega
  have hmem : ∀ {a}, a ∈ X'.toList → a = treeSlot n ∨ a ∈ X.toList := fun ha =>
    List.mem_cons.mp (hperm.mem_iff.mp ha)
  have hkeep : ∀ a ∈ L, listsWith s.shm.lists n elem a = s.shm.lists a := fun a ha => by
    obtain ⟨i, hi, hin, rfl⟩ := hrecs a ha
    exact listsWith_other (fun h0 => by have := listSlot_inj h0; omega)
      (fun h0 => by have := listSlot_inj h0; omega)
  rw [← hn]
  refine ⟨⟨⟨{ s.shm.header with listNextFree := n + 1, treeNextFree := n + 1 },
    listsWith s.shm.lists n elem, t'.trees⟩, t'.bst⟩, X', ?_,
    ⟨hidx, ?_, ?_, ?_, h.head, rfl, Nat.succ_pos n, ?_, ?_, ?_, ?_⟩, ⟨by rw [hn], ?_, ?_, hroot⟩⟩
  · rw [placeRecord_eq h elem hfree, ← hn, hins]
    rfl
  · refine ⟨?_, listSlot_ne_zero n, ?_⟩
    · simp [listsWith]
    · simp only [listsWith_new hpos]
      exact h.chain.congr fun a ha => by rw [hkeep a ha]
  · refine List.nodup_cons.mpr ⟨fun hm => ?_, h.distinct⟩
    exact (hrecs _ hm).ne_next listSlot_inj rfl
  · refine List.forall_mem_cons.mpr ⟨?_, fun a ha => ?_⟩
    · simp only [listsWith_new hpos]
    · simp only [hkeep a ha]
      exact h.live a ha
  · exact hn ▸ hfree
  · intro a ha
    rcases hmem ha with rfl | ha
    · exact ⟨n, hpos, Nat.lt_succ_self n, rfl⟩
    · exact (hnodes a ha).mono (Nat.le_succ n)
  · intro a ha
    simp only [huser]
    rcases hmem ha with rfl | ha
    · exact ⟨n, hpos, Nat.lt_succ_self n, if_pos rfl⟩
    · rw [if_neg ((hnodes a ha).ne_next treeSlot_inj)]
      exact (husers a ha).mono (Nat.le_succ n)
  · refine List.forall_mem_cons.mpr ⟨⟨n, hpos, Nat.lt_succ_self n, rfl⟩, fun a ha => ?_⟩
    exact (hrecs a ha).mono (Nat.le_succ n)
  · rw [← hn]
    exact listsWith_data hpos
  · rw [← hn]
    refine (hperm.map _).trans ?_
    rw [List.map_cons, huser, if_pos rfl]
    refine List.Perm.cons _ (List.Perm.of_eq (List.map_congr_left fun a ha => ?_))
    rw [huser, if_neg ((hnodes a ha).ne_next treeSlot_inj)]

/-! ## Search and deletion on the list -/

/-- The name of a record. -/
def recordName (shm : Shm) (a : Off) : CStr := (shm.lists a).data.name

section

variable {s' : Store} {X' : ColorTree Off} {elem : ElemType}

theorem Placed.recordName_eq (hp : Placed s s' X X' elem) {a : Off}
    (hne : a ≠ listSlot s.shm.header.listNextFree) : recordName s'.shm a = recordName s.shm a := by
  rw [recordName, hp.data, if_neg hne, recordName]

theorem Placed.recordName_old (h : StoreOK s X L) (hp : Placed s s' X X' elem) :
    ∀ a ∈ L, recordName s'.shm a = recordName s.shm a :=
  fun a ha => hp.recordName_eq ((h.records a ha).ne_next listSlot_inj)

theorem Placed.recordName_new (hp : Placed s s' X X' elem) :
    recordName s'.shm (listSlot s.shm.header.listNextFree) = elem.name := by
  rw [recordName, hp.data, if_pos rfl]

end

/-- `user_store_find` answers the first record of the name, or `NULL` when there is none. -/
theorem userStoreFind_spec (h : StoreOK s X L) (name : CStr) :
    ((∀ a ∈ L, recordName s.shm a ≠ name) ∧ userStoreFind s.shm name = some 0) ∨
      ∃ L₁ a L₂, L = L₁ ++ a :: L₂ ∧ recordName s.shm a = name ∧
        userStoreFind s.shm name = some a := by
  have hrun := run_chain (userStoreFindStep s.shm.lists name) (fun _ a => a)
    (fun a => (s.shm.lists a).used ∧ strcmp (s.shm.lists a).data.name name = .eq) (fun _ a => a) 0
    (fun _ => by simp [userStoreFindStep])
    (fun _ x hx hh => by rw [userStoreFindStep, if_neg hx, if_pos hh])
    (fun _ x hx hh => by rw [userStoreFindStep, if_neg hx, if_neg hh])
    0 h.chain h.records_lt_pool
  rw [userStoreFind, h.head]
  rcases hrun with ⟨hno, hrun⟩ | ⟨L₁, a, L₂, rfl, ha, -, hrun⟩
  · refine Or.inl ⟨fun a ha h0 => hno a ha ⟨h.live a ha, strcmp_eq_iff.mpr h0⟩, hrun⟩
  · exact Or.inr ⟨L₁, a, L₂, rfl, strcmp_eq_iff.mp ha.2, hrun⟩

/-- The search of `user_store_delete`: the record found and the node before it. -/
theorem userStoreDelete_search (h : StoreOK s X L) (name : CStr) :
    let r := run (userStoreDeleteStep s.shm.lists name) userStorePoolNodes
      (listSlot 0, (s.shm.lists (listSlot 0)).nextOff)
    ((∀ a ∈ L, recordName s.shm a ≠ name) ∧ r = some none) ∨
      ∃ L₁ a L₂, L = L₁ ++ a :: L₂ ∧ recordName s.shm a = name ∧
        r = some (some (L₁.getLastD (listSlot 0), a)) := by
  have hrun := run_chain (userStoreDeleteStep s.shm.lists name) (fun prev a => (prev, a))
    (fun a => (s.shm.lists a).used ∧ strcmp (s.shm.lists a).data.name name = .eq)
    (fun prev a => some (prev, a)) none
    (fun _ => by simp [userStoreDeleteStep])
    (fun _ x hx hh => by simp only [userStoreDeleteStep]; rw [if_neg hx, if_pos hh])
    (fun _ x hx hh => by simp only [userStoreDeleteStep]; rw [if_neg hx, if_neg hh])
    (listSlot 0) h.chain h.records_lt_pool
  rcases hrun with ⟨hno, hrun⟩ | ⟨L₁, a, L₂, rfl, ha, -, hrun⟩
  · refine Or.inl ⟨fun a ha h0 => hno a ha ⟨h.live a ha, strcmp_eq_iff.mpr h0⟩, hrun⟩
  · exact Or.inr ⟨L₁, a, L₂, rfl, strcmp_eq_iff.mp ha.2, hrun⟩

/-- The list pool after the record `cur` behind `prev` was unlinked and marked unused. -/
def listsWithout (lists : Off → ListNode) (prev cur : Off) : Off → ListNode :=
  Function.update (Function.update lists prev { lists prev with nextOff := (lists cur).nextOff })
    cur { lists cur with used := false }

theorem listsWithout_data {lists : Off → ListNode} {prev cur : Off} (a : Off) :
    (listsWithout lists prev cur a).data = (lists a).data := by
  simp only [listsWithout, Function.update_apply]
  split
  next h => rw [h]
  next =>
    split
    next h => rw [h]
    next => rfl

/-- What a deletion changes: the index loses the node the search ends at; header cursors, records'
data and nodes' users stay. -/
structure Deleted (s s' : Store) (name : CStr) (X X' : ColorTree Off) : Prop where
  data : ∀ a, (s'.shm.lists a).data = (s.shm.lists a).data
  users : ∀ a, (s'.shm.trees a).userOff = (s.shm.trees a).userOff
  removed : Removed s.shm.lists s.shm.trees name X X'
  root : deleteKeepsRoot s.shm.lists s.shm.trees name X = true → s'.bst.rootOff = s.bst.rootOff
  synced : s'.shm.header.rootOff = s'.bst.rootOff

section

variable {s' : Store} {X' : ColorTree Off} {name : CStr}

theorem Deleted.recordName_eq (hd : Deleted s s' name X X') :
    recordName s'.shm = recordName s.shm := by
  funext a
  rw [recordName, hd.data, recordName]

theorem Deleted.userOff_eq (hd : Deleted s s' name X X') :
    (fun a => (s'.shm.trees a).userOff) = fun a => (s.shm.trees a).userOff := funext hd.users

end

/-- **`user_store_delete`** is total: it answers `-1` and changes nothing when no record has the
name, and otherwise takes one record of that name off the list and one node out of the index. -/
theorem userStoreDelete_spec (h : StoreOK s X L) (name : CStr) :
    ((∀ a ∈ L, recordName s.shm a ≠ name) ∧ userStoreDelete name s = some (-1, s)) ∨
      ∃ L₁ a L₂ s' X', L = L₁ ++ a :: L₂ ∧ recordName s.shm a = name ∧
        userStoreDelete name s = some (0, s') ∧ StoreOK s' X' (L₁ ++ L₂) ∧
        Deleted s s' name X X' := by
  rcases userStoreDelete_search h name with ⟨hno, hrun⟩ | ⟨L₁, a, L₂, rfl, ha, hrun⟩
  · refine Or.inl ⟨hno, ?_⟩
    simp only [userStoreDelete, h.head, hrun, Option.bind_some]
  obtain ⟨prev, hprev⟩ : ∃ prev, prev = L₁.getLastD (listSlot 0) := ⟨_, rfl⟩
  have hnd : (listSlot 0 :: (L₁ ++ a :: L₂)).Nodup := by
    refine List.nodup_cons.mpr ⟨fun hm => ?_, h.distinct⟩
    obtain ⟨i, hi, -, h0⟩ := h.records _ hm
    have := listSlot_inj h0
    omega
  have hpa : prev ≠ a := by
    rintro rfl
    have hm : prev ∈ listSlot 0 :: L₁ := hprev ▸ List.getLastD_mem_cons
    rw [← List.cons_append, List.nodup_append] at hnd
    exact hnd.2.2 _ hm _ List.mem_cons_self rfl
  have hnext : ∀ y, (listsWithout s.shm.lists prev a y).nextOff =
      if y = prev then (s.shm.lists a).nextOff else (s.shm.lists y).nextOff := fun y => by
    simp only [listsWithout, Function.update_apply]
    by_cases hya : y = a
    · rw [if_pos hya, if_neg (hya ▸ hpa.symm), hya]
    · rw [if_neg hya]
      split <;> rfl
  obtain ⟨res, t', X', hdel, hidx, hsame, hrem, hroot⟩ :=
    bstDelete_spec (h.index.lists_congr (listsWithout s.shm.lists prev a)
      fun b _ => by rw [nameAt, nameAt, listsWithout_data]) h.labels_lt_pool name
  have hname : nameAt (listsWithout s.shm.lists prev a) s.index.trees =
      nameAt s.shm.lists s.index.trees := by
    funext b
    rw [nameAt, nameAt, listsWithout_data]
  rw [Removed, hname] at hrem
  rw [deleteKeepsRoot, hname] at hroot
  have hsub : ∀ b ∈ X'.toList, b ∈ X.toList := by
    rcases Removed.cases h.index hrem with ⟨rfl, -⟩ | ⟨z, -, -, hs⟩
    · exact fun _ hb => hb
    · exact fun _ hb => hs.subset hb
  refine Or.inr ⟨L₁, a, L₂,
    ⟨⟨{ s.shm.header with size := s.shm.header.size + -1, rootOff := t'.bst.rootOff },
      listsWithout s.shm.lists prev a, t'.trees⟩, t'.bst⟩, X', rfl, ha, ?_,
    ⟨hidx, ?_, ?_, ?_, h.head, h.next_eq, h.next_pos, h.next_le, ?_, ?_, ?_⟩,
    ⟨listsWithout_data, hsame.userOff, hrem, hroot, rfl⟩⟩
  · simp only [userStoreDelete, h.head, hrun, Option.bind_some, ← hprev]
    have hlists : Function.update (Function.update s.shm.lists prev
        { s.shm.lists prev with nextOff := (s.shm.lists a).nextOff }) a
        { Function.update s.shm.lists prev
          { s.shm.lists prev with nextOff := (s.shm.lists a).nextOff } a with used := false } =
        listsWithout s.shm.lists prev a := by
      rw [Function.update_of_ne hpa.symm]
      rfl
    simp only [Store.modifyList, hlists, Store.index]
    rw [show (⟨s.shm.trees, s.bst⟩ : Index) = s.index from rfl, hdel]
    simp only [Option.map_some, Store.withIndex, Store.addSize, Store.syncRoot, Store.setHeader,
      h.head]
  · refine h.chain.unlink hnd ?_ ?_
    · rw [← hprev]
      exact (hnext prev).trans (if_pos rfl)
    · rw [← hprev]
      exact fun y hy => (hnext y).trans (if_neg hy)
  · exact h.distinct.sublist (by simp)
  · intro b hb
    have hba : b ≠ a := by
      rintro rfl
      have := (List.perm_middle.nodup_iff.mp h.distinct)
      exact (List.nodup_cons.mp this).1 hb
    have hlive := h.live b (by
      rcases List.mem_append.mp hb with hb | hb <;> simp [hb])
    simp only [listsWithout, Function.update_of_ne hba, Function.update_apply]
    split
    next h0 => rw [← h0, hlive]
    next => exact hlive
  · exact fun b hb => h.nodes b (hsub b hb)
  · intro b hb
    rw [hsame.userOff]
    exact h.users b (hsub b hb)
  · intro b hb
    refine h.records b ?_
    rcases List.mem_append.mp hb with hb | hb <;> simp [hb]

end

end MiniWeb.UserStore
