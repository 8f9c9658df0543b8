import MiniWeb.UserStore.Runs

/-!
# List search and index search

`user_store_add` refuses a name that exists; the loader does not look. While no load inserts a
name that is live, list and index hold the same records under distinct names, and both searches
answer the same. A file that repeats a name makes them differ.
-/

namespace MiniWeb.UserStore

open RedBlack Loop CStr ColorTree TreePath

/-- List and index hold the same records, under distinct names. -/
structure Matched (s : Store) (X : ColorTree Off) (L : List Off) : Prop where
  perm : (X.toList.map fun a => (s.shm.trees a).userOff).Perm L
  names : (L.map (recordName s.shm)).Nodup

/-- Both searches for a name answer, and answer the same: `NULL`, or one record in use. -/
def Agree (s : Store) (name : CStr) : Prop :=
  ∃ a, userStoreFind s.shm name = some a ∧ userStoreFindIndex s name = some a ∧
    (a ≠ 0 → (s.shm.lists a).used = true)

section

variable {s : Store} {X : ColorTree Off} {L : List Off}

theorem matched_init : Matched userStoreShmInit .nil [] := ⟨.refl _, List.nodup_nil⟩

theorem Matched.congr {s' : Store} (h : Matched s X L) (hl : s'.shm.lists = s.shm.lists)
    (ht : s'.shm.trees = s.shm.trees) : Matched s' X L := by
  obtain ⟨hp, hn⟩ := h
  have hname : recordName s'.shm = recordName s.shm := by
    funext a
    rw [recordName, recordName, hl]
  exact ⟨by rw [ht]; exact hp, by rw [hname]; exact hn⟩

/-- A record of the list is determined by its name. -/
theorem Matched.inj (h : Matched s X L) {a b : Off} (ha : a ∈ L) (hb : b ∈ L)
    (hab : recordName s.shm a = recordName s.shm b) : a = b :=
  List.inj_on_of_nodup_map h.names ha hb hab

/-- **Matching structures answer alike.** -/
theorem Matched.agree (h : StoreOK s X L) (hm : Matched s X L) (name : CStr) : Agree s name := by
  have hfind := bstFind_spec h.index h.labels_lt_pool name
  have hidx : userStoreFindIndex s name = bstFind s.shm.lists s.index name := rfl
  have hmem : ∀ z ∈ X.toList, (s.shm.trees z).userOff ∈ L := fun z hz =>
    hm.perm.mem_iff.mp (List.mem_map_of_mem hz)
  rcases descend_findDir h.index.sorted name with ⟨c, l, z, r, hd, hz⟩ | ⟨hd, hno⟩
  · -- the index search ends at a record of the list, and no other has the name
    have hzX : z ∈ X.toList := by
      have hp := plug_descend (findDir name (nameAt s.shm.lists s.index.trees)) [] X
      rw [hd, plug_nil] at hp
      rw [← hp, mem_toList_plug]
      simp
    have hzL := hmem z hzX
    rcases userStoreFind_spec h name with ⟨hnone, -⟩ | ⟨L₁, a, L₂, rfl, ha, hf⟩
    · exact absurd hz (hnone _ hzL)
    · have haz : (s.shm.trees z).userOff = a := hm.inj hzL (by simp) (Eq.trans hz ha.symm)
      refine ⟨a, hf, ?_, fun _ => h.live a (by simp)⟩
      rw [hidx, hfind, hd, ← haz]
      rfl
  · rcases userStoreFind_spec h name with ⟨-, hf⟩ | ⟨L₁, a, L₂, rfl, ha, -⟩
    · exact ⟨0, hf, by rw [hidx, hfind, hd], fun h0 => absurd rfl h0⟩
    · obtain ⟨z, hz, hza⟩ := List.mem_map.mp (hm.perm.mem_iff.mpr (show a ∈ L₁ ++ a :: L₂ by simp))
      refine absurd ?_ (hno z hz)
      rw [← ha, recordName, ← hza]
      rfl

/-- Placing a record whose name is new keeps the match. -/
theorem Matched.place {s' : Store} {X' : ColorTree Off} {elem : ElemType} (h : StoreOK s X L)
    (hm : Matched s X L) (hp : Placed s s' X X' elem)
    (hnew : ∀ a ∈ L, recordName s.shm a ≠ elem.name) :
    Matched s' X' (listSlot s.shm.header.listNextFree :: L) := by
  refine ⟨hp.users.trans (hm.perm.cons _), ?_⟩
  rw [List.map_cons, List.map_congr_left (hp.recordName_old h), List.nodup_cons, hp.recordName_new]
  refine ⟨fun hmem => ?_, hm.names⟩
  obtain ⟨a, ha, h0⟩ := List.mem_map.mp hmem
  exact hnew a ha h0

/-- Deleting a name takes the same record off the list and out of the index. -/
theorem Matched.delete {s' : Store} {X' : ColorTree Off} {name : CStr} {L₁ L₂ : List Off} {a : Off}
    (h : StoreOK s X (L₁ ++ a :: L₂)) (hm : Matched s X (L₁ ++ a :: L₂))
    (ha : recordName s.shm a = name) (hd : Deleted s s' name X X') :
    Matched s' X' (L₁ ++ L₂) := by
  refine ⟨?_, ?_⟩
  · rw [hd.userOff_eq]
    rcases Removed.cases h.index hd.removed with ⟨-, hno⟩ | ⟨z, hz, hperm, -⟩
    · obtain ⟨b, hb, hba⟩ := List.mem_map.mp (hm.perm.mem_iff.mpr
        (show a ∈ L₁ ++ a :: L₂ by simp))
      refine absurd ?_ (hno b hb)
      rw [← ha, recordName, ← hba]
      rfl
    · have hzX : z ∈ X.toList := hperm.mem_iff.mpr List.mem_cons_self
      have hza : (s.shm.trees z).userOff = a :=
        hm.inj (hm.perm.mem_iff.mp (List.mem_map_of_mem hzX)) (by simp) (Eq.trans hz ha.symm)
      have h1 := (hperm.map fun b => (s.shm.trees b).userOff).symm.trans hm.perm
      rw [List.map_cons, hza] at h1
      exact (h1.trans List.perm_middle).cons_inv
  · rw [hd.recordName_eq]
    exact hm.names.sublist
      (((List.Sublist.refl L₁).append (List.sublist_cons_self a L₂)).map _)

/-! ## Runs whose loads bring new names -/

/-- The records a load inserts before the pools are exhausted. -/
def insertedRecords (elems : List ElemType) (s : Store) : List ElemType :=
  elems.take (userStorePoolNodes - s.shm.header.listNextFree)

/-- Does the operation, when it is a load, insert records of distinct names that no live record
has? Additions and deletions always pass. -/
def Op.freshNames : Op → Store → Bool
  | .loadCsv (some text), s =>
    let elems := insertedRecords (csvRecords (fgets 512 text) 0) s
    decide (elems.map ElemType.name).Nodup &&
      elems.all fun elem => decide (userStoreFind s.shm elem.name = some 0)
  | _, _ => true

/-- Every operation of a run passes in the state it starts from. -/
def freshRun : List Op → Store → Bool
  | [], _ => true
  | op :: ops, s =>
    op.freshNames s &&
      match op.exec s with
      | some s' => freshRun ops s'
      | none => false

/-- The list search answers `NULL` only for a name that no live record has. -/
theorem userStoreFind_null (h : StoreOK s X L) {name : CStr}
    (hf : userStoreFind s.shm name = some 0) : ∀ a ∈ L, recordName s.shm a ≠ name := by
  rcases userStoreFind_spec h name with ⟨hno, -⟩ | ⟨L₁, a, L₂, rfl, -, hf'⟩
  · exact hno
  · have ha0 : a ≠ 0 := h.chain.ne_stop a (by simp)
    exact absurd (Option.some.inj (hf'.symm.trans hf)) ha0

/-- During a load: the structures match, and the records to come have new and distinct names. -/
def LoadInv (elems : List ElemType) (s : Store) : Prop :=
  ∃ X L, StoreOK s X L ∧ Matched s X L ∧
    ((insertedRecords elems s).map ElemType.name).Nodup ∧
    ∀ elem ∈ insertedRecords elems s, ∀ a ∈ L, recordName s.shm a ≠ elem.name

theorem LoadInv.matched {elems : List ElemType} {s : Store} (h : LoadInv elems s) :
    ∃ X L, StoreOK s X L ∧ Matched s X L := by
  obtain ⟨X, L, hs, hm, -⟩ := h
  exact ⟨X, L, hs, hm⟩

theorem LoadInv.place {elem : ElemType} {elems : List ElemType} {s : Store}
    (h : LoadInv (elem :: elems) s) :
    (∃ s', placeRecord elem s = some (true, s') ∧ LoadInv elems (s'.addSize 1)) ∨
      placeRecord elem s = some (false, s) ∧ ∃ X L, StoreOK s X L ∧ Matched s X L := by
  obtain ⟨X, L, hs, hm, hnd, hnew⟩ := h
  rcases Nat.lt_or_ge s.shm.header.listNextFree userStorePoolNodes with hfree | hfull
  · obtain ⟨s', X', hp, hs', hplaced⟩ := placeRecord_spec hs elem hfree
    obtain ⟨k, hk⟩ : ∃ k, userStorePoolNodes - s.shm.header.listNextFree = k + 1 :=
      ⟨userStorePoolNodes - s.shm.header.listNextFree - 1, by omega⟩
    have hk' : userStorePoolNodes - s'.shm.header.listNextFree = k := by
      rw [hplaced.header]
      simp only
      omega
    have helems : insertedRecords (elem :: elems) s = elem :: insertedRecords elems s' := by
      rw [insertedRecords, insertedRecords, hk, hk', List.take_succ_cons]
    rw [helems] at hnd hnew
    rw [List.map_cons, List.nodup_cons] at hnd
    obtain ⟨hfirst, hrest⟩ := List.forall_mem_cons.mp hnew
    refine Or.inl ⟨s', hp, X', _, hs'.addSize 1, (hm.place hs hplaced hfirst).congr rfl rfl,
      hnd.2, fun e he => List.forall_mem_cons.mpr ⟨?_, fun a ha => ?_⟩⟩
    · change recordName s'.shm _ ≠ e.name
      rw [hplaced.recordName_new]
      exact fun h0 => hnd.1 (h0 ▸ List.mem_map_of_mem he)
    · change recordName s'.shm a ≠ e.name
      rw [hplaced.recordName_old hs a ha]
      exact hrest e he a ha
  · exact Or.inr ⟨placeRecord_full elem hfull, X, L, hs, hm⟩

/-- **One operation** that brings no name twice keeps the structures matched. -/
theorem Matched.exec {op : Op} (h : Sound s X L) (hm : Matched s X L)
    (hfresh : op.freshNames s = true) :
    ∃ s' X' L', op.exec s = some s' ∧ Sound s' X' L' ∧ Matched s' X' L' := by
  cases op with
  | loadCsv file =>
    cases file with
    | none => exact ⟨_, X, L, rfl, h.reread, hm.congr rfl rfl⟩
    | some text =>
      simp only [Op.freshNames, Bool.and_eq_true, decide_eq_true_eq, List.all_eq_true] at hfresh
      obtain ⟨s', size, hload, X', L', hs', hm'⟩ :=
        userStoreShmLoadCsv_rule (P := LoadInv) (Q := fun s => ∃ X L, StoreOK s X L ∧ Matched s X L)
          (fun _ hinv => hinv.matched) (fun _ _ _ hinv => hinv.place)
          s text ⟨X, L, h.reread.toStoreOK, hm.congr rfl rfl, hfresh.1,
            fun e he => userStoreFind_null h.toStoreOK (hfresh.2 e he)⟩
      exact ⟨_, X', L', hload, ⟨hs'.syncRoot.toStoreOK.congr rfl rfl rfl rfl rfl rfl, rfl⟩,
        hm'.congr rfl rfl⟩
  | add csvLine =>
    rcases userStoreAdd_spec h.toStoreOK csvLine with
      ⟨res, hadd, -⟩ | ⟨elem, s', X', -, hnew, -, hadd, hs', hp⟩
    · exact ⟨s, X, L, by rw [Op.exec, hadd]; rfl, h, hm⟩
    · exact ⟨_, X', _, by rw [Op.exec, hadd]; rfl, (hs'.addSize 1).syncRoot,
        (hm.place h.toStoreOK hp hnew).congr rfl rfl⟩
  | delete name =>
    rcases userStoreDelete_spec h.toStoreOK name with
      ⟨-, hdel⟩ | ⟨L₁, a, L₂, s', X', rfl, ha, hdel, hs', hd⟩
    · exact ⟨s, X, L, by rw [Op.exec, hdel]; rfl, h, hm⟩
    · exact ⟨s', X', _, by rw [Op.exec, hdel]; rfl, ⟨hs', hd.synced⟩,
        hm.delete h.toStoreOK ha hd⟩

theorem Matched.run {ops : List Op} (h : Sound s X L) (hm : Matched s X L)
    (hfresh : freshRun ops s = true) :
    ∃ s' X' L', runOps ops s = some s' ∧ Sound s' X' L' ∧ Matched s' X' L' := by
  induction ops generalizing s X L with
  | nil => exact ⟨s, X, L, rfl, h, hm⟩
  | cons op ops ih =>
    rw [freshRun, Bool.and_eq_true] at hfresh
    obtain ⟨s', X', L', hexec, h', hm'⟩ := hm.exec h hfresh.1
    rw [hexec] at hfresh
    rw [runOps, hexec]
    exact ih h' hm' hfresh.2

/-- **List and index agree.** In every run whose loads insert only names that are new, list search
and index search answer alike for every name. -/
theorem freshRun_agree {ops : List Op} (h : freshRun ops userStoreShmInit = true) :
    ∃ s, runOps ops userStoreShmInit = some s ∧ ∀ name, Agree s name := by
  obtain ⟨s, X, L, hrun, hs, hm⟩ := matched_init.run sound_init h
  exact ⟨s, hrun, fun name => hm.agree hs.toStoreOK name⟩

end

/-! ## A file that repeats a name -/

/-- Two records of one name. -/
def repeatedName : List UInt8 := ascii "bob,1,2000\nbob,2,2001\n"

/-- A file of two names, an addition that is refused and one that is not, and a deletion. -/
theorem freshRun_agree_example :
    ∃ s, runOps [.loadCsv (some (ascii "bob,1,2000\namy,2,2001\n")), .add (ascii "bob,3,2002"),
      .add (ascii "eve,4,2003"), .delete (ascii "bob")] userStoreShmInit = some s ∧
      ∀ name, Agree s name :=
  freshRun_agree (by decide +kernel)

/-- The list search finds the second record, the index search the first. -/
theorem repeatedName_disagree :
    ¬ ∀ ops, ∃ s, runOps ops userStoreShmInit = some s ∧ ∀ name, Agree s name := by
  intro h
  obtain ⟨s, hrun, hagree⟩ := h [.loadCsv (some repeatedName)]
  have hf : (runOps [.loadCsv (some repeatedName)] userStoreShmInit).map (fun s =>
      (userStoreFind s.shm (ascii "bob"), userStoreFindIndex s (ascii "bob"))) =
      some (some (listSlot 2), some (listSlot 1)) := by decide +kernel
  rw [hrun, Option.map_some, Option.some.injEq, Prod.mk.injEq] at hf
  obtain ⟨a, h1, h2, -⟩ := hagree (ascii "bob")
  rw [hf.1] at h1
  rw [hf.2] at h2
  have h3 := (Option.some.inj h1).trans (Option.some.inj h2).symm
  exact absurd (listSlot_inj h3) (by decide)

end MiniWeb.UserStore
