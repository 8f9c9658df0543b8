import MiniWeb.UserStore.StoreSpec

/-!
# Runs of the user store in one process

An operation is a load, an addition or a deletion. Every operation ends, whatever the state it
starts from was built by, and leaves an index that is a red-black search tree.
-/

namespace MiniWeb.UserStore

open RedBlack Loop CStr ColorTree TreePath

inductive Op where
  | loadCsv (file : Option (List UInt8))
  | add (csvLine : CStr)
  | delete (name : CStr)

/-- The store an operation leaves. -/
def Op.exec : Op → Store → Option Store
  | .loadCsv file, s => userStoreShmLoadCsv file s
  | .add csvLine, s => (userStoreAdd csvLine s).map Prod.snd
  | .delete name, s => (userStoreDelete name s).map Prod.snd

def runOps : List Op → Store → Option Store
  | [], s => some s
  | op :: ops, s => (op.exec s).bind (runOps ops)

theorem runOps_append (ops ops' : List Op) (s : Store) :
    runOps (ops ++ ops') s = (runOps ops s).bind (runOps ops') := by
  induction ops generalizing s with
  | nil => rfl
  | cons op ops ih =>
    simp only [List.cons_append, runOps, Option.bind_assoc]
    exact congrArg _ (funext ih)

/-! ## Loading -/

/-- The records a file holds: what the loader inserts while the pools last. -/
def csvRecords : List (List UInt8) → Nat → List ElemType
  | [], _ => []
  | buf :: rest, count =>
    let line := removeNewline (ofBuffer buf)
    if isHeaderLine line count then csvRecords rest (count + 1)
    else
      match parseCsvLine line with
      | none => csvRecords rest count
      | some elem => elem :: csvRecords rest (count + 1)

/-- **The loading loop.** What holds of the records still to come, and is handed on by placing
the first of them, yields what holds at the end. -/
theorem loadLines_rule {P : List ElemType → Store → Prop} {Q : Store → Prop}
    (hend : ∀ s, P [] s → Q s)
    (hplace : ∀ elem elems s, P (elem :: elems) s →
      (∃ s', placeRecord elem s = some (true, s') ∧ P elems (s'.addSize 1)) ∨
        placeRecord elem s = some (false, s) ∧ Q s) :
    ∀ {lines : List (List UInt8)} {s : Store} {count : Nat}, P (csvRecords lines count) s →
      ∃ s' count', loadLines lines s count = some (s', count') ∧ Q s' := by
  intro lines
  induction lines with
  | nil => intro s count h; exact ⟨s, count, rfl, hend s h⟩
  | cons buf rest ih =>
    intro s count h
    by_cases hh : isHeaderLine (removeNewline (ofBuffer buf)) count = true
    · simp only [csvRecords, if_pos hh] at h
      simp only [loadLines, if_pos hh]
      exact ih h
    · simp only [csvRecords, if_neg hh] at h
      simp only [loadLines, if_neg hh]
      cases hp : parseCsvLine (removeNewline (ofBuffer buf)) with
      | none =>
        simp only [hp] at h
        exact ih h
      | some elem =>
        simp only [hp] at h
        rcases hplace _ _ s h with ⟨s', hs', hP⟩ | ⟨hs', hQ⟩
        · simp only [hs', Option.bind_some]
          exact ih hP
        · simp only [hs', Option.bind_some]
          exact ⟨s, count, rfl, hQ⟩

/-! ## The invariant of a run -/

/-- The invariant between operations: the shared root is the process's root. -/
structure Sound (s : Store) (X : ColorTree Off) (L : List Off) : Prop extends StoreOK s X L where
  synced : s.shm.header.rootOff = s.bst.rootOff

theorem sound_init : Sound userStoreShmInit .nil [] := ⟨storeOK_init, rfl⟩

variable {s : Store} {X : ColorTree Off} {L : List Off}

theorem StoreOK.addSize (h : StoreOK s X L) (n : Int) : StoreOK (s.addSize n) X L :=
  h.congr rfl rfl rfl rfl rfl rfl

/-- Writing the root back after the last change of the index. -/
theorem StoreOK.syncRoot (h : StoreOK s X L) : Sound s.syncRoot X L :=
  ⟨h.congr rfl rfl rfl rfl rfl rfl, rfl⟩

/-- The root as the loader rereads it from the header. -/
def Store.reread (s : Store) : Store :=
  { s with bst := { s.bst with rootOff := s.shm.header.rootOff, nilOff := s.shm.header.nilOff } }

/-- One record is placed, or the pools are exhausted. -/
theorem placeRecord_total (h : StoreOK s X L) (elem : ElemType) :
    (∃ s' X', placeRecord elem s = some (true, s') ∧
      StoreOK s' X' (listSlot s.shm.header.listNextFree :: L) ∧ Placed s s' X X' elem) ∨
      placeRecord elem s = some (false, s) ∧ userStorePoolNodes ≤ s.shm.header.listNextFree := by
  rcases Nat.lt_or_ge s.shm.header.listNextFree userStorePoolNodes with hfree | hfull
  · exact Or.inl (placeRecord_spec h elem hfree)
  · exact Or.inr ⟨placeRecord_full elem hfull, hfull⟩

/-- Loading rereads the root, places the records of the file and writes the root back. -/
theorem userStoreShmLoadCsv_rule {P : List ElemType → Store → Prop} {Q : Store → Prop}
    (hend : ∀ s, P [] s → Q s) (hplace : ∀ elem elems s, P (elem :: elems) s →
      (∃ s', placeRecord elem s = some (true, s') ∧ P elems (s'.addSize 1)) ∨
        placeRecord elem s = some (false, s) ∧ Q s)
    (s : Store) (text : List UInt8)
    (h : P (csvRecords (fgets 512 text) 0) s.reread) :
    ∃ s' size, userStoreShmLoadCsv (some text) s =
      some (s'.syncRoot.setHeader fun h => { h with size := size }) ∧ Q s' := by
  obtain ⟨s', count, hload, hQ⟩ := loadLines_rule hend hplace h
  refine ⟨s', count, ?_, hQ⟩
  rw [Store.reread] at hload
  simp only [userStoreShmLoadCsv, hload, Option.map_some]

/-- What rereading the root from the header leaves of a sound store. -/
theorem Sound.reread (h : Sound s X L) : Sound s.reread X L :=
  ⟨h.toStoreOK.congr rfl rfl h.synced rfl rfl rfl, rfl⟩

theorem Sound.loadCsv (h : Sound s X L) (file : Option (List UInt8)) :
    ∃ s' X' L', userStoreShmLoadCsv file s = some s' ∧ Sound s' X' L' := by
  cases file with
  | none => exact ⟨_, X, L, rfl, h.reread⟩
  | some text =>
    obtain ⟨s', size, hload, X', L', hs'⟩ :=
      userStoreShmLoadCsv_rule (P := fun _ s => ∃ X L, StoreOK s X L)
        (Q := fun s => ∃ X L, StoreOK s X L) (fun _ h => h)
        (fun elem elems s ⟨X, L, hs⟩ => by
          rcases placeRecord_total hs elem with ⟨s', X', hp, hs', -⟩ | ⟨hp, -⟩
          · exact Or.inl ⟨s', hp, X', _, hs'.addSize 1⟩
          · exact Or.inr ⟨hp, X, L, hs⟩)
        s text ⟨X, L, h.reread.toStoreOK⟩
    exact ⟨_, X', L', hload, hs'.syncRoot.toStoreOK.congr rfl rfl rfl rfl rfl rfl, rfl⟩

/-- **`user_store_add`**: a malformed line, a name that is on the list and an exhausted pool change
nothing, and otherwise the record is placed. -/
theorem userStoreAdd_cases (h : StoreOK s X L) (csvLine : CStr) :
    (parseCsvLine csvLine = none ∧ userStoreAdd csvLine s = some (-1, s)) ∨
      ∃ elem, parseCsvLine csvLine = some elem ∧
        ((∃ a ∈ L, recordName s.shm a = elem.name) ∧ userStoreAdd csvLine s = some (1, s) ∨
          (∀ a ∈ L, recordName s.shm a ≠ elem.name) ∧
            (userStorePoolNodes ≤ s.shm.header.listNextFree ∧
                userStoreAdd csvLine s = some (-1, s) ∨
              s.shm.header.listNextFree < userStorePoolNodes ∧
                ∃ s' X', placeRecord elem s = some (true, s') ∧
                  userStoreAdd csvLine s = some (0, (s'.addSize 1).syncRoot) ∧
                  StoreOK s' X' (listSlot s.shm.header.listNextFree :: L) ∧
                  Placed s s' X X' elem)) := by
  unfold userStoreAdd
  cases hp : parseCsvLine csvLine with
  | none => exact Or.inl ⟨rfl, rfl⟩
  | some elem =>
    refine Or.inr ⟨elem, rfl, ?_⟩
    simp only
    rcases userStoreFind_spec h elem.name with ⟨hno, hf⟩ | ⟨L₁, a, L₂, rfl, ha, hf⟩
    · refine Or.inr ⟨hno, ?_⟩
      rw [hf, Option.bind_some, if_neg (by simp)]
      rcases Nat.lt_or_ge s.shm.header.listNextFree userStorePoolNodes with hfree | hfull
      · obtain ⟨s', X', hpl, hs', hplaced⟩ := placeRecord_spec h elem hfree
        refine Or.inr ⟨hfree, s', X', hpl, ?_, hs', hplaced⟩
        rw [hpl]
        rfl
      · rw [placeRecord_full elem hfull]
        exact Or.inl ⟨hfull, rfl⟩
    · have ha0 : a ≠ 0 := h.chain.ne_stop a (by simp)
      rw [hf, Option.bind_some, if_pos ha0]
      exact Or.inl ⟨⟨a, by simp, ha⟩, rfl⟩

/-- An addition that does not succeed changes nothing. -/
theorem userStoreAdd_spec (h : StoreOK s X L) (csvLine : CStr) :
    (∃ res, userStoreAdd csvLine s = some (res, s) ∧ res ≠ 0) ∨
      ∃ elem s' X', parseCsvLine csvLine = some elem ∧
        (∀ a ∈ L, recordName s.shm a ≠ elem.name) ∧
        s.shm.header.listNextFree < userStorePoolNodes ∧
        userStoreAdd csvLine s = some (0, (s'.addSize 1).syncRoot) ∧
        StoreOK s' X' (listSlot s.shm.header.listNextFree :: L) ∧ Placed s s' X X' elem := by
  rcases userStoreAdd_cases h csvLine with ⟨-, hadd⟩ | ⟨elem, hp, ⟨-, hadd⟩ | ⟨hno, hroom⟩⟩
  · exact Or.inl ⟨-1, hadd, by decide⟩
  · exact Or.inl ⟨1, hadd, by decide⟩
  · rcases hroom with ⟨-, hadd⟩ | ⟨hfree, s', X', -, hadd, hs', hplaced⟩
    · exact Or.inl ⟨-1, hadd, by decide⟩
    · exact Or.inr ⟨elem, s', X', hp, hno, hfree, hadd, hs', hplaced⟩

/-- **One operation.** It ends and keeps the invariant. -/
theorem Sound.exec (h : Sound s X L) (op : Op) :
    ∃ s' X' L', op.exec s = some s' ∧ Sound s' X' L' := by
  cases op with
  | loadCsv file => exact h.loadCsv file
  | add csvLine =>
    rcases userStoreAdd_spec h.toStoreOK csvLine with
      ⟨res, hadd, -⟩ | ⟨elem, s', X', -, -, -, hadd, hs', -⟩
    · exact ⟨s, X, L, by rw [Op.exec, hadd]; rfl, h⟩
    · exact ⟨_, X', _, by rw [Op.exec, hadd]; rfl, (hs'.addSize 1).syncRoot⟩
  | delete name =>
    rcases userStoreDelete_spec h.toStoreOK name with
      ⟨-, hdel⟩ | ⟨L₁, a, L₂, s', X', -, -, hdel, hs', hd⟩
    · exact ⟨s, X, L, by rw [Op.exec, hdel]; rfl, h⟩
    · exact ⟨s', X', _, by rw [Op.exec, hdel]; rfl, hs', hd.synced⟩

/-- **Runs.** Every finite sequence of operations ends and keeps the invariant. -/
theorem Sound.run (ops : List Op) (h : Sound s X L) :
    ∃ s' X' L', runOps ops s = some s' ∧ Sound s' X' L' := by
  induction ops generalizing s X L with
  | nil => exact ⟨s, X, L, rfl, h⟩
  | cons op ops ih =>
    obtain ⟨s', X', L', hexec, h'⟩ := h.exec op
    rw [runOps, hexec]
    exact ih h'

/-- **The index stays a red-black search tree.** Every run of loads, additions and deletions from
`user_store_shm_init` ends, and after it the nodes reachable from `g_user_bst.root_off` form a
red-black tree ordered by name, with a black sentinel that is its own child. -/
theorem runOps_indexTree (ops : List Op) :
    ∃ s, runOps ops userStoreShmInit = some s ∧
      ∃ X, IndexTree s.shm.lists s.index X := by
  obtain ⟨s, X, L, hrun, hs⟩ := sound_init.run ops
  exact ⟨s, hrun, X, hs.index⟩

/-! ## Failed updates -/

/-- A failed addition has changed nothing. -/
theorem StoreOK.add_failed (h : StoreOK s X L) (csvLine : CStr) :
    ∃ res s', userStoreAdd csvLine s = some (res, s') ∧ (res ≠ 0 → s' = s) := by
  rcases userStoreAdd_spec h csvLine with ⟨res, hadd, -⟩ | ⟨elem, s', X', -, -, -, hadd, -, -⟩
  · exact ⟨res, s, hadd, fun _ => rfl⟩
  · exact ⟨0, _, hadd, fun hne => absurd rfl hne⟩

/-- A failed deletion has changed nothing. -/
theorem StoreOK.delete_failed (h : StoreOK s X L) (name : CStr) :
    ∃ res s', userStoreDelete name s = some (res, s') ∧ (res = -1 → s' = s) := by
  rcases userStoreDelete_spec h name with ⟨-, hdel⟩ | ⟨L₁, a, L₂, s', X', -, -, hdel, -, -⟩
  · exact ⟨-1, s, hdel, fun _ => rfl⟩
  · exact ⟨0, s', hdel, fun h0 => absurd h0 (by decide)⟩

/-- The two allocators advance in step, so a record for which there is a list node also gets a
tree node: a refusal comes from the list pool. -/
theorem StoreOK.refused_full (h : StoreOK s X L) {elem : ElemType} {s' : Store}
    (hrefused : placeRecord elem s = some (false, s')) : listAlloc s.shm = none := by
  rcases placeRecord_total h elem with ⟨s₁, X', hp, -, -⟩ | ⟨-, hfull⟩
  · rw [hp] at hrefused
    cases hrefused
  · rw [listAlloc]
    exact if_pos hfull

/-- **Failed updates change nothing.** After every run of loads, additions and deletions, an
addition or a deletion that reports a failure leaves the region and `g_user_bst` as they were, and
a record is refused only before its list node is taken. -/
theorem runOps_failed_unchanged (ops : List Op) :
    ∃ s, runOps ops userStoreShmInit = some s ∧
      (∀ csvLine, ∃ res s', userStoreAdd csvLine s = some (res, s') ∧ (res ≠ 0 → s' = s)) ∧
      (∀ name, ∃ res s', userStoreDelete name s = some (res, s') ∧ (res = -1 → s' = s)) ∧
      ∀ elem s', placeRecord elem s = some (false, s') → listAlloc s.shm = none := by
  obtain ⟨s, X, L, hrun, hs⟩ := sound_init.run ops
  refine ⟨s, hrun, ?_, ?_, ?_⟩
  · intro csvLine
    exact hs.toStoreOK.add_failed csvLine
  · intro name
    exact hs.toStoreOK.delete_failed name
  · intro elem s' hrefused
    exact hs.toStoreOK.refused_full hrefused

end MiniWeb.UserStore
