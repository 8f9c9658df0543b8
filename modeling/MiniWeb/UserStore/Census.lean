import MiniWeb.UserStore.Runs

/-!
# Counting users

The records in use on the list, and the names that list and index hold: the same ones after every
run, also when names are repeated. `g_header->size` counts the records, except that the loader
overwrites it with a count in which a header line was a record.
-/

namespace MiniWeb.UserStore

open RedBlack Loop CStr ColorTree TreePath

/-- The list nodes in use behind the head. -/
def liveNodes (shm : Shm) : List Off :=
  (cells (fun a => (shm.lists a).nextOff) 0 userStorePoolNodes
    (shm.lists shm.header.headOff).nextOff).filter fun a => (shm.lists a).used

section

variable {s s' : Store} {X X' : ColorTree Off} {L L₁ L₂ : List Off} {a : Off} {elem : ElemType}
  {name : CStr}

theorem StoreOK.liveNodes_eq (h : StoreOK s X L) : liveNodes s.shm = L := by
  rw [liveNodes, h.head, h.chain.cells_eq h.records_lt_pool.le]
  exact List.filter_eq_self.mpr h.live

/-! ## Invariants of runs -/

/-- An invariant beside `StoreOK`: it is kept by placing a record and by taking one out, and does
not look at the header. -/
structure Invariant (I : Store → ColorTree Off → List Off → Prop) : Prop where
  congr : ∀ {s s' X L}, I s X L → s'.shm.lists = s.shm.lists → s'.shm.trees = s.shm.trees → I s' X L
  place : ∀ {s s' X X' L elem}, StoreOK s X L → I s X L → placeRecord elem s = some (true, s') →
    StoreOK s' X' (listSlot s.shm.header.listNextFree :: L) → Placed s s' X X' elem →
    I s' X' (listSlot s.shm.header.listNextFree :: L)
  delete : ∀ {s s' X X' L₁ a L₂ name}, StoreOK s X (L₁ ++ a :: L₂) → I s X (L₁ ++ a :: L₂) →
    recordName s.shm a = name → userStoreDelete name s = some (0, s') →
    Deleted s s' name X X' → I s' X' (L₁ ++ L₂)

variable {I : Store → ColorTree Off → List Off → Prop}

theorem Invariant.exec (hI : Invariant I) (h : Sound s X L) (hs : I s X L) (op : Op) :
    ∃ s' X' L', op.exec s = some s' ∧ Sound s' X' L' ∧ I s' X' L' := by
  cases op with
  | loadCsv file =>
    cases file with
    | none => exact ⟨_, X, L, rfl, h.reread, hI.congr hs rfl rfl⟩
    | some text =>
      obtain ⟨s', size, hload, X', L', hs', hinv⟩ :=
        userStoreShmLoadCsv_rule (P := fun _ s => ∃ X L, StoreOK s X L ∧ I s X L)
          (Q := fun s => ∃ X L, StoreOK s X L ∧ I s X L) (fun _ h => h)
          (fun elem elems s ⟨X, L, hs, hinv⟩ => by
            rcases placeRecord_total hs elem with ⟨s', X', hp, hs', hplaced⟩ | ⟨hp, -⟩
            · exact Or.inl ⟨s', hp, X', _, hs'.addSize 1,
                hI.congr (hI.place hs hinv hp hs' hplaced) rfl rfl⟩
            · exact Or.inr ⟨hp, X, L, hs, hinv⟩)
          s text ⟨X, L, h.reread.toStoreOK, hI.congr hs rfl rfl⟩
      exact ⟨_, X', L', hload, ⟨hs'.syncRoot.toStoreOK.congr rfl rfl rfl rfl rfl rfl, rfl⟩,
        hI.congr hinv rfl rfl⟩
  | add csvLine =>
    have hsame : ∀ res, userStoreAdd csvLine s = some (res, s) →
        (Op.add csvLine).exec s = some s := by
      intro res hadd
      rw [Op.exec, hadd]
      rfl
    rcases userStoreAdd_cases h.toStoreOK csvLine with
      ⟨-, hadd⟩ | ⟨elem, -, ⟨-, hadd⟩ | ⟨-, ⟨-, hadd⟩ | ⟨-, s', X', hplace, hadd, hs', hp⟩⟩⟩
    · exact ⟨s, X, L, hsame _ hadd, h, hs⟩
    · exact ⟨s, X, L, hsame _ hadd, h, hs⟩
    · exact ⟨s, X, L, hsame _ hadd, h, hs⟩
    · exact ⟨_, X', _, by rw [Op.exec, hadd]; rfl, (hs'.addSize 1).syncRoot,
        hI.congr (hI.place h.toStoreOK hs hplace hs' hp) rfl rfl⟩
  | delete name =>
    rcases userStoreDelete_spec h.toStoreOK name with
      ⟨-, hdel⟩ | ⟨L₁, a, L₂, s', X', rfl, ha, hdel, hs', hd⟩
    · exact ⟨s, X, L, by rw [Op.exec, hdel]; rfl, h, hs⟩
    · exact ⟨s', X', _, by rw [Op.exec, hdel]; rfl, ⟨hs', hd.synced⟩,
        hI.delete h.toStoreOK hs ha hdel hd⟩

/-- **Runs keep an invariant.** -/
theorem Invariant.run (hI : Invariant I) (h : Sound s X L) (hs : I s X L) (ops : List Op) :
    ∃ s' X' L', runOps ops s = some s' ∧ Sound s' X' L' ∧ I s' X' L' := by
  induction ops generalizing s X L with
  | nil => exact ⟨s, X, L, rfl, h, hs⟩
  | cons op ops ih =>
    obtain ⟨s', X', L', hexec, h', hs'⟩ := hI.exec h hs op
    rw [runOps, hexec]
    exact ih h' hs'

/-! ## Names -/

/-- List and index hold the same names, each as often. -/
def SameNames (s : Store) (X : ColorTree Off) (L : List Off) : Prop :=
  (X.toList.map (nameAt s.shm.lists s.shm.trees)).Perm (L.map (recordName s.shm))

theorem SameNames.nodes (h : SameNames s X L) : X.toList.length = L.length := by
  have hlen := List.Perm.length_eq h
  rwa [List.length_map, List.length_map] at hlen

theorem SameNames.congr (h : SameNames s X L) (hl : s'.shm.lists = s.shm.lists)
    (ht : s'.shm.trees = s.shm.trees) : SameNames s' X L := by
  have hname : recordName s'.shm = recordName s.shm := by
    funext a
    rw [recordName, recordName, hl]
  rw [SameNames, hl, ht, hname]
  exact h

/-- The names of the nodes are those of their users. -/
theorem map_nameAt (s : Store) (T : List Off) : T.map (nameAt s.shm.lists s.shm.trees) =
    (T.map fun a => (s.shm.trees a).userOff).map (recordName s.shm) := by
  rw [List.map_map]
  rfl

theorem SameNames.place (h : StoreOK s X L) (hs : SameNames s X L) (hp : Placed s s' X X' elem) :
    SameNames s' X' (listSlot s.shm.header.listNextFree :: L) := by
  have husers : ∀ u ∈ X.toList.map fun a => (s.shm.trees a).userOff,
      recordName s'.shm u = recordName s.shm u := by
    intro u hu
    obtain ⟨a, ha, rfl⟩ := List.mem_map.mp hu
    exact hp.recordName_eq ((h.users a ha).ne_next listSlot_inj)
  have hperm := hp.users.map (recordName s'.shm)
  rw [List.map_cons, hp.recordName_new, List.map_congr_left husers] at hperm
  rw [SameNames, map_nameAt, List.map_cons, hp.recordName_new,
    List.map_congr_left (hp.recordName_old h)]
  rw [SameNames, map_nameAt] at hs
  exact hperm.trans (hs.cons _)

theorem SameNames.delete (h : StoreOK s X (L₁ ++ a :: L₂)) (hs : SameNames s X (L₁ ++ a :: L₂))
    (ha : recordName s.shm a = name) (hd : Deleted s s' name X X') :
    SameNames s' X' (L₁ ++ L₂) := by
  have hL : ((L₁ ++ a :: L₂).map (recordName s.shm)).Perm
      (name :: (L₁ ++ L₂).map (recordName s.shm)) := by
    rw [← ha, ← List.map_cons]
    exact List.perm_middle.map _
  rw [SameNames, map_nameAt, hd.userOff_eq, hd.recordName_eq, ← map_nameAt]
  rcases Removed.cases h.index hd.removed with ⟨-, hno⟩ | ⟨z, hz, hperm, -⟩
  · have hmem : name ∈ X.toList.map (nameAt s.shm.lists s.shm.trees) :=
      hs.mem_iff.mpr (hL.mem_iff.mpr List.mem_cons_self)
    obtain ⟨b, hb, hbn⟩ := List.mem_map.mp hmem
    exact absurd hbn (hno b hb)
  · have hX := hperm.map (nameAt s.shm.lists s.shm.trees)
    have hzn : nameAt s.shm.lists s.shm.trees z = name := hz
    rw [List.map_cons, hzn] at hX
    exact (hX.symm.trans (hs.trans hL)).cons_inv

/-- **List and index hold the same names** after every run. -/
theorem sameNames_invariant : Invariant SameNames where
  congr h hl ht := h.congr hl ht
  place h hs _ _ hp := hs.place h hp
  delete h hs ha _ hd := hs.delete h ha hd

/-! ## The size -/

/-- A deletion writes the size and the root of the header. -/
theorem userStoreDelete_header (h : userStoreDelete name s = some (0, s')) :
    s'.shm.header = { s.shm.header with
      size := s.shm.header.size + -1
      rootOff := s'.bst.rootOff } := by
  simp only [userStoreDelete, Option.bind_eq_some_iff] at h
  obtain ⟨found, -, h⟩ := h
  cases found with
  | none => cases h
  | some pair =>
    obtain ⟨⟨res, t⟩, -, hs'⟩ := Option.map_eq_some_iff.mp h
    obtain ⟨-, rfl⟩ := Prod.mk.inj hs'
    rfl

/-- Does the loader take a line for a header? It looks for one before the first record. -/
def skipsHeader : List (List UInt8) → Bool
  | [] => false
  | buf :: rest =>
    let line := removeNewline (ofBuffer buf)
    isHeaderLine line 0 || (parseCsvLine line).isNone && skipsHeader rest

theorem isHeaderLine_pos {line : CStr} {count : Nat} (h : isHeaderLine line count = true) :
    count = 0 := by
  simp only [isHeaderLine, Bool.and_eq_true, decide_eq_true_eq] at h
  exact h.1.1.2

/-- **The count of the loader** grows with the list, and by one for a header line. -/
theorem loadLines_count {lines : List (List UInt8)} {count count' : Nat} (h : StoreOK s X L)
    (hs : SameNames s X L) (hload : loadLines lines s count = some (s', count')) :
    ∃ X' L', StoreOK s' X' L' ∧ SameNames s' X' L' ∧
      L.length + count' =
        L'.length + count + if count = 0 ∧ skipsHeader lines = true then 1 else 0 := by
  induction lines generalizing s X L count with
  | nil =>
    obtain ⟨rfl, rfl⟩ := Prod.mk.inj (Option.some.inj hload)
    exact ⟨X, L, h, hs, by simp [skipsHeader]⟩
  | cons buf rest ih =>
    by_cases hh : isHeaderLine (removeNewline (ofBuffer buf)) count = true
    · obtain rfl := isHeaderLine_pos hh
      simp only [loadLines, if_pos hh] at hload
      obtain ⟨X', L', h', hs', hcount⟩ := ih h hs hload
      refine ⟨X', L', h', hs', ?_⟩
      simp only [skipsHeader, hh, Bool.true_or, and_self, if_true]
      simp only [Nat.add_eq_zero_iff, Nat.one_ne_zero, and_false, false_and, if_false] at hcount
      omega
    simp only [loadLines, if_neg hh] at hload
    have hskip : (count = 0 ∧ skipsHeader (buf :: rest) = true) ↔
        count = 0 ∧ (parseCsvLine (removeNewline (ofBuffer buf))).isNone = true ∧
          skipsHeader rest = true := by
      constructor
      · rintro ⟨rfl, hskip⟩
        rw [skipsHeader, Bool.eq_false_iff.mpr hh, Bool.false_or, Bool.and_eq_true] at hskip
        exact ⟨rfl, hskip⟩
      · rintro ⟨rfl, hnone, hskip⟩
        refine ⟨rfl, ?_⟩
        rw [skipsHeader, hnone, hskip]
        exact Bool.or_true _
    rw [if_congr hskip rfl rfl]
    cases hp : parseCsvLine (removeNewline (ofBuffer buf)) with
    | none =>
      rw [hp] at hload
      simpa using ih h hs hload
    | some elem =>
      rw [hp] at hload
      simp only [Option.isNone_some, Bool.false_eq_true, false_and, and_false, if_false] at hload ⊢
      rcases placeRecord_total h elem with ⟨s₁, X₁, hplace, h₁, hplaced⟩ | ⟨hfull, -⟩
      · rw [hplace, Option.bind_some] at hload
        obtain ⟨X', L', h', hs', hcount⟩ :=
          ih (h₁.addSize 1) ((hs.place h hplaced).congr rfl rfl) hload
        refine ⟨X', L', h', hs', ?_⟩
        rw [if_neg (by omega), List.length_cons] at hcount
        omega
      · rw [hfull, Option.bind_some] at hload
        obtain ⟨rfl, rfl⟩ := Prod.mk.inj (Option.some.inj hload)
        exact ⟨X, L, h, hs, by omega⟩

/-- What `g_header->size` says above the number of records. -/
def Surplus (n : Int) (s : Store) (L : List Off) : Prop := s.shm.header.size = L.length + n

/-- Does the loader skip a header line of the file? -/
def skipsHeaderOf : Option (List UInt8) → Bool
  | none => false
  | some text => skipsHeader (fgets 512 text)

/-- One load into an empty store. -/
theorem loadCsv_surplus (file : Option (List UInt8)) :
    ∃ s X L, userStoreShmLoadCsv file userStoreShmInit = some s ∧ Sound s X L ∧
      SameNames s X L ∧ Surplus (if skipsHeaderOf file = true then 1 else 0) s L := by
  have hs : SameNames userStoreShmInit .nil [] := .refl _
  cases file with
  | none => exact ⟨_, .nil, [], rfl, sound_init.reread, hs.congr rfl rfl, rfl⟩
  | some text =>
    obtain ⟨s', count, hload, -⟩ : ∃ s' count,
        loadLines (fgets 512 text) userStoreShmInit.reread 0 = some (s', count) ∧ True :=
      loadLines_rule (P := fun _ s => ∃ X L, StoreOK s X L) (Q := fun _ => True)
        (fun _ _ => trivial)
        (fun elem elems s ⟨X, L, hs⟩ => by
          rcases placeRecord_total hs elem with ⟨s', X', hp, hs', -⟩ | ⟨hp, -⟩
          · exact Or.inl ⟨s', hp, X', _, hs'.addSize 1⟩
          · exact Or.inr ⟨hp, trivial⟩)
        ⟨.nil, [], sound_init.reread.toStoreOK⟩
    obtain ⟨X, L, h', hs', hcount⟩ :=
      loadLines_count sound_init.reread.toStoreOK (hs.congr rfl rfl) hload
    refine ⟨s'.syncRoot.setHeader fun h => { h with size := count }, X, L, ?_,
      ⟨h'.syncRoot.toStoreOK.congr rfl rfl rfl rfl rfl rfl, rfl⟩, hs'.congr rfl rfl, ?_⟩
    · rw [Store.reread] at hload
      simp only [userStoreShmLoadCsv, hload, Option.map_some]
    · simp only [true_and, List.length_nil, Nat.zero_add, Nat.add_zero] at hcount
      change (count : Int) = _
      rw [hcount, skipsHeaderOf]
      split <;> simp

def Op.isUpdate : Op → Bool
  | .loadCsv _ => false
  | .add _ => true
  | .delete _ => true

/-- **One update** changes the size as it changes the list. -/
theorem Surplus.exec {n : Int} {op : Op} (hop : op.isUpdate = true) (h : Sound s X L)
    (hs : SameNames s X L) (hn : Surplus n s L) :
    ∃ s' X' L', op.exec s = some s' ∧ Sound s' X' L' ∧ SameNames s' X' L' ∧ Surplus n s' L' := by
  cases op with
  | loadCsv file => cases hop
  | add csvLine =>
    rcases userStoreAdd_spec h.toStoreOK csvLine with
      ⟨res, hadd, -⟩ | ⟨elem, s', X', -, -, -, hadd, hs', hp⟩
    · exact ⟨s, X, L, by rw [Op.exec, hadd]; rfl, h, hs, hn⟩
    · refine ⟨_, X', _, by rw [Op.exec, hadd]; rfl, (hs'.addSize 1).syncRoot,
        (hs.place h.toStoreOK hp).congr rfl rfl, ?_⟩
      have hsize : s'.shm.header.size = s.shm.header.size := by rw [hp.header]
      change s'.shm.header.size + 1 = _
      rw [hsize, hn, List.length_cons]
      omega
  | delete name =>
    rcases userStoreDelete_spec h.toStoreOK name with
      ⟨-, hdel⟩ | ⟨L₁, a, L₂, s', X', rfl, ha, hdel, hs', hd⟩
    · exact ⟨s, X, L, by rw [Op.exec, hdel]; rfl, h, hs, hn⟩
    · refine ⟨s', X', _, by rw [Op.exec, hdel]; rfl, ⟨hs', hd.synced⟩,
        hs.delete h.toStoreOK ha hd, ?_⟩
      rw [Surplus] at hn ⊢
      rw [userStoreDelete_header hdel]
      simp only [List.length_append, List.length_cons] at hn ⊢
      omega

theorem Surplus.run {n : Int} {ops : List Op} (hops : ∀ op ∈ ops, op.isUpdate = true)
    (h : Sound s X L) (hs : SameNames s X L) (hn : Surplus n s L) :
    ∃ s' X' L', runOps ops s = some s' ∧ Sound s' X' L' ∧ SameNames s' X' L' ∧
      Surplus n s' L' := by
  induction ops generalizing s X L with
  | nil => exact ⟨s, X, L, rfl, h, hs, hn⟩
  | cons op ops ih =>
    obtain ⟨hop, hops⟩ := List.forall_mem_cons.mp hops
    obtain ⟨s', X', L', hexec, h', hs', hn'⟩ := hn.exec hop h hs
    rw [runOps, hexec]
    exact ih hops h' hs' hn'

end

/-- **The size is exact** after a load and any updates exactly if the file has no header line for
the loader to skip. -/
theorem size_exact_iff (file : Option (List UInt8)) {ops : List Op}
    (hops : ∀ op ∈ ops, op.isUpdate = true) :
    ∃ s X, runOps (.loadCsv file :: ops) userStoreShmInit = some s ∧
      IndexTree s.shm.lists s.index X ∧
      (s.shm.header.size = (liveNodes s.shm).length ∧ s.shm.header.size = X.toList.length ↔
        skipsHeaderOf file = false) := by
  obtain ⟨s₁, X₁, L₁, hload, h₁, hs₁, hn₁⟩ := loadCsv_surplus file
  obtain ⟨s, X, L, hrun, h, hs, hn⟩ := hn₁.run hops h₁ hs₁
  refine ⟨s, X, ?_, h.index, ?_⟩
  · rw [runOps, Op.exec, hload]
    exact hrun
  · rw [h.liveNodes_eq, hs.nodes, and_self, hn, ← Bool.not_eq_true]
    split
    next hskip => exact iff_of_false (by omega) (not_not_intro hskip)
    next hskip => exact iff_of_true (by omega) hskip

/-- A file without a header line, an addition and a deletion. -/
theorem size_exact_noHeader :
    ∃ s X, runOps [.loadCsv (some (ascii "bob,1,2000\namy,2,2001\n")), .add (ascii "eve,4,2003"),
      .delete (ascii "bob")] userStoreShmInit = some s ∧ IndexTree s.shm.lists s.index X ∧
      (s.shm.header.size = (liveNodes s.shm).length ∧ s.shm.header.size = X.toList.length ↔
        skipsHeaderOf (some (ascii "bob,1,2000\namy,2,2001\n")) = false) :=
  size_exact_iff _ (by decide)

/-- A header line is counted as a user. -/
theorem header_counted :
    ¬∀ file, ∃ s X, runOps [.loadCsv file] userStoreShmInit = some s ∧
      IndexTree s.shm.lists s.index X ∧ s.shm.header.size = (liveNodes s.shm).length ∧
      s.shm.header.size = X.toList.length := by
  intro h
  obtain ⟨s, X, hrun, -, hsize, -⟩ := h (some (ascii "name,password,birthdate\nbob,1,2000\n"))
  have hcounts : (runOps [.loadCsv (some (ascii "name,password,birthdate\nbob,1,2000\n"))]
      userStoreShmInit).map (fun s => (s.shm.header.size, (liveNodes s.shm).length)) =
      some (2, 1) := by decide +kernel
  rw [hrun, Option.map_some, Option.some.injEq, Prod.mk.injEq] at hcounts
  rw [hcounts.1, hcounts.2] at hsize
  cases hsize

end MiniWeb.UserStore
