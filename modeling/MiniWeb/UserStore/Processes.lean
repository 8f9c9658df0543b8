import MiniWeb.UserStore.Agreement

/-!
# Several processes over one region

After the fork the region is shared and each process has its own `g_user_bst`. An addition or
deletion runs as a whole under the region's mutex and writes the new root to the header; no
process reads it back. So the processes agree as long as no update moves the root, and a process
that is alone need not care.
-/

namespace MiniWeb.UserStore

open RedBlack Loop CStr ColorTree TreePath

/-- The updates a worker makes. -/
inductive Update where
  | add (csvLine : CStr)
  | delete (name : CStr)

def Update.exec : Update → Store → Option Store
  | .add csvLine, s => (userStoreAdd csvLine s).map Prod.snd
  | .delete name, s => (userStoreDelete name s).map Prod.snd

/-- The shared region and the `g_user_bst` of each process. -/
structure Machine (π : Type) where
  shm : Shm
  bst : π → BST

namespace Machine

variable {π : Type}

/-- The state just after the fork: every process has the parent's copy. -/
def fork (s : Store) : Machine π := ⟨s.shm, fun _ => s.bst⟩

/-- What process `i` sees. -/
def store (m : Machine π) (i : π) : Store := ⟨m.shm, m.bst i⟩

variable [DecidableEq π]

/-- Process `i` makes an update. -/
def exec (m : Machine π) (i : π) (op : Update) : Option (Machine π) :=
  (op.exec (m.store i)).map fun s => ⟨s.shm, Function.update m.bst i s.bst⟩

/-- The processes make updates in the given order. -/
def run : List (π × Update) → Machine π → Option (Machine π)
  | [], m => some m
  | (i, op) :: steps, m => (m.exec i op).bind (run steps)

end Machine

/-! ## Updates that keep the root -/

/-- The tree below a node of the pool. -/
def readTree (trees : Off → BSTnode) : Nat → Off → ColorTree Off
  | 0, _ => .nil
  | fuel + 1, a =>
    if a = gNil then .nil
    else
      .node (trees a).color (readTree trees fuel (trees a).leftOff) a
        (readTree trees fuel (trees a).rightOff)

theorem readTree_eq {t : Index} {q : Off} {X : ColorTree Off} {fuel : Nat}
    (h : Layout t.view gNil q X)
    (hfuel : X.toList.length < fuel) : readTree t.trees fuel (X.addr gNil) = X := by
  induction X generalizing q fuel with
  | nil =>
    obtain ⟨fuel, rfl⟩ : ∃ k, fuel = k + 1 := ⟨fuel - 1, by omega⟩
    exact if_pos rfl
  | node c l a r ihl ihr =>
    obtain ⟨fuel, rfl⟩ : ∃ k, fuel = k + 1 := ⟨fuel - 1, by omega⟩
    obtain ⟨ha, hcell, hl, hr⟩ := h
    rw [toList_node, List.length_append, List.length_cons] at hfuel
    have h1 : (t.trees a).leftOff = l.addr gNil := by rw [Index.leftOff_eq, hcell]
    have h2 : (t.trees a).rightOff = r.addr gNil := by rw [Index.rightOff_eq, hcell]
    have h3 : (t.trees a).color = c := by rw [Index.color_eq, hcell]
    rw [addr_node, readTree, if_neg ha, h1, h2, h3, ihl hl (by omega), ihr hr (by omega)]

/-- Does the update leave the root of the tree where it is? An addition does when it changes
nothing, or hangs its node in a tree that is not empty and repairs it without rotating at the
root; a deletion does when its node is not the root and the repair does not rotate there. -/
def Update.keepsRoot (op : Update) (s : Store) : Bool :=
  let X := readTree s.shm.trees userStorePoolNodes s.bst.rootOff
  match op with
  | .add csvLine =>
    match parseCsvLine csvLine with
    | none => true
    | some elem =>
      decide (userStoreFind s.shm elem.name ≠ some 0) ||
        decide (userStorePoolNodes ≤ s.shm.header.listNextFree) ||
        insertKeepsRoot s.shm.lists s.shm.trees elem.name X
  | .delete name => deleteKeepsRoot s.shm.lists s.shm.trees name X

/-- Every update of the run keeps the root, or is made by the only process. -/
def Machine.RootStays {π : Type} [DecidableEq π] : List (π × Update) → Machine π → Prop
  | [], _ => True
  | (i, op) :: steps, m =>
    (op.keepsRoot (m.store i) = true ∨ ∀ j, j = i) ∧
      ∀ m', m.exec i op = some m' → RootStays steps m'

/-! ## The invariant -/

/-- The region as a process sees it that has just read the root from the header. -/
def Shm.store (shm : Shm) : Store :=
  ⟨shm, ⟨shm.header.rootOff, shm.header.nilOff, shm.header.size⟩⟩

/-- The region is in order and every process has its root. -/
structure Coherent {π : Type} (m : Machine π) (X : ColorTree Off) (L : List Off) : Prop where
  sound : Sound m.shm.store X L
  matched : Matched m.shm.store X L
  root : ∀ i, (m.bst i).rootOff = m.shm.header.rootOff

section

variable {π : Type} {m : Machine π} {s : Store} {X : ColorTree Off} {L : List Off}

theorem Sound.to_header (h : Sound s X L) : Sound s.shm.store X L :=
  ⟨h.toStoreOK.congr rfl rfl h.synced rfl rfl rfl, rfl⟩

theorem Coherent.of_process (h : Coherent m X L) (i : π) :
    Sound (m.store i) X L ∧ Matched (m.store i) X L :=
  ⟨⟨h.sound.toStoreOK.congr rfl rfl (h.root i) rfl rfl rfl, (h.root i).symm⟩,
    h.matched.congr rfl rfl⟩

theorem Matched.to_header (h : Matched s X L) : Matched s.shm.store X L := h.congr rfl rfl

/-- What an update of one process does to its view; the root moves only if the update may move
it. -/
theorem Update.exec_spec (h : Sound s X L) (hm : Matched s X L) (op : Update) :
    ∃ s' X' L', op.exec s = some s' ∧ Sound s' X' L' ∧ Matched s' X' L' ∧
      (op.keepsRoot s = true → s'.bst.rootOff = s.bst.rootOff) := by
  have hX : readTree s.shm.trees userStorePoolNodes s.bst.rootOff = X := by
    have hroot : s.bst.rootOff = X.addr gNil := h.index.root
    rw [hroot]
    exact readTree_eq (t := s.index) h.index.place.zip.2 h.labels_lt_pool
  unfold Update.keepsRoot
  simp only [hX]
  cases op with
  | add csvLine =>
    rcases userStoreAdd_spec h.toStoreOK csvLine with
      ⟨res, hadd, -⟩ | ⟨elem, s', X', hparse, hnew, hfree, hadd, hs', hp⟩
    · exact ⟨s, X, L, by rw [Update.exec, hadd]; rfl, h, hm, fun _ => rfl⟩
    · refine ⟨_, X', _, by rw [Update.exec, hadd]; rfl, (hs'.addSize 1).syncRoot,
        (hm.place h.toStoreOK hp hnew).congr rfl rfl, fun hk => ?_⟩
      have hnull : userStoreFind s.shm elem.name = some 0 := by
        rcases userStoreFind_spec h.toStoreOK elem.name with ⟨-, hf⟩ | ⟨L₁, a, L₂, rfl, ha, -⟩
        · exact hf
        · exact absurd ha (hnew a (by simp))
      simp only [hparse, hnull, ne_eq, not_true_eq_false, decide_false, Bool.false_or,
        not_le.mpr hfree] at hk
      exact hp.root hk
  | delete name =>
    rcases userStoreDelete_spec h.toStoreOK name with
      ⟨-, hdel⟩ | ⟨L₁, a, L₂, s', X', rfl, ha, hdel, hs', hd⟩
    · exact ⟨s, X, L, by rw [Update.exec, hdel]; rfl, h, hm, fun _ => rfl⟩
    · exact ⟨s', X', _, by rw [Update.exec, hdel]; rfl, ⟨hs', hd.synced⟩,
        hm.delete h.toStoreOK ha hd, hd.root⟩

variable [DecidableEq π]

/-- **One update.** It ends, and the processes still agree on the root when it kept the root or
when there is no other process. -/
theorem Coherent.exec (h : Coherent m X L) (i : π) (op : Update)
    (hkeep : op.keepsRoot (m.store i) = true ∨ ∀ j, j = i) :
    ∃ m' X' L', m.exec i op = some m' ∧ Coherent m' X' L' := by
  obtain ⟨hs, hm⟩ := h.of_process i
  obtain ⟨s', X', L', hexec, hs', hm', hroot⟩ := Update.exec_spec hs hm op
  refine ⟨_, X', L', by rw [Machine.exec, hexec]; rfl, hs'.to_header, hm'.to_header, fun j => ?_⟩
  by_cases hji : j = i
  · subst hji
    simp only [Function.update_self]
    exact hs'.synced.symm
  · have hk := hkeep.resolve_right fun hall => hji (hall j)
    simp only [Function.update_of_ne hji, hs'.synced, hroot hk]
    rw [h.root j]
    exact (h.root i).symm

/-- **Runs.** -/
theorem Coherent.run {steps : List (π × Update)} (h : Coherent m X L) (hstays : m.RootStays steps) :
    ∃ m' X' L', m.run steps = some m' ∧ Coherent m' X' L' := by
  induction steps generalizing m X L with
  | nil => exact ⟨m, X, L, rfl, h⟩
  | cons step steps ih =>
    obtain ⟨i, op⟩ := step
    obtain ⟨hkeep, hrest⟩ := hstays
    obtain ⟨m', X', L', hexec, h'⟩ := h.exec i op hkeep
    rw [Machine.run, hexec]
    exact ih h' (hrest m' hexec)

end

/-! ## The processes agree -/

/-- A record in use on the list. -/
def Live (shm : Shm) (a : Off) : Prop :=
  (∃ L, Chain (fun a => (shm.lists a).nextOff) 0 (shm.lists shm.header.headOff).nextOff L ∧ a ∈ L) ∧
    (shm.lists a).used = true

/-- The tree below `g_header->root_off` names each live record exactly once. -/
def IndexedOnce (shm : Shm) : Prop :=
  ∃ X, IndexTree shm.lists shm.store.index X ∧
    ∀ a, Live shm a → (X.toList.map fun z => (shm.trees z).userOff).count a = 1

theorem Coherent.indexedOnce {π : Type} {m : Machine π} {X : ColorTree Off} {L : List Off}
    (h : Coherent m X L) : IndexedOnce m.shm := by
  refine ⟨X, h.sound.index, fun a ⟨⟨L', hchain, ha⟩, _⟩ => ?_⟩
  have hL : L' = L := by
    refine hchain.unique ?_
    have hhead : m.shm.header.headOff = listSlot 0 := h.sound.head
    rw [hhead]
    exact h.sound.chain
  have hperm : (X.toList.map fun z => (m.shm.trees z).userOff).Perm L := h.matched.perm
  rw [hperm.count_eq, List.count_eq_one_of_mem h.sound.distinct (hL ▸ ha)]

/-- **The processes agree.** Fork any number of processes after loading a file of distinct names.
In every run of updates in any order, as long as each update keeps the root or is made by the
only process, the index search of every process answers as the list search, and the tree below
the shared root names each live record once. -/
theorem fork_agree {π : Type} [DecidableEq π] {text : List UInt8} {s : Store}
    (hload : userStoreShmLoadCsv (some text) userStoreShmInit = some s)
    (hnames : ((csvRecords (fgets 512 text) 0).map ElemType.name).Nodup)
    {steps : List (π × Update)} (hstays : (Machine.fork s).RootStays steps) :
    ∃ m, (Machine.fork s).run steps = some m ∧
      (∀ i name, Agree (m.store i) name) ∧ IndexedOnce m.shm := by
  have hfresh : (Op.loadCsv (some text)).freshNames userStoreShmInit = true := by
    simp only [Op.freshNames, Bool.and_eq_true, decide_eq_true_eq, List.all_eq_true]
    refine ⟨hnames.sublist ((List.take_sublist ..).map _), fun e _ => ?_⟩
    rcases userStoreFind_spec storeOK_init e.name with ⟨-, hf⟩ | ⟨L₁, a, L₂, hL, -, -⟩
    · exact hf
    · simp at hL
  obtain ⟨s', X, L, hexec, hs, hm⟩ := matched_init.exec sound_init hfresh
  obtain rfl : s' = s := Option.some.inj (hexec.symm.trans hload)
  have hfork : Coherent (Machine.fork s' : Machine π) X L :=
    ⟨hs.to_header, hm.to_header, fun _ => hs.synced.symm⟩
  obtain ⟨m, X', L', hrun, hm'⟩ := hfork.run hstays
  refine ⟨m, hrun, fun i name => ?_, hm'.indexedOnce⟩
  obtain ⟨hsi, hmi⟩ := hm'.of_process i
  exact hmi.agree hsi.toStoreOK name

/-! ## A root that moves away -/

/-- A file of two users, loaded before the fork. -/
def twoUsers : List UInt8 := ascii "amy,1,2000\nbob,2,2001\n"

/-- The store after loading it. -/
def twoUsersStore : Store :=
    (userStoreShmLoadCsv (some twoUsers) userStoreShmInit).getD userStoreShmInit

theorem load_twoUsers :
    userStoreShmLoadCsv (some twoUsers) userStoreShmInit = some twoUsersStore := by
  obtain ⟨s, X, L, h, -⟩ := sound_init.loadCsv (some twoUsers)
  rw [twoUsersStore, h, Option.getD_some]

/-- Two processes; an addition and a deletion that both keep the root. -/
theorem fork_agree_example :
    ∃ m, (Machine.fork twoUsersStore).run
        [(true, .add (ascii "aaa,3,2002")), (false, .delete (ascii "bob"))] = some m ∧
      (∀ i name, Agree (m.store i) name) ∧ IndexedOnce m.shm := by
  refine fork_agree load_twoUsers (by decide +kernel) ?_
  refine ⟨Or.inl (by decide +kernel), fun m hm => ⟨Or.inl ?_, fun m' _ => trivial⟩⟩
  have h : ((Machine.fork twoUsersStore).exec true (.add (ascii "aaa,3,2002"))).map
      (fun m => Update.keepsRoot (.delete (ascii "bob")) (m.store false)) = some true := by
    decide +kernel
  rw [hm] at h
  exact Option.some.inj h

/-- One process adds a user; the new node is rotated to the root, and the other process, which
still starts at the old root, does not find that user. -/
theorem fork_disagree :
    ¬ ∀ steps : List (Bool × Update), ∃ m, (Machine.fork twoUsersStore).run steps = some m ∧
      (∀ i name, Agree (m.store i) name) ∧ IndexedOnce m.shm := by
  intro h
  obtain ⟨m, hrun, hagree, -⟩ := h [(true, .add (ascii "cat,3,2002"))]
  have hf : ((Machine.fork twoUsersStore).run [(true, .add (ascii "cat,3,2002"))]).map
      (fun m => (userStoreFind (m.store false).shm (ascii "cat"),
        userStoreFindIndex (m.store false) (ascii "cat"))) =
      some (some (listSlot 3), some 0) := by decide +kernel
  rw [hrun, Option.map_some, Option.some.injEq, Prod.mk.injEq] at hf
  obtain ⟨a, h1, h2, -⟩ := hagree false (ascii "cat")
  rw [hf.1] at h1
  rw [hf.2] at h2
  exact listSlot_ne_zero 3 ((Option.some.inj h1).trans (Option.some.inj h2).symm)

end MiniWeb.UserStore
