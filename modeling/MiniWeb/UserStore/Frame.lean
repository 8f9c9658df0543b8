import MiniWeb.UserStore.Census

/-!
# What an update leaves of the index

While all names are distinct, the index search for a name answers the one node that has it,
wherever the tree keeps it. So an update of one name leaves the search for every other name as it
was, through all rotations and splices.
-/

namespace MiniWeb.UserStore

open RedBlack Loop CStr ColorTree TreePath

section

variable {s s' : Store} {X X' : ColorTree Off} {L L₁ L₂ : List Off} {a : Off} {elem : ElemType}
  {name : CStr}

/-- The users of the nodes, in the order of the index. -/
def indexUsers (s : Store) (X : ColorTree Off) : List Off :=
  X.toList.map fun a => (s.shm.trees a).userOff

/-- The index search answers a user of the name, or `NULL` when the index has none. -/
theorem StoreOK.findIndex (h : StoreOK s X L) (name : CStr) :
    (∃ u ∈ indexUsers s X, recordName s.shm u = name ∧ userStoreFindIndex s name = some u) ∨
      (∀ u ∈ indexUsers s X, recordName s.shm u ≠ name) ∧
        userStoreFindIndex s name = some 0 := by
  have hfind := bstFind_spec h.index h.labels_lt_pool name
  have hplace := plug_descend (findDir name (nameAt s.shm.lists s.index.trees)) [] X
  rw [plug_nil] at hplace
  rcases descend_findDir h.index.sorted name with ⟨c, l, z, r, hd, hz⟩ | ⟨hd, hno⟩
  · rw [hd] at hfind hplace
    refine Or.inl ⟨(s.shm.trees z).userOff, ?_, hz, hfind⟩
    apply List.mem_map_of_mem
    rw [← hplace, mem_toList_plug]
    simp
  · rw [hd] at hfind
    refine Or.inr ⟨?_, hfind⟩
    intro u hu
    obtain ⟨z, hz, rfl⟩ := List.mem_map.mp hu
    exact hno z hz

/-- Two searches answer alike when the users of the name are the same and there is at most one. -/
theorem StoreOK.findIndex_congr (h : StoreOK s X L) (h' : StoreOK s' X' L₁)
    (hdistinct : ((indexUsers s X).map (recordName s.shm)).Nodup)
    (hsame : ∀ u, u ∈ indexUsers s X ∧ recordName s.shm u = name ↔
      u ∈ indexUsers s' X' ∧ recordName s'.shm u = name) :
    userStoreFindIndex s' name = userStoreFindIndex s name := by
  rcases h'.findIndex name with ⟨u', hu', hun', hf'⟩ | ⟨hno', hf'⟩
  · have hmem := (hsame u').mpr ⟨hu', hun'⟩
    rcases h.findIndex name with ⟨u, hu, hun, hf⟩ | ⟨hno, -⟩
    · rw [hf, hf', List.inj_on_of_nodup_map hdistinct hmem.1 hu (hmem.2.trans hun.symm)]
    · exact absurd hmem.2 (hno u' hmem.1)
  · rcases h.findIndex name with ⟨u, hu, hun, -⟩ | ⟨-, hf⟩
    · have hmem := (hsame u).mp ⟨hu, hun⟩
      exact absurd hmem.2 (hno' u hmem.1)
    · rw [hf, hf']

theorem Placed.findIndex_eq (h : StoreOK s X L) (h' : StoreOK s' X' L₁)
    (hdistinct : ((indexUsers s X).map (recordName s.shm)).Nodup)
    (hp : Placed s s' X X' elem) (hne : elem.name ≠ name) :
    userStoreFindIndex s' name = userStoreFindIndex s name := by
  have hold : ∀ u ∈ indexUsers s X, recordName s'.shm u = recordName s.shm u := by
    intro u hu
    obtain ⟨z, hz, rfl⟩ := List.mem_map.mp hu
    exact hp.recordName_eq ((h.users z hz).ne_next listSlot_inj)
  refine h.findIndex_congr h' hdistinct fun u => ?_
  rw [indexUsers, indexUsers, hp.users.mem_iff, List.mem_cons]
  constructor
  · rintro ⟨hu, hun⟩
    exact ⟨Or.inr hu, (hold u hu).trans hun⟩
  · rintro ⟨rfl | hu, hun⟩
    · exact absurd (hp.recordName_new.symm.trans hun) hne
    · exact ⟨hu, (hold u hu).symm.trans hun⟩

theorem Deleted.findIndex_eq {deleted : CStr} (h : StoreOK s X L) (h' : StoreOK s' X' L₁)
    (hdistinct : ((indexUsers s X).map (recordName s.shm)).Nodup)
    (hd : Deleted s s' deleted X X') (hne : deleted ≠ name) :
    userStoreFindIndex s' name = userStoreFindIndex s name := by
  have husers : indexUsers s' X' = X'.toList.map fun b => (s.shm.trees b).userOff := by
    rw [indexUsers, hd.userOff_eq]
  refine h.findIndex_congr h' hdistinct fun u => ?_
  rw [hd.recordName_eq, husers, indexUsers]
  rcases Removed.cases h.index hd.removed with ⟨rfl, -⟩ | ⟨z, hz, hperm, -⟩
  · rfl
  · have hzn : recordName s.shm (s.shm.trees z).userOff = deleted := hz
    rw [(hperm.map _).mem_iff, List.map_cons, List.mem_cons]
    constructor
    · rintro ⟨rfl | hu, hun⟩
      · exact absurd (hzn.symm.trans hun) hne
      · exact ⟨hu, hun⟩
    · rintro ⟨hu, hun⟩
      exact ⟨Or.inr hu, hun⟩

/-- The index search for a name answers the same in both states. -/
def SameSearch (s s' : Store) (name : CStr) : Prop :=
  ∃ user, userStoreFindIndex s name = some user ∧ userStoreFindIndex s' name = some user

theorem StoreOK.sameSearch (h : StoreOK s X L)
    (heq : userStoreFindIndex s' name = userStoreFindIndex s name) : SameSearch s s' name := by
  rcases h.findIndex name with ⟨u, -, -, hf⟩ | ⟨-, hf⟩
  · exact ⟨u, hf, heq.trans hf⟩
  · exact ⟨0, hf, heq.trans hf⟩

end

/-- **Updates leave other users alone.** After every run that ends in a state of distinct names,
adding or deleting a user changes no index search for another name. -/
theorem runOps_findIndex (ops : List Op) :
    ∃ s, runOps ops userStoreShmInit = some s ∧
      (((liveNodes s.shm).map (recordName s.shm)).Nodup →
        (∀ csvLine, ∃ res s', userStoreAdd csvLine s = some (res, s') ∧
          ∀ name, (∀ elem, parseCsvLine csvLine = some elem → elem.name ≠ name) →
            SameSearch s s' name) ∧
        ∀ deleted, ∃ res s', userStoreDelete deleted s = some (res, s') ∧
          ∀ name, deleted ≠ name → SameSearch s s' name) := by
  obtain ⟨s, X, L, hrun, hs, hnames⟩ :=
    sameNames_invariant.run sound_init (.refl _ : SameNames userStoreShmInit .nil []) ops
  have hok := hs.toStoreOK
  refine ⟨s, hrun, fun hnodup => ?_⟩
  rw [hok.liveNodes_eq] at hnodup
  have hdistinct : ((indexUsers s X).map (recordName s.shm)).Nodup := by
    rw [indexUsers, ← map_nameAt]
    exact hnames.nodup_iff.mpr hnodup
  constructor
  · intro csvLine
    rcases userStoreAdd_spec hok csvLine with
      ⟨res, hadd, -⟩ | ⟨elem, s', X', hparse, -, -, hadd, hs', hp⟩
    · exact ⟨res, s, hadd, fun name _ => hok.sameSearch rfl⟩
    · refine ⟨0, _, hadd, fun name hne => hok.sameSearch ?_⟩
      have heq := hp.findIndex_eq hok hs' hdistinct (hne elem hparse)
      exact heq
  · intro deleted
    rcases userStoreDelete_spec hok deleted with
      ⟨-, hdel⟩ | ⟨L₁, a, L₂, s', X', -, -, hdel, hs', hd⟩
    · exact ⟨-1, s, hdel, fun name _ => hok.sameSearch rfl⟩
    · exact ⟨0, s', hdel, fun name hne => hok.sameSearch (hd.findIndex_eq hok hs' hdistinct hne)⟩

/-- A file of two names: the deletion of one leaves the search for the other. -/
theorem runOps_findIndex_two :
    ∃ s s', runOps [.loadCsv (some (ascii "bob,1,2000\namy,2,2001\n"))] userStoreShmInit = some s ∧
      (∃ res, userStoreDelete (ascii "bob") s = some (res, s')) ∧ SameSearch s s' (ascii "amy") := by
  obtain ⟨s, hrun, h⟩ :=
    runOps_findIndex [.loadCsv (some (ascii "bob,1,2000\namy,2,2001\n"))]
  have hnames : (runOps [.loadCsv (some (ascii "bob,1,2000\namy,2,2001\n"))]
      userStoreShmInit).map (fun s => (liveNodes s.shm).map (recordName s.shm)) =
      some [ascii "amy", ascii "bob"] := by decide +kernel
  rw [hrun, Option.map_some, Option.some.injEq] at hnames
  have hdistinct : ((liveNodes s.shm).map (recordName s.shm)).Nodup := by
    rw [hnames]
    decide
  obtain ⟨res, s', hdel, hsame⟩ := (h hdistinct).2 (ascii "bob")
  exact ⟨s, s', hrun, ⟨res, hdel⟩, hsame (ascii "amy") (by decide)⟩

end MiniWeb.UserStore
