import Mathlib.Data.Multiset.AddSub
import MiniWeb.UserStore.Census
import MiniWeb.UserStore.Frame

/-!
# The user store as a roster of names

For its clients the store is a collection of names: a search answers whether a name is there, an
addition brings a new name and a deletion takes one out. A loaded file can bring a name several
times, so the collection is a multiset; and slots are never used again, so a roster also counts the
names that it ever had.

`Stands s r` says that the list and the index of `s` both stand for `r`. Every operation of the
store does what the roster's operation does, and answers alike.
-/

namespace MiniWeb.UserStore

open RedBlack CStr ColorTree TreePath

/-- The names, and how many slots of the pool are taken. -/
structure Roster where
  names : Multiset CStr
  used : Nat

namespace Roster

/-- The roster of an empty store; the head of the list has a slot. -/
def empty : Roster := ⟨0, 1⟩

/-- A name is entered while there are slots. -/
def place (name : CStr) (r : Roster) : Roster :=
  if r.used < userStorePoolNodes then ⟨name ::ₘ r.names, r.used + 1⟩ else r

/-- A new name is entered, and it is said whether it was. -/
def add (csvLine : CStr) (r : Roster) : Bool × Roster :=
  match parseCsvLine csvLine with
  | none => (false, r)
  | some elem =>
    if elem.name ∈ r.names ∨ userStorePoolNodes ≤ r.used then (false, r)
    else (true, r.place elem.name)

/-- A name is struck out once, and it is said whether it was there. -/
def delete (name : CStr) (r : Roster) : Bool × Roster :=
  if name ∈ r.names then (true, { r with names := r.names.erase name }) else (false, r)

/-- The names of a file are entered, whether or not they are new. -/
def load (file : Option (List UInt8)) (r : Roster) : Roster :=
  match file with
  | none => r
  | some text => (csvRecords (fgets 512 text) 0).foldl (fun r elem => r.place elem.name) r

/-- The operations of the store on a roster. -/
def exec : Op → Roster → Roster
  | .loadCsv file, r => r.load file
  | .add csvLine, r => (r.add csvLine).2
  | .delete name, r => (r.delete name).2

end Roster

/-- The list and the index stand for the roster. -/
def Stands (s : Store) (r : Roster) : Prop :=
  ∃ X L, Sound s X L ∧ SameNames s X L ∧ Multiset.ofList (L.map (recordName s.shm)) = r.names ∧
    s.shm.header.listNextFree = r.used

section

variable {s : Store} {r : Roster} {X : ColorTree Off} {L : List Off}

theorem stands_init : Stands userStoreShmInit .empty :=
  ⟨.nil, [], sound_init, .refl _, rfl, rfl⟩

theorem Stands.sound (h : Stands s r) : ∃ X L, Sound s X L := by
  obtain ⟨X, L, hs, -⟩ := h
  exact ⟨X, L, hs⟩

/-- A name is on the roster if a record has it. -/
theorem mem_names (hnames : Multiset.ofList (L.map (recordName s.shm)) = r.names) (name : CStr) :
    name ∈ r.names ↔ ∃ a ∈ L, recordName s.shm a = name := by
  rw [← hnames, Multiset.mem_coe, List.mem_map]

/-! ## Searches -/

/-- **The list search** finds the names on the roster. -/
theorem Stands.find (h : Stands s r) (name : CStr) :
    ∃ a, userStoreFind s.shm name = some a ∧ (a ≠ 0 ↔ name ∈ r.names) := by
  obtain ⟨X, L, hs, -, hnames, -⟩ := h
  rcases userStoreFind_spec hs.toStoreOK name with ⟨hno, hfind⟩ | ⟨L₁, a, L₂, rfl, ha, hfind⟩
  · refine ⟨0, hfind, iff_of_false (fun h => h rfl) ?_⟩
    rw [mem_names hnames]
    rintro ⟨a, ha, hname⟩
    exact hno a ha hname
  · refine ⟨a, hfind, iff_of_true ?_ ((mem_names hnames name).mpr ⟨a, by simp, ha⟩)⟩
    obtain ⟨i, -, -, rfl⟩ := hs.records a (by simp)
    exact listSlot_ne_zero i

/-- **The index search** finds the names on the roster. -/
theorem Stands.findIndex (h : Stands s r) (name : CStr) :
    ∃ a, userStoreFindIndex s name = some a ∧ (a ≠ 0 ↔ name ∈ r.names) := by
  obtain ⟨X, L, hs, hsame, hnames, -⟩ := h
  have hmem : name ∈ r.names ↔ ∃ u ∈ indexUsers s X, recordName s.shm u = name := by
    rw [← hnames, Multiset.mem_coe, ← List.Perm.mem_iff hsame, map_nameAt, List.mem_map]
    rfl
  rcases hs.toStoreOK.findIndex name with ⟨u, hu, hname, hfind⟩ | ⟨hno, hfind⟩
  · refine ⟨u, hfind, iff_of_true ?_ (hmem.mpr ⟨u, hu, hname⟩)⟩
    obtain ⟨z, hz, rfl⟩ := List.mem_map.mp hu
    obtain ⟨i, -, -, hi⟩ := hs.users z hz
    rw [hi]
    exact listSlot_ne_zero i
  · refine ⟨0, hfind, iff_of_false (fun h => h rfl) ?_⟩
    rw [hmem]
    rintro ⟨u, hu, hname⟩
    exact hno u hu hname

/-! ## Updates -/

/-- A record that is placed enters its name. -/
theorem stands_place {s' : Store} {X' : ColorTree Off} {elem : ElemType} (h : StoreOK s X L)
    (hsame : SameNames s X L) (hnames : Multiset.ofList (L.map (recordName s.shm)) = r.names)
    (hused : s.shm.header.listNextFree = r.used)
    (hfree : s.shm.header.listNextFree < userStorePoolNodes) (hp : Placed s s' X X' elem) :
    SameNames s' X' (listSlot s.shm.header.listNextFree :: L) ∧
      Multiset.ofList ((listSlot s.shm.header.listNextFree :: L).map (recordName s'.shm)) =
        (r.place elem.name).names ∧
      s'.shm.header.listNextFree = (r.place elem.name).used := by
  have hplace : r.place elem.name = ⟨elem.name ::ₘ r.names, r.used + 1⟩ :=
    if_pos (hused ▸ hfree)
  refine ⟨hsame.place h hp, ?_, ?_⟩
  · rw [hplace, ← hnames, List.map_cons, hp.recordName_new,
      List.map_congr_left (hp.recordName_old h)]
    rfl
  · rw [hplace, hp.header, ← hused]

/-- **An addition** does what the roster's does. -/
theorem Stands.add (h : Stands s r) (csvLine : CStr) :
    ∃ res s', userStoreAdd csvLine s = some (res, s') ∧ (res = 0 ↔ (r.add csvLine).1 = true) ∧
      Stands s' (r.add csvLine).2 := by
  have hstands := h
  obtain ⟨X, L, hs, hsame, hnames, hused⟩ := h
  have hrefused {res : Int} (hres : res ≠ 0) (hadd : userStoreAdd csvLine s = some (res, s))
      (hr : r.add csvLine = (false, r)) : ∃ res s', userStoreAdd csvLine s = some (res, s') ∧
        (res = 0 ↔ (r.add csvLine).1 = true) ∧ Stands s' (r.add csvLine).2 := by
    rw [hr]
    exact ⟨res, s, hadd, iff_of_false hres Bool.false_ne_true, hstands⟩
  rcases userStoreAdd_cases hs.toStoreOK csvLine with
    ⟨hparse, hadd⟩ | ⟨elem, hparse, ⟨hold, hadd⟩ | ⟨hnew, hroom⟩⟩
  · exact hrefused (by decide) hadd (by rw [Roster.add, hparse])
  · have hmem := (mem_names hnames elem.name).mpr hold
    exact hrefused (by decide) hadd (by rw [Roster.add, hparse]; exact if_pos (.inl hmem))
  have hmem : elem.name ∉ r.names := by
    rw [mem_names hnames]
    rintro ⟨a, ha, hname⟩
    exact hnew a ha hname
  rcases hroom with ⟨hfull, hadd⟩ | ⟨hfree, s', X', -, hadd, hs', hp⟩
  · exact hrefused (by decide) hadd (by rw [Roster.add, hparse]; exact if_pos (.inr (hused ▸ hfull)))
  · have hr : r.add csvLine = (true, r.place elem.name) := by
      rw [Roster.add, hparse]
      exact if_neg (not_or.mpr ⟨hmem, Nat.not_le.mpr (hused ▸ hfree)⟩)
    obtain ⟨hsame', hnames', hused'⟩ := stands_place hs.toStoreOK hsame hnames hused hfree hp
    rw [hr]
    exact ⟨0, _, hadd, iff_of_true rfl rfl, X', _, (hs'.addSize 1).syncRoot,
      hsame'.congr rfl rfl, hnames', hused'⟩

/-- **A deletion** does what the roster's does. -/
theorem Stands.delete (h : Stands s r) (name : CStr) :
    ∃ res s', userStoreDelete name s = some (res, s') ∧ (res = 0 ↔ (r.delete name).1 = true) ∧
      Stands s' (r.delete name).2 := by
  have hstands := h
  obtain ⟨X, L, hs, hsame, hnames, hused⟩ := h
  rcases userStoreDelete_spec hs.toStoreOK name with
    ⟨hno, hdelete⟩ | ⟨L₁, a, L₂, s', X', rfl, ha, hdelete, hs', hd⟩
  · have hr : r.delete name = (false, r) := by
      refine if_neg fun hmem => ?_
      obtain ⟨a, ha, hname⟩ := (mem_names hnames name).mp hmem
      exact hno a ha hname
    rw [hr]
    exact ⟨-1, s, hdelete, iff_of_false (by decide) Bool.false_ne_true, hstands⟩
  · have hmem : name ∈ r.names := (mem_names hnames name).mpr ⟨a, by simp, ha⟩
    have hr : r.delete name = (true, { r with names := r.names.erase name }) := if_pos hmem
    have hheader := userStoreDelete_header hdelete
    rw [hr]
    refine ⟨0, s', hdelete, iff_of_true rfl rfl, X', L₁ ++ L₂, ⟨hs', hd.synced⟩,
      hsame.delete hs.toStoreOK ha hd, ?_, ?_⟩
    · have hperm : ((L₁ ++ a :: L₂).map (recordName s.shm)).Perm
          (name :: (L₁ ++ L₂).map (recordName s.shm)) := by
        rw [← ha, ← List.map_cons]
        exact List.perm_middle.map _
      change _ = r.names.erase name
      rw [← hnames, Multiset.coe_eq_coe.mpr hperm, hd.recordName_eq, ← Multiset.cons_coe,
        Multiset.erase_cons_head]
    · rw [hheader]
      exact hused

/-! ## Loads -/

theorem Roster.place_full {name : CStr} (hfull : userStorePoolNodes ≤ r.used) :
    r.place name = r := if_neg (Nat.not_lt.mpr hfull)

/-- Where no slot is left nothing is entered. -/
theorem Roster.foldl_full (elems : List ElemType) (hfull : userStorePoolNodes ≤ r.used) :
    elems.foldl (fun r elem => r.place elem.name) r = r := by
  induction elems with
  | nil => rfl
  | cons elem elems ih => rw [List.foldl_cons, Roster.place_full hfull, ih]

/-- The state of a load: with the records to come the roster becomes `final`. -/
def Loading (final : Roster) (elems : List ElemType) (s : Store) : Prop :=
  ∃ X L r, StoreOK s X L ∧ SameNames s X L ∧
    Multiset.ofList (L.map (recordName s.shm)) = r.names ∧
    s.shm.header.listNextFree = r.used ∧ elems.foldl (fun r elem => r.place elem.name) r = final

theorem Loading.place {final : Roster} {elem : ElemType} {elems : List ElemType}
    (h : Loading final (elem :: elems) s) :
    (∃ s', placeRecord elem s = some (true, s') ∧ Loading final elems (s'.addSize 1)) ∨
      placeRecord elem s = some (false, s) ∧ Loading final [] s := by
  obtain ⟨X, L, r, hs, hsame, hnames, hused, hfold⟩ := h
  rcases placeRecord_total hs elem with ⟨s', X', hplace, hs', hp⟩ | ⟨hplace, hfull⟩
  · by_cases hfree : s.shm.header.listNextFree < userStorePoolNodes
    · obtain ⟨hsame', hnames', hused'⟩ := stands_place hs hsame hnames hused hfree hp
      exact .inl ⟨s', hplace, X', _, r.place elem.name, hs'.addSize 1, hsame'.congr rfl rfl,
        hnames', hused', hfold⟩
    · have hnone := placeRecord_full elem (Nat.not_lt.mp hfree)
      rw [hplace] at hnone
      cases hnone
  · rw [Roster.foldl_full _ (hused ▸ hfull)] at hfold
    exact .inr ⟨hplace, X, L, r, hs, hsame, hnames, hused, hfold⟩

/-- **A load** does what the roster's does. -/
theorem Stands.load (h : Stands s r) (file : Option (List UInt8)) :
    ∃ s', userStoreShmLoadCsv file s = some s' ∧ Stands s' (r.load file) := by
  obtain ⟨X, L, hs, hsame, hnames, hused⟩ := h
  cases file with
  | none => exact ⟨s.reread, rfl, X, L, hs.reread, hsame.congr rfl rfl, hnames, hused⟩
  | some text =>
    have hstart : Loading (r.load (some text)) (csvRecords (fgets 512 text) 0) s.reread :=
      ⟨X, L, r, hs.reread.toStoreOK, hsame.congr rfl rfl, hnames, hused, rfl⟩
    obtain ⟨s', size, hload, hend⟩ := userStoreShmLoadCsv_rule
      (P := Loading (r.load (some text))) (Q := Loading (r.load (some text)) []) (fun _ h => h)
      (fun elem elems s h => h.place) s text hstart
    obtain ⟨X', L', r', hs', hsame', hnames', hused', hr'⟩ := hend
    obtain rfl : r' = r.load (some text) := hr'
    refine ⟨_, hload, X', L', ⟨hs'.syncRoot.congr rfl rfl rfl rfl rfl rfl, rfl⟩,
      hsame'.congr rfl rfl, hnames', hused'⟩

/-- **One operation** of the store is one of the roster. -/
theorem Stands.exec (h : Stands s r) (op : Op) :
    ∃ s', op.exec s = some s' ∧ Stands s' (r.exec op) := by
  cases op with
  | loadCsv file => exact h.load file
  | add csvLine =>
    obtain ⟨res, s', hadd, -, hs'⟩ := h.add csvLine
    exact ⟨s', congrArg (Option.map Prod.snd) hadd, hs'⟩
  | delete name =>
    obtain ⟨res, s', hdelete, -, hs'⟩ := h.delete name
    exact ⟨s', congrArg (Option.map Prod.snd) hdelete, hs'⟩

/-- **Runs of the store are runs of the roster.** -/
theorem Stands.run (h : Stands s r) (ops : List Op) :
    ∃ s', runOps ops s = some s' ∧ Stands s' (ops.foldl (fun r op => r.exec op) r) := by
  induction ops generalizing s r with
  | nil => exact ⟨s, rfl, h⟩
  | cons op ops ih =>
    obtain ⟨s₁, hop, hs₁⟩ := h.exec op
    obtain ⟨s', hrun, hs'⟩ := ih hs₁
    exact ⟨s', by rw [runOps, hop, Option.bind_some, hrun], hs'⟩

end

/-- **The store refines the roster.** After every run of loads, additions and deletions both searches
find exactly the names that are on the roster then, and the next addition and the next deletion
report a success exactly if the roster's do. -/
theorem runOps_roster (ops : List Op) :
    ∃ s, runOps ops userStoreShmInit = some s ∧
      ∀ r, r = ops.foldl (fun r op => r.exec op) Roster.empty →
        (∀ name, ∃ a b, userStoreFind s.shm name = some a ∧ userStoreFindIndex s name = some b ∧
          (a ≠ 0 ↔ name ∈ r.names) ∧ (b ≠ 0 ↔ name ∈ r.names)) ∧
        (∀ csvLine, ∃ res s', userStoreAdd csvLine s = some (res, s') ∧
          (res = 0 ↔ (r.add csvLine).1 = true)) ∧
        ∀ name, ∃ res s', userStoreDelete name s = some (res, s') ∧
          (res = 0 ↔ (r.delete name).1 = true) := by
  obtain ⟨s, hrun, hs⟩ := stands_init.run ops
  refine ⟨s, hrun, ?_⟩
  rintro r rfl
  refine ⟨fun name => ?_, fun csvLine => ?_, fun name => ?_⟩
  · obtain ⟨a, ha, haiff⟩ := hs.find name
    obtain ⟨b, hb, hbiff⟩ := hs.findIndex name
    exact ⟨a, b, ha, hb, haiff, hbiff⟩
  · obtain ⟨res, s', hadd, hres, -⟩ := hs.add csvLine
    exact ⟨res, s', hadd, hres⟩
  · obtain ⟨res, s', hdelete, hres, -⟩ := hs.delete name
    exact ⟨res, s', hdelete, hres⟩

/-- A name that a file brings twice is there until it was deleted twice. -/
theorem runOps_roster_twice :
    ∃ s, runOps [.loadCsv (some (ascii "bob,1,2000\nbob,2,2001\n")), .delete (ascii "bob")]
        userStoreShmInit = some s ∧
      ∃ a, userStoreFind s.shm (ascii "bob") = some a ∧ a ≠ 0 := by
  obtain ⟨s, hrun, h⟩ := runOps_roster
    [.loadCsv (some (ascii "bob,1,2000\nbob,2,2001\n")), .delete (ascii "bob")]
  obtain ⟨hfind, -, -⟩ := h _ rfl
  obtain ⟨a, b, ha, -, haiff, -⟩ := hfind (ascii "bob")
  exact ⟨s, hrun, a, ha, haiff.mpr (by decide +kernel)⟩

end MiniWeb.UserStore
