import MiniWeb.UserStore.Agreement
import MiniWeb.UserStore.Frame
import MiniWeb.UserStore.NodeFlags

/-!
# Listings with room for everybody

While no load inserts a name that is live, the nodes of the index stand for the live users, in
strictly increasing order of their names. A listing or a search with room for its whole text then
shows each of them, or each that meets the criteria, exactly once.
-/

namespace MiniWeb.UserStore

open RedBlack CStr ColorTree TreePath

/-! ## Criteria -/

/-- The query occurs in the text, whatever the case of ASCII letters. -/
def Occurs (query text : CStr) : Prop := query.map tolower <:+: text.map tolower

instance (query text : CStr) : Decidable (Occurs query text) :=
  inferInstanceAs (Decidable (query.map tolower <:+: text.map tolower))

/-- Every criterion that is not empty occurs in its field. -/
structure Meets (c : SearchCriteria) (data : ElemType) : Prop where
  name : c.name ≠ [] → Occurs c.name data.name
  phone : c.phone ≠ [] → Occurs c.phone data.phone
  mobile : c.mobile ≠ [] → Occurs c.mobile data.mobile
  email : c.email ≠ [] → Occurs c.email data.email

theorem strContainsAt_iff {text query : CStr} :
    strContainsAt text query = true ↔ query.map tolower <+: text.map tolower := by
  induction query generalizing text with
  | nil => simp [strContainsAt]
  | cons q qs ih =>
    cases text with
    | nil => simp [strContainsAt]
    | cons t ts =>
      rw [strContainsAt, List.map_cons, List.map_cons, List.cons_prefix_cons, ← ih, Bool.and_eq_true,
        decide_eq_true_iff, eq_comm]

theorem strContainsFrom_iff {text query : CStr} (hquery : query ≠ []) :
    strContainsFrom query text = true ↔ Occurs query text := by
  induction text with
  | nil => simp [strContainsFrom, Occurs, hquery]
  | cons t ts ih =>
    rw [strContainsFrom, Occurs, List.map_cons, List.infix_cons_iff, ← List.map_cons,
      ← strContainsAt_iff, ← Occurs, ← ih]
    by_cases hat : strContainsAt (t :: ts) query = true
    · rw [if_pos hat]
      exact iff_of_true rfl (Or.inl hat)
    · rw [if_neg hat, or_iff_right hat]

/-- **`str_contains`** looks for the query in the text. -/
theorem strContains_iff {text query : CStr} : strContains text query = true ↔ Occurs query text := by
  unfold strContains
  split
  next hnil =>
    rw [List.eq_nil_of_length_eq_zero hnil]
    exact iff_of_true rfl List.nil_infix
  next hquery =>
    split
    next hlong =>
      refine iff_of_false Bool.false_ne_true fun hocc => ?_
      have hle := hocc.length_le
      rw [List.length_map, List.length_map] at hle
      omega
    next => exact strContainsFrom_iff (mt List.length_eq_zero_iff.mpr hquery)

theorem criteriaMatch_iff {c : SearchCriteria} {data : ElemType} :
    criteriaMatch data c = true ↔ Meets c data := by
  have hfail : ∀ {query text : CStr}, (query ≠ [] ∧ ¬strContains text query = true) ↔
      ¬(query ≠ [] → Occurs query text) := by
    intro query text
    rw [strContains_iff, Classical.not_imp]
  unfold criteriaMatch
  simp only [hfail]
  constructor
  · intro h
    split at h
    · cases h
    next hname =>
    split at h
    · cases h
    next hphone =>
    split at h
    · cases h
    next hmobile =>
    split at h
    · cases h
    next hemail =>
    exact ⟨not_not.mp hname, not_not.mp hphone, not_not.mp hmobile, not_not.mp hemail⟩
  · rintro ⟨hname, hphone, hmobile, hemail⟩
    rw [if_neg (not_not_intro hname), if_neg (not_not_intro hphone),
      if_neg (not_not_intro hmobile), if_neg (not_not_intro hemail)]

instance (c : SearchCriteria) (data : ElemType) : Decidable (Meets c data) :=
  decidable_of_iff _ criteriaMatch_iff

/-! ## The users in the index -/

section

variable {s : Store} {X : ColorTree Off} {L : List Off}

/-- The users of the nodes stand in strictly increasing order of their names. -/
theorem Matched.sorted (h : StoreOK s X L) (hm : Matched s X L) :
    (indexUsers s X).Pairwise fun u v =>
      strcmp (recordName s.shm u) (recordName s.shm v) = .lt := by
  have hle : (indexUsers s X).Pairwise fun u v => recordName s.shm u ≤ recordName s.shm v := by
    rw [indexUsers, List.pairwise_map]
    exact h.index.sorted
  have hne : ((indexUsers s X).map (recordName s.shm)).Nodup :=
    (hm.perm.map _).nodup_iff.mpr hm.names
  rw [List.Nodup, List.pairwise_map] at hne
  refine (hle.and hne).imp fun huv => ?_
  exact strcmp_lt_iff.mpr (lt_of_le_of_ne huv.1 huv.2)

variable (hlist : StoreOK s X L) (hm : Matched s X L) (hused : UsedNodes s X L) (R : Formatter)

include hlist hm hused

/-- A node of the index is selected if its user is to be shown. -/
theorem Matched.selects_eq {a : Off} (ha : a ∈ X.toList) :
    R.selects s.shm a = R.keep (s.shm.lists (s.shm.trees a).userOff).data := by
  have huser : (s.shm.trees a).userOff ≠ 0 := hlist.index.users a ha
  have hlive : (s.shm.lists (s.shm.trees a).userOff).used = true :=
    hlist.live _ (hm.perm.mem_iff.mp (List.mem_map_of_mem ha))
  simp only [Formatter.selects, hused a ha, hlive, huser, ne_eq, not_false_eq_true, decide_true,
    Bool.and_self, Bool.true_and]

/-- The users selected, in the order of the index. -/
theorem Matched.selected_eq : (X.toList.filter (R.selects s.shm)).map
      (fun a => (s.shm.trees a).userOff) =
    (indexUsers s X).filter fun u => R.keep (s.shm.lists u).data := by
  rw [indexUsers, List.filter_map,
    List.filter_congr fun a ha => Matched.selects_eq hlist hm hused R ha]
  rfl

/-- **With room for everybody** a walk appends the texts of all users it is to show. -/
theorem Matched.walk_all {bufSize : Int} (before : CStr) {U : List Off}
    (hU : (indexUsers s X).filter (fun u => R.keep (s.shm.lists u).data) = U)
    (hfit : ((before.length + (U.flatMap fun u => R.card (s.shm.lists u).data).length +
      R.margin : Nat) : Int) < bufSize) :
    ∃ shown, R.walk s.shm bufSize userStorePoolNodes s.bst.rootOff ⟨before, [], 0⟩ =
      some ⟨before ++ U.flatMap fun u => R.card (s.shm.lists u).data, shown, U.length⟩ := by
  have hsel := Matched.selected_eq hlist hm hused R
  rw [hU] at hsel
  have hcards : (X.toList.filter (R.selects s.shm)).flatMap (R.cardAt s.shm) =
      U.flatMap fun u => R.card (s.shm.lists u).data := by
    rw [← hsel, List.flatMap_map]
    rfl
  refine ⟨X.toList.filter (R.selects s.shm), ?_⟩
  rw [hlist.walk_all R (by rw [hcards]; exact hfit), hcards, ← hsel, List.length_map]

end

/-! ## Whole listings -/

/-- The lines of users. -/
def userLines (shm : Shm) (U : List Off) : CStr := U.flatMap fun u => userLine (shm.lists u).data

/-- The page of a search that found the users `M`. -/
def searchPage (c : SearchCriteria) (shm : Shm) (M : List Off) : CStr :=
  searchHeader (criteriaSummary c) ++ (M.flatMap fun u => resultCard (shm.lists u).data) ++
    (if M.length = 0 then noResults else []) ++ searchFooter M.length

theorem Page.append_fits {page : Page} {bufSize : Int} {text : CStr} (hpos : 0 < text.length)
    (h : (page.text.length : Int) + text.length < bufSize) :
    page.append bufSize text = { page with text := page.text ++ text } := by
  rw [Page.append, if_pos ((Page.fits_iff hpos).mpr (by omega))]

theorem noResults_pos : 0 < noResults.length := by
  rw [noResults, List.flatten_cons, List.length_append]
  exact Nat.add_pos_left (Nat.succ_pos _) _

theorem searchFooter_pos (count : Nat) : 0 < (searchFooter count).length := by
  rw [searchFooter, List.flatten_cons, List.length_append]
  exact Nat.add_pos_left (Nat.succ_pos _) _

section

variable {s : Store} {X : ColorTree Off} {L : List Off} (hlist : StoreOK s X L)
  (hm : Matched s X L) (hused : UsedNodes s X L) {bufSize : Int}

include hlist hm hused

theorem Matched.format_all
    (hfit : ((userLines s.shm (indexUsers s X)).length : Int) + 512 ≤ bufSize) :
    ∃ page, bstFormatUsers s bufSize ⟨[], [], 0⟩ = some page ∧
      page.text = userLines s.shm (indexUsers s X) ∧
      page.total = (indexUsers s X).length := by
  have hall : (indexUsers s X).filter (fun u => bstFormatNode.keep (s.shm.lists u).data) =
      indexUsers s X := List.filter_eq_self.mpr fun _ _ => rfl
  have hroom : ((([] : CStr).length + (userLines s.shm (indexUsers s X)).length +
      200 : Nat) : Int) < bufSize := by
    rw [List.length_nil]
    omega
  obtain ⟨shown, hwalk⟩ := Matched.walk_all hlist hm hused bstFormatNode [] hall hroom
  exact ⟨_, hwalk, rfl, rfl⟩

theorem Matched.search_all (c : SearchCriteria) {M : List Off}
    (hM : (indexUsers s X).filter (fun u => decide (Meets c (s.shm.lists u).data)) = M)
    (hfit : ((searchPage c s.shm M).length : Int) + 512 ≤ bufSize) :
    ∃ page : Page, userStoreSearch c bufSize s = some ((M.length : Int), page) ∧
      page.text = searchPage c s.shm M := by
  have hkeep : (indexUsers s X).filter (fun u => (searchInorder c).keep (s.shm.lists u).data) =
      M := by
    rw [← hM]
    refine List.filter_congr fun u _ => ?_
    rw [Bool.eq_iff_iff, decide_eq_true_iff]
    exact criteriaMatch_iff
  obtain ⟨header, hheader⟩ : ∃ header, header = searchHeader (criteriaSummary c) := ⟨_, rfl⟩
  obtain ⟨cards, hcards⟩ : ∃ cards, cards = M.flatMap fun u => resultCard (s.shm.lists u).data :=
    ⟨_, rfl⟩
  have hpage : searchPage c s.shm M = header ++ cards ++
      (if M.length = 0 then noResults else []) ++ searchFooter M.length := by
    rw [hheader, hcards, searchPage]
  have hfooter := searchFooter_pos M.length
  rw [hpage] at hfit ⊢
  rw [List.length_append, List.length_append, List.length_append] at hfit
  have hroom : ((header.length + cards.length + 512 : Nat) : Int) < bufSize := by omega
  rw [hcards] at hroom
  obtain ⟨shown, hwalk⟩ := Matched.walk_all hlist hm hused (searchInorder c) header hkeep hroom
  have hcards' : (M.flatMap fun u => (searchInorder c).card (s.shm.lists u).data) = cards :=
    hcards.symm
  rw [hcards'] at hwalk
  rw [userStoreSearch, if_neg (by omega), ← hheader]
  simp only
  rw [if_neg (by omega), hwalk, Option.map_some]
  simp only
  by_cases hnone : M.length = 0
  · rw [if_pos hnone] at hfit ⊢
    rw [if_pos hnone, Page.append_fits noResults_pos (by simp only [List.length_append]; omega),
      Page.append_fits hfooter (by simp only [List.length_append]; omega)]
    exact ⟨_, rfl, rfl⟩
  · rw [if_neg hnone] at hfit ⊢
    rw [if_neg hnone, Page.append_fits hfooter (by simp only [List.length_append]; omega),
      List.append_nil]
    exact ⟨_, rfl, rfl⟩

end

/-- The names in the files a run loads. -/
def loadedNames (ops : List Op) : List CStr :=
  ops.flatMap fun op =>
    match op with
    | .loadCsv (some text) => (csvRecords (fgets 512 text) 0).map ElemType.name
    | _ => []

/-- A listing and every search show the users `U`, when there is room. -/
structure ListsAll (s : Store) (U : List Off) : Prop where
  perm : U.Perm (liveNodes s.shm)
  sorted : U.Pairwise fun u v => strcmp (recordName s.shm u) (recordName s.shm v) = .lt
  format : ∀ bufSize : Int, ((userLines s.shm U).length : Int) + 512 ≤ bufSize →
    ∃ page, bstFormatUsers s bufSize ⟨[], [], 0⟩ = some page ∧
      page.text = userLines s.shm U ∧ page.total = U.length
  search : ∀ (c : SearchCriteria) (bufSize : Int) (M : List Off),
    U.filter (fun u => decide (Meets c (s.shm.lists u).data)) = M →
      ((searchPage c s.shm M).length : Int) + 512 ≤ bufSize →
        ∃ page : Page, userStoreSearch c bufSize s = some ((M.length : Int), page) ∧
          page.text = searchPage c s.shm M

/-- **Listing and search are complete and sorted** after every run whose loads insert only names
that are new. -/
theorem freshRun_listsAll {ops : List Op} (h : freshRun ops userStoreShmInit = true) :
    ∃ s U, runOps ops userStoreShmInit = some s ∧ ListsAll s U := by
  obtain ⟨s, X, L, hrun, hs, hm⟩ := matched_init.run sound_init h
  have hused₀ : UsedNodes userStoreShmInit .nil [] := fun a ha => by cases ha
  obtain ⟨s', X', L', hrun', hs', hused'⟩ := usedNodes_invariant.run sound_init hused₀ ops
  obtain rfl := Option.some.inj (hrun.symm.trans hrun')
  have hlist := hs.toStoreOK
  have hused : UsedNodes s X L := by
    intro a ha
    rw [← hlist.indexNodes_eq, hs'.toStoreOK.indexNodes_eq] at ha
    exact hused' a ha
  refine ⟨s, indexUsers s X, hrun, ?_, hm.sorted hlist, ?_, ?_⟩
  · rw [hlist.liveNodes_eq]
    exact hm.perm
  · intro bufSize hfit
    exact Matched.format_all hlist hm hused hfit
  · intro c bufSize M hM hfit
    exact Matched.search_all hlist hm hused c hM hfit

/-- A file of two names, an addition and a deletion. -/
theorem freshRun_listsAll_example :
    ∃ s U, runOps [.loadCsv (some (ascii "bob,1,2000\namy,2,2001\n")), .add (ascii "eve,4,2003"),
      .delete (ascii "bob")] userStoreShmInit = some s ∧ ListsAll s U :=
  freshRun_listsAll (by decide +kernel)

/-- A file with a name that was added before: the deletion takes one record off the list and the node
of the other out of the index, so a live user is not listed. -/
theorem loadedTwice_unlisted :
    ¬∀ ops, (loadedNames ops).Nodup →
      ∃ s U, runOps ops userStoreShmInit = some s ∧ ListsAll s U := by
  intro h
  obtain ⟨s, U, hrun, hall⟩ := h [.add (ascii "bob,1,2000"),
    .loadCsv (some (ascii "bob,2,2001\n")), .delete (ascii "bob")] (by decide +kernel)
  have hcounts : (runOps [.add (ascii "bob,1,2000"), .loadCsv (some (ascii "bob,2,2001\n")),
      .delete (ascii "bob")] userStoreShmInit).map (fun s =>
        (liveNodes s.shm, (userLines s.shm [listSlot 1]).length,
          (bstFormatUsers s 1000 ⟨[], [], 0⟩).map Page.total)) =
      some ([listSlot 1], 14, some 0) := by decide +kernel
  rw [hrun, Option.map_some, Option.some.injEq, Prod.mk.injEq, Prod.mk.injEq] at hcounts
  obtain ⟨hlive, hwidth, htotal⟩ := hcounts
  have hU : U = [listSlot 1] := List.perm_singleton.mp (hlive ▸ hall.perm)
  rw [hU] at hall
  obtain ⟨page, hpage, -, hone⟩ := hall.format 1000 (by rw [hwidth]; decide)
  rw [hpage, Option.map_some, hone] at htotal
  cases htotal

end MiniWeb.UserStore
