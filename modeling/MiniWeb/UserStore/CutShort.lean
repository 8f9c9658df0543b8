import MiniWeb.UserStore.Listing
import MiniWeb.UserStore.Runs

/-!
# Output that is cut short

The room for a user is asked for where the subtree of its node is entered, so when the buffer fills
up below a node, whole right subtrees are left out and the nodes above them still follow. What is
shown is then not the beginning of the listing. `CutOff.Listing.CleanCut` says for which trees,
texts and buffers it is.
-/

namespace MiniWeb.UserStore

open RedBlack CStr ColorTree TreePath CutOff

/-- The first users of the listing are shown, and as many are counted. -/
structure ShownFirst (R : Formatter) (s : Store) (page : Page) : Prop where
  first : page.shown <+: (indexNodes s.index).filter (R.selects s.shm)
  counted : page.total = page.shown.length

/-- A search that leaves a page: the header, the cards of the users shown, and what fits of the
rest; it returns the count. -/
structure Searched (c : SearchCriteria) (bufSize : Int) (s : Store) (page : Page) : Prop where
  result : userStoreSearch c bufSize s = some ((page.total : Int), page)
  text : ∃ x ∈ [[], noResults], ∃ y ∈ [[], searchFooter page.total], page.text =
    searchHeader (criteriaSummary c) ++ page.shown.flatMap ((searchInorder c).cardAt s.shm) ++ x ++ y

/-- A listing that leaves a page: the lines of the users shown. -/
structure Formatted (bufSize : Int) (before : CStr) (s : Store) (page : Page) : Prop where
  result : bstFormatUsers s bufSize ⟨before, [], 0⟩ = some page
  text : page.text = before ++ page.shown.flatMap (bstFormatNode.cardAt s.shm)

section

variable {s : Store} {X : ColorTree Off} {L : List Off} {page page' : Page}

/-- The walk shows the first users exactly if the cut is clean. -/
theorem StoreOK.shownFirst_iff (h : StoreOK s X L) {R : Formatter} {bufSize : Int} {off : Nat}
    (hout : page.out = (R.listing s.shm bufSize).traverse X ⟨[], off, 0⟩) :
    ShownFirst R s page ↔ (R.listing s.shm bufSize).CleanCut X off := by
  rw [← CutOff.Listing.cleanCut_iff h.index.place.distinct, ← hout]
  constructor
  · rintro ⟨hfirst, hcount⟩
    rw [h.indexNodes_eq] at hfirst
    exact ⟨hfirst, hcount⟩
  · rintro ⟨hfirst, hcount⟩
    refine ⟨?_, hcount⟩
    rw [h.indexNodes_eq]
    exact hfirst

/-- A text about no user is appended whole or not at all. -/
theorem Page.append_cases (page : Page) (bufSize : Int) (text : CStr) :
    ∃ x ∈ [[], text], page.append bufSize text = { page with text := page.text ++ x } := by
  unfold Page.append
  split
  · exact ⟨text, by simp, rfl⟩
  · exact ⟨[], by simp, by rw [List.append_nil]⟩

theorem StoreOK.formatted (h : StoreOK s X L) (bufSize : Int) (before : CStr) :
    ∃ page, Formatted bufSize before s page ∧
      (ShownFirst bstFormatNode s page ↔
        (bstFormatNode.listing s.shm bufSize).CleanCut X before.length) := by
  obtain ⟨page, hwalk, hout, hshows⟩ := h.walk bstFormatNode bufSize before
  exact ⟨page, ⟨hwalk, hshows⟩, h.shownFirst_iff hout⟩

theorem StoreOK.searched (h : StoreOK s X L) (c : SearchCriteria) {bufSize : Int}
    (hfit : ((searchHeader (criteriaSummary c)).length : Int) < bufSize) :
    ∃ page, Searched c bufSize s page ∧
      (ShownFirst (searchInorder c) s page ↔
        ((searchInorder c).listing s.shm bufSize).CleanCut X
          (searchHeader (criteriaSummary c)).length) := by
  obtain ⟨header, hheader⟩ : ∃ header, header = searchHeader (criteriaSummary c) := ⟨_, rfl⟩
  rw [← hheader] at hfit ⊢
  obtain ⟨page, hwalk, hout, hshows⟩ := h.walk (searchInorder c) bufSize header
  -- the texts behind the cards change neither the users shown nor the count
  obtain ⟨x, hx, hfirst⟩ : ∃ x ∈ [[], noResults],
      (if page.total = 0 then page.append bufSize noResults else page) =
        { page with text := page.text ++ x } := by
    split
    · exact page.append_cases bufSize noResults
    · exact ⟨[], by simp, by rw [List.append_nil]⟩
  obtain ⟨y, hy, hlast⟩ :=
    Page.append_cases { page with text := page.text ++ x } bufSize (searchFooter page.total)
  refine ⟨⟨page.text ++ x ++ y, page.shown, page.total⟩, ⟨?_, x, hx, y, hy, ?_⟩, ?_⟩
  · rw [userStoreSearch, if_neg (by omega), ← hheader]
    simp only
    rw [if_neg (by omega), hwalk, Option.map_some, hfirst]
    simp only
    rw [hlast]
  · simp only
    rw [← hheader, ← hshows]
  · rw [← h.shownFirst_iff hout]
    exact ⟨fun hs => ⟨hs.first, hs.counted⟩, fun hs => ⟨hs.first, hs.counted⟩⟩

end

/-- **When cut-off output is a clean prefix.** After every run, for every criteria with a page header
that fits and for every buffer, the users shown are the first of the listing and are counted right
exactly if every user met with room is written and so are all before it. -/
theorem runOps_shownFirst_iff (ops : List Op) :
    ∃ s X, runOps ops userStoreShmInit = some s ∧ IndexTree s.shm.lists s.index X ∧
      X.toList = indexNodes s.index ∧
      (∀ (c : SearchCriteria) (bufSize : Int),
        ((searchHeader (criteriaSummary c)).length : Int) < bufSize →
          ∃ page, Searched c bufSize s page ∧
            (ShownFirst (searchInorder c) s page ↔
              ((searchInorder c).listing s.shm bufSize).CleanCut X
                (searchHeader (criteriaSummary c)).length)) ∧
      ∀ (bufSize : Int) (before : CStr), ∃ page, Formatted bufSize before s page ∧
        (ShownFirst bstFormatNode s page ↔
          (bstFormatNode.listing s.shm bufSize).CleanCut X before.length) := by
  obtain ⟨s, X, L, hrun, hs⟩ := sound_init.run ops
  refine ⟨s, X, hrun, hs.index, hs.toStoreOK.indexNodes_eq.symm, ?_, ?_⟩
  · intro c bufSize hfit
    exact hs.toStoreOK.searched c hfit
  · intro bufSize before
    exact hs.toStoreOK.formatted bufSize before

/-- Three users, `b` on top. -/
def threeUsers : List Op :=
  [.add (ascii "b,1,2000"), .add (ascii "a,1,2000"), .add (ascii "c,1,2000")]

/-- A listing of three users that is cut off before the last one. -/
theorem runOps_shownFirst_cutOff :
    ∃ s X page, runOps threeUsers userStoreShmInit = some s ∧ Formatted 205 [] s page ∧
      page.shown = [treeSlot 2, treeSlot 1] ∧
      indexNodes s.index = [treeSlot 2, treeSlot 1, treeSlot 3] ∧
      (bstFormatNode.listing s.shm 205).CleanCut X 0 := by
  obtain ⟨s, X, hrun, -, -, -, hformat⟩ := runOps_shownFirst_iff threeUsers
  obtain ⟨page, hpage, hiff⟩ := hformat 205 []
  have heval : (runOps threeUsers userStoreShmInit).map (fun s =>
      ((bstFormatUsers s 205 ⟨[], [], 0⟩).map fun page => (page.shown, page.total),
        indexNodes s.index, (indexNodes s.index).filter (bstFormatNode.selects s.shm))) =
      some (some ([treeSlot 2, treeSlot 1], 2), [treeSlot 2, treeSlot 1, treeSlot 3],
        [treeSlot 2, treeSlot 1, treeSlot 3]) := by decide +kernel
  rw [hrun, Option.map_some, hpage.1, Option.map_some, Option.some.injEq, Prod.mk.injEq,
    Prod.mk.injEq, Option.some.injEq, Prod.mk.injEq] at heval
  obtain ⟨⟨hshown, htotal⟩, hnodes, hall⟩ := heval
  refine ⟨s, X, page, hrun, hpage, hshown, hnodes, hiff.mp ⟨?_, ?_⟩⟩
  · rw [hall, hshown]
    exact ⟨[treeSlot 3], rfl⟩
  · rw [htotal, hshown]
    rfl

/-- Five users with `d` on top and `b` with `a` and `c` to its left: the buffer is full when `c` is
reached, and `d` is written all the same. -/
theorem lateUser_skipped :
    ¬∀ ops, ∃ s, runOps ops userStoreShmInit = some s ∧
      (∀ (c : SearchCriteria) (bufSize : Int),
        ((searchHeader (criteriaSummary c)).length : Int) < bufSize →
          ∃ page, Searched c bufSize s page ∧ ShownFirst (searchInorder c) s page) ∧
      ∀ (bufSize : Int) (before : CStr), ∃ page, Formatted bufSize before s page ∧
        ShownFirst bstFormatNode s page := by
  intro h
  obtain ⟨s, hrun, -, hformat⟩ := h [.add (ascii "d,1,2000"), .add (ascii "b,1,2000"),
    .add (ascii "e,1,2000"), .add (ascii "a,1,2000"), .add (ascii "c,1,2000")]
  obtain ⟨page, ⟨hpage, -⟩, hfirst, -⟩ := hformat 210 []
  have hshown : (runOps [.add (ascii "d,1,2000"), .add (ascii "b,1,2000"),
      .add (ascii "e,1,2000"), .add (ascii "a,1,2000"), .add (ascii "c,1,2000")]
      userStoreShmInit).map (fun s => ((bstFormatUsers s 210 ⟨[], [], 0⟩).map Page.shown,
        (indexNodes s.index).filter (bstFormatNode.selects s.shm))) =
      some (some [treeSlot 4, treeSlot 2, treeSlot 1],
        [treeSlot 4, treeSlot 2, treeSlot 5, treeSlot 1, treeSlot 3]) := by decide +kernel
  rw [hrun, Option.map_some, hpage, Option.map_some, Option.some.injEq, Prod.mk.injEq,
    Option.some.injEq] at hshown
  rw [hshown.1, hshown.2] at hfirst
  simp only [List.cons_prefix_cons, true_and] at hfirst
  exact absurd (treeSlot_inj hfirst.1) (by decide)

end MiniWeb.UserStore
