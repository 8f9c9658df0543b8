import MiniWeb.Lib.CText
import MiniWeb.Lib.CutOff
import MiniWeb.UserStore.StoreSpec

/-!
# Listing and searching users

`bst_format_users` and `user_store_search` walk the index in order and append a text for every user
they select to a buffer. Before a node is entered a margin of room is asked for; a text that does
not fit is dropped, and its user counted.

A buffer is modelled by the text before the offset: what `snprintf` writes behind it is overwritten
or never sent. `shown` records the nodes whose text was appended.
-/

namespace MiniWeb.UserStore

open RedBlack CStr

/-! ## Criteria -/

/-- `search_criteria_t`: an empty field is no criterion. -/
structure SearchCriteria where
  name : CStr
  phone : CStr
  mobile : CStr
  email : CStr
  name_lt : name.length < 64
  phone_lt : phone.length < 32
  mobile_lt : mobile.length < 32
  email_lt : email.length < 64

/-- `tolower` in the C locale. -/
def tolower (c : UInt8) : UInt8 := if 65 ≤ c ∧ c ≤ 90 then c + 32 else c

/-- The inner loop of `str_contains`: is the query used up without a difference? -/
def strContainsAt : CStr → CStr → Bool
  | _, [] => true
  | [], _ :: _ => false
  | p :: ps, q :: qs => tolower p = tolower q && strContainsAt ps qs

/-- The outer loop: `t` runs over the text. -/
def strContainsFrom (query : CStr) : CStr → Bool
  | [] => false
  | t :: ts => if strContainsAt (t :: ts) query then true else strContainsFrom query ts

def strContains (text query : CStr) : Bool :=
  if query.length = 0 then true
  else if query.length > text.length then false
  else strContainsFrom query text

def criteriaMatch (data : ElemType) (c : SearchCriteria) : Bool :=
  if c.name ≠ [] ∧ ¬strContains data.name c.name = true then false
  else if c.phone ≠ [] ∧ ¬strContains data.phone c.phone = true then false
  else if c.mobile ≠ [] ∧ ¬strContains data.mobile c.mobile = true then false
  else if c.email ≠ [] ∧ ¬strContains data.email c.email = true then false
  else true

/-- One step of `criteria_summary`; the flag is `first`. -/
def addCriterion (label value : CStr) (st : CStr × Bool) : CStr × Bool :=
  if value ≠ [] then
    (st.1 ++ (if st.2 = true then [] else ascii ", ") ++ label ++ value, false)
  else st

/-- `criteria_summary`: 256 bytes hold it (`criteriaSummary_fits`). -/
def criteriaSummary (c : SearchCriteria) : CStr :=
  let st := addCriterion (ascii "Name: ") c.name ([], true)
  let st := addCriterion (ascii "Phone: ") c.phone st
  let st := addCriterion (ascii "Mobile: ") c.mobile st
  let st := addCriterion (ascii "Email: ") c.email st
  if st.2 = true then ascii "(none)" else st.1

theorem addCriterion_length {label value : CStr} {st : CStr × Bool} :
    (addCriterion label value st).1.length ≤ st.1.length + 2 + label.length + value.length := by
  unfold addCriterion
  split
  · have hsep : (if st.2 = true then [] else ascii ", ").length ≤ 2 := by split <;> decide
    simp only [List.length_append]
    omega
  · omega

theorem criteriaSummary_fits (c : SearchCriteria) : (criteriaSummary c).length < 256 := by
  have hname := c.name_lt
  have hphone := c.phone_lt
  have hmobile := c.mobile_lt
  have hemail := c.email_lt
  unfold criteriaSummary
  extract_lets s₁ s₂ s₃ s₄
  have h₁ : s₁.1.length ≤ 0 + 2 + 6 + c.name.length := addCriterion_length
  have h₂ : s₂.1.length ≤ s₁.1.length + 2 + 7 + c.phone.length := addCriterion_length
  have h₃ : s₃.1.length ≤ s₂.1.length + 2 + 8 + c.mobile.length := addCriterion_length
  have h₄ : s₄.1.length ≤ s₃.1.length + 2 + 7 + c.email.length := addCriterion_length
  split
  · decide
  · omega

/-! ## The buffer -/

/-- The text before the offset, the nodes whose text it holds, and the count. -/
structure Page where
  text : CStr
  shown : List Off
  total : Nat

namespace Page

/-- `w > 0 && w < buf_size - offset`: was the text written whole? -/
def fits (page : Page) (bufSize : Int) (text : CStr) : Bool :=
  0 < text.length ∧ (text.length : Int) < bufSize - page.text.length

/-- Append a text that is about no user. -/
def append (page : Page) (bufSize : Int) (text : CStr) : Page :=
  if page.fits bufSize text = true then { page with text := page.text ++ text } else page

end Page

/-! ## The walk -/

/-- What `bst_format_node` and `search_inorder` differ in: the nodes they turn back at, the room
they ask for, the users they select and the text of a user. -/
structure Formatter where
  stop : Off → Bool
  margin : Nat
  keep : ElemType → Bool
  card : ElemType → CStr
  stop_nil : stop gNil = true
  stop_only : ∀ {a}, stop a = true → a = gNil ∨ a = 0
  card_pos : ∀ data, 0 < (card data).length

namespace Formatter

variable (R : Formatter) (shm : Shm) (bufSize : Int)

/-- `node->used && node->user_off`, then `lu && lu->used` and the test of the user. -/
def selects (node : Off) : Bool :=
  let n := shm.trees node
  n.used && n.userOff ≠ 0 && (shm.lists n.userOff).used && R.keep (shm.lists n.userOff).data

/-- The text of the user of a node. -/
def cardAt (node : Off) : CStr := R.card (shm.lists (shm.trees node).userOff).data

def visit (node : Off) (page : Page) : Page :=
  if R.selects shm node = true then
    let card := R.cardAt shm node
    if page.fits bufSize card = true then
      ⟨page.text ++ card, page.shown ++ [node], page.total + 1⟩
    else { page with total := page.total + 1 }
  else page

/-- The recursion, under a bound on its depth. -/
def walk (R : Formatter) (shm : Shm) (bufSize : Int) : Nat → Off → Page → Option Page
  | 0, _, _ => none
  | depth + 1, node, page =>
    if R.stop node = true ∨ (page.text.length : Int) ≥ bufSize - R.margin then some page
    else
      (R.walk shm bufSize depth (shm.trees node).leftOff page).bind fun page =>
        R.walk shm bufSize depth (shm.trees node).rightOff (R.visit shm bufSize node page)

end Formatter

/-! ## Listing -/

/-- One line of `bst_format_node`. -/
def userLine (data : ElemType) : CStr :=
  data.name ++ ascii " " ++ data.password ++ ascii " " ++ data.birthdate ++ ascii " " ++
    data.phone ++ ascii " " ++ data.mobile ++ ascii " " ++ data.email ++ ascii "\n"

/-- `bst_format_node`. -/
def bstFormatNode : Formatter where
  stop a := a = gNil
  margin := 200
  keep _ := true
  card := userLine
  stop_nil := decide_eq_true rfl
  stop_only h := Or.inl (of_decide_eq_true h)
  card_pos data := by
    rw [userLine, List.length_append]
    exact Nat.add_pos_right _ Nat.one_pos

/-- `bst_format_users`, from what the buffer and the counters hold before. -/
def bstFormatUsers (s : Store) (bufSize : Int) (page : Page) : Option Page :=
  bstFormatNode.walk s.shm bufSize userStorePoolNodes s.bst.rootOff page

/-- `bst_inorder_node`: what it prints, under a bound on its depth. -/
def bstInorderNode (shm : Shm) : Nat → Off → Option CStr
  | 0, _ => none
  | depth + 1, node =>
    if node = gNil then some []
    else
      (bstInorderNode shm depth (shm.trees node).leftOff).bind fun left =>
        (bstInorderNode shm depth (shm.trees node).rightOff).map fun right =>
          let line := if bstFormatNode.selects shm node = true then bstFormatNode.cardAt shm node
            else []
          left ++ line ++ right

/-- `user_store_print_index`. -/
def userStorePrintIndex (s : Store) : Option CStr :=
  bstInorderNode s.shm userStorePoolNodes s.bst.rootOff

/-! ## Search -/

/-- The card of a user in `search_inorder`. -/
def resultCard (data : ElemType) : CStr :=
  [ascii "<div class=\"result-card\">\n",
    ascii "  <h2>", data.name, ascii "</h2>\n",
    ascii "  <table>\n",
    ascii "    <tr><td class=\"label\">Phone:</td><td>", data.phone, ascii "</td></tr>\n",
    ascii "    <tr><td class=\"label\">Birth:</td><td>", data.birthdate, ascii "</td></tr>\n",
    ascii "    <tr><td class=\"label\">Mobile:</td><td>", data.mobile, ascii "</td></tr>\n",
    ascii "    <tr><td class=\"label\">Email:</td><td>", data.email, ascii "</td></tr>\n",
    ascii "  </table>\n</div>\n"].flatten

/-- `search_inorder`. -/
def searchInorder (c : SearchCriteria) : Formatter where
  stop a := a = gNil ∨ a = 0
  margin := 512
  keep data := criteriaMatch data c
  card := resultCard
  stop_nil := decide_eq_true (Or.inl rfl)
  stop_only h := of_decide_eq_true h
  card_pos data := by
    rw [resultCard, List.flatten_cons, List.length_append]
    exact Nat.add_pos_left (Nat.succ_pos _) _

/-- The page before the cards. -/
def searchHeader (summary : CStr) : CStr :=
  [ascii "<!DOCTYPE html>\n<html lang=\"zh-CN\">\n<head>\n",
    ascii "<meta charset=\"utf-8\">\n",
    ascii "<meta name=\"viewport\" content=\"width=device-width, initial-scale=1\">\n",
    ascii "<link rel=\"icon\" href=\"/icon/favicon.ico\">\n",
    ascii "<title>Search Results</title>\n",
    ascii "<style>\n",
    ascii ":root\x7b--bg:#f5f5f5;--card-bg:#fff;--text:#333;--muted:#666;",
    ascii "--border:#e0e0e0;--accent:#2563eb;\x7d\n",
    ascii "*\x7bmargin:0;padding:0;box-sizing:border-box;\x7d\n",
    ascii "body\x7bfont-family:-apple-system,BlinkMacSystemFont,\"Segoe UI\",Roboto,sans-serif;",
    ascii "background:var(--bg);color:var(--text);line-height:1.6;\x7d\n",
    ascii "header\x7bbackground:linear-gradient(135deg,#1e293b 0%,#334155 100%);",
    ascii "color:#fff;padding:32px 24px;text-align:center;\x7d\n",
    ascii "header h1\x7bfont-size:1.6rem;\x7d\n",
    ascii "header p\x7bmargin-top:8px;opacity:0.8;font-size:0.9rem;\x7d\n",
    ascii ".container\x7bmax-width:720px;margin:0 auto;padding:24px 20px;\x7d\n",
    ascii ".result-card\x7bbackground:var(--card-bg);border:1px solid var(--border);",
    ascii "border-radius:10px;padding:18px;margin-bottom:12px;",
    ascii "box-shadow:0 1px 3px rgba(0,0,0,0.04);\x7d\n",
    ascii ".result-card h2\x7bfont-size:1.1rem;color:var(--accent);margin-bottom:8px;\x7d\n",
    ascii ".result-card table\x7bwidth:100%;border-collapse:collapse;\x7d\n",
    ascii ".result-card td\x7bpadding:4px 8px;font-size:0.9rem;\x7d\n",
    ascii ".result-card td.label\x7bcolor:var(--muted);width:80px;\x7d\n",
    ascii ".no-results\x7btext-align:center;padding:48px 20px;color:var(--muted);\x7d\n",
    ascii ".match-count\x7btext-align:center;color:var(--muted);font-size:0.85rem;",
    ascii "margin-top:16px;\x7d\n",
    ascii ".back-link\x7bdisplay:inline-block;margin-top:16px;padding:8px 20px;",
    ascii "background:var(--accent);color:#fff;border-radius:6px;",
    ascii "text-decoration:none;font-size:0.9rem;\x7d\n",
    ascii ".back-link:hover\x7bopacity:0.9;\x7d\n",
    ascii "footer\x7btext-align:center;padding:24px 20px;color:var(--muted);",
    ascii "font-size:0.82rem;\x7d\n",
    ascii "</style>\n</head>\n<body>\n",
    ascii "<header>\n",
    ascii "  <h1>&#128269; Search Results</h1>\n",
    ascii "  <p>Criteria: <strong>",
    summary,
    ascii "</strong></p>\n",
    ascii "</header>\n<div class=\"container\">\n"].flatten

def noResults : CStr :=
  [ascii "<div class=\"no-results\">\n",
    ascii "  <p style=\"font-size:1.2rem;\">&#128533;</p>\n",
    ascii "  <p>No users found matching the criteria.</p>\n</div>\n"].flatten

/-- The page after the cards. -/
def searchFooter (count : Nat) : CStr :=
  [ascii "<p class=\"match-count\">",
    decimal count,
    ascii " match(es) found</p>\n",
    ascii "<p style=\"text-align:center;\">",
    ascii "<a class=\"back-link\" href=\"/\">&larr; Back to Search</a></p>\n",
    ascii "</div>\n<footer>MiniWeb Server v1.4 &middot; RBT Index Search</footer>\n",
    ascii "</body>\n</html>\n"].flatten

/-- `user_store_search`: the count it returns and the page it leaves, `-1` when the header does not
fit. -/
def userStoreSearch (c : SearchCriteria) (bufSize : Int) (s : Store) : Option (Int × Page) :=
  if bufSize ≤ 0 then some (-1, ⟨[], [], 0⟩)
  else
    let header := searchHeader (criteriaSummary c)
    if (header.length : Int) ≥ bufSize then some (-1, ⟨[], [], 0⟩)
    else
      ((searchInorder c).walk s.shm bufSize userStorePoolNodes s.bst.rootOff ⟨header, [], 0⟩).map
        fun page =>
          let page := if page.total = 0 then page.append bufSize noResults else page
          (page.total, page.append bufSize (searchFooter page.total))

/-! ## The nodes of the index -/

/-- The nodes below a node in order, down to a depth. -/
def nodesBelow (trees : Off → BSTnode) : Nat → Off → List Off
  | 0, _ => []
  | depth + 1, a =>
    if a = gNil then []
    else nodesBelow trees depth (trees a).leftOff ++ a ::
      nodesBelow trees depth (trees a).rightOff

def indexNodes (t : Index) : List Off := nodesBelow t.trees userStorePoolNodes t.bst.rootOff

section

open ColorTree

theorem nodesBelow_eq {trees : Off → BSTnode} {root q : Off} {t : ColorTree Off} {depth : Nat}
    (h : Layout ⟨fun a => (trees a).links, root⟩ gNil q t) (hdepth : t.toList.length < depth) :
    nodesBelow trees depth (t.addr gNil) = t.toList := by
  induction t generalizing q depth with
  | nil =>
    obtain ⟨depth, rfl⟩ : ∃ k, depth = k + 1 := ⟨depth - 1, by omega⟩
    exact if_pos rfl
  | node c l a r ihl ihr =>
    obtain ⟨depth, rfl⟩ : ∃ k, depth = k + 1 := ⟨depth - 1, by omega⟩
    obtain ⟨ha, hcell, hl, hr⟩ := h
    rw [toList_node, List.length_append, List.length_cons] at hdepth
    have hleft : (trees a).leftOff = l.addr gNil := congrArg Links.left hcell
    have hright : (trees a).rightOff = r.addr gNil := congrArg Links.right hcell
    rw [addr_node, nodesBelow, if_neg ha, hleft, hright, ihl hl (by omega), ihr hr (by omega),
      toList_node]

theorem StoreOK.indexNodes_eq {s : Store} {X : ColorTree Off} {L : List Off} (h : StoreOK s X L) :
    indexNodes s.index = X.toList := by
  rw [indexNodes, h.index.root]
  exact nodesBelow_eq h.index.place.zip.2 h.labels_lt_pool

end

/-! ## The walk as a listing that is cut off -/

section

open ColorTree TreePath CutOff

/-- What the walk keeps, the widths and the room. -/
def Formatter.listing (R : Formatter) (shm : Shm) (bufSize : Int) : CutOff.Listing Off where
  keep := R.selects shm
  width a := (R.cardAt shm a).length
  size := bufSize.toNat
  margin := R.margin

/-- A page without its text. -/
def Page.out (page : Page) : Out Off := ⟨page.shown, page.text.length, page.total⟩

/-- Behind `before` stand the texts of the nodes shown, whole and in order. -/
def Page.Shows (R : Formatter) (shm : Shm) (before : CStr) (page : Page) : Prop :=
  page.text = before ++ page.shown.flatMap (R.cardAt shm)

variable {R : Formatter} {shm : Shm} {bufSize : Int} {page : Page} {a : Off} {before : CStr}

theorem Page.fits_iff {text : CStr} (hpos : 0 < text.length) :
    page.fits bufSize text = true ↔ page.text.length + text.length < bufSize.toNat := by
  rw [Page.fits, decide_eq_true_iff]
  omega

theorem Formatter.visit_out :
    (R.visit shm bufSize a page).out = (R.listing shm bufSize).visit a page.out := by
  have hfits : page.fits bufSize (R.cardAt shm a) = true ↔
      page.out.offset + (R.listing shm bufSize).width a < (R.listing shm bufSize).size :=
    page.fits_iff (R.card_pos _)
  by_cases hkeep : R.selects shm a = true
  · by_cases hfit : page.fits bufSize (R.cardAt shm a) = true
    · rw [CutOff.Listing.visit_write hkeep (hfits.mp hfit)]
      simp only [Formatter.visit, if_pos hkeep, if_pos hfit, Page.out, List.length_append]
      rfl
    · rw [CutOff.Listing.visit, if_pos (c := (R.listing shm bufSize).keep a = true) hkeep,
        if_neg (mt hfits.mpr hfit)]
      simp only [Formatter.visit, if_pos hkeep, if_neg hfit]
      rfl
  · rw [CutOff.Listing.visit_skip hkeep, Formatter.visit, if_neg hkeep]

theorem Page.Shows.visit (h : page.Shows R shm before) :
    (R.visit shm bufSize a page).Shows R shm before := by
  unfold Formatter.visit
  split
  · simp only
    split
    · rw [Page.Shows, List.flatMap_append, ← List.append_assoc, ← h, List.flatMap_singleton]
    · exact h
  · exact h

/-- **The walk** over a laid out tree ends and is the traversal of the tree. -/
theorem Formatter.walk_spec {root q : Off} {t : ColorTree Off} {depth : Nat}
    (h : Layout ⟨fun a => (shm.trees a).links, root⟩ gNil q t) (hne : ∀ a ∈ t.toList, a ≠ 0)
    (hdepth : t.toList.length < depth) :
    ∃ page', R.walk shm bufSize depth (t.addr gNil) page = some page' ∧
      page'.out = (R.listing shm bufSize).traverse t page.out ∧
      (page.Shows R shm before → page'.Shows R shm before) := by
  induction t generalizing q depth page with
  | nil =>
    obtain ⟨depth, rfl⟩ : ∃ k, depth = k + 1 := ⟨depth - 1, by omega⟩
    exact ⟨page, if_pos (Or.inl R.stop_nil), rfl, id⟩
  | node c l a r ihl ihr =>
    obtain ⟨depth, rfl⟩ : ∃ k, depth = k + 1 := ⟨depth - 1, by omega⟩
    obtain ⟨ha, hcell, hl, hr⟩ := h
    rw [toList_node, List.length_append, List.length_cons] at hdepth
    have hleft : (shm.trees a).leftOff = l.addr gNil := congrArg Links.left hcell
    have hright : (shm.trees a).rightOff = r.addr gNil := congrArg Links.right hcell
    have hgo : ¬R.stop a = true := fun hs => by
      rcases R.stop_only hs with h0 | h0
      · exact ha h0
      · exact hne a (by simp) h0
    have hroom : (page.text.length : Int) ≥ bufSize - R.margin ↔
        (R.listing shm bufSize).size ≤ page.out.offset + (R.listing shm bufSize).margin := by
      simp only [Formatter.listing, Page.out]
      omega
    rw [addr_node, Formatter.walk, CutOff.Listing.traverse]
    by_cases hfull : (page.text.length : Int) ≥ bufSize - R.margin
    · rw [if_pos (Or.inr hfull), if_pos (hroom.mp hfull)]
      exact ⟨page, rfl, rfl, id⟩
    rw [if_neg (not_or_intro hgo hfull), if_neg (mt hroom.mpr hfull), hleft, hright]
    obtain ⟨page₁, hwalk₁, hout₁, hshows₁⟩ :
        ∃ page₁, R.walk shm bufSize depth (l.addr gNil) page = some page₁ ∧ _ ∧ _ :=
      ihl hl (fun b hb => hne b (by simp [hb])) (by omega)
    obtain ⟨page₂, hwalk₂, hout₂, hshows₂⟩ : ∃ page₂, R.walk shm bufSize depth (r.addr gNil)
        (R.visit shm bufSize a page₁) = some page₂ ∧ _ ∧ _ :=
      ihr hr (fun b hb => hne b (by simp [hb])) (by omega)
    rw [hwalk₁, Option.bind_some]
    refine ⟨page₂, hwalk₂, ?_, fun hs => hshows₂ (hshows₁ hs).visit⟩
    rw [hout₂, Formatter.visit_out, hout₁]

variable {s : Store} {X : ColorTree Off} {L : List Off}

/-- Both listing functions walk over the index. -/
theorem StoreOK.walk (h : StoreOK s X L) (R : Formatter) (bufSize : Int) (before : CStr) :
    ∃ page, R.walk s.shm bufSize userStorePoolNodes s.bst.rootOff ⟨before, [], 0⟩ = some page ∧
      page.out = (R.listing s.shm bufSize).traverse X ⟨[], before.length, 0⟩ ∧
      page.Shows R s.shm before := by
  have hne : ∀ a ∈ X.toList, a ≠ 0 := by
    intro a ha h0
    obtain ⟨i, -, -, hi⟩ := h.nodes a ha
    exact treeSlot_ne_zero i (hi.symm.trans h0)
  have hroot : s.bst.rootOff = X.addr gNil := h.index.root
  rw [hroot]
  obtain ⟨page, hwalk, hout, hshows⟩ : ∃ page, R.walk s.shm bufSize userStorePoolNodes
      (X.addr gNil) ⟨before, [], 0⟩ = some page ∧ _ ∧ _ :=
    R.walk_spec h.index.place.zip.2 hne h.labels_lt_pool
  exact ⟨page, hwalk, hout, hshows (List.append_nil before).symm⟩

theorem Formatter.cost_eq (T : List Off) : (R.listing shm bufSize).cost T =
    ((T.filter (R.selects shm)).flatMap (R.cardAt shm)).length := by
  rw [List.length_flatMap]
  rfl

/-- **With room for everything** the walk writes all it selects. -/
theorem StoreOK.walk_all (h : StoreOK s X L) (R : Formatter) {bufSize : Int} {before : CStr}
    (hfit : ((before.length + ((X.toList.filter (R.selects s.shm)).flatMap
      (R.cardAt s.shm)).length + R.margin : Nat) : Int) < bufSize) :
    R.walk s.shm bufSize userStorePoolNodes s.bst.rootOff ⟨before, [], 0⟩ =
      some ⟨before ++ (X.toList.filter (R.selects s.shm)).flatMap (R.cardAt s.shm),
        X.toList.filter (R.selects s.shm), (X.toList.filter (R.selects s.shm)).length⟩ := by
  obtain ⟨⟨text, shown, total⟩, hwalk, hout, hshows⟩ := h.walk R bufSize before
  rw [CutOff.Listing.traverse_all] at hout
  · simp only [Page.out, Out.mk.injEq, List.nil_append, Nat.zero_add] at hout
    obtain ⟨rfl, -, rfl⟩ := hout
    rw [hwalk]
    exact congrArg some (congrArg (Page.mk · _ _) hshows)
  · rw [R.cost_eq]
    simp only [Formatter.listing]
    omega

/-! ## Printing -/

/-- The lines of the users, in the order of the index. -/
def indexLines (s : Store) : CStr :=
  ((indexNodes s.index).filter (bstFormatNode.selects s.shm)).flatMap (bstFormatNode.cardAt s.shm)

theorem bstInorderNode_eq {shm : Shm} {root q : Off} {t : ColorTree Off} {depth : Nat}
    (h : Layout ⟨fun a => (shm.trees a).links, root⟩ gNil q t)
    (hdepth : t.toList.length < depth) :
    bstInorderNode shm depth (t.addr gNil) = some
      ((t.toList.filter (bstFormatNode.selects shm)).flatMap (bstFormatNode.cardAt shm)) := by
  induction t generalizing q depth with
  | nil =>
    obtain ⟨depth, rfl⟩ : ∃ k, depth = k + 1 := ⟨depth - 1, by omega⟩
    exact if_pos rfl
  | node c l a r ihl ihr =>
    obtain ⟨depth, rfl⟩ : ∃ k, depth = k + 1 := ⟨depth - 1, by omega⟩
    obtain ⟨ha, hcell, hl, hr⟩ := h
    rw [toList_node, List.length_append, List.length_cons] at hdepth
    have hleft : (shm.trees a).leftOff = l.addr gNil := congrArg Links.left hcell
    have hright : (shm.trees a).rightOff = r.addr gNil := congrArg Links.right hcell
    rw [addr_node, bstInorderNode, if_neg ha, hleft, hright, ihl hl (by omega),
      ihr hr (by omega), Option.bind_some, Option.map_some, toList_node,
      List.filter_append, List.flatMap_append, List.filter_cons, List.append_assoc]
    split
    · rw [List.flatMap_cons]
    · rfl

/-- What is printed of the index. -/
theorem userStorePrintIndex_eq (h : StoreOK s X L) :
    userStorePrintIndex s = some (indexLines s) := by
  have hroot : s.bst.rootOff = X.addr gNil := h.index.root
  rw [indexLines, h.indexNodes_eq, userStorePrintIndex, hroot]
  exact bstInorderNode_eq h.index.place.zip.2 h.labels_lt_pool

end

end MiniWeb.UserStore
