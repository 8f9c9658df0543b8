import MiniWeb.UserStore.Index

/-!
# The user store (`user_store.c`)

The store keeps every record twice: on a linked list, newest first, and in the red-black index.
`user_store_add` and `user_store_delete` run as a whole under the region's mutex, so an operation
is a function of the region and of the caller's `g_user_bst`.

An answer `none` stands for a loop that would not end. Strings are never `NULL` and the region is
mapped, so the guards against `NULL` have no counterpart; log lines are left out.
-/

namespace MiniWeb.UserStore

open RedBlack Loop CStr

/-! ## CSV lines -/

/-- `text[strcspn(text, "\r\n")] = '\0'`. -/
def removeNewline (text : CStr) : CStr := text.takeWhile fun c => c ≠ 13 ∧ c ≠ 10

/-- One pass of the loop of `parse_csv_line`: token number `field` goes to its member, cut to the
member's size. -/
def setField (elem : ElemType) (field : Nat) (token : CStr) : ElemType :=
  match field with
  | 0 => { elem with name := cut 64 token }
  | 1 => { elem with password := cut 64 token }
  | 2 => { elem with birthdate := cut 16 token }
  | 3 => { elem with phone := cut 32 token }
  | 4 => { elem with mobile := cut 32 token }
  | 5 => { elem with email := cut 64 token }
  | _ => elem

/-- `parse_csv_line`: `none` for a line of fewer than three tokens. -/
def parseCsvLine (line : CStr) : Option ElemType :=
  let tokens := strtok 44 line
  let elem := tokens.zipIdx.foldl (fun elem tf => setField elem tf.2 tf.1) ElemType.zero
  if tokens.length < 3 then none else some elem

/-! ## The region -/

def listAlloc (shm : Shm) : Option (Off × Shm) :=
  let idx := shm.header.listNextFree
  if idx ≥ userStorePoolNodes then none
  else
    some (listSlot idx,
      { shm with
        header := { shm.header with listNextFree := idx + 1 }
        lists := Function.update shm.lists (listSlot idx) { ListNode.zero with used := true } })

def treeAlloc (shm : Shm) : Option (Off × Shm) :=
  let idx := shm.header.treeNextFree
  if idx ≥ userStorePoolNodes then none
  else
    some (treeSlot idx,
      { shm with
        header := { shm.header with treeNextFree := idx + 1 }
        trees := Function.update shm.trees (treeSlot idx) { BSTnode.zero with used := true } })

/-- `user_store_shm_init`: slot 0 of the tree pool becomes the sentinel, slot 0 of the list pool
the head. -/
def userStoreShmInit : Store where
  shm :=
    { header := ⟨listSlot 0, gNil, gNil, 0, 1, 1⟩
      lists := Function.update (fun _ => ListNode.zero) (listSlot 0)
        { ListNode.zero with used := true, nextOff := 0 }
      trees := Function.update (fun _ => BSTnode.zero) gNil ⟨0, gNil, gNil, gNil, .black, true⟩ }
  bst := ⟨gNil, gNil, 0⟩

namespace Store

def modifyList (s : Store) (a : Off) (f : ListNode → ListNode) : Store :=
  { s with shm := { s.shm with lists := Function.update s.shm.lists a (f (s.shm.lists a)) } }

def setHeader (s : Store) (f : ShmHeader → ShmHeader) : Store :=
  { s with shm := { s.shm with header := f s.shm.header } }

/-- `g_header->root_off = g_user_bst.root_off`. -/
def syncRoot (s : Store) : Store := s.setHeader fun h => { h with rootOff := s.bst.rootOff }

def addSize (s : Store) (n : Int) : Store := s.setHeader fun h => { h with size := h.size + n }

end Store

/-! ## Search on the list -/

def userStoreFindStep (lists : Off → ListNode) (name : CStr) (cur : Off) : Step Off Off :=
  if cur = 0 then .done 0
  else if (lists cur).used ∧ strcmp (lists cur).data.name name = .eq then .done cur
  else .next (lists cur).nextOff

/-- `user_store_find`: the first live node of that name on the list, or `NULL`. -/
def userStoreFind (shm : Shm) (name : CStr) : Option Off :=
  run (userStoreFindStep shm.lists name) userStorePoolNodes (shm.lists shm.header.headOff).nextOff

/-- `user_store_find_index`. -/
def userStoreFindIndex (s : Store) (name : CStr) : Option Off := bstFind s.shm.lists s.index name

/-! ## Insertion of a record -/

/-- The part `user_store_add` and the loader share: take a list node, link it behind the head,
take a tree node and insert it. The flag is `false` when a pool is exhausted. -/
def placeRecord (elem : ElemType) (s : Store) : Option (Bool × Store) :=
  match listAlloc s.shm with
  | none => some (false, s)
  | some (node, shm) =>
    let s : Store := { s with shm := shm }
    let s := s.modifyList node fun n => { n with data := elem }
    let head := s.shm.header.headOff
    let s := s.modifyList node fun n => { n with nextOff := (s.shm.lists head).nextOff }
    let s := s.modifyList head fun n => { n with nextOff := node }
    match treeAlloc s.shm with
    | none => some (false, s)
    | some (tn, shm) =>
      let s : Store := { s with shm := shm }
      let t := s.index.modify tn fun n => { n with userOff := node }
      let t := (t.setChild tn .left gNil).setChild tn .right gNil
      let t := (t.setParent tn gNil).setColor tn .red
      (bstInsert s.shm.lists s.shm.header.treeNextFree t node).map fun t => (true, s.withIndex t)

/-- `user_store_add`: `0` added, `1` a record of that name exists, `-1` a malformed line or an
exhausted pool. -/
def userStoreAdd (csvLine : CStr) (s : Store) : Option (Int × Store) :=
  match parseCsvLine csvLine with
  | none => some (-1, s)
  | some elem =>
    (userStoreFind s.shm elem.name).bind fun found =>
      if found ≠ 0 then some (1, s)
      else
        (placeRecord elem s).map fun (placed, s) =>
          if placed then (0, (s.addSize 1).syncRoot) else (-1, s)

/-! ## Loading -/

/-- The test for a header line, made while no record was counted. -/
def isHeaderLine (line : CStr) (count : Nat) : Bool :=
  (line = [] || (count = 0 && (startsWith line (ascii "username") ||
    startsWith line (ascii "name,") || startsWith line (ascii "baianai")))) &&
  count = 0 && line.contains 44 &&
    ((strstr line (ascii "name")).isSome || (strstr line (ascii "username")).isSome)

/-- The loop of `user_store_shm_load_csv` over the buffers `fgets` fills. -/
def loadLines : List (List UInt8) → Store → Nat → Option (Store × Nat)
  | [], s, count => some (s, count)
  | buf :: rest, s, count =>
    let line := removeNewline (ofBuffer buf)
    if isHeaderLine line count then loadLines rest s (count + 1)
    else
      match parseCsvLine line with
      | none => loadLines rest s count
      | some elem =>
        (placeRecord elem s).bind fun (placed, s) =>
          if placed then loadLines rest (s.addSize 1) (count + 1) else some (s, count)

/-- `user_store_shm_load_csv`: `none` for a file that cannot be opened. -/
def userStoreShmLoadCsv (file : Option (List UInt8)) (s : Store) : Option Store :=
  let h := s.shm.header
  let s := { s with bst := { s.bst with rootOff := h.rootOff, nilOff := h.nilOff } }
  match file with
  | none => some s
  | some text =>
    (loadLines (fgets 512 text) s 0).map fun (s, count) =>
      s.syncRoot.setHeader fun h => { h with size := count }

/-! ## Deletion of a record -/

/-- The search of `user_store_delete`: the first live node of that name and the node before it,
or nothing. -/
def userStoreDeleteStep (lists : Off → ListNode) (name : CStr) (s : Off × Off) :
    Step (Off × Off) (Option (Off × Off)) :=
  let (prev, cur) := s
  if cur = 0 then .done none
  else if (lists cur).used ∧ strcmp (lists cur).data.name name = .eq then .done (some (prev, cur))
  else .next (cur, (lists cur).nextOff)

/-- `user_store_delete`: `-1` when no live record has that name. -/
def userStoreDelete (name : CStr) (s : Store) : Option (Int × Store) :=
  let head := s.shm.header.headOff
  (run (userStoreDeleteStep s.shm.lists name) userStorePoolNodes
      (head, (s.shm.lists head).nextOff)).bind fun found =>
    match found with
    | none => some (-1, s)
    | some (prev, cur) =>
      let s := s.modifyList prev fun n => { n with nextOff := (s.shm.lists cur).nextOff }
      let s := s.modifyList cur fun n => { n with used := false }
      (bstDelete s.shm.lists s.index name).map fun (_, t) =>
        (0, ((s.withIndex t).addSize (-1)).syncRoot)

/-! ## Other reads of the list -/

def userStoreAuthStep (lists : Off → ListNode) (mobile password : CStr) (cur : Off) :
    Step Off Bool :=
  if cur = 0 then .done false
  else if (lists cur).used ∧ (lists cur).data.mobile = mobile ∧
      (lists cur).data.password = password then .done true
  else .next (lists cur).nextOff

/-- `user_store_auth`: does a live record carry this mobile number and password? -/
def userStoreAuth (shm : Shm) (mobile password : CStr) : Option Bool :=
  run (userStoreAuthStep shm.lists mobile password) userStorePoolNodes
    (shm.lists shm.header.headOff).nextOff

end MiniWeb.UserStore
