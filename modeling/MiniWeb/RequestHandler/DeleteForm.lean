import MiniWeb.UserStore.Census
import MiniWeb.RequestHandler.Processors

/-!
# The form that deletes a user

`handle_delete_form` decodes the value behind `name=` into a buffer of 64 bytes and does not ask
`url_decode` how it went. What was decoded before a bad escape, before a NUL or before the end of
the buffer is then the name of the user to delete.
-/

namespace MiniWeb.RequestHandler

open Loop CStr UserStore RedBlack

/-! ## Decoding -/

/-- The loop of `url_decode` with room for so many more bytes: what it writes, and whether it leaves
without finding a bad escape. -/
def urlDecodeLoop : Nat → CStr → List UInt8 × Bool
  | 0, _ => ([], true)
  | _ + 1, [] => ([], true)
  | room + 1, c :: src =>
    if c = 37 then
      match src with
      | high :: low :: rest =>
        if isXDigit high = true ∧ isXDigit low = true then
          let r := urlDecodeLoop room rest
          ((16 * xdigitValue high + xdigitValue low) :: r.1, r.2)
        else ([], false)
      | _ => ([], false)
    else if c = 43 then
      let r := urlDecodeLoop room src
      (32 :: r.1, r.2)
    else if c = 38 then ([], true)
    else
      let r := urlDecodeLoop room src
      (c :: r.1, r.2)

/-- `url_decode` into a zeroed buffer: the answer and the string in the buffer. -/
def urlDecode (src : CStr) (dstSize : Nat) : Int × CStr :=
  let r := urlDecodeLoop (dstSize - 1) src
  (if r.2 then 0 else -1, ofBuffer r.1)

def handleDeleteForm (req : BodyRequest) (s : Store) : Option (Outcome × Store) :=
  let nameBuf :=
    match strstr req.body (ascii "name=") with
    | none => []
    | some nPtr => (urlDecode (nPtr.drop 5) 64).2
  if nameBuf = [] then some (.error (ascii "ERROR: DELETE requires a user name\n"), s)
  else
    (userStoreDelete nameBuf s).map fun (ret, s) =>
      (if ret = 0 then .deleted else .noSuchUser, s)

/-- A form value as it is meant: the bytes up to the end of the value or to a bad escape, and
whether there is none. -/
def formBytes : CStr → List UInt8 × Bool
  | [] => ([], true)
  | c :: src =>
    if c = 37 then
      match src with
      | high :: low :: rest =>
        if isXDigit high = true ∧ isXDigit low = true then
          ((16 * xdigitValue high + xdigitValue low) :: (formBytes rest).1, (formBytes rest).2)
        else ([], false)
      | _ => ([], false)
    else if c = 43 then (32 :: (formBytes src).1, (formBytes src).2)
    else if c = 38 then ([], true)
    else (c :: (formBytes src).1, (formBytes src).2)

/-- The loop writes what fits, and does not see a bad escape behind it. -/
theorem urlDecodeLoop_eq (room : Nat) (src : CStr) :
    urlDecodeLoop room src = ((formBytes src).1.take room,
      (formBytes src).2 || decide (room ≤ (formBytes src).1.length)) := by
  induction room generalizing src with
  | zero => simp [urlDecodeLoop]
  | succ room ih =>
    cases src with
    | nil => rfl
    | cons c src =>
      unfold urlDecodeLoop formBytes
      by_cases hescape : c = 37
      · rw [if_pos hescape, if_pos hescape]
        match src with
        | [] => simp
        | [_] => simp
        | high :: low :: rest =>
          by_cases hdigits : isXDigit high = true ∧ isXDigit low = true
          · simp only [if_pos hdigits, ih, List.take_succ_cons, List.length_cons,
              Nat.add_le_add_iff_right]
          · simp [if_neg hdigits]
      · rw [if_neg hescape, if_neg hescape]
        by_cases hplus : c = 43
        · simp only [if_pos hplus, ih, List.take_succ_cons, List.length_cons,
            Nat.add_le_add_iff_right]
        · rw [if_neg hplus, if_neg hplus]
          by_cases hend : c = 38
          · simp [if_pos hend]
          · simp only [if_neg hend, ih, List.take_succ_cons, List.length_cons,
              Nat.add_le_add_iff_right]

/-- The value behind `name=`. -/
def formValue (body : CStr) : Option CStr := (strstr body (ascii "name=")).map (·.drop 5)

/-- The fully decoded value, if the value is a valid encoding. -/
def decodedForm (value : CStr) : Option (List UInt8) :=
  if (formBytes value).2 = true then some (formBytes value).1 else none

/-- The string that is left in `name_buf`. -/
def nameBuf (value : CStr) : CStr := ofBuffer ((formBytes value).1.take 63)

theorem urlDecode_eq (value : CStr) :
    urlDecode value 64 =
      (if (formBytes value).2 = true ∨ 63 ≤ (formBytes value).1.length then 0 else -1,
        nameBuf value) := by
  rw [urlDecode, urlDecodeLoop_eq, nameBuf]
  simp only [Bool.or_eq_true, decide_eq_true_eq]

theorem ofBuffer_eq_self_iff {buf : List UInt8} : ofBuffer buf = buf ↔ 0 ∉ buf := by
  rw [ofBuffer, List.takeWhile_eq_self_iff]
  constructor
  · intro h hmem
    simpa using h 0 hmem
  · intro h c hc
    apply decide_eq_true
    rintro rfl
    exact h hc

theorem nameBuf_eq_nil_iff {value : CStr} :
    nameBuf value = [] ↔ (formBytes value).1.headD 0 = 0 := by
  rw [nameBuf, ofBuffer]
  cases (formBytes value).1 with
  | nil => exact iff_of_true rfl rfl
  | cons c bytes => by_cases hc : c = 0 <;> simp [hc]

/-- The buffer holds the decoded value exactly if it fits and has no zero byte. -/
theorem decodedForm_eq_nameBuf_iff {value : CStr} :
    decodedForm value = some (nameBuf value) ↔
      ∃ name, decodedForm value = some name ∧ name.length ≤ 63 ∧ 0 ∉ name := by
  have hself : (formBytes value).1 = nameBuf value ↔
      (formBytes value).1.length ≤ 63 ∧ 0 ∉ (formBytes value).1 := by
    generalize hbytes : (formBytes value).1 = bytes
    rw [nameBuf, hbytes]
    constructor
    · intro heq
      have hlen : (ofBuffer (bytes.take 63)).length ≤ (bytes.take 63).length :=
        (List.takeWhile_prefix _).length_le
      rw [← heq, List.length_take] at hlen
      have hfits : bytes.length ≤ 63 := by omega
      rw [List.take_of_length_le hfits] at heq
      exact ⟨hfits, ofBuffer_eq_self_iff.mp heq.symm⟩
    · rintro ⟨hfits, hzero⟩
      rw [List.take_of_length_le hfits]
      exact (ofBuffer_eq_self_iff.mpr hzero).symm
  rw [decodedForm]
  by_cases hvalid : (formBytes value).2 = true
  · rw [if_pos hvalid, Option.some.injEq, hself]
    constructor
    · exact fun h => ⟨_, rfl, h⟩
    · rintro ⟨name, hname, h⟩
      rwa [Option.some.inj hname]
  · rw [if_neg hvalid]
    exact iff_of_false (fun h => by cases h) (fun ⟨name, hname, _⟩ => by cases hname)

/-! ## Deleting -/

/-- The answer 400. -/
def badRequest : Outcome := .error (ascii "ERROR: DELETE requires a user name\n")

/-- What is wanted of a form with a value: an encoding that `url_decode` refuses changes nothing and
is answered 400, and of any other a user who is gone had the decoded name. -/
def DeletesDecoded (s : Store) (value : CStr) (r : Outcome × Store) : Prop :=
  if (urlDecode value 64).1 = -1 then r = (badRequest, s)
  else ∀ a ∈ liveNodes s.shm, a ∉ liveNodes r.2.shm →
    decodedForm value = some (recordName s.shm a)

/-- Nothing is decoded, or the whole value is decoded to a name that fits, or the decoding is cut
short by the buffer or a zero byte and no user has the name that is left. -/
def DecodesToName (s : Store) (value : CStr) : Prop :=
  (formBytes value).1.headD 0 = 0 ∨
    (∃ name, decodedForm value = some name ∧ name.length ≤ 63 ∧ 0 ∉ name) ∨
    (((formBytes value).2 = true ∨ 63 ≤ (formBytes value).1.length) ∧
      ∀ a ∈ liveNodes s.shm, recordName s.shm a ≠ nameBuf value)

section

variable {s : Store} {X : ColorTree Off} {L : List Off}

theorem handleDeleteForm_none {req : BodyRequest} (h : formValue req.body = none) :
    handleDeleteForm req s = some (badRequest, s) := by
  rw [formValue, Option.map_eq_none_iff] at h
  rw [handleDeleteForm, h]
  rfl

theorem handleDeleteForm_some {req : BodyRequest} {value : CStr}
    (h : formValue req.body = some value) :
    handleDeleteForm req s = deleteUser (nameBuf value) s := by
  obtain ⟨nPtr, hfound, rfl⟩ := Option.map_eq_some_iff.mp h
  rw [handleDeleteForm, hfound, deleteUser]
  simp only [urlDecode_eq]

/-- A name that is not empty is looked for: no user has it, or the first who has it is gone. -/
theorem deleteUser_cases (h : StoreOK s X L) {name : CStr} (hname : name ≠ []) :
    ((∀ a ∈ liveNodes s.shm, recordName s.shm a ≠ name) ∧
        deleteUser name s = some (.noSuchUser, s)) ∨
      ∃ a s', a ∈ liveNodes s.shm ∧ recordName s.shm a = name ∧
        deleteUser name s = some (.deleted, s') ∧ a ∉ liveNodes s'.shm ∧
        ∀ b ∈ liveNodes s.shm, b ≠ a → b ∈ liveNodes s'.shm := by
  rw [deleteUser, if_neg hname, h.liveNodes_eq]
  rcases userStoreDelete_spec h name with ⟨hno, hdel⟩ | ⟨L₁, a, L₂, s', X', rfl, ha, hdel, h', -⟩
  · rw [hdel]
    exact Or.inl ⟨hno, rfl⟩
  · rw [hdel]
    refine Or.inr ⟨a, s', by simp, ha, rfl, ?_, ?_⟩
    · rw [h'.liveNodes_eq]
      exact (List.nodup_cons.mp (List.perm_middle.nodup_iff.mp h.distinct)).1
    · intro b hb hne
      rw [h'.liveNodes_eq]
      exact (List.mem_cons.mp (List.perm_middle.mem_iff.mp hb)).resolve_left hne

theorem deletesDecoded_of_valid {value : CStr} {r : Outcome × Store}
    (hok : (formBytes value).2 = true ∨ 63 ≤ (formBytes value).1.length) :
    DeletesDecoded s value r ↔ ∀ a ∈ liveNodes s.shm, a ∉ liveNodes r.2.shm →
      decodedForm value = some (recordName s.shm a) := by
  have hne : ¬(0 : Int) = -1 := by decide
  rw [DeletesDecoded, urlDecode_eq, if_pos hok, if_neg hne]

theorem deletesDecoded_of_bad {value : CStr} {r : Outcome × Store}
    (hbad : ¬((formBytes value).2 = true ∨ 63 ≤ (formBytes value).1.length)) :
    DeletesDecoded s value r ↔ r = (badRequest, s) := by
  rw [DeletesDecoded, urlDecode_eq, if_neg hbad, if_pos rfl]

/-- **One form**: what is wanted of it holds exactly if the name in the buffer is the decoded one or
does no harm. -/
theorem deleteUser_form (h : StoreOK s X L) (value : CStr) :
    ∃ r, deleteUser (nameBuf value) s = some r ∧
      (DeletesDecoded s value r ↔ DecodesToName s value) := by
  rw [DecodesToName, ← nameBuf_eq_nil_iff, ← decodedForm_eq_nameBuf_iff]
  by_cases hnil : nameBuf value = []
  · refine ⟨(badRequest, s), if_pos hnil, iff_of_true ?_ (Or.inl hnil)⟩
    rw [DeletesDecoded]
    split
    · rfl
    · exact fun a ha hgone => absurd ha hgone
  rw [or_iff_right hnil]
  by_cases hok : (formBytes value).2 = true ∨ 63 ≤ (formBytes value).1.length
  · simp only [deletesDecoded_of_valid hok, and_iff_right hok]
    rcases deleteUser_cases h hnil with ⟨hno, hdel⟩ | ⟨a, s', ha, hname, hdel, hgone, hkept⟩
    · exact ⟨_, hdel, iff_of_true (fun a ha hgone => absurd ha hgone) (Or.inr hno)⟩
    · refine ⟨_, hdel, ?_⟩
      rw [or_iff_left fun hno => hno a ha hname]
      constructor
      · exact fun hall => (hall a ha hgone).trans (congrArg some hname)
      · intro heq b hb hbgone
        have hba : b = a := Classical.by_contradiction fun hne => hbgone (hkept b hb hne)
        rw [heq, hba, hname]
  · simp only [deletesDecoded_of_bad hok]
    have hnever : ¬(decodedForm value = some (nameBuf value) ∨
        ((formBytes value).2 = true ∨ 63 ≤ (formBytes value).1.length) ∧
          ∀ a ∈ liveNodes s.shm, recordName s.shm a ≠ nameBuf value) := by
      rintro (heq | ⟨hvalid, -⟩)
      · rw [decodedForm, if_neg fun hvalid => hok (Or.inl hvalid)] at heq
        cases heq
      · exact hok hvalid
    -- neither answer is 400
    rcases deleteUser_cases h hnil with ⟨-, hdel⟩ | ⟨a, s', -, -, hdel, -, -⟩
    · refine ⟨_, hdel, iff_of_false (fun heq => ?_) hnever⟩
      cases (Prod.mk.inj heq).1
    · refine ⟨_, hdel, iff_of_false (fun heq => ?_) hnever⟩
      cases (Prod.mk.inj heq).1

end

/-- **A form deletes the user it decodes to**, after every run, exactly if the name in the buffer is
the decoded one or does no harm. -/
theorem deleteForm_decodes_iff (ops : List Op) :
    ∃ s, runOps ops userStoreShmInit = some s ∧ ∀ req : BodyRequest,
      (formValue req.body = none → handleDeleteForm req s = some (badRequest, s)) ∧
      ∀ value, formValue req.body = some value →
        ∃ r, handleDeleteForm req s = some r ∧
          (DeletesDecoded s value r ↔ DecodesToName s value) := by
  obtain ⟨s, X, L, hrun, hs⟩ := sound_init.run ops
  refine ⟨s, hrun, fun req => ⟨handleDeleteForm_none, fun value hvalue => ?_⟩⟩
  rw [handleDeleteForm_some hvalue]
  exact deleteUser_form hs.toStoreOK value

theorem deletePath_fits : (ascii "/delete").length < 256 := by decide

/-- `POST /delete` with a body. -/
def postDelete (body : CStr) : BodyRequest :=
  ⟨⟨ascii "POST", ascii "/delete", [], []⟩, body, deletePath_fits⟩

/-- A store of one user. -/
def onlyBob : Op := .add (ascii "bob,1,2000")

/-- A valid value. -/
theorem deleteForm_decodes_bob :
    ∃ s r, runOps [onlyBob] userStoreShmInit = some s ∧
      handleDeleteForm (postDelete (ascii "name=b%6Fb&x=1")) s = some r ∧
      DeletesDecoded s (ascii "b%6Fb&x=1") r := by
  obtain ⟨s, hrun, h⟩ := deleteForm_decodes_iff [onlyBob]
  obtain ⟨r, hform, hiff⟩ :=
    (h (postDelete (ascii "name=b%6Fb&x=1"))).2 (ascii "b%6Fb&x=1") (by decide)
  refine ⟨s, r, hrun, hform, hiff.mpr (Or.inr (Or.inl ⟨ascii "bob", ?_, ?_, ?_⟩))⟩
  · decide +kernel
  · decide
  · decide

/-- The value has a bad escape, and the user before it is gone. -/
theorem malformed_deletes :
    (urlDecode (ascii "bob%zz") 64).1 = -1 ∧
      ((runOps [onlyBob] userStoreShmInit).bind
        (handleDeleteForm (postDelete (ascii "name=bob%zz")))).map
          (fun r => (r.1, liveNodes r.2.shm)) = some (.deleted, []) ∧
      (runOps [onlyBob] userStoreShmInit).map (fun s => liveNodes s.shm) =
        some [listSlot 1] := by
  refine ⟨by decide, by decide +kernel, by decide +kernel⟩

end MiniWeb.RequestHandler
