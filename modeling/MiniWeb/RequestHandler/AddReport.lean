import MiniWeb.UserStore.Census
import MiniWeb.RequestHandler.Processors

/-!
# What is reported of an addition

`user_store_add` tells a name that exists (`1`) from a malformed line and an exhausted pool (`-1`).
Both processors only ask whether the answer is zero, so they report `EXISTS` for all three.
-/

namespace MiniWeb.RequestHandler

open Loop CStr UserStore RedBlack

/-- A record of the line was put in front of the list. -/
def Inserted (s s' : Store) (csvLine : CStr) : Prop :=
  ∃ elem node, parseCsvLine csvLine = some elem ∧
    liveNodes s'.shm = node :: liveNodes s.shm ∧ (s'.shm.lists node).data = elem

/-- A user of the line's name is in the store. -/
def NameLive (s : Store) (csvLine : CStr) : Prop :=
  ∃ elem, parseCsvLine csvLine = some elem ∧
    ∃ a ∈ liveNodes s.shm, recordName s.shm a = elem.name

/-- The report is true: `ADDED` of an insertion, `EXISTS` of a name that was there. -/
def TrueReport (s : Store) (csvLine : CStr) : Outcome × Store → Prop
  | (outcome, s') =>
    (outcome = .added ↔ Inserted s s' csvLine) ∧ (outcome = .exists → NameLive s csvLine)

/-- The line is empty, its name is in the store, or it is well formed and there is a slot for
it. -/
def Reportable (s : Store) (csvLine : CStr) : Prop :=
  csvLine = [] ∨ NameLive s csvLine ∨
    ((parseCsvLine csvLine).isSome = true ∧ s.shm.header.listNextFree < userStorePoolNodes)

/-- `POST /users` of `request_handler_process`. -/
theorem requestHandlerProcess_add {console : Console} {size : Nat} {req : BodyRequest} {s : Store}
    (hmethod : req.method = ascii "POST") (hpath : req.path = ascii "/users") :
    requestHandlerProcess console size req s = addUser req.body s := by
  have hget : ¬ascii "POST" = ascii "GET" := by decide
  rw [requestHandlerProcess]
  simp only [strcmp_eq_iff, hmethod, hpath, hget, false_and, and_true, if_false, if_true]

section

variable {s : Store} {X : ColorTree Off} {L : List Off} {csvLine : CStr}

theorem not_inserted_self : ¬Inserted s s csvLine := by
  rintro ⟨elem, node, -, hlive, -⟩
  exact absurd hlive.symm (List.cons_ne_self node _)

theorem trueReport_exists : TrueReport s csvLine (.exists, s) ↔ NameLive s csvLine := by
  constructor
  · exact fun hreport => hreport.2 rfl
  · exact fun hlive => ⟨iff_of_false (fun h => by cases h) not_inserted_self, fun _ => hlive⟩

theorem addUser_eq {ret : Int} {s' : Store} (hne : csvLine ≠ [])
    (hadd : userStoreAdd csvLine s = some (ret, s')) :
    addUser csvLine s = some (if ret = 0 then .added else .exists, s') := by
  rw [addUser, if_neg hne, hadd]
  rfl

/-- **One addition** ends, and its report is true exactly if the line can be reported on. -/
theorem addUser_report (h : StoreOK s X L) (csvLine : CStr) :
    ∃ r, addUser csvLine s = some r ∧ (TrueReport s csvLine r ↔ Reportable s csvLine) := by
  by_cases hnil : csvLine = []
  · refine ⟨_, if_pos hnil, iff_of_true ⟨?_, fun h => by cases h⟩ (Or.inl hnil)⟩
    exact iff_of_false (fun h => by cases h) not_inserted_self
  have hfailed : ∀ {ret : Int}, ret ≠ 0 → userStoreAdd csvLine s = some (ret, s) →
      addUser csvLine s = some (.exists, s) := by
    intro ret hret hadd
    rw [addUser_eq hnil hadd, if_neg hret]
  rw [Reportable, or_iff_right hnil]
  rcases userStoreAdd_cases h csvLine with
    ⟨hparse, hadd⟩ | ⟨elem, hparse, ⟨⟨a, ha, hname⟩, hadd⟩ | ⟨hno, hroom⟩⟩
  · refine ⟨_, hfailed (by decide) hadd, trueReport_exists.trans (or_iff_left ?_).symm⟩
    rw [hparse]
    exact fun hroom => by cases hroom.1
  · have hlive : NameLive s csvLine := ⟨elem, hparse, a, h.liveNodes_eq ▸ ha, hname⟩
    refine ⟨_, hfailed (by decide) hadd, trueReport_exists.trans ?_⟩
    exact iff_of_true hlive (Or.inl hlive)
  have hnotLive : ¬NameLive s csvLine := by
    rintro ⟨elem', hparse', a, ha, hname⟩
    obtain rfl := Option.some.inj (hparse.symm.trans hparse')
    rw [h.liveNodes_eq] at ha
    exact hno a ha hname
  rw [or_iff_right hnotLive, hparse]
  rcases hroom with ⟨hfull, hadd⟩ | ⟨hfree, s', X', -, hadd, hs', hp⟩
  · refine ⟨_, hfailed (by decide) hadd, trueReport_exists.trans ?_⟩
    exact iff_of_false hnotLive (fun hroom => by omega)
  · refine ⟨_, addUser_eq hnil hadd, iff_of_true ⟨?_, fun h => by cases h⟩ ⟨rfl, hfree⟩⟩
    refine iff_of_true rfl ⟨elem, listSlot s.shm.header.listNextFree, hparse, ?_, ?_⟩
    · rw [h.liveNodes_eq]
      exact (hs'.addSize 1).syncRoot.toStoreOK.liveNodes_eq
    · change (s'.shm.lists _).data = elem
      rw [hp.data, if_pos rfl]

end

/-- **Both processors report the same of an addition**, after every run, and the report is true
exactly if the line can be reported on. -/
theorem addReport_true_iff (console : Console) (size : Nat) (ops : List Op) :
    ∃ s, runOps ops userStoreShmInit = some s ∧ ∀ req : BodyRequest,
      req.method = ascii "POST" → req.path = ascii "/users" →
        ∃ r, requestHandlerProcess console size req s = some r ∧ handleUserAdd req s = some r ∧
          (TrueReport s req.body r ↔ Reportable s req.body) := by
  obtain ⟨s, X, L, hrun, hs⟩ := sound_init.run ops
  refine ⟨s, hrun, fun req hmethod hpath => ?_⟩
  obtain ⟨r, hadd, hreport⟩ := addUser_report hs.toStoreOK req.body
  exact ⟨r, (requestHandlerProcess_add hmethod hpath).trans hadd, hadd, hreport⟩

theorem usersPath_fits : (ascii "/users").length < 256 := by decide

/-- `POST /users` with a body. -/
def postUsers (body : CStr) : BodyRequest :=
  ⟨⟨ascii "POST", ascii "/users", [], []⟩, body, usersPath_fits⟩

/-- A new user is reported as added. -/
theorem addReport_true_first :
    ∃ r, requestHandlerProcess linuxConsole 4096 (postUsers (ascii "bob,1,2000"))
        userStoreShmInit = some r ∧
      TrueReport userStoreShmInit (ascii "bob,1,2000") r := by
  obtain ⟨s, hrun, h⟩ := addReport_true_iff linuxConsole 4096 []
  obtain rfl := Option.some.inj hrun
  obtain ⟨r, hprocess, -, hreport⟩ := h (postUsers (ascii "bob,1,2000")) rfl rfl
  exact ⟨r, hprocess, hreport.mpr (Or.inr (Or.inr ⟨by decide, by decide⟩))⟩

/-- A line without a birthdate is reported as a user who exists, on an empty store. -/
theorem malformed_reported :
    (requestHandlerProcess linuxConsole 4096 (postUsers (ascii "bob,1")) userStoreShmInit).map
        Prod.fst = some .exists ∧
      (handleUserAdd (postUsers (ascii "bob,1")) userStoreShmInit).map Prod.fst = some .exists ∧
      ¬∃ r, requestHandlerProcess linuxConsole 4096 (postUsers (ascii "bob,1")) userStoreShmInit =
          some r ∧
        TrueReport userStoreShmInit (ascii "bob,1") r := by
  have hoff : (requestHandlerProcess linuxConsole 4096 (postUsers (ascii "bob,1"))
      userStoreShmInit).map Prod.fst = some .exists := by decide
  refine ⟨hoff, by decide, ?_⟩
  rintro ⟨⟨outcome, s'⟩, hprocess, -, hexists⟩
  rw [hprocess] at hoff
  obtain ⟨elem, hparse, -⟩ := hexists (Option.some.inj hoff)
  have hnone : parseCsvLine (ascii "bob,1") = none := by decide
  rw [hparse] at hnone
  cases hnone

end MiniWeb.RequestHandler
