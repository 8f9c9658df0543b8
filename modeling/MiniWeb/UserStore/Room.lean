import MiniWeb.UserStore.Census
import MiniWeb.UserStore.Fields

/-!
# Room for another user

The pools only grow: `user_store_delete` marks a slot free and `list_alloc` never looks at the mark.
What decides whether a well-formed line is added is not how many users there are but how many there
ever were.
-/

namespace MiniWeb.UserStore

open RedBlack Loop CStr ColorTree TreePath

/-- The name in a line: its first field, as long as the member is. -/
def lineName (csvLine : CStr) : CStr := cut 64 ((csvFields csvLine).headD [])

/-- The name that `strtok` takes: the first field that is filled. -/
def filledName (csvLine : CStr) : CStr :=
  cut 64 (((csvFields csvLine).filter (· ≠ [])).headD [])

section

variable {s : Store} {X : ColorTree Off} {L : List Off} {csvLine : CStr}

/-- The name of a record. -/
theorem parseCsvLine_name {elem : ElemType} (hparse : parseCsvLine csvLine = some elem) :
    elem.name = filledName csvLine := by
  rcases parseCsvLine_eq csvLine with ⟨hnone, -⟩ | ⟨elem', hsome, -, hmem⟩
  · rw [hnone] at hparse
    cases hparse
  obtain rfl := Option.some.inj (hsome.symm.trans hparse)
  have hname : elem'.name = cut 64 ((strtok 44 csvLine).getD 0 []) := hmem 0
  rw [hname, filledName, strtok_eq]
  cases (csvFields csvLine).filter (· ≠ []) <;> rfl

/-- A first field that is filled is the name that `strtok` takes. -/
theorem filledName_of_ne (hfirst : (csvFields csvLine).headD [] ≠ []) :
    filledName csvLine = lineName csvLine := by
  rw [filledName, lineName]
  cases hfields : csvFields csvLine with
  | nil => rfl
  | cons field fields =>
    rw [hfields] at hfirst
    rw [List.filter_cons_of_pos (by simpa using hfirst)]
    rfl

theorem parseCsvLine_isSome_iff :
    (parseCsvLine csvLine).isSome = true ↔ 3 ≤ ((csvFields csvLine).filter (· ≠ [])).length := by
  rw [← strtok_eq]
  rcases parseCsvLine_eq csvLine with ⟨hnone, hlen⟩ | ⟨elem, hsome, hlen, -⟩
  · rw [hnone]
    exact iff_of_false Bool.false_ne_true (by omega)
  · rw [hsome]
    exact iff_of_true rfl hlen

/-- A line is added if it is well formed, its name is new, and the pool has a slot that was never
used. -/
theorem StoreOK.add_iff (h : StoreOK s X L) :
    (∃ s', userStoreAdd csvLine s = some (0, s')) ↔
      3 ≤ ((csvFields csvLine).filter (· ≠ [])).length ∧
        s.shm.header.listNextFree < userStorePoolNodes ∧
        ∀ a ∈ L, recordName s.shm a ≠ filledName csvLine := by
  rw [← parseCsvLine_isSome_iff]
  have hfail : ∀ {res : Int}, userStoreAdd csvLine s = some (res, s) → res ≠ 0 →
      ¬∃ s', userStoreAdd csvLine s = some (0, s') := by
    rintro res hadd hres ⟨s', hadd'⟩
    have hpair := Option.some.inj (hadd.symm.trans hadd')
    exact hres (Prod.mk.inj hpair).1
  rcases userStoreAdd_cases h csvLine with ⟨hparse, hadd⟩ | ⟨elem, hparse, hcases⟩
  · rw [hparse]
    exact iff_of_false (hfail hadd (by decide)) (fun hcond => by cases hcond.1)
  rw [hparse, ← parseCsvLine_name hparse]
  rcases hcases with ⟨⟨a, ha, hname⟩, hadd⟩ | ⟨hnew, hroom⟩
  · exact iff_of_false (hfail hadd (by decide)) fun hcond => hcond.2.2 a ha hname
  rcases hroom with ⟨hfull, hadd⟩ | ⟨hfree, s', X', -, hadd, -, -⟩
  · exact iff_of_false (hfail hadd (by decide)) (fun hcond => by omega)
  · exact iff_of_true ⟨_, hadd⟩ ⟨rfl, hfree, hnew⟩

end

/-- **A new user is added** after a run exactly if the line has three filled fields, the list pool
still has a slot that was never used, and, where the first field is empty, the name that is taken
from another field is new too. -/
theorem runOps_add_iff (ops : List Op) :
    ∃ s, runOps ops userStoreShmInit = some s ∧ ∀ csvLine,
      (∀ a ∈ liveNodes s.shm, recordName s.shm a ≠ lineName csvLine) →
        ((∃ s', userStoreAdd csvLine s = some (0, s')) ↔
          3 ≤ ((csvFields csvLine).filter (· ≠ [])).length ∧
            s.shm.header.listNextFree < userStorePoolNodes ∧
            ((csvFields csvLine).headD [] = [] →
              ∀ a ∈ liveNodes s.shm, recordName s.shm a ≠ filledName csvLine)) := by
  obtain ⟨s, X, L, hrun, hs⟩ := sound_init.run ops
  refine ⟨s, hrun, fun csvLine hnew => ?_⟩
  rw [hs.toStoreOK.liveNodes_eq] at hnew ⊢
  rw [hs.toStoreOK.add_iff]
  refine and_congr_right fun _ => and_congr_right fun _ => ?_
  constructor
  · exact fun h _ => h
  · intro h
    by_cases hfirst : (csvFields csvLine).headD [] = []
    · exact h hfirst
    · rw [filledName_of_ne hfirst]
      exact hnew

/-- Two users come and one of them goes. -/
def bobGone : List Op :=
  [.add (ascii "bob,1,2000"), .add (ascii "amy,2,2001"), .delete (ascii "bob")]

/-- A third user is added, also behind an empty field. -/
theorem runOps_add_third : ∃ s, runOps bobGone userStoreShmInit = some s ∧
    (∃ s', userStoreAdd (ascii "cat,3,2002") s = some (0, s')) ∧
      ∃ s', userStoreAdd (ascii ",bob,1,2000") s = some (0, s') := by
  obtain ⟨s, hrun, h⟩ := runOps_add_iff bobGone
  have heval : (runOps bobGone userStoreShmInit).map (fun s =>
      ((liveNodes s.shm).map (recordName s.shm), s.shm.header.listNextFree)) =
        some ([ascii "amy"], 3) := by decide +kernel
  rw [hrun] at heval
  obtain ⟨hlive, hnext⟩ := Prod.mk.inj (Option.some.inj heval)
  have hnew {name : CStr} (hne : name ≠ ascii "amy") :
      ∀ a ∈ liveNodes s.shm, recordName s.shm a ≠ name := by
    intro a ha heq
    have hmem : recordName s.shm a ∈ [ascii "amy"] := hlive ▸ List.mem_map_of_mem ha
    exact hne (heq ▸ List.mem_singleton.mp hmem)
  have hroom : s.shm.header.listNextFree < userStorePoolNodes := by
    rw [hnext]
    decide
  refine ⟨s, hrun, ?_, ?_⟩
  · exact (h (ascii "cat,3,2002") (hnew (by decide))).mpr
      ⟨by decide, hroom, fun _ => hnew (by decide)⟩
  · exact (h (ascii ",bob,1,2000") (hnew (by decide))).mpr
      ⟨by decide, hroom, fun _ => hnew (by decide)⟩

/-! ## A store that is full of deleted users -/

/-- One user comes and goes, again and again. -/
def churn (n : Nat) : List Op :=
  (List.replicate n [Op.add (ascii "bob,1,2000"), Op.delete (ascii "bob")]).flatten

section

variable {s : Store} {X : ColorTree Off}

/-- One round uses up a slot and leaves the store empty. -/
theorem churn_round (h : Sound s X []) (hfree : s.shm.header.listNextFree < userStorePoolNodes) :
    ∃ s' X', runOps [.add (ascii "bob,1,2000"), .delete (ascii "bob")] s = some s' ∧
      Sound s' X' [] ∧ s'.shm.header.listNextFree = s.shm.header.listNextFree + 1 := by
  obtain ⟨elem, hparse, hname⟩ :
      ∃ elem, parseCsvLine (ascii "bob,1,2000") = some elem ∧ elem.name = ascii "bob" :=
    ⟨_, rfl, rfl⟩
  rcases userStoreAdd_cases h.toStoreOK (ascii "bob,1,2000") with
    ⟨hnone, -⟩ | ⟨elem', hparse', ⟨⟨a, ha, -⟩, -⟩ | ⟨-, ⟨hfull, -⟩ | ⟨-, s₁, X₁, -, hadd, h₁, hp⟩⟩⟩
  · rw [hparse] at hnone
    cases hnone
  · cases ha
  · omega
  obtain rfl := Option.some.inj (hparse.symm.trans hparse')
  have h₁' : Sound (s₁.addSize 1).syncRoot X₁ [listSlot s.shm.header.listNextFree] :=
    (h₁.addSize 1).syncRoot
  rcases userStoreDelete_spec h₁'.toStoreOK (ascii "bob") with
    ⟨hno, -⟩ | ⟨L₁, a, L₂, s₂, X₂, hL, -, hdel, h₂, hd⟩
  · exact absurd (hp.recordName_new.trans hname) (hno _ List.mem_cons_self)
  · have hnil : L₁ ++ L₂ = [] := by
      have hlen := congrArg List.length hL
      rw [List.length_append, List.length_cons, List.length_cons, List.length_nil] at hlen
      apply List.eq_nil_of_length_eq_zero
      rw [List.length_append]
      omega
    rw [hnil] at h₂
    refine ⟨s₂, X₂, ?_, ⟨h₂, hd.synced⟩, ?_⟩
    · rw [runOps, Op.exec, hadd, Option.map_some, Option.bind_some, runOps, Op.exec, hdel]
      rfl
    · rw [userStoreDelete_header hdel]
      change s₁.shm.header.listNextFree = _
      rw [hp.header]

theorem churn_run {n : Nat} (h : Sound s X [])
    (hfree : s.shm.header.listNextFree + n ≤ userStorePoolNodes) :
    ∃ s' X', runOps (churn n) s = some s' ∧ Sound s' X' [] ∧
      s'.shm.header.listNextFree = s.shm.header.listNextFree + n := by
  induction n generalizing s X with
  | zero => exact ⟨s, X, rfl, h, rfl⟩
  | succ n ih =>
    obtain ⟨s₁, X₁, hround, h₁, hnext₁⟩ := churn_round h (by omega)
    obtain ⟨s', X', hrun, h', hnext⟩ := ih h₁ (by omega)
    refine ⟨s', X', ?_, h', by omega⟩
    rw [churn, List.replicate_succ, List.flatten_cons, runOps_append, hround, Option.bind_some]
    exact hrun

end

/-- After 200999 users who were all deleted no user can be added. -/
theorem deleted_users_keep_room :
    ¬∀ ops s, runOps ops userStoreShmInit = some s →
      (liveNodes s.shm).length < userStorePoolNodes - 1 → ∀ csvLine,
        3 ≤ (csvFields csvLine).length → (csvFields csvLine).headD [] ≠ [] →
        (∀ a ∈ liveNodes s.shm, recordName s.shm a ≠ lineName csvLine) →
          ∃ s', userStoreAdd csvLine s = some (0, s') := by
  intro hall
  have hpool : userStorePoolNodes = 201000 := rfl
  have hone : userStoreShmInit.shm.header.listNextFree = 1 := rfl
  obtain ⟨s, X, hrun, hs, hnext⟩ := churn_run sound_init (n := userStorePoolNodes - 1) (by omega)
  have hlive : liveNodes s.shm = [] := hs.toStoreOK.liveNodes_eq
  have hfirst : (csvFields (ascii "amy,2,2001")).headD [] ≠ [] := by decide
  have hnew : ∀ a ∈ ([] : List Off), recordName s.shm a ≠ lineName (ascii "amy,2,2001") :=
    fun a ha => by cases ha
  obtain ⟨s', hadd⟩ := hall _ s hrun (by rw [hlive, hpool]; decide) (ascii "amy,2,2001")
    (by decide) hfirst (by rw [hlive]; exact hnew)
  have hroom := (hs.toStoreOK.add_iff.mp ⟨s', hadd⟩).2.1
  omega

end MiniWeb.UserStore
