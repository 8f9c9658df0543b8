import MiniWeb.SessionStore.History

/-!
# Live sessions are found

A removal empties the slot of the entry it removes, and a search ends at the first empty slot. So
a removal cuts off the sessions whose entries lie behind that slot on the way from their own hash
slots. As long as no removal does that to a live session, every live session is found.
-/

namespace MiniWeb.SessionStore

open Loop CStr

/-! ## The condition on a call -/

/-- Does slot `k` lie before the entry of `sid` on the way from its hash slot? -/
def liesBefore (t : Table) (k : Fin sessionHashSize) (sid : CStr) : Bool :=
  match findEntry sid t with
  | some (e, some _) => decide (dist (hashId sid) k < dist (hashId sid) e)
  | _ => false

/-- The entry a search ended at, if it found one, does not lie before the entry of a session of
`xs`. -/
def sparesEntry (t : Table) (xs : List Session) :
    Option (Fin sessionHashSize × Option (Fin maxSessions)) → Bool
  | some (k, some _) => xs.all fun x => !liesBefore t k x.sessionId
  | _ => true

def sparesDestroy (sid : CStr) (xs : List Session) (t : Table) : Bool :=
  sparesEntry t xs (findEntry sid t)

/-- Only a session found expired is removed. -/
def sparesLookup (sid : CStr) (now : Int) (xs : List Session) (t : Table) : Bool :=
  match findEntry sid t with
  | some (_, some i) =>
    !decide ((t.sessions i).expiresAt < now) || sparesDestroy sid xs t
  | _ => true

/-- No expired session is removed from before a session of `xs`. -/
def sparesSweep (now : Int) (xs : List Session) : List (Fin maxSessions) → Table → Bool
  | [], _ => true
  | i :: is, t =>
    (!expired now i t || sparesEntry t xs (findIndex i t)) &&
      (cleanupAt now i t).all (sparesSweep now xs is)

def sparesCleanup (now : Int) (xs : List Session) (t : Table) : Bool :=
  sparesSweep now xs (List.finRange maxSessions) t

/-- The call removes no entry from before the entry of a session that is live after it. -/
def Call.spares : Call → World → Bool
  | .create _ _ _ sweep resweep now, w =>
    sparesCleanup sweep (w.liveAt now) w.table &&
      (sessionCleanupExpired sweep w.table).all fun t =>
        (firstUnused t).isSome || sparesCleanup resweep (w.liveAt now) t
  | .lookup sid now, w => sparesLookup sid now (w.liveAt now) w.table
  | .destroy sid, w =>
    sparesDestroy sid ((w.liveAt w.clock).filter fun x => decide (x.sessionId ≠ sid)) w.table
  | .cleanup now, w => sparesCleanup now (w.liveAt now) w.table

/-! ## Found sessions -/

/-- The search for the session's id ends at an entry for it. -/
def Found (t : Table) (x : Session) : Prop :=
  ∃ k i, findEntry x.sessionId t = some (k, some i) ∧ t.sessions i = x

section

variable {t t' : Table} {issued : List CStr} {x y : Session} {i : Fin maxSessions}
  {k : Fin sessionHashSize} {sid : CStr} {now : Int}

theorem sessionLookup_found (h : Found t x) (hsid : x.sessionId ≠ []) (hnow : now ≤ x.expiresAt) :
    ∃ i, sessionLookup x.sessionId now t = some (some i, t) ∧ t.sessions i = x := by
  obtain ⟨k, i, hk, hi⟩ := h
  refine ⟨i, ?_, hi⟩
  rw [sessionLookup, if_neg hsid, hk, Option.bind_some]
  simp only [hi]
  rw [if_neg (by omega)]

/-- A change to a session that does not touch the search for `sid`. -/
theorem holds_update (h : t.holds sid i = false) (hy : y.used = true → y.sessionId ≠ sid) :
    (t.fill i y).holds sid = t.holds sid := by
  funext j
  by_cases hji : j = i
  · subst hji
    rw [h]
    apply Bool.eq_false_iff.mpr
    intro hj
    obtain ⟨hused, hid⟩ := Table.holds_iff.mp hj
    rw [Table.fill_sessions, Function.update_self] at hused hid
    exact hy hused hid
  · unfold Table.holds
    rw [Table.fill_sessions, Function.update_of_ne hji]

theorem Found.used (h : t.holds x.sessionId i = true) (ht : Tidy issued t)
    (hx : Found t x) : t.sessions i = x := by
  obtain ⟨k, j, hk, hj⟩ := hx
  obtain ⟨hjused, hjid⟩ := Table.holds_iff.mp (findEntry_some hk).2
  obtain ⟨hiused, hiid⟩ := Table.holds_iff.mp h
  rw [ht.distinct i j hiused hjused (hiid.trans hjid.symm), hj]

/-- Putting another session out of use, or filling one with another id. -/
theorem Found.fill (hx : Found t x) (ht : Tidy issued t) (hi : t.sessions i ≠ x)
    (hy : y.used = true → y.sessionId ≠ x.sessionId) : Found (t.fill i y) x := by
  have hold : t.holds x.sessionId i = false :=
    Bool.eq_false_iff.mpr fun h => hi (hx.used h ht)
  obtain ⟨k, j, hk, hj⟩ := hx
  refine ⟨k, j, ?_, ?_⟩
  · unfold findEntry
    rw [holds_update hold hy]
    exact hk
  · have hji : j ≠ i := by
      rintro rfl
      exact hi hj
    rw [Table.fill_sessions, Function.update_of_ne hji, hj]

theorem Found.unuse (hx : Found t x) (ht : Tidy issued t) (hi : t.sessions i ≠ x) :
    Found (t.unuse i) x :=
  hx.fill ht hi fun h => by cases h

/-- Emptying the slot of another session's entry that does not lie before the session's. -/
theorem Found.clear (hx : Found t x) (hk : t.hash k = some i) (hi : t.sessions i ≠ x)
    (hbefore : liesBefore t k x.sessionId = false) : Found (t.clear k) x := by
  obtain ⟨e, j, he, hj⟩ := hx
  refine ⟨e, j, ?_, hj⟩
  rw [liesBefore, he] at hbefore
  have hle : dist (hashId x.sessionId) e ≤ dist (hashId x.sessionId) k := by
    simpa using hbefore
  have hne : k ≠ e := by
    rintro rfl
    have hke := (findEntry_some he).1
    rw [hk] at hke
    cases hke
    exact hi hj
  apply probe_congr he
  · intro l hl
    have hlk : l ≠ k := by
      rintro rfl
      exact hne (dist_inj (show dist (hashId x.sessionId) l = dist (hashId x.sessionId) e by omega))
    rw [Table.clear_hash, Function.update_of_ne hlk]
  · intro _ _ _ _
    rfl

/-- Filling an empty slot. -/
theorem Found.link (hx : Found t x) (hk : t.hash k = none) (i : Fin maxSessions) :
    Found (t.link k i) x := by
  obtain ⟨e, j, he, hj⟩ := hx
  refine ⟨e, j, ?_, hj⟩
  obtain ⟨hr, -, hpass⟩ := probe_eq_some_iff.mp he
  have hne : ∀ l, dist (hashId x.sessionId) l ≤ dist (hashId x.sessionId) e → l ≠ k := by
    rintro l hl rfl
    rcases Nat.lt_or_ge (dist (hashId x.sessionId) l) (dist (hashId x.sessionId) e) with hlt | hge
    · obtain ⟨b, hb, -⟩ := hpass l hlt
      rw [hk] at hb
      cases hb
    · rw [dist_inj (show dist (hashId x.sessionId) l = dist (hashId x.sessionId) e by omega)] at hk
      rw [hk] at hr
      cases hr
  apply probe_congr he
  · intro l hl
    rw [Table.link_hash, Function.update_of_ne (hne l hl)]
  · intro _ _ _ _
    rfl

/-- A session with a new id, filled in and linked at the empty slot its search ends at. -/
theorem Found.new {token : CStr} {r : Option (Fin maxSessions)}
    (ht : Tidy issued (t.fill i x)) (hused : x.used = true) (hid : x.sessionId = token)
    (hk : findEmpty token (t.fill i x) = some (k, r)) : Found ((t.fill i x).link k i) x := by
  have hself : (t.fill i x).sessions i = x := by
    rw [Table.fill_sessions, Function.update_self]
  have hchain : Chained ((t.fill i x).link k i).hash (hashId token) k :=
    (Chained.of_probe hk).fill k i
  have hentry : ((t.fill i x).link k i).hash k = some i := by
    rw [Table.link_hash, Function.update_self]
  have hholds : ((t.fill i x).link k i).holds token i = true := by
    rw [Table.holds_iff, Table.link_sessions, hself]
    exact ⟨hused, hid⟩
  obtain ⟨j, b, hprobe, -, hb, -⟩ := hchain.probe hentry hholds
  rw [Table.holds_iff, Table.link_sessions] at hb
  have hbi : b = i := by
    apply ht.distinct b i hb.1
    · rw [hself]
      exact hused
    · rw [hb.2, hself, hid]
  rw [hbi] at hprobe
  exact ⟨j, i, hid ▸ hprobe, hself⟩

end

/-! ## Tables -/

/-- The table is tidy and the sessions `xs` are found in it. -/
structure Keeps (issued : List CStr) (xs : List Session) (t : Table) : Prop where
  tidy : Tidy issued t
  found : ∀ x ∈ xs, Found t x

section

variable {t t' : Table} {issued : List CStr} {xs ys : List Session} {x : Session}
  {i : Fin maxSessions} {k : Fin sessionHashSize} {sid : CStr} {now : Int}

theorem Keeps.mono (h : Keeps issued xs t) (hsub : ∀ x ∈ ys, x ∈ xs) : Keeps issued ys t :=
  ⟨h.tidy, fun x hx => h.found x (hsub x hx)⟩

theorem Keeps.unuse (h : Keeps issued xs t) (hi : ∀ x ∈ xs, t.sessions i ≠ x) :
    Keeps issued xs (t.unuse i) :=
  ⟨(weakens_unuse t i).tidy h.tidy, fun x hx => (h.found x hx).unuse h.tidy (hi x hx)⟩

theorem Keeps.clear (h : Keeps issued xs t) (hk : t.hash k = some i)
    (hi : ∀ x ∈ xs, t.sessions i ≠ x) (hspares : sparesEntry t xs (some (k, some i)) = true) :
    Keeps issued xs (t.clear k) := by
  have htidy : Weakens t (t.clear k) := fun _ _ => rfl
  refine ⟨htidy.tidy h.tidy, fun x hx => ?_⟩
  apply (h.found x hx).clear hk (hi x hx)
  simpa using List.all_eq_true.mp hspares x hx

/-- A session found at its slot is removed. -/
theorem Keeps.remove (h : Keeps issued xs t) (hk : t.hash k = some i)
    (hi : ∀ x ∈ xs, t.sessions i ≠ x) (hspares : sparesEntry t xs (some (k, some i)) = true) :
    Keeps issued xs ((t.clear k).unuse i) :=
  (h.clear hk hi hspares).unuse hi

theorem Keeps.destroy (h : Keeps issued xs t) (hspares : sparesDestroy sid xs t = true)
    (hne : ∀ k i, findEntry sid t = some (k, some i) → ∀ x ∈ xs, t.sessions i ≠ x)
    (hd : sessionDestroy sid t = some t') : Keeps issued xs t' := by
  rcases sessionDestroy_cases hd with ⟨k, -, rfl⟩ | ⟨k, i, hk, rfl⟩
  · exact h
  · rw [sparesDestroy, hk] at hspares
    exact h.remove (findEntry_some hk).1 (hne k i hk) hspares

theorem Keeps.lookup {r : Option (Fin maxSessions)} (h : Keeps issued xs t)
    (hxs : ∀ x ∈ xs, now ≤ x.expiresAt) (hspares : sparesLookup sid now xs t = true)
    (hl : sessionLookup sid now t = some (r, t')) : Keeps issued xs t' := by
  rcases sessionLookup_cases hl with
    ⟨-, rfl, -⟩ | ⟨k, i, hk, ⟨-, -, rfl⟩ | ⟨hexp, -, hd⟩⟩
  · exact h
  · exact h
  · have hdestroy : sparesDestroy sid xs t = true := by
      rw [sparesLookup, hk] at hspares
      simpa [hexp] using hspares
    refine h.destroy hdestroy (fun k' i' hk' x hx h0 => ?_) hd
    rw [hk] at hk'
    cases hk'
    have := hxs x hx
    rw [h0] at hexp
    omega

theorem Keeps.pass (h : Keeps issued xs t) (hxs : ∀ x ∈ xs, now ≤ x.expiresAt)
    (hspares : (!expired now i t || sparesEntry t xs (findIndex i t)) = true)
    (hc : cleanupAt now i t = some t') : Keeps issued xs t' := by
  rcases cleanupAt_cases hc with ⟨-, rfl⟩ | ⟨hexp, hremoved⟩
  · exact h
  · have hne : ∀ x ∈ xs, t.sessions i ≠ x := by
      intro x hx h0
      have := hxs x hx
      simp only [expired, h0, Bool.and_eq_true, decide_eq_true_eq] at hexp
      omega
    rcases hremoved with ⟨k, -, rfl⟩ | ⟨k, j, hk, rfl⟩
    · exact h.unuse hne
    · rw [hexp, hk] at hspares
      exact h.remove (findIndex_some hk) hne hspares

theorem Keeps.sweep {is : List (Fin maxSessions)} (h : Keeps issued xs t)
    (hxs : ∀ x ∈ xs, now ≤ x.expiresAt) (hspares : sparesSweep now xs is t = true)
    (hc : cleanupFrom now is t = some t') : Keeps issued xs t' := by
  induction is generalizing t with
  | nil =>
    cases hc
    exact h
  | cons i is ih =>
    obtain ⟨t₁, ht₁, hrest⟩ := Option.bind_eq_some_iff.mp hc
    obtain ⟨hi, his⟩ := Bool.and_eq_true_iff.mp hspares
    rw [ht₁] at his
    exact ih (h.pass hxs hi ht₁) his hrest

theorem Keeps.cleanup (h : Keeps issued xs t) (hxs : ∀ x ∈ xs, now ≤ x.expiresAt)
    (hspares : sparesCleanup now xs t = true) (hc : sessionCleanupExpired now t = some t') :
    Keeps issued xs t' := by
  unfold sessionCleanupExpired at hc
  unfold sparesCleanup at hspares
  exact h.sweep hxs hspares hc

theorem Keeps.freeSlot {sweep resweep : Int} {slot : Option (Fin maxSessions)}
    (h : Keeps issued xs t) (hxs : ∀ x ∈ xs, sweep ≤ x.expiresAt ∧ resweep ≤ x.expiresAt)
    (hspares : sparesCleanup sweep xs t = true)
    (hspares' : (sessionCleanupExpired sweep t).all (fun t =>
      (firstUnused t).isSome || sparesCleanup resweep xs t) = true)
    (hf : findFreeSlot sweep resweep t = some (slot, t')) : Keeps issued xs t' := by
  obtain ⟨t₁, ht₁, -, hcases⟩ := findFreeSlot_cases hf
  have h₁ := h.cleanup (fun x hx => (hxs x hx).1) hspares ht₁
  rcases hcases with ⟨rfl, -⟩ | ⟨hfull, ht'⟩
  · exact h₁
  · rw [ht₁] at hspares'
    refine h₁.cleanup (fun x hx => (hxs x hx).2) ?_ ht'
    simpa [hfull] using hspares'

/-- A new session is found, and the others stay found. -/
theorem Keeps.insert {slot : Fin maxSessions} {token username role id : CStr}
    (h : Keeps issued xs t) (hissued : ∀ x ∈ xs, x.sessionId ∈ issued)
    (hunused : (t.sessions slot).used = false) (hfresh : id ∉ issued)
    (hcut : cut sessionIdLen token = token)
    (hi : insertSession slot token username role now t = some (id, t')) :
    id = token ∧
      Keeps (id :: issued) (newSession token username role now :: xs) t' := by
  obtain ⟨k, r, hk, hid, rfl⟩ := insertSession_cases hi
  rw [hcut] at hid
  subst hid
  refine ⟨rfl, ?_⟩
  have hsid : (newSession id username role now).sessionId = id := hcut
  have htidy : Tidy (id :: issued) (t.fill slot (newSession id username role now)) := by
    have := h.tidy.fill (x := newSession id username role now) (by rwa [hsid]) slot
    rwa [hsid] at this
  have hlink : Weakens (t.fill slot (newSession id username role now))
      ((t.fill slot (newSession id username role now)).link k slot) := fun _ _ => rfl
  have hempty : (t.fill slot (newSession id username role now)).hash k = none := by
    by_contra hne
    obtain ⟨idx, hidx⟩ := Option.ne_none_iff_exists'.mp hne
    exact (probe_eq_some_iff.mp hk).2.1 ⟨idx, hidx, rfl⟩
  refine ⟨hlink.tidy htidy, fun x hmem => ?_⟩
  rcases List.mem_cons.mp hmem with rfl | hx
  · exact Found.new htidy rfl hsid hk
  · have hother : t.sessions slot ≠ x := by
      obtain ⟨l, j, hl, hj⟩ := h.found x hx
      have hused := (Table.holds_iff.mp (findEntry_some hl).2).1
      intro h0
      rw [hj, ← h0, hunused] at hused
      cases hused
    have hne : (newSession id username role now).sessionId ≠ x.sessionId := by
      rw [hsid]
      rintro rfl
      exact hfresh (hissued x hx)
    exact ((h.found x hx).fill h.tidy hother fun _ => hne).link hempty slot

end

/-! ## Runs -/

/-- What holds in every state of a run whose calls cut off no live session. -/
structure AllFound (w : World) : Prop where
  keeps : Keeps w.issued (w.liveAt w.clock) w.table
  issued : ∀ x ∈ w.live, x.sessionId ∈ w.issued
  nonempty : ∀ sid ∈ w.issued, sid ≠ []

section

variable {w w' : World} {now : Int}

theorem World.mem_liveAt {x : Session} : x ∈ w.liveAt now ↔ x ∈ w.live ∧ now ≤ x.expiresAt := by
  simp [World.liveAt]

/-- Sessions do not come back to life. -/
theorem AllFound.later (h : AllFound w) {now : Int} (hnow : w.clock ≤ now) :
    Keeps w.issued (w.liveAt now) w.table := by
  apply h.keeps.mono
  intro x hx
  obtain ⟨hlive, hexp⟩ := World.mem_liveAt.mp hx
  exact World.mem_liveAt.mpr ⟨hlive, by omega⟩

theorem allFound_start (clock : Int) : AllFound (World.start clock) := by
  have htidy : Tidy [] sessionInit := by
    constructor
    · intro i hi
      cases hi
    · intro i j hi
      cases hi
  refine ⟨⟨htidy, fun x hx => ?_⟩, fun x hx => ?_, fun sid hsid => ?_⟩
  · cases hx
  · cases hx
  · cases hsid

theorem AllFound.step {call : Call} (h : AllFound w)
    (hcall : (call.allowed w && call.spares w) = true) (hstep : call.step w = some w') :
    AllFound w' := by
  obtain ⟨hallowed, hspares⟩ := Bool.and_eq_true_iff.mp hcall
  unfold Call.step at hstep
  unfold Call.spares at hspares
  cases call with
  | lookup sid now =>
    obtain ⟨⟨r, t⟩, ht, rfl⟩ := Option.map_eq_some_iff.mp hstep
    have hnow : w.clock ≤ now := of_decide_eq_true hallowed
    exact ⟨(h.later hnow).lookup (fun x hx => (World.mem_liveAt.mp hx).2) hspares ht,
      h.issued, h.nonempty⟩
  | cleanup now =>
    obtain ⟨t, ht, rfl⟩ := Option.map_eq_some_iff.mp hstep
    have hnow : w.clock ≤ now := of_decide_eq_true hallowed
    exact ⟨(h.later hnow).cleanup (fun x hx => (World.mem_liveAt.mp hx).2) hspares ht,
      h.issued, h.nonempty⟩
  | destroy sid =>
    obtain ⟨t, ht, rfl⟩ := Option.map_eq_some_iff.mp hstep
    have hrest : Keeps w.issued
        ((w.liveAt w.clock).filter fun x => decide (x.sessionId ≠ sid)) t := by
      refine (h.keeps.mono fun x hx => (List.mem_filter.mp hx).1).destroy hspares ?_ ht
      intro k i hk x hx h0
      have hid := (Table.holds_iff.mp (findEntry_some hk).2).2
      rw [h0] at hid
      exact of_decide_eq_true (List.mem_filter.mp hx).2 hid
    refine ⟨hrest.mono fun x hx => ?_, fun x hx => h.issued x (List.mem_filter.mp hx).1,
      h.nonempty⟩
    obtain ⟨hx, hexp⟩ := World.mem_liveAt.mp hx
    obtain ⟨hlive, hne⟩ := List.mem_filter.mp hx
    exact List.mem_filter.mpr ⟨World.mem_liveAt.mpr ⟨hlive, hexp⟩, hne⟩
  | create randomBytes username role sweep resweep now =>
    obtain ⟨⟨r, t⟩, ht, hw'⟩ := Option.map_eq_some_iff.mp hstep
    obtain ⟨hfresh, htimes⟩ := Bool.and_eq_true_iff.mp hallowed
    have hfresh := of_decide_eq_true hfresh
    obtain ⟨hsweep, hresweep, hnow⟩ := of_decide_eq_true htimes
    obtain ⟨hfirst, hsecond⟩ := Bool.and_eq_true_iff.mp hspares
    have hlater := h.later (show w.clock ≤ now by omega)
    have htimes' : ∀ x ∈ w.liveAt now, sweep ≤ x.expiresAt ∧ resweep ≤ x.expiresAt := by
      intro x hx
      have := (World.mem_liveAt.mp hx).2
      omega
    rcases sessionCreate_cases ht with ⟨hfull, rfl⟩ | ⟨slot, t₁, id, hfree, hins, rfl⟩
    · subst hw'
      exact ⟨hlater.freeSlot htimes' hfirst hsecond hfull, h.issued, h.nonempty⟩
    · subst hw'
      have h₁ := hlater.freeSlot htimes' hfirst hsecond hfree
      obtain ⟨hid, hself, -⟩ := insertSession_token hins
      rw [← hid] at hfresh hins
      have hnew := (h₁.insert (fun x hx => h.issued x (World.mem_liveAt.mp hx).1)
        (findFreeSlot_unused hfree) hfresh hself hins).2
      refine ⟨hnew.mono fun x hx => ?_, fun x hx => ?_, fun sid hsid => ?_⟩
      · obtain ⟨hlive, hexp⟩ := World.mem_liveAt.mp hx
        rcases List.mem_cons.mp hlive with rfl | hlive
        · exact List.mem_cons_self
        · exact List.mem_cons_of_mem _ (World.mem_liveAt.mpr ⟨hlive, hexp⟩)
      · rcases List.mem_cons.mp hx with rfl | hx
        · exact List.mem_cons.mpr (.inl hself)
        · exact List.mem_cons_of_mem _ (h.issued x hx)
      · rcases List.mem_cons.mp hsid with rfl | hsid
        · exact hid ▸ hexEncode_ne_nil randomBytes
        · exact h.nonempty sid hsid

/-- **Live sessions are found.** In every state of a run whose calls remove no entry from before
the entry of a live session, a lookup returns every session that is neither destroyed nor
expired. -/
theorem runCalls_lookup {calls : List Call} {clock : Int}
    (hcalls : along (fun call w => call.allowed w && call.spares w) calls (World.start clock)
      = true)
    (hrun : runCalls calls (World.start clock) = some w) {x : Session} (hx : x ∈ w.live)
    (hnow : w.clock ≤ now) (hexp : now ≤ x.expiresAt) :
    ∃ i, sessionLookup x.sessionId now w.table = some (some i, w.table) ∧
      w.table.sessions i = x := by
  have h : AllFound w :=
    runCalls_rule (fun _ _ _ hw hp hs => hw.step hp hs) (allFound_start clock) hcalls hrun
  apply sessionLookup_found _ (h.nonempty _ (h.issued x hx)) hexp
  exact (h.later hnow).found x (World.mem_liveAt.mpr ⟨hx, hexp⟩)

end

/-! ## Colliding tokens -/

/-- Random bytes that are zero but for one. -/
def oneByte (j : Fin 32) : Vector UInt8 32 := .ofFn fun i => if i = j then 1 else 0

def tokenOf (j : Fin 32) : CStr := hexEncode (oneByte j).toList

def createWith (j : Fin 32) : Call := .create (oneByte j) (ascii "alice") (ascii "user") 0 0 0

/-- The tokens of bytes 0 and 4 have one hash slot. When the first session is destroyed first,
both are gone. -/
theorem lookup_after_collision :
    ∃ w, runCalls [createWith 0, createWith 4, .destroy (tokenOf 0)] (World.start 0) = some w ∧
      along Call.allowed [createWith 0, createWith 4, .destroy (tokenOf 0)] (World.start 0) = true ∧
      ∃ x ∈ w.live, w.clock ≤ x.expiresAt ∧
        (sessionLookup x.sessionId w.clock w.table).map Prod.fst = some none :=
  ⟨(runCalls [createWith 0, createWith 4, .destroy (tokenOf 0)] (World.start 0)).get
    (by decide +kernel), (Option.some_get _).symm, by decide +kernel, by decide +kernel⟩

/-- When the second one is destroyed first, the first is still found. -/
theorem runCalls_lookup_example :
    ∃ w x, runCalls [createWith 0, createWith 4, .destroy (tokenOf 4)] (World.start 0) = some w ∧
      x.sessionId = tokenOf 0 ∧ ∃ i, sessionLookup x.sessionId 10 w.table = some (some i, w.table) ∧
        w.table.sessions i = x :=
  ⟨(runCalls [createWith 0, createWith 4, .destroy (tokenOf 4)] (World.start 0)).get
    (by decide +kernel), newSession (tokenOf 0) (ascii "alice") (ascii "user") 0,
    (Option.some_get _).symm, by decide +kernel,
    runCalls_lookup (by decide +kernel) (Option.some_get _).symm (by decide +kernel)
      (by decide +kernel) (by decide +kernel)⟩

end MiniWeb.SessionStore
