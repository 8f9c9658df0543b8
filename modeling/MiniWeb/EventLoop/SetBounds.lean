import MiniWeb.EventLoop.Select

/-!
# The descriptors handed to `fd_set`

An `fd_set` has room for the descriptors below `FD_SETSIZE`. Here `accept` answers any descriptor
that is not open, and a run records what it hands to `FD_SET`, `FD_CLR` and `FD_ISSET`. The table
has as many slots as the set has bits, but a slot says nothing about the number of its descriptor:
the run stays inside the set as long as every descriptor that gets a slot is small enough.
-/

namespace MiniWeb.EventLoop

open Handles Table FrontEnd Runs

namespace SelectLoop

variable (s : SelectLoop)

/-- `listen_fd` is ready: `accept` answers any descriptor that is not open. -/
def acceptAny (a : Answers) : Option SelectLoop :=
  match a.accepted with
  | none => some s
  | some connFd =>
    if connFd ∈ s.descriptors.live then none
    else
      let s := { s with descriptors := s.descriptors.perform (.acquire connFd) }
      match Slots.firstFree selectMaxConns fun i => (s.connections i).fd.isSome with
      | none => some (s.close connFd)
      | some slot =>
        let s := s.setConnection slot ⟨some connFd, [], 0, a.now⟩
        some { s with
          masterSet := insert connFd s.masterSet
          maxFd := if s.maxFd < connFd then connFd else s.maxFd }

/-- The body of the scan for a descriptor in `read_set`. -/
def handleAny (fd : Nat) (a : Answers) : Option SelectLoop :=
  if fd = s.listenFd then s.acceptAny a else s.handleFd fd a

def stepAny : SelectEvent → SelectLoop → Option SelectLoop
  | .turn a, s =>
    match s.scan with
    | none => none
    | some (fd, readSet) =>
      if fd ≤ s.maxFd then
        let s := { s with scan := some (fd + 1, readSet) }
        if fd ∈ readSet then { s with visited := s.visited ++ [fd] }.handleAny fd a else some s
      else some { s with scan := none }
  | e, s => step e s

/-! ## What is handed to the macros -/

/-- `FD_ISSET` in `while (max_fd > listen_fd && !FD_ISSET(max_fd, &master_set)) max_fd--;` -/
def lowerArgs (listenFd : Nat) (masterSet : Finset Nat) : Nat → List Nat
  | 0 => []
  | maxFd + 1 =>
    if listenFd < maxFd + 1 then
      (maxFd + 1) :: if maxFd + 1 ∉ masterSet then lowerArgs listenFd masterSet maxFd else []
    else []

/-- `FD_CLR`, and the loop that lowers `max_fd`. -/
def closeArgs (fd : Nat) : List Nat :=
  fd :: if fd = s.maxFd then lowerArgs s.listenFd (s.masterSet.erase fd) s.maxFd else []

/-- `FD_SET` for a client that gets a slot. -/
def acceptArgs (a : Answers) : List Nat :=
  match a.accepted with
  | none => []
  | some connFd =>
    match Slots.firstFree selectMaxConns fun i => (s.connections i).fd.isSome with
    | none => []
    | some _ => [connFd]

/-- Data from a client: the set is used where the connection is closed. -/
def recvArgs (slot fd : Nat) (a : Answers) : List Nat :=
  if a.bytes = [] then s.closeArgs fd
  else
    match selectRead ((s.connections slot).recvBuf ++ a.bytes) with
    | .request _ =>
      if !a.sent then s.closeArgs fd
      else if maxKeepAliveRequests ≤ (s.connections slot).requestCount + 1 then s.closeArgs fd
      else []
    | _ => s.closeArgs fd

def handleArgs (fd : Nat) (a : Answers) : List Nat :=
  if fd = s.listenFd then s.acceptArgs a
  else
    match s.slotOf fd with
    | some slot => s.recvArgs slot fd a
    | none => [fd]

def closeIfArgs (p : Connection → Bool) (i : Nat) : List Nat :=
  match (s.connections i).fd with
  | some fd => if p (s.connections i) then s.closeArgs fd else []
  | none => []

/-- The idle check over the table. -/
def sweepArgs (p : Connection → Bool) : List Nat → SelectLoop → List Nat
  | [], _ => []
  | i :: rest, s => s.closeIfArgs p i ++ sweepArgs p rest (s.closeIf p i)

/-- Behind the loop: `FD_CLR` for every connection, then for the listening socket. -/
def finishArgs : List Nat :=
  (List.range selectMaxConns).filterMap (fun i => (s.connections i).fd) ++ [s.listenFd]

/-- What an event hands to the macros. -/
def setArgs : SelectEvent → SelectLoop → List Nat
  | .ready _, _ => []
  | .turn a, s =>
    match s.scan with
    | none => []
    | some (fd, readSet) =>
      if fd ≤ s.maxFd then
        let s := { s with scan := some (fd + 1, readSet) }
        fd :: if fd ∈ readSet then { s with visited := s.visited ++ [fd] }.handleArgs fd a else []
      else []
  | .timeout now, s => sweepArgs (Connection.idle now) (List.range selectMaxConns) s
  | .shutdown, s => s.finishArgs

end SelectLoop

namespace SelectLoop

/-- `accept` answers a descriptor that is too large for the set, and there is a free slot. -/
def takesLarge (s : SelectLoop) (a : Answers) : Bool :=
  a.accepted.any fun connFd => decide (connFd ∉ s.descriptors.live ∧ fdSetSize ≤ connFd) &&
    (Slots.firstFree selectMaxConns fun i => (s.connections i).fd.isSome).isSome

end SelectLoop

/-- A loop and what it has handed to the macros. -/
structure SetTrace where
  loop : SelectLoop
  args : List Nat

namespace SetTrace

/-- Before the first `select`: `FD_SET(listen_fd, &master_set)`. -/
def start (listenFd : Nat) : SetTrace := ⟨.start listenFd, [listenFd]⟩

def step (e : SelectEvent) (t : SetTrace) : Option SetTrace :=
  (SelectLoop.stepAny e t.loop).map fun s => ⟨s, t.args ++ SelectLoop.setArgs e t.loop⟩

/-- Every descriptor handed to the macros is below `FD_SETSIZE`. -/
def InSet (t : SetTrace) : Prop := ∀ fd ∈ t.args, fd < fdSetSize

/-- `accept` does not answer a descriptor that is too large for the set and gets a slot. -/
def fits (e : SelectEvent) (t : SetTrace) : Bool :=
  match e, t.loop.scan with
  | .turn a, some (fd, readSet) =>
    !(decide (fd ≤ t.loop.maxFd ∧ fd ∈ readSet ∧ fd = t.loop.listenFd) && t.loop.takesLarge a)
  | _, _ => true

end SetTrace

open SelectLoop

variable {s s' s'' : SelectLoop} {slot fd n : Nat} {a : Answers}

/-- The bounded `accept` is the unbounded one where the descriptor fits the set. -/
theorem acceptClient_eq (a : Answers) : s.acceptClient a =
    if a.accepted.any (fun connFd => fdSetSize ≤ connFd) then none else s.acceptAny a := by
  unfold acceptClient acceptAny
  cases a.accepted with
  | none => rfl
  | some connFd =>
    simp only [Option.any_some, decide_eq_true_eq]
    generalize Slots.firstFree selectMaxConns (fun i => (s.connections i).fd.isSome) = free
    by_cases hlarge : fdSetSize ≤ connFd
    · rw [if_pos hlarge, if_pos (Or.inr hlarge)]
    · rw [if_neg hlarge]
      by_cases hlive : connFd ∈ s.descriptors.live
      · rw [if_pos hlive, if_pos (Or.inl hlive)]
      · rw [if_neg (not_or.mpr ⟨hlive, hlarge⟩)]
        cases free with
        | none => exact (if_neg hlive).symm
        | some slot => exact (if_neg hlive).symm

/-! ## Events that take nothing new -/

/-- No descriptor is new, and `max_fd` does not rise. -/
structure Shrinks (s s' : SelectLoop) : Prop where
  listenFd : s'.listenFd = s.listenFd
  maxFd : s'.maxFd ≤ s.maxFd
  clients : ∀ i fd, fds s'.connections i = some fd → fds s.connections i = some fd

theorem Shrinks.refl (s : SelectLoop) : Shrinks s s := ⟨rfl, Nat.le_refl _, fun _ _ h => h⟩

theorem Shrinks.trans (h : Shrinks s s') (h' : Shrinks s' s'') : Shrinks s s'' :=
  ⟨h'.listenFd.trans h.listenFd, h'.maxFd.trans h.maxFd,
    fun i fd hfd => h.clients i fd (h'.clients i fd hfd)⟩

theorem lowerMaxFd_le (listenFd : Nat) (masterSet : Finset Nat) (maxFd : Nat) :
    lowerMaxFd listenFd masterSet maxFd ≤ maxFd := by
  induction maxFd with
  | zero => exact Nat.le_refl _
  | succ maxFd ih =>
    unfold lowerMaxFd
    split
    · omega
    · exact Nat.le_refl _

theorem shrinks_setConnection {c : Connection}
    (hc : ∀ fd, c.fd = some fd → fds s.connections slot = some fd) :
    Shrinks s (s.setConnection slot c) := by
  refine ⟨rfl, Nat.le_refl _, fun i fd hfd => ?_⟩
  rw [setConnection, fds_update] at hfd
  by_cases hi : i = slot
  · subst hi
    rw [Function.update_self] at hfd
    exact hc fd hfd
  · rwa [Function.update_of_ne hi] at hfd

theorem shrinks_closeClient : Shrinks s (s.closeClient slot fd) := by
  have hset : Shrinks s (s.setConnection slot { s.connections slot with fd := none }) :=
    shrinks_setConnection fun _ h => by cases h
  refine ⟨rfl, ?_, hset.clients⟩
  show (if fd = s.maxFd then lowerMaxFd s.listenFd (s.masterSet.erase fd) s.maxFd else s.maxFd) ≤ _
  split
  · exact lowerMaxFd_le ..
  · exact Nat.le_refl _

/-- A connection that is only written keeps its descriptor. -/
theorem Shrinks.write {t : SelectLoop} {c : Connection}
    (h : Shrinks s t ∧ fds t.connections slot = fds s.connections slot)
    (hc : c.fd = fds s.connections slot) :
    Shrinks s (t.setConnection slot c) ∧
      fds (t.setConnection slot c).connections slot = fds s.connections slot := by
  refine ⟨h.1.trans (shrinks_setConnection fun fd hfd => ?_), ?_⟩
  · rw [h.2, ← hc, hfd]
  · rw [setConnection, fds_update, Function.update_self, hc]

theorem shrinks_recvClient : Shrinks s (s.recvClient slot fd a) := by
  have huse : Shrinks s (s.use fd) ∧ fds (s.use fd).connections slot = fds s.connections slot :=
    ⟨⟨rfl, Nat.le_refl _, fun _ _ h => h⟩, rfl⟩
  unfold recvClient
  by_cases hbytes : a.bytes = []
  · simp only [if_pos hbytes]
    exact huse.1.trans shrinks_closeClient
  · simp only [if_neg hbytes]
    have hread := Shrinks.write huse (c := { (s.use fd).connections slot with
      recvBuf := ((s.use fd).connections slot).recvBuf ++ a.bytes, lastActivity := a.now }) rfl
    generalize ((s.use fd).setConnection slot { (s.use fd).connections slot with
      recvBuf := ((s.use fd).connections slot).recvBuf ++ a.bytes, lastActivity := a.now }) = t
      at hread
    have hsent : Shrinks s (t.use fd) ∧ fds (t.use fd).connections slot = fds s.connections slot :=
      ⟨⟨hread.1.listenFd, hread.1.maxFd, hread.1.clients⟩, hread.2⟩
    split
    · split
      · exact hsent.1.trans shrinks_closeClient
      · have hcount := Shrinks.write hsent (c := { (s.use fd).connections slot with
          recvBuf := ((s.use fd).connections slot).recvBuf ++ a.bytes
          requestCount := ((s.use fd).connections slot).requestCount + 1
          lastActivity := a.now }) rfl
        split
        · exact hcount.1.trans shrinks_closeClient
        · refine (Shrinks.write hcount ?_).1
          rfl
    · exact hsent.1.trans shrinks_closeClient

theorem shrinks_closeIf (p : Connection → Bool) (i : Nat) : Shrinks s (s.closeIf p i) := by
  unfold closeIf
  split
  · split
    · exact shrinks_closeClient
    · exact .refl s
  · exact .refl s

theorem shrinks_sweep (p : Connection → Bool) : Shrinks s (s.sweep p) := by
  unfold sweep
  generalize List.range selectMaxConns = slots
  induction slots generalizing s with
  | nil => exact .refl s
  | cons i rest ih => exact (shrinks_closeIf p i).trans ih

theorem shrinks_closeOwn : Shrinks s s.closeOwn := ⟨rfl, Nat.le_refl _, fun _ _ h => h⟩

theorem shrinks_finish : Shrinks s s.finish :=
  (shrinks_sweep fun _ => true).trans shrinks_closeOwn

/-! ## What a bounded state hands over -/

/-- All descriptors the loop knows are below `n`. -/
structure Below (n : Nat) (s : SelectLoop) : Prop where
  listenFd : s.listenFd < n
  maxFd : s.maxFd < n
  clients : ∀ i fd, fds s.connections i = some fd → fd < n

theorem Below.shrinks (h : Below n s) (hs : Shrinks s s') : Below n s' :=
  ⟨hs.listenFd.symm ▸ h.listenFd, hs.maxFd.trans_lt h.maxFd,
    fun i fd hfd => h.clients i fd (hs.clients i fd hfd)⟩

theorem lowerArgs_le {listenFd : Nat} {masterSet : Finset Nat} {maxFd : Nat} :
    ∀ x ∈ lowerArgs listenFd masterSet maxFd, x ≤ maxFd := by
  induction maxFd with
  | zero => intro x hx; cases hx
  | succ maxFd ih =>
    intro x hx
    unfold lowerArgs at hx
    split at hx
    · obtain rfl | hx := List.mem_cons.mp hx
      · exact Nat.le_refl _
      · split at hx
        · exact (ih x hx).trans (Nat.le_succ _)
        · cases hx
    · cases hx

theorem Below.closeArgs (h : Below n s) (hfd : fd < n) : ∀ x ∈ s.closeArgs fd, x < n := by
  intro x hx
  obtain rfl | hx := List.mem_cons.mp hx
  · exact hfd
  · split at hx
    · exact (lowerArgs_le x hx).trans_lt h.maxFd
    · cases hx

theorem Below.recvArgs (h : Below n s) (hfd : fd < n) : ∀ x ∈ s.recvArgs slot fd a, x < n := by
  unfold SelectLoop.recvArgs
  split
  · exact h.closeArgs hfd
  · split
    · split
      · exact h.closeArgs hfd
      · split
        · exact h.closeArgs hfd
        · intro x hx
          cases hx
    · exact h.closeArgs hfd

theorem Below.sweepArgs (h : Below n s) (p : Connection → Bool) (slots : List Nat) :
    ∀ x ∈ SelectLoop.sweepArgs p slots s, x < n := by
  induction slots generalizing s with
  | nil => intro x hx; cases hx
  | cons i rest ih =>
    intro x hx
    obtain hx | hx := List.mem_append.mp hx
    · unfold SelectLoop.closeIfArgs at hx
      split at hx
      next fd hfd =>
        split at hx
        · exact h.closeArgs (h.clients i fd hfd) x hx
        · cases hx
      next => cases hx
    · exact ih (h.shrinks (shrinks_closeIf p i)) x hx

theorem Below.finishArgs (h : Below n s) : ∀ x ∈ s.finishArgs, x < n := by
  intro x hx
  obtain hx | hx := List.mem_append.mp hx
  · obtain ⟨i, -, hfd⟩ := List.mem_filterMap.mp hx
    exact h.clients i x hfd
  · rw [List.mem_singleton.mp hx]
    exact h.listenFd

/-! ## A new client -/

/-- A client that gets a slot has a descriptor that fits the set. -/
theorem Below.acceptAny (h : Below fdSetSize s) (hlarge : s.takesLarge a = false)
    (hstep : s.acceptAny a = some s') :
    Below fdSetSize s' ∧ ∀ x ∈ s.acceptArgs a, x < fdSetSize := by
  unfold SelectLoop.acceptAny at hstep
  unfold takesLarge at hlarge
  unfold acceptArgs
  cases haccepted : a.accepted with
  | none =>
    rw [haccepted] at hstep
    cases hstep
    exact ⟨h, fun x hx => by cases hx⟩
  | some connFd =>
    simp only [haccepted] at hstep
    simp only [haccepted, Option.any_some] at hlarge
    split at hstep
    · cases hstep
    next hlive =>
      split at hstep
      next hfull =>
        cases hstep
        exact ⟨⟨h.listenFd, h.maxFd, h.clients⟩, fun x hx => by cases hx⟩
      next slot hfree =>
        cases hstep
        rw [hfree, Option.isSome_some, Bool.and_true, decide_eq_false_iff_not, not_and] at hlarge
        have hlt : connFd < fdSetSize := Nat.lt_of_not_le (hlarge hlive)
        refine ⟨⟨h.listenFd, ?_, fun i fd hfd => ?_⟩, fun x hx => ?_⟩
        · show (if s.maxFd < connFd then connFd else s.maxFd) < fdSetSize
          split
          · exact hlt
          · exact h.maxFd
        · have hfd : fds (Function.update s.connections slot ⟨some connFd, [], 0, a.now⟩) i = some fd :=
            hfd
          rw [fds_update] at hfd
          by_cases hi : i = slot
          · subst hi
            rw [Function.update_self] at hfd
            cases hfd
            exact hlt
          · rw [Function.update_of_ne hi] at hfd
            exact h.clients i fd hfd
        · rw [List.mem_singleton.mp hx]
          exact hlt

/-- A descriptor that is too large is handed to `FD_SET`. -/
theorem acceptAny_large (hlarge : s.takesLarge a = true) :
    (∃ s', s.acceptAny a = some s') ∧ ∃ x ∈ s.acceptArgs a, fdSetSize ≤ x := by
  unfold takesLarge at hlarge
  unfold SelectLoop.acceptAny acceptArgs
  cases haccepted : a.accepted with
  | none =>
    rw [haccepted] at hlarge
    cases hlarge
  | some connFd =>
    rw [haccepted, Option.any_some, Bool.and_eq_true, decide_eq_true_eq] at hlarge
    obtain ⟨⟨hlive, hsize⟩, hfree⟩ := hlarge
    obtain ⟨slot, hfree⟩ := Option.isSome_iff_exists.mp hfree
    simp only [if_neg hlive, hfree]
    exact ⟨⟨_, rfl⟩, connFd, List.mem_singleton_self _, hsize⟩

/-- A ready descriptor that is not the listening socket. -/
theorem Below.handleFd (h : Below n s) (hfd : fd < n) (hclient : fd ≠ s.listenFd)
    (hstep : s.handleFd fd a = some s') : Below n s' ∧ ∀ x ∈ s.handleArgs fd a, x < n := by
  unfold SelectLoop.handleFd at hstep
  unfold handleArgs
  rw [if_neg hclient] at hstep ⊢
  cases hslot : s.slotOf fd with
  | some slot =>
    simp only [hslot] at hstep ⊢
    cases hstep
    exact ⟨h.shrinks shrinks_recvClient, h.recvArgs hfd⟩
  | none =>
    simp only [hslot] at hstep ⊢
    cases hstep
    refine ⟨⟨h.listenFd, ?_, h.clients⟩, fun x hx => ?_⟩
    · have hmax := h.maxFd
      show (if fd = s.maxFd then s.maxFd - 1 else s.maxFd) < n
      split <;> omega
    · rw [List.mem_singleton.mp hx]
      exact hfd

/-! ## Runs -/

/-- A ready descriptor. -/
theorem Below.handleAny (h : Below fdSetSize s) (hfd : fd < fdSetSize)
    (hlarge : fd = s.listenFd → s.takesLarge a = false) (hstep : s.handleAny fd a = some s') :
    Below fdSetSize s' ∧ ∀ x ∈ s.handleArgs fd a, x < fdSetSize := by
  unfold SelectLoop.handleAny at hstep
  by_cases hlisten : fd = s.listenFd
  · rw [if_pos hlisten] at hstep
    rw [handleArgs, if_pos hlisten]
    exact h.acceptAny (hlarge hlisten) hstep
  · rw [if_neg hlisten] at hstep
    exact h.handleFd hfd hlisten hstep

/-- A turn hands over descriptors up to `max_fd`, or the new one. -/
theorem Below.turn {t : SetTrace} (h : Below fdSetSize t.loop) (hfits : t.fits (.turn a) = true)
    (hstep : stepAny (.turn a) t.loop = some s') :
    Below fdSetSize s' ∧ ∀ x ∈ setArgs (.turn a) t.loop, x < fdSetSize := by
  simp only [stepAny] at hstep
  simp only [setArgs]
  simp only [SetTrace.fits] at hfits
  cases hscan : t.loop.scan with
  | none =>
    simp only [hscan] at hstep
    cases hstep
  | some place =>
    obtain ⟨pos, readSet⟩ := place
    simp only [hscan] at hstep hfits ⊢
    by_cases hle : pos ≤ t.loop.maxFd
    · rw [if_pos hle] at hstep ⊢
      have hpos : pos < fdSetSize := hle.trans_lt h.maxFd
      by_cases hready : pos ∈ readSet
      · rw [if_pos hready] at hstep ⊢
        have hmoved : Below fdSetSize { t.loop with
            scan := some (pos + 1, readSet), visited := t.loop.visited ++ [pos] } :=
          ⟨h.listenFd, h.maxFd, h.clients⟩
        have hlarge : pos = t.loop.listenFd → t.loop.takesLarge a = false := by
          intro hlisten
          rwa [decide_eq_true ⟨hle, hready, hlisten⟩, Bool.true_and, Bool.not_eq_true'] at hfits
        obtain ⟨hbelow, hargs⟩ := hmoved.handleAny hpos hlarge hstep
        refine ⟨hbelow, fun x hx => ?_⟩
        obtain rfl | hx := List.mem_cons.mp hx
        · exact hpos
        · exact hargs x hx
      · rw [if_neg hready] at hstep ⊢
        cases hstep
        refine ⟨⟨h.listenFd, h.maxFd, h.clients⟩, fun x hx => ?_⟩
        rw [List.mem_singleton.mp hx]
        exact hpos
    · rw [if_neg hle] at hstep ⊢
      cases hstep
      exact ⟨⟨h.listenFd, h.maxFd, h.clients⟩, fun x hx => by cases hx⟩

/-- **One event** that fits stays inside the set. -/
theorem Below.step {t : SetTrace} {e : SelectEvent} (h : Below fdSetSize t.loop)
    (hfits : t.fits e = true) (hstep : stepAny e t.loop = some s') :
    Below fdSetSize s' ∧ ∀ x ∈ setArgs e t.loop, x < fdSetSize := by
  cases e with
  | turn a => exact h.turn hfits hstep
  | ready readSet =>
    simp only [stepAny, SelectLoop.step] at hstep
    split at hstep
    · cases hstep
      exact ⟨⟨h.listenFd, h.maxFd, h.clients⟩, fun x hx => by cases hx⟩
    · cases hstep
  | timeout now =>
    simp only [stepAny, SelectLoop.step] at hstep
    split at hstep
    · rw [← Option.some.inj hstep]
      exact ⟨h.shrinks (shrinks_sweep _), h.sweepArgs _ _⟩
    · cases hstep
  | shutdown =>
    simp only [stepAny, SelectLoop.step] at hstep
    split at hstep
    · rw [← Option.some.inj hstep]
      exact ⟨h.shrinks shrinks_finish, h.finishArgs⟩
    · cases hstep

/-- An event that does not fit is possible, and leaves the set. -/
theorem step_large {t : SetTrace} {e : SelectEvent} (hfits : t.fits e = false) :
    ∃ t', SetTrace.step e t = some t' ∧ ¬t'.InSet := by
  unfold SetTrace.fits at hfits
  split at hfits
  next a pos readSet hscan =>
    rw [Bool.not_eq_false', Bool.and_eq_true, decide_eq_true_eq] at hfits
    obtain ⟨⟨hle, hready, hlisten⟩, hlarge⟩ := hfits
    obtain ⟨⟨s', hs'⟩, x, hx, hsize⟩ := acceptAny_large (s := { t.loop with
      scan := some (pos + 1, readSet), visited := t.loop.visited ++ [pos] }) hlarge
    have hstep : stepAny (.turn a) t.loop = some s' := by
      simp only [stepAny, hscan, if_pos hle, if_pos hready]
      exact (if_pos hlisten).trans hs'
    have hargs : x ∈ setArgs (.turn a) t.loop := by
      simp only [setArgs, hscan, if_pos hle, if_pos hready, handleArgs, if_pos hlisten]
      exact List.mem_cons_of_mem _ hx
    refine ⟨_, by rw [SetTrace.step, hstep]; rfl, fun hall => ?_⟩
    exact absurd (hall x (List.mem_append_right _ hargs)) (Nat.not_lt.mpr hsize)
  next => cases hfits

/-- **The run stays inside the set** exactly as long as the listening socket and every descriptor
that `accept` answers and that gets a slot are below `FD_SETSIZE`. -/
theorem run_in_set_iff (listenFd : Nat) (events : List SelectEvent) :
    (∀ pre t, pre <+: events → runs SetTrace.step pre (.start listenFd) = some t → t.InSet) ↔
      listenFd < fdSetSize ∧ along SetTrace.step SetTrace.fits events (.start listenFd) = true := by
  by_cases hlisten : listenFd < fdSetSize
  · rw [and_iff_right hlisten]
    apply along_iff_prefixes (fun t => Below fdSetSize t.loop ∧ t.InSet)
    · rintro e t t' ⟨hbelow, hin⟩ hfits hstep
      obtain ⟨s', hs', rfl⟩ := Option.map_eq_some_iff.mp hstep
      obtain ⟨hbelow', hargs⟩ := hbelow.step hfits hs'
      refine ⟨hbelow', fun x hx => ?_⟩
      obtain hx | hx := List.mem_append.mp hx
      · exact hin x hx
      · exact hargs x hx
    · exact fun t h => h.2
    · exact fun e t _ hfits => step_large hfits
    · refine ⟨⟨hlisten, hlisten, fun i fd hfd => by cases hfd⟩, fun x hx => ?_⟩
      rw [List.mem_singleton.mp hx]
      exact hlisten
  · refine ⟨fun hall => ?_, fun h => absurd h.1 hlisten⟩
    exact absurd (hall [] _ (List.nil_prefix) rfl listenFd (List.mem_singleton_self _)) hlisten

/-- The first client gets the descriptor 1024. -/
def largeClient : List SelectEvent :=
  [.ready {3}, .turn ⟨none, true, [], true, 0⟩, .turn ⟨none, true, [], true, 0⟩,
    .turn ⟨none, true, [], true, 0⟩, .turn ⟨some 1024, true, [], true, 0⟩]

theorem largeClient_leaves_set :
    ¬∀ pre t, pre <+: largeClient → runs SetTrace.step pre (.start 3) = some t → t.InSet := by
  intro hall
  have hargs : (runs SetTrace.step largeClient (.start 3)).map SetTrace.args =
      some [3, 0, 1, 2, 3, 1024] := by decide +kernel
  obtain ⟨t, ht, hlast⟩ := Option.map_eq_some_iff.mp hargs
  have hin := hall largeClient t List.prefix_rfl ht 1024 (by rw [hlast]; simp)
  exact absurd hin (Nat.lt_irrefl _)

end MiniWeb.EventLoop
