import MiniWeb.EventLoop.Select

/-!
# The descriptor set of the select loop

`master_set` is the listening socket and the descriptors of the table, `max_fd` its greatest
member, and what the scan has still to come to is in the set: a turn closes no other descriptor than
the one it is at, and `accept` answers none that is open. So the scan ends only behind every
descriptor `select` left.
-/

namespace MiniWeb.EventLoop

open Handles Table FrontEnd Runs

namespace SelectLoop

/-- The descriptors in the table. -/
def clients (s : SelectLoop) : List Nat :=
  entries (fun _ fd => fd) selectMaxConns (fds s.connections)

/-- The listening socket while it is open. -/
def own (s : SelectLoop) : List Nat := if s.running then [s.listenFd] else []

/-- `max_fd` is the greatest member of the set. -/
def Greatest (masterSet : Finset Nat) (maxFd : Nat) : Prop :=
  maxFd ∈ masterSet ∧ ∀ fd ∈ masterSet, fd ≤ maxFd

end SelectLoop

open SelectLoop

structure Watched (s : SelectLoop) : Prop where
  sound : s.descriptors.Sound
  live : s.descriptors.live.Perm (s.own ++ s.clients)
  master : ∀ fd, fd ∈ s.masterSet ↔ fd ∈ s.own ++ s.clients
  greatest : s.running = true → Greatest s.masterSet s.maxFd
  -- what the scan comes to is in the set, what it has passed was handled
  ahead : ∀ pos readSet, s.scan = some (pos, readSet) → ∀ fd ∈ readSet,
    (pos ≤ fd → fd ∈ s.masterSet) ∧ (fd < pos → fd ∈ s.visited)
  stopped : s.running = false → s.clients = [] ∧ s.scan = none

variable {s s' : SelectLoop} {slot fd : Nat}

theorem mem_selectClients :
    fd ∈ s.clients ↔ ∃ i < selectMaxConns, fds s.connections i = some fd := by
  rw [SelectLoop.clients, mem_entries]
  constructor
  · rintro ⟨i, h, hi, hh, rfl⟩
    exact ⟨i, hi, hh⟩
  · rintro ⟨i, hi, hh⟩
    exact ⟨i, fd, hi, hh, rfl⟩

theorem Watched.nodup (h : Watched s) : (s.own ++ s.clients).Nodup :=
  h.live.nodup_iff.mp (Replays.nodup h.sound)

theorem Watched.mem_live (h : Watched s) (hfd : fd ∈ s.clients) : fd ∈ s.descriptors.live :=
  h.live.mem_iff.mpr (List.mem_append_right _ hfd)

theorem Watched.ne_listen (h : Watched s) (hrunning : s.running = true) (hfd : fd ∈ s.clients) :
    fd ≠ s.listenFd := by
  rintro rfl
  have hown : s.listenFd ∈ s.own := by
    unfold SelectLoop.own
    rw [if_pos hrunning]
    exact List.mem_cons_self
  exact (List.nodup_append.mp h.nodup).2.2 _ hown _ hfd rfl

theorem Watched.listen_mem (h : Watched s) (hrunning : s.running = true) :
    s.listenFd ∈ s.masterSet := by
  rw [h.master, SelectLoop.own, if_pos hrunning]
  exact List.mem_cons_self

/-! ## Lowering `max_fd` -/

theorem lowerMaxFd_greatest {listenFd maxFd : Nat} {masterSet : Finset Nat}
    (hlisten : listenFd ∈ masterSet) (hle : ∀ fd ∈ masterSet, fd ≤ maxFd) :
    Greatest masterSet (lowerMaxFd listenFd masterSet maxFd) := by
  induction maxFd with
  | zero =>
    have hzero := hle _ hlisten
    rw [Nat.le_zero] at hzero
    subst hzero
    exact ⟨hlisten, hle⟩
  | succ maxFd ih =>
    unfold lowerMaxFd
    by_cases hlower : listenFd < maxFd + 1 ∧ maxFd + 1 ∉ masterSet
    · rw [if_pos hlower]
      apply ih
      intro fd hfd
      have hne : fd ≠ maxFd + 1 := by
        rintro rfl
        exact hlower.2 hfd
      have := hle fd hfd
      omega
    · rw [if_neg hlower]
      refine ⟨?_, hle⟩
      by_contra hout
      have hlast : listenFd = maxFd + 1 := by
        have hbelow : ¬listenFd < maxFd + 1 := fun h => hlower ⟨h, hout⟩
        have := hle _ hlisten
        omega
      exact hout (hlast ▸ hlisten)

/-! ## What leaves the set alone -/

theorem Watched.congr (h : Watched s) {connections : Nat → Connection} {descriptors : Trace Nat}
    (hfds : fds connections = fds s.connections) (hsound : descriptors.Sound)
    (hlive : descriptors.live = s.descriptors.live) :
    Watched { s with connections := connections, descriptors := descriptors } := by
  have hclients : ({ s with connections := connections, descriptors := descriptors } :
      SelectLoop).clients = s.clients := by
    unfold SelectLoop.clients
    rw [hfds]
  constructor
  · exact hsound
  · rw [hclients]
    show descriptors.live.Perm (s.own ++ s.clients)
    rw [hlive]
    exact h.live
  · rw [hclients]
    exact h.master
  · exact h.greatest
  · exact h.ahead
  · rw [hclients]
    exact h.stopped

theorem Watched.setConnection (h : Watched s) {c : Connection}
    (hc : c.fd = fds s.connections slot) : Watched (s.setConnection slot c) := by
  apply h.congr _ h.sound rfl
  rw [fds_update, hc, Function.update_eq_self]

theorem Watched.use (h : Watched s) (hfd : fd ∈ s.clients) : Watched (s.use fd) := by
  obtain ⟨hsound, hlive⟩ := Trace.Sound.use h.sound (h.mem_live hfd)
  exact h.congr rfl hsound hlive

/-! ## Closing -/

theorem Watched.closeClient (h : Watched s) (hrunning : s.running = true)
    (hslot : slot < selectMaxConns) (hfd : fds s.connections slot = some fd)
    (hpassed : ∀ pos readSet, s.scan = some (pos, readSet) → fd < pos) :
    Watched (s.closeClient slot fd) := by
  have hmem : fd ∈ s.clients := mem_selectClients.mpr ⟨slot, hslot, hfd⟩
  have hfds : fds (s.closeClient slot fd).connections =
      Function.update (fds s.connections) slot none := fds_update
  have hclients : s.clients.Perm (fd :: (s.closeClient slot fd).clients) := by
    unfold SelectLoop.clients
    rw [hfds]
    exact entries_take hslot hfd
  have hall : (s.own ++ s.clients).Perm (fd :: (s.own ++ (s.closeClient slot fd).clients)) :=
    (hclients.append_left s.own).trans List.perm_middle
  have hfresh : fd ∉ s.own ++ (s.closeClient slot fd).clients :=
    (List.nodup_cons.mp (hall.nodup_iff.mp h.nodup)).1
  obtain ⟨hclosed, hlive⟩ := h.sound.release (h.mem_live hmem)
  have hmaster : ∀ x, x ∈ s.masterSet.erase fd ↔ x ∈ s.own ++ (s.closeClient slot fd).clients := by
    intro x
    rw [Finset.mem_erase, h.master, hall.mem_iff, List.mem_cons]
    constructor
    · rintro ⟨hne, rfl | hx⟩
      · exact absurd rfl hne
      · exact hx
    · intro hx
      refine ⟨?_, Or.inr hx⟩
      rintro rfl
      exact hfresh hx
  have hne := h.ne_listen hrunning hmem
  constructor
  · exact hclosed
  · show (s.descriptors.perform (.release fd)).live.Perm
      (s.own ++ (s.closeClient slot fd).clients)
    rw [hlive]
    have herase := (h.live.trans hall).erase fd
    rwa [List.erase_cons_head] at herase
  · exact hmaster
  · intro _
    obtain ⟨hmax, hle⟩ := h.greatest hrunning
    have hle' : ∀ x ∈ s.masterSet.erase fd, x ≤ s.maxFd := by
      intro x hx
      exact hle x (Finset.mem_of_mem_erase hx)
    show Greatest (s.masterSet.erase fd) (if fd = s.maxFd then _ else s.maxFd)
    by_cases hlast : fd = s.maxFd
    · rw [if_pos hlast]
      exact lowerMaxFd_greatest
        (Finset.mem_erase.mpr ⟨Ne.symm hne, h.listen_mem hrunning⟩) hle'
    · rw [if_neg hlast]
      exact ⟨Finset.mem_erase.mpr ⟨Ne.symm hlast, hmax⟩, hle'⟩
  · intro pos readSet hscan x hx
    obtain ⟨hahead, hbehind⟩ := h.ahead pos readSet hscan x hx
    refine ⟨fun hpos => ?_, hbehind⟩
    have := hpassed pos readSet hscan
    exact Finset.mem_erase.mpr ⟨by omega, hahead hpos⟩
  · intro hstopped
    exact absurd (hrunning.symm.trans hstopped) (by decide)

/-! ## A new client -/

theorem Watched.put (h : Watched s) (hrunning : s.running = true) {connFd : Nat} {now : Int}
    (hslot : slot < selectMaxConns) (hnone : fds s.connections slot = none)
    {descriptors : Trace Nat} (hsound : descriptors.Sound)
    (hlive : descriptors.live = connFd :: s.descriptors.live) :
    Watched { s with
      connections := Function.update s.connections slot ⟨some connFd, [], 0, now⟩
      masterSet := insert connFd s.masterSet
      maxFd := if s.maxFd < connFd then connFd else s.maxFd
      descriptors := descriptors } := by
  let after : SelectLoop := { s with
    connections := Function.update s.connections slot ⟨some connFd, [], 0, now⟩ }
  have hfds : fds after.connections = Function.update (fds s.connections) slot (some connFd) :=
    fds_update
  have hclients : after.clients.Perm (connFd :: s.clients) := by
    unfold SelectLoop.clients
    rw [hfds]
    exact entries_put hslot hnone
  have hall : (s.own ++ after.clients).Perm (connFd :: (s.own ++ s.clients)) :=
    (hclients.append_left s.own).trans List.perm_middle
  constructor
  · exact hsound
  · show descriptors.live.Perm (s.own ++ after.clients)
    rw [hlive]
    exact (h.live.cons _).trans hall.symm
  · intro x
    show x ∈ insert connFd s.masterSet ↔ x ∈ s.own ++ after.clients
    rw [Finset.mem_insert, hall.mem_iff, List.mem_cons, h.master]
  · intro _
    obtain ⟨hmax, hle⟩ := h.greatest hrunning
    show Greatest (insert connFd s.masterSet) (if s.maxFd < connFd then connFd else s.maxFd)
    by_cases hlarge : s.maxFd < connFd
    · rw [if_pos hlarge]
      refine ⟨Finset.mem_insert_self .., ?_⟩
      intro x hx
      obtain rfl | hx := Finset.mem_insert.mp hx
      · exact Nat.le_refl _
      · have := hle x hx
        omega
    · rw [if_neg hlarge]
      refine ⟨Finset.mem_insert_of_mem hmax, ?_⟩
      intro x hx
      obtain rfl | hx := Finset.mem_insert.mp hx
      · omega
      · exact hle x hx
  · intro pos readSet hscan x hx
    obtain ⟨hahead, hbehind⟩ := h.ahead pos readSet hscan x hx
    exact ⟨fun hpos => Finset.mem_insert_of_mem (hahead hpos), hbehind⟩
  · intro hstopped
    exact absurd (hrunning.symm.trans hstopped) (by decide)

theorem Watched.acceptClient (h : Watched s) (hrunning : s.running = true) {a : Answers}
    (haccept : s.acceptClient a = some s') : Watched s' := by
  unfold SelectLoop.acceptClient at haccept
  cases hconn : a.accepted with
  | none =>
    rw [hconn] at haccept
    cases haccept
    exact h
  | some connFd =>
    simp only [hconn] at haccept
    split at haccept
    · cases haccept
    next hfresh =>
      rw [not_or] at hfresh
      obtain ⟨hsound, hlive⟩ := Trace.Sound.acquire h.sound hfresh.1
      split at haccept
      · cases haccept
        obtain ⟨hclosed, hcloselive⟩ := hsound.release (hlive ▸ List.mem_cons_self)
        refine h.congr rfl hclosed ?_
        rw [hcloselive, hlive, List.erase_cons_head]
      next slot hfree =>
        obtain ⟨hslot, hnone⟩ := Slots.firstFree_spec hfree
        have hnone : fds s.connections slot = none := Option.isNone_iff_eq_none.mp
          (Option.isSome_eq_false_iff.mp hnone)
        cases haccept
        exact h.put hrunning hslot hnone hsound hlive

/-! ## Data from a client -/

/-- The scan is at the connection in `slot`. -/
structure Scanning (s : SelectLoop) (slot fd : Nat) : Prop where
  watched : Watched s
  running : s.running = true
  slot_lt : slot < selectMaxConns
  holds : fds s.connections slot = some fd
  passed : ∀ pos readSet, s.scan = some (pos, readSet) → fd < pos

theorem Scanning.use (h : Scanning s slot fd) : Scanning (s.use fd) slot fd :=
  { h with watched := h.watched.use (mem_selectClients.mpr ⟨slot, h.slot_lt, h.holds⟩) }

theorem Scanning.setConnection (h : Scanning s slot fd) {c : Connection} (hc : c.fd = some fd) :
    Scanning (s.setConnection slot c) slot fd :=
  { h with
    watched := h.watched.setConnection (hc.trans h.holds.symm)
    holds := by rw [SelectLoop.setConnection, fds_update, Function.update_self, hc] }

theorem Scanning.closeClient (h : Scanning s slot fd) : Watched (s.closeClient slot fd) :=
  h.watched.closeClient h.running h.slot_lt h.holds h.passed

theorem Scanning.recvClient (h : Scanning s slot fd) {a : Answers} :
    Watched (s.recvClient slot fd a) := by
  unfold SelectLoop.recvClient
  by_cases hbytes : a.bytes = []
  · simp only [if_pos hbytes]
    exact h.use.closeClient
  · simp only [if_neg hbytes]
    have hset : ∀ {t : SelectLoop} {recvBuf : List UInt8} {count : Nat} {last : Int},
        Scanning t slot fd → Scanning (t.setConnection slot
          ⟨((s.use fd).connections slot).fd, recvBuf, count, last⟩) slot fd :=
      fun ht => ht.setConnection h.holds
    split
    · split
      · exact (hset h.use).use.closeClient
      · split
        · exact (hset (hset h.use).use).closeClient
        · exact (hset (hset (hset h.use).use)).watched
    · exact (hset h.use).use.closeClient

theorem slotOf_spec (hslot : s.slotOf fd = some slot) :
    slot < selectMaxConns ∧ fds s.connections slot = some fd := by
  unfold SelectLoop.slotOf at hslot
  have hholds := List.find?_some hslot
  rw [decide_eq_true_eq] at hholds
  exact ⟨List.mem_range.mp (List.mem_of_find?_eq_some hslot), hholds⟩

/-- A client of the table is found. -/
theorem slotOf_isSome (hfd : fd ∈ s.clients) : ∃ slot, s.slotOf fd = some slot := by
  obtain ⟨i, hi, hfd⟩ := mem_selectClients.mp hfd
  rw [← Option.isSome_iff_exists, SelectLoop.slotOf, List.find?_isSome]
  exact ⟨i, List.mem_range.mpr hi, decide_eq_true hfd⟩

/-- A descriptor of the set is the listening socket or found in the table. -/
theorem Watched.handleFd (fd : Nat) (h : Watched s) (hrunning : s.running = true)
    (hfd : fd ∈ s.masterSet)
    (hpassed : ∀ pos readSet, s.scan = some (pos, readSet) → fd < pos) {a : Answers}
    (hstep : s.handleFd fd a = some s') : Watched s' := by
  unfold SelectLoop.handleFd at hstep
  split at hstep
  · exact h.acceptClient hrunning hstep
  next hclient =>
    have hmem : fd ∈ s.clients := by
      have hmem := (h.master fd).mp hfd
      rw [SelectLoop.own, if_pos hrunning, List.mem_append, List.mem_singleton] at hmem
      exact hmem.resolve_left hclient
    obtain ⟨slot, hslot⟩ := slotOf_isSome hmem
    obtain ⟨hlt, hholds⟩ := slotOf_spec hslot
    rw [hslot] at hstep
    cases hstep
    exact Scanning.recvClient ⟨h, hrunning, hlt, hholds, hpassed⟩

/-! ## Loops over the table -/

theorem Watched.closeIf (h : Watched s) (hrunning : s.running = true) (hscan : s.scan = none)
    (p : Connection → Bool) (hslot : slot < selectMaxConns) :
    Watched (s.closeIf p slot) ∧ (s.closeIf p slot).running = true ∧
      (s.closeIf p slot).scan = none ∧
      (fds (s.closeIf p slot).connections slot = none ∨
        p ((s.closeIf p slot).connections slot) = false) ∧
      ∀ i, i ≠ slot → (s.closeIf p slot).connections i = s.connections i := by
  unfold SelectLoop.closeIf
  cases hfd : (s.connections slot).fd with
  | none => exact ⟨h, hrunning, hscan, Or.inl hfd, fun _ _ => rfl⟩
  | some fd =>
    cases hp : p (s.connections slot) with
    | false =>
      simp only [Bool.false_eq_true, if_false]
      exact ⟨h, hrunning, hscan, Or.inr hp, fun _ _ => trivial⟩
    | true =>
      simp only [if_true]
      have hpassed : ∀ pos readSet, s.scan = some (pos, readSet) → fd < pos := by
        rw [hscan]
        exact fun _ _ h => by cases h
      refine ⟨h.closeClient hrunning hslot hfd hpassed, hrunning, hscan, Or.inl ?_, ?_⟩
      · show fds (Function.update s.connections slot _) slot = none
        rw [fds_update, Function.update_self]
      · exact fun i hi => Function.update_of_ne hi _ _

theorem Watched.sweep (h : Watched s) (hrunning : s.running = true) (hscan : s.scan = none)
    (p : Connection → Bool) :
    (Watched (s.sweep p) ∧ (s.sweep p).running = true ∧ (s.sweep p).scan = none) ∧
      ∀ i < selectMaxConns, fds (s.sweep p).connections i = none ∨
        p ((s.sweep p).connections i) = false := by
  unfold SelectLoop.sweep
  apply foldl_range_rule
    (fun t : SelectLoop => Watched t ∧ t.running = true ∧ t.scan = none)
    (fun i (t : SelectLoop) => fds t.connections i = none ∨ p (t.connections i) = false)
  · exact ⟨h, hrunning, hscan⟩
  · rintro k t hk ⟨ht, htrun, htscan⟩
    obtain ⟨hwatched, hrun, hnone, hdone, hothers⟩ := ht.closeIf htrun htscan p hk
    refine ⟨⟨hwatched, hrun, hnone⟩, hdone, ?_⟩
    intro i hi
    unfold fds
    rw [hothers i hi]
    exact id

theorem Watched.closeOwn (h : Watched s) (hrunning : s.running = true) (hscan : s.scan = none)
    (hempty : s.clients = []) : Watched s.closeOwn := by
  have hown : s.own ++ s.clients = [s.listenFd] := by
    rw [hempty, List.append_nil, SelectLoop.own, if_pos hrunning]
  have hlive := h.live
  rw [hown] at hlive
  obtain ⟨hsound, hclosed⟩ := h.sound.release (hlive.mem_iff.mpr List.mem_cons_self)
  constructor
  · exact hsound
  · show (s.descriptors.perform (.release s.listenFd)).live.Perm ([] ++ s.clients)
    rw [hclosed, hempty]
    have herase := hlive.erase s.listenFd
    rwa [List.erase_cons_head] at herase
  · intro fd
    show fd ∈ s.masterSet.erase s.listenFd ↔ fd ∈ [] ++ s.clients
    rw [Finset.mem_erase, h.master, hown, hempty, List.mem_singleton]
    exact ⟨fun h => absurd h.2 h.1, fun h => by cases h⟩
  · intro h
    cases h
  · intro pos readSet hs
    have hs : s.scan = some (pos, readSet) := hs
    rw [hscan] at hs
    cases hs
  · exact fun _ => ⟨hempty, hscan⟩

theorem Watched.finish (h : Watched s) (hrunning : s.running = true) (hscan : s.scan = none) :
    Watched s.finish := by
  obtain ⟨⟨hwatched, hrun, hnone⟩, hall⟩ := h.sweep hrunning hscan fun _ => true
  have hempty : (s.sweep fun _ => true).clients = [] := by
    rw [List.eq_nil_iff_forall_not_mem]
    intro fd hfd
    obtain ⟨i, hi, hfd⟩ := mem_selectClients.mp hfd
    obtain hfree | hfalse := hall i hi
    · rw [hfree] at hfd
      cases hfd
    · cases hfalse
  unfold SelectLoop.finish
  exact hwatched.closeOwn hrun hnone hempty

/-! ## Runs -/

theorem watched_start {listenFd : Nat} : Watched (SelectLoop.start listenFd) := by
  have hempty : (SelectLoop.start listenFd).clients = [] := by
    rw [List.eq_nil_iff_forall_not_mem]
    intro fd hfd
    obtain ⟨i, -, hfd⟩ := mem_selectClients.mp hfd
    cases hfd
  have hnone : (Trace.mk [] [] : Trace Nat).Sound := replays_nil
  obtain ⟨hsound, hlive⟩ := hnone.acquire (h := listenFd) (by simp)
  constructor
  · exact hsound
  · rw [hempty]
    show ((Trace.mk [] []).perform (.acquire listenFd)).live.Perm [listenFd]
    rw [hlive]
  · intro fd
    rw [hempty]
    show fd ∈ ({listenFd} : Finset Nat) ↔ fd ∈ [listenFd]
    rw [Finset.mem_singleton, List.mem_singleton]
  · intro _
    refine ⟨Finset.mem_singleton_self _, ?_⟩
    intro fd hfd
    rw [Finset.mem_singleton.mp hfd]
    exact Nat.le_refl _
  · exact fun _ _ h => by cases h
  · exact fun h => by cases h

/-- A turn of the scan: the descriptor it is at is in the set if `select` left it. -/
theorem Watched.turn (h : Watched s) {a : Answers}
    (hstep : SelectLoop.step (.turn a) s = some s') : Watched s' := by
  simp only [SelectLoop.step] at hstep
  split at hstep
  next => cases hstep
  next pos readSet hscan =>
    have hrunning : s.running = true := by
      by_contra hstopped
      rw [(h.stopped (Bool.eq_false_iff.mpr hstopped)).2] at hscan
      cases hscan
    have hahead := h.ahead pos readSet hscan
    have hnot : ∀ {P : Prop}, s.running = false → P := by
      intro P hstopped
      rw [hrunning] at hstopped
      cases hstopped
    split at hstep
    · split at hstep
      next hready =>
        refine Watched.handleFd pos ?_ ?_ ?_ ?_ hstep
        · refine ⟨h.sound, h.live, h.master, h.greatest, ?_, hnot⟩
          intro pos' readSet' hscan' fd hfd
          cases hscan'
          refine ⟨fun hle => (hahead fd hfd).1 (by omega), fun hlt => ?_⟩
          rw [List.mem_append, List.mem_singleton]
          by_cases heq : fd = pos
          · exact Or.inr heq
          · exact Or.inl ((hahead fd hfd).2 (by omega))
        · exact hrunning
        · exact (hahead pos hready).1 (Nat.le_refl _)
        · intro pos' readSet' hscan'
          cases hscan'
          exact Nat.lt_succ_self _
      next hready =>
        cases hstep
        refine ⟨h.sound, h.live, h.master, h.greatest, ?_, hnot⟩
        intro pos' readSet' hscan' fd hfd
        cases hscan'
        refine ⟨fun hle => (hahead fd hfd).1 (by omega), fun hlt => (hahead fd hfd).2 ?_⟩
        have hne : fd ≠ pos := by
          rintro rfl
          exact hready hfd
        omega
    · cases hstep
      exact ⟨h.sound, h.live, h.master, h.greatest, fun _ _ hnone => (by cases hnone), hnot⟩

theorem Watched.step (h : Watched s) {e : SelectEvent} (hstep : SelectLoop.step e s = some s') :
    Watched s' := by
  cases e with
  | ready readSet =>
    simp only [SelectLoop.step] at hstep
    split at hstep
    next hready =>
      cases hstep
      obtain ⟨hrunning, -, hsub⟩ := hready
      refine ⟨h.sound, h.live, h.master, h.greatest, ?_, ?_⟩
      · intro pos readSet' hscan fd hfd
        cases hscan
        exact ⟨fun _ => (hsub fd hfd).1, fun hlt => by omega⟩
      · intro hstopped
        exact absurd (hrunning.symm.trans hstopped) (by decide)
    next => cases hstep
  | turn a => exact h.turn hstep
  | timeout now =>
    simp only [SelectLoop.step] at hstep
    split at hstep
    next hidle =>
      rw [← Option.some.inj hstep]
      exact (h.sweep hidle.1 hidle.2 (Connection.idle now)).1.1
    next => cases hstep
  | shutdown =>
    simp only [SelectLoop.step] at hstep
    split at hstep
    next hidle =>
      rw [← Option.some.inj hstep]
      exact h.finish hidle.1 hidle.2
    next => cases hstep

/-- **The set is the listening socket and the table.** While the loop runs, `master_set` is the
listening socket and the descriptors in use, which differ; `max_fd` is its maximum; what is closed
is in neither; the scan comes to every descriptor `select` left, finds each of them in the table,
and ends behind all of them. -/
theorem run_watches {listenFd : Nat} {events : List SelectEvent} {s : SelectLoop}
    (hrun : runs SelectLoop.step events (.start listenFd) = some s) (hrunning : s.running = true) :
    (∀ fd, fd ∈ s.masterSet ↔
      fd = s.listenFd ∨ ∃ i < selectMaxConns, fds s.connections i = some fd) ∧
      (∀ i < selectMaxConns, fds s.connections i ≠ some s.listenFd) ∧
      (∀ i j fd, i < selectMaxConns → j < selectMaxConns → fds s.connections i = some fd →
        fds s.connections j = some fd → i = j) ∧
      (s.maxFd ∈ s.masterSet ∧ ∀ fd ∈ s.masterSet, fd ≤ s.maxFd) ∧
      s.descriptors.Sound ∧ (∀ fd, fd ∈ s.masterSet ↔ fd ∈ s.descriptors.live) ∧
      ∀ pos readSet, s.scan = some (pos, readSet) → ∀ fd ∈ readSet,
        fd < pos ∧ fd ∈ s.visited ∨ pos ≤ fd ∧ fd ≤ s.maxFd ∧
          (fd = s.listenFd ∨ (s.slotOf fd).isSome) := by
  have h : Watched s :=
    runs_invariant (fun _ _ _ h hstep => h.step hstep) watched_start hrun
  have hmaster : ∀ fd, fd ∈ s.masterSet ↔ fd = s.listenFd ∨ fd ∈ s.clients := by
    intro fd
    rw [h.master, SelectLoop.own, if_pos hrunning, List.mem_append, List.mem_singleton]
  refine ⟨?_, ?_, ?_, h.greatest hrunning, h.sound, ?_, ?_⟩
  · intro fd
    rw [hmaster, mem_selectClients]
  · intro i hi hfd
    exact h.ne_listen hrunning (mem_selectClients.mpr ⟨i, hi, hfd⟩) rfl
  · intro i j fd hi hj hfdi hfdj
    exact unique_of_nodup (List.nodup_append.mp h.nodup).2.1 hi hj hfdi hfdj
  · intro fd
    rw [h.master, h.live.mem_iff]
  · intro pos readSet hscan fd hfd
    obtain ⟨hahead, hbehind⟩ := h.ahead pos readSet hscan fd hfd
    by_cases hlt : fd < pos
    · exact Or.inl ⟨hlt, hbehind hlt⟩
    · right
      have hmem := hahead (by omega)
      refine ⟨by omega, (h.greatest hrunning).2 fd hmem, ?_⟩
      obtain heq | hclient := (hmaster fd).mp hmem
      · exact Or.inl heq
      · exact Or.inr (Option.isSome_iff_exists.mpr (slotOf_isSome hclient))

/-- A client below the listening socket and one above it; the upper one, in the scan that also
accepts a third, is closed with the set's maximum. -/
def raisedAndLowered : List SelectEvent :=
  let quiet : Answers := ⟨none, true, [], true, 0⟩
  let turns (n : Nat) := List.replicate n (SelectEvent.turn quiet)
  [.ready {3}] ++ turns 3 ++ [.turn { quiet with accepted := some 1 }] ++ turns 1 ++
  [.ready {3}] ++ turns 3 ++ [.turn { quiet with accepted := some 6 }] ++ turns 4 ++
  [.ready {3, 6}] ++ turns 3 ++ [.turn { quiet with accepted := some 4 }] ++ turns 3

theorem run_watches_raisedAndLowered :
    ∃ s, runs SelectLoop.step raisedAndLowered (.start 3) = some s ∧ s.running = true ∧
      s.maxFd = 4 ∧ ∀ fd ∈ s.masterSet, fd ≤ 4 := by
  have hends : (runs SelectLoop.step raisedAndLowered (.start 3)).map (fun s =>
      (s.running, s.maxFd)) = some (true, 4) := by decide +kernel
  obtain ⟨s, hs, hpair⟩ := Option.map_eq_some_iff.mp hends
  rw [Prod.mk.injEq] at hpair
  obtain ⟨hrunning, hmax⟩ := hpair
  obtain ⟨-, -, -, ⟨-, hgreatest⟩, -⟩ := run_watches hs hrunning
  rw [hmax] at hgreatest
  exact ⟨s, hs, hrunning, hmax, hgreatest⟩

end MiniWeb.EventLoop
