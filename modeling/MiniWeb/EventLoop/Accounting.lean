import MiniWeb.EventLoop.Epoll

/-!
# The accounts of the epoll loop

The clients of the table are counted by `g_active_conns`, registered with epoll, and the
descriptors open besides the loop's own. Each account is kept up to the order, so a connection put
into the table or taken out of it is one entry more or less in all three.
-/

namespace MiniWeb.EventLoop

open Handles Table FrontEnd Runs

namespace EpollLoop

/-- The descriptors in the table. -/
def clients (s : EpollLoop) : List Nat := entries (fun _ fd => fd) epollMaxConns (fds s.connections)

/-- What the table says is registered. -/
def registrations (s : EpollLoop) : List Registration :=
  entries (fun i fd => ⟨fd, some i⟩) epollMaxConns (fds s.connections)

/-- The loop's own descriptors that are open. -/
def own (s : EpollLoop) : List Nat :=
  if s.running then [s.listenFd, s.epfd] else if s.workerMode then [s.listenFd] else []

/-- The close under `cleanup`, of a descriptor that is closed. -/
def closedAgain (s : EpollLoop) : List (Op Nat) := if s.running then [] else [.release s.epfd]

/-- The loop's own registration. -/
def listening (s : EpollLoop) : List Registration :=
  if s.running then [⟨s.listenFd, none⟩] else []

end EpollLoop

structure Accounted (s : EpollLoop) : Prop where
  counted : s.activeConns = s.clients.length
  registered : s.registered.Perm (s.listening ++ s.registrations)
  sound : ∃ ops, Replays ops s.descriptors.live ∧ s.descriptors.ops = ops ++ s.closedAgain
  live : s.descriptors.live.Perm (s.own ++ s.clients)
  opened : ∀ fd ∈ [s.listenFd, s.epfd], s.descriptors.ops.count (.acquire fd) = 1
  apart : s.epfd ≠ s.listenFd
  named : (s.pending.map fun r => r.entry.fd).Nodup
  pending : ∀ r ∈ s.pending, r.entry ∈ s.registered
  returned : s.running = false → s.clients = [] ∧ s.pending = []

variable {s s' : EpollLoop} {slot fd : Nat}

theorem registrations_fds : s.registrations.map (fun r => r.fd) = s.clients := map_entries

theorem mem_clients : fd ∈ s.clients ↔ ∃ i < epollMaxConns, fds s.connections i = some fd := by
  rw [EpollLoop.clients, mem_entries]
  constructor
  · rintro ⟨i, h, hi, hh, rfl⟩
    exact ⟨i, hi, hh⟩
  · rintro ⟨i, hi, hh⟩
    exact ⟨i, fd, hi, hh, rfl⟩

/-- No descriptor is open twice. -/
theorem Accounted.nodup (h : Accounted s) : (s.own ++ s.clients).Nodup := by
  obtain ⟨ops, hops, -⟩ := h.sound
  exact h.live.nodup_iff.mp hops.nodup

/-- While the loop runs every use and close was of an open descriptor. -/
theorem Accounted.trace (h : Accounted s) (hrunning : s.running = true) : s.descriptors.Sound := by
  obtain ⟨ops, hops, heq⟩ := h.sound
  rw [EpollLoop.closedAgain, if_pos hrunning, List.append_nil] at heq
  rw [Trace.Sound, heq]
  exact hops

theorem sound_of_running (hrunning : s.running = true) (h : s.descriptors.Sound) :
    ∃ ops, Replays ops s.descriptors.live ∧ s.descriptors.ops = ops ++ s.closedAgain :=
  ⟨_, h, by rw [EpollLoop.closedAgain, if_pos hrunning, List.append_nil]⟩

theorem Accounted.mem_live (h : Accounted s) (hfd : fd ∈ s.clients) : fd ∈ s.descriptors.live :=
  h.live.mem_iff.mpr (List.mem_append_right _ hfd)

theorem Accounted.own_live (h : Accounted s) (hrunning : s.running = true)
    (hfd : fd ∈ [s.listenFd, s.epfd]) : fd ∈ s.descriptors.live := by
  refine h.live.mem_iff.mpr (List.mem_append_left _ ?_)
  rwa [EpollLoop.own, if_pos hrunning]

theorem Accounted.ne_listen (h : Accounted s) (hrunning : s.running = true)
    (hfd : fd ∈ s.clients) : fd ≠ s.listenFd := by
  rintro rfl
  have hown : s.listenFd ∈ s.own := by
    unfold EpollLoop.own
    rw [if_pos hrunning]
    exact List.mem_cons_self
  exact (List.nodup_append.mp h.nodup).2.2 _ hown _ hfd rfl

/-! ## What leaves the accounts alone -/

/-- The connections may change but for their descriptors. -/
theorem Accounted.congr (h : Accounted s) (hrunning : s.running = true)
    {connections : Nat → Connection} {descriptors : Trace Nat}
    (hfds : fds connections = fds s.connections) (hsound : descriptors.Sound)
    (hlive : descriptors.live = s.descriptors.live)
    (hopened : ∀ fd ∈ [s.listenFd, s.epfd], descriptors.ops.count (.acquire fd) = 1) :
    Accounted { s with connections := connections, descriptors := descriptors } := by
  have hclients : ({ s with connections := connections, descriptors := descriptors } :
      EpollLoop).clients = s.clients := by
    unfold EpollLoop.clients
    rw [hfds]
  have hregistrations : ({ s with connections := connections, descriptors := descriptors } :
      EpollLoop).registrations = s.registrations := by
    unfold EpollLoop.registrations
    rw [hfds]
  constructor
  · rw [hclients]
    exact h.counted
  · rw [hregistrations]
    exact h.registered
  · exact sound_of_running (s := { s with connections := connections, descriptors := descriptors })
      hrunning hsound
  · rw [hclients]
    show descriptors.live.Perm (s.own ++ s.clients)
    rw [hlive]
    exact h.live
  · exact hopened
  · exact h.apart
  · exact h.named
  · exact h.pending
  · rw [hclients]
    exact h.returned

theorem Accounted.setConnection (h : Accounted s) (hrunning : s.running = true) {c : Connection}
    (hc : c.fd = fds s.connections slot) : Accounted (s.setConnection slot c) := by
  apply h.congr hrunning _ (h.trace hrunning) rfl h.opened
  rw [fds_update, hc, Function.update_eq_self]

theorem Accounted.use (h : Accounted s) (hrunning : s.running = true) (hfd : fd ∈ s.clients) :
    Accounted (s.use (some fd)) := by
  obtain ⟨hsound, hlive⟩ := (h.trace hrunning).use (h.mem_live hfd)
  refine h.congr hrunning rfl hsound hlive fun own hown => ?_
  exact (count_acquire_concat fun heq => by cases heq).trans (h.opened own hown)

/-! ## Tearing down -/

theorem perm_filter_singleton {rs : List Registration} {r : Registration}
    {rest : List Registration} (hperm : rs.Perm (r :: rest)) (hne : ∀ r' ∈ rest, r'.fd ≠ r.fd) :
    (rs.filter fun r' => r'.fd ≠ r.fd).Perm rest := by
  have hfilter := hperm.filter fun r' => r'.fd ≠ r.fd
  have hself : rest.filter (fun r' => r'.fd ≠ r.fd) = rest := by
    rw [List.filter_eq_self]
    intro r' hr'
    exact decide_eq_true (hne r' hr')
  rwa [List.filter_cons_of_neg (by simp), hself] at hfilter

theorem Accounted.tearDown (h : Accounted s) (hrunning : s.running = true)
    (hslot : slot < epollMaxConns) (hfd : fds s.connections slot = some fd)
    (hpending : ∀ r ∈ s.pending, r.entry.fd ≠ fd) : Accounted (s.tearDown slot (some fd)) := by
  have hmem : fd ∈ s.clients := mem_clients.mpr ⟨slot, hslot, hfd⟩
  have hfds : fds (s.tearDown slot (some fd)).connections =
      Function.update (fds s.connections) slot none := fds_update
  have hclients : s.clients.Perm (fd :: (s.tearDown slot (some fd)).clients) := by
    unfold EpollLoop.clients
    rw [hfds]
    exact entries_take hslot hfd
  have hregistrations : s.registrations.Perm
      (⟨fd, some slot⟩ :: (s.tearDown slot (some fd)).registrations) := by
    unfold EpollLoop.registrations
    rw [hfds]
    exact entries_take hslot hfd
  have hlive : s.descriptors.live.Perm (fd :: (s.own ++ (s.tearDown slot (some fd)).clients)) :=
    h.live.trans ((hclients.append_left s.own).trans List.perm_middle)
  have hfresh : fd ∉ s.own ++ (s.tearDown slot (some fd)).clients :=
    (List.nodup_cons.mp (hlive.nodup_iff.mp (Replays.nodup (h.trace hrunning)))).1
  -- the descriptor is used for draining, then closed
  obtain ⟨hused, huselive⟩ := (h.trace hrunning).use (h.mem_live hmem)
  obtain ⟨hclosed, hcloselive⟩ := hused.release (huselive ▸ h.mem_live hmem)
  have hdel : (s.registered.filter fun r => r.fd ≠ fd).Perm
      (s.listening ++ (s.tearDown slot (some fd)).registrations) := by
    apply perm_filter_singleton (r := ⟨fd, some slot⟩)
      (h.registered.trans ((hregistrations.append_left s.listening).trans List.perm_middle))
    intro r hr heq
    have heq : r.fd = fd := heq
    apply hfresh
    rw [List.mem_append] at hr ⊢
    obtain hr | hr := hr
    · left
      unfold EpollLoop.listening at hr
      rw [if_pos hrunning, List.mem_singleton] at hr
      rw [← heq, hr, EpollLoop.own, if_pos hrunning]
      exact List.mem_cons_self
    · right
      rw [← heq, ← registrations_fds]
      exact List.mem_map_of_mem hr
  constructor
  · have hlength := hclients.length_eq
    show s.activeConns - 1 = _
    rw [h.counted, hlength, List.length_cons]
    omega
  · exact hdel
  · exact sound_of_running (s := s.tearDown slot (some fd)) hrunning hclosed
  · show ((s.descriptors.perform (.use fd)).perform (.release fd)).live.Perm
      (s.own ++ (s.tearDown slot (some fd)).clients)
    rw [hcloselive, huselive]
    have herase := hlive.erase fd
    rwa [List.erase_cons_head] at herase
  · intro own hown
    refine (count_acquire_concat fun heq => by cases heq).trans ?_
    exact (count_acquire_concat fun heq => by cases heq).trans (h.opened own hown)
  · exact h.apart
  · exact h.named
  · intro r hr
    exact List.mem_filter.mpr ⟨h.pending r hr, decide_eq_true (hpending r hr)⟩
  · intro hstopped
    exact absurd (hrunning.symm.trans hstopped) (by decide)

/-! ## A new client -/

/-- An accepted descriptor in a free slot. -/
theorem Accounted.put (h : Accounted s) (hrunning : s.running = true) {connFd : Nat} {now : Int}
    (hslot : slot < epollMaxConns) (hnone : fds s.connections slot = none) {descriptors : Trace Nat}
    (hsound : descriptors.Sound) (hlive : descriptors.live = connFd :: s.descriptors.live)
    (hopened : ∀ fd ∈ [s.listenFd, s.epfd], descriptors.ops.count (.acquire fd) = 1) :
    Accounted { s with
      connections := Function.update s.connections slot ⟨some connFd, [], 0, now⟩
      activeConns := s.activeConns + 1
      registered := s.registered ++ [⟨connFd, some slot⟩]
      descriptors := descriptors } := by
  let after : EpollLoop := { s with
    connections := Function.update s.connections slot ⟨some connFd, [], 0, now⟩ }
  have hfds : fds after.connections = Function.update (fds s.connections) slot (some connFd) :=
    fds_update
  have hclients : after.clients.Perm (connFd :: s.clients) := by
    unfold EpollLoop.clients
    rw [hfds]
    exact entries_put hslot hnone
  have hregistrations : after.registrations.Perm (⟨connFd, some slot⟩ :: s.registrations) := by
    unfold EpollLoop.registrations
    rw [hfds]
    exact entries_put hslot hnone
  constructor
  · have hlength := hclients.length_eq
    show s.activeConns + 1 = after.clients.length
    rw [h.counted, hlength, List.length_cons]
    omega
  · have hadd := (List.perm_append_singleton ⟨connFd, some slot⟩ s.registered).trans
      (h.registered.cons _)
    exact hadd.trans (List.perm_middle.symm.trans (hregistrations.symm.append_left _))
  · exact ⟨_, hsound, by rw [EpollLoop.closedAgain, if_pos hrunning, List.append_nil]⟩
  · show descriptors.live.Perm (s.own ++ after.clients)
    rw [hlive]
    exact (h.live.cons _).trans (List.perm_middle.symm.trans (hclients.symm.append_left _))
  · exact hopened
  · exact h.apart
  · exact h.named
  · exact fun r hr => List.mem_append_left _ (h.pending r hr)
  · intro hstopped
    exact absurd (hrunning.symm.trans hstopped) (by decide)

theorem Accounted.acceptClient (h : Accounted s) (hrunning : s.running = true) {a : Answers}
    (haccept : s.acceptClient a = some s') : Accounted s' ∧ s'.running = true := by
  unfold EpollLoop.acceptClient at haccept
  cases hconn : a.accepted with
  | none =>
    rw [hconn] at haccept
    cases haccept
    exact ⟨h, hrunning⟩
  | some connFd =>
    simp only [hconn] at haccept
    split at haccept
    · cases haccept
    next hfresh =>
      obtain ⟨hsound, hlive⟩ := (h.trace hrunning).acquire hfresh
      obtain ⟨hclosed, hcloselive⟩ := hsound.release (hlive ▸ List.mem_cons_self)
      have hback : ((s.descriptors.perform (.acquire connFd)).perform (.release connFd)).live =
          s.descriptors.live := by
        rw [hcloselive, hlive, List.erase_cons_head]
      have hopened : ∀ fd ∈ [s.listenFd, s.epfd],
          (s.descriptors.perform (.acquire connFd)).ops.count (.acquire fd) = 1 := by
        intro own hown
        refine (count_acquire_concat fun heq => ?_).trans (h.opened own hown)
        cases heq
        exact hfresh (h.own_live hrunning hown)
      have hreopened : ∀ fd ∈ [s.listenFd, s.epfd],
          ((s.descriptors.perform (.acquire connFd)).perform (.release connFd)).ops.count
            (.acquire fd) = 1 := fun own hown =>
        (count_acquire_concat fun heq => by cases heq).trans (hopened own hown)
      -- accepted and closed at once
      have hrejected : Accounted { s with
          descriptors := (s.descriptors.perform (.acquire connFd)).perform (.release connFd) } :=
        h.congr hrunning rfl hclosed hback hreopened
      split at haccept
      · cases haccept
        exact ⟨hrejected, hrunning⟩
      next slot hfree =>
        obtain ⟨hslot, hnone⟩ := Slots.firstFree_spec hfree
        have hnone : fds s.connections slot = none := Option.isNone_iff_eq_none.mp
          (Option.isSome_eq_false_iff.mp hnone)
        split at haccept
        · cases haccept
          exact ⟨h.put hrunning hslot hnone hsound hlive hopened, hrunning⟩
        · -- the slot is free again
          cases haccept
          refine ⟨h.congr hrunning ?_ hclosed hback hreopened, hrunning⟩
          show fds (Function.update (Function.update s.connections slot _) slot _) = _
          rw [Function.update_idem, fds_update]
          show Function.update (fds s.connections) slot none = _
          rw [← hnone, Function.update_eq_self]

/-! ## Data from a client -/

/-- The connection in `slot` is being handled; no other ready descriptor is its own. -/
structure Serving (s : EpollLoop) (slot fd : Nat) : Prop where
  accounted : Accounted s
  running : s.running = true
  slot_lt : slot < epollMaxConns
  holds : fds s.connections slot = some fd
  pending : ∀ r ∈ s.pending, r.entry.fd ≠ fd

theorem Serving.use (h : Serving s slot fd) : Serving (s.use (some fd)) slot fd :=
  { h with accounted := h.accounted.use h.running (mem_clients.mpr ⟨slot, h.slot_lt, h.holds⟩) }

theorem Serving.setConnection (h : Serving s slot fd) {c : Connection} (hc : c.fd = some fd) :
    Serving (s.setConnection slot c) slot fd :=
  { h with
    accounted := h.accounted.setConnection h.running (hc.trans h.holds.symm)
    holds := by rw [EpollLoop.setConnection, fds_update, Function.update_self, hc] }

theorem Serving.kept (h : Serving s slot fd) : Accounted s ∧ s.running = true :=
  ⟨h.accounted, h.running⟩

theorem Serving.tearDown (h : Serving s slot fd) : Accounted (s.tearDown slot (some fd)) ∧
    (s.tearDown slot (some fd)).running = true :=
  ⟨h.accounted.tearDown h.running h.slot_lt h.holds h.pending, h.running⟩

/-- Whatever the bytes are, the connection is kept with its descriptor or torn down. -/
theorem Serving.recvClient (h : Serving s slot fd) {a : Answers} :
    Accounted (s.recvClient slot (some fd) a) ∧
      (s.recvClient slot (some fd) a).running = true := by
  unfold EpollLoop.recvClient
  by_cases hbytes : a.bytes = []
  · simp only [if_pos hbytes]
    exact h.use.tearDown
  · simp only [if_neg hbytes]
    have hset : ∀ {t : EpollLoop} {recvBuf : List UInt8} {count : Nat} {last : Int},
        Serving t slot fd → Serving (t.setConnection slot
          ⟨((s.use (some fd)).connections slot).fd, recvBuf, count, last⟩) slot fd :=
      fun ht => ht.setConnection h.holds
    split
    · exact (hset h.use).use.tearDown
    · exact (hset (hset h.use).use).kept
    · exact (hset h.use).use.tearDown
    · split
      · exact (hset h.use).use.tearDown
      · split
        · exact (hset (hset h.use).use).tearDown
        · exact (hset (hset (hset h.use).use)).kept

theorem Accounted.handleReady (h : Accounted s) (hrunning : s.running = true) {r : Ready}
    {rest : List Ready} (hpending : s.pending = r :: rest) {a : Answers}
    (hstep : { s with pending := rest }.handleReady r a = some s') :
    Accounted s' ∧ s'.running = true := by
  have hnamed := h.named
  rw [hpending, List.map_cons, List.nodup_cons] at hnamed
  have hrest : Accounted { s with pending := rest } :=
    { h with
      named := hnamed.2
      pending := fun r' hr' => h.pending r' (hpending ▸ List.mem_cons_of_mem r hr')
      returned := fun hstopped => absurd (hrunning.symm.trans hstopped) (by decide) }
  have hentry := h.registered.mem_iff.mp (h.pending r (hpending ▸ List.mem_cons_self))
  rw [EpollLoop.listening, if_pos hrunning, List.mem_append, List.mem_singleton] at hentry
  unfold EpollLoop.handleReady at hstep
  obtain hlisten | hclient := hentry
  · -- the listening socket
    rw [hlisten] at hstep
    simp only at hstep
    split at hstep
    · cases hstep
      exact ⟨hrest, hrunning⟩
    · rw [if_pos trivial] at hstep
      exact hrest.acceptClient hrunning hstep
  · obtain ⟨slot, fd, hslot, hfd, hentry⟩ := mem_entries.mp hclient
    have hserving : Serving { s with pending := rest } slot fd := by
      refine ⟨hrest, hrunning, hslot, hfd, ?_⟩
      intro r' hr' heq
      apply hnamed.1
      rw [← hentry]
      exact heq ▸ List.mem_map_of_mem hr'
    have hready : (s.connections slot).fd = some fd := hfd
    have hne : some fd ≠ some s.listenFd := by
      intro heq
      cases heq
      exact h.ne_listen hrunning (mem_clients.mpr ⟨slot, hslot, hfd⟩) rfl
    rw [← hentry] at hstep
    simp only [hready] at hstep
    rw [if_pos hne, if_neg hne] at hstep
    split at hstep
    · cases hstep
      exact hserving.tearDown
    · cases hstep
      exact hserving.recvClient

/-! ## Loops over the table -/

/-- A turn keeps the accounts; after it the slot is empty or `p` does not hold of it. -/
theorem Accounted.tearDownIf (h : Accounted s) (hrunning : s.running = true)
    (hpending : s.pending = []) (p : Connection → Bool) (hslot : slot < epollMaxConns) :
    Accounted (s.tearDownIf p slot) ∧ (s.tearDownIf p slot).running = true ∧
      (s.tearDownIf p slot).pending = [] ∧
      (fds (s.tearDownIf p slot).connections slot = none ∨
        p ((s.tearDownIf p slot).connections slot) = false) ∧
      ∀ i, i ≠ slot → (s.tearDownIf p slot).connections i = s.connections i := by
  unfold EpollLoop.tearDownIf
  cases hfd : (s.connections slot).fd with
  | none => exact ⟨h, hrunning, hpending, Or.inl hfd, fun _ _ => rfl⟩
  | some fd =>
    cases hp : p (s.connections slot) with
    | false =>
      simp only [Bool.false_eq_true, if_false]
      exact ⟨h, hrunning, hpending, Or.inr hp, fun _ _ => trivial⟩
    | true =>
      simp only [if_true]
      have hnone : ∀ r ∈ s.pending, r.entry.fd ≠ fd := by
        rw [hpending]
        exact fun r hr => by cases hr
      refine ⟨h.tearDown hrunning hslot hfd hnone, hrunning, hpending, Or.inl ?_, ?_⟩
      · show fds (Function.update s.connections slot _) slot = none
        rw [fds_update, Function.update_self]
      · exact fun i hi => Function.update_of_ne hi _ _

theorem Accounted.sweep (h : Accounted s) (hrunning : s.running = true) (hpending : s.pending = [])
    (p : Connection → Bool) :
    (Accounted (s.sweep p) ∧ (s.sweep p).running = true ∧ (s.sweep p).pending = []) ∧
      ∀ i < epollMaxConns, fds (s.sweep p).connections i = none ∨
        p ((s.sweep p).connections i) = false := by
  unfold EpollLoop.sweep
  apply foldl_range_rule
    (fun t : EpollLoop => Accounted t ∧ t.running = true ∧ t.pending = [])
    (fun i (t : EpollLoop) => fds t.connections i = none ∨ p (t.connections i) = false)
  · exact ⟨h, hrunning, hpending⟩
  · rintro k t hk ⟨ht, htrun, htpending⟩
    obtain ⟨hacc, hrun, hpend, hdone, hothers⟩ := ht.tearDownIf htrun htpending p hk
    refine ⟨⟨hacc, hrun, hpend⟩, hdone, ?_⟩
    intro i hi
    unfold fds
    rw [hothers i hi]
    exact id

/-- The loop's own descriptors are closed last, and `epfd` twice. -/
theorem Accounted.closeOwn (h : Accounted s) (hrunning : s.running = true)
    (hpending : s.pending = []) (hempty : s.clients = []) : Accounted s.closeOwn.cleanup := by
  have hlive : s.descriptors.live.Perm [s.listenFd, s.epfd] := by
    have := h.live
    rwa [hempty, List.append_nil, EpollLoop.own, if_pos hrunning] at this
  have hregistrations : s.registrations = [] := by
    rw [← List.map_eq_nil_iff, registrations_fds, hempty]
  -- what is open and what was done before the loop closes `epfd`
  have hclose {t : Trace Nat} {live : List Nat} (ht : t.Sound)
      (htlive : t.live.Perm (s.epfd :: live)) (hopened : ∀ fd ∈ [s.listenFd, s.epfd],
        t.ops.count (.acquire fd) = 1) (hown : live = if s.workerMode then [s.listenFd] else []) :
      Accounted { s with
        registered := [], running := false
        descriptors := (t.perform (.release s.epfd)).perform (.release s.epfd) } := by
    obtain ⟨hsound, hclosed⟩ := ht.release (htlive.mem_iff.mpr List.mem_cons_self)
    have hgone : s.epfd ∉ (t.perform (.release s.epfd)).live := by
      rw [hclosed]
      exact Replays.not_mem_erase ht
    have hagain : ((t.perform (.release s.epfd)).perform (.release s.epfd)).live =
        (t.perform (.release s.epfd)).live := Trace.live_release_of_not_mem hgone
    constructor
    · exact h.counted
    · show List.Perm [] ([] ++ s.registrations)
      rw [hregistrations]
      exact List.Perm.nil
    · refine ⟨(t.perform (.release s.epfd)).ops, ?_, rfl⟩
      rw [hagain]
      exact hsound
    · show (Trace.live _).Perm ((if s.workerMode = true then [s.listenFd] else []) ++ s.clients)
      rw [hagain, hclosed, hempty, List.append_nil, ← hown]
      have herase := htlive.erase s.epfd
      rwa [List.erase_cons_head] at herase
    · intro own hmem
      refine (count_acquire_concat fun heq => by cases heq).trans ?_
      exact (count_acquire_concat fun heq => by cases heq).trans (hopened own hmem)
    · exact h.apart
    · exact h.named
    · intro r hr
      have hr : r ∈ s.pending := hr
      rw [hpending] at hr
      cases hr
    · exact fun _ => ⟨hempty, hpending⟩
  unfold EpollLoop.closeOwn EpollLoop.cleanup
  cases hworker : s.workerMode with
  | true =>
    simp only [if_true]
    exact hclose (h.trace hrunning) (hlive.trans (List.Perm.swap ..)) h.opened
      (by rw [hworker, if_pos rfl])
  | false =>
    simp only [Bool.false_eq_true, if_false]
    obtain ⟨hsound, hclosed⟩ := (h.trace hrunning).release (hlive.mem_iff.mpr List.mem_cons_self)
    have hrest := hlive.erase s.listenFd
    rw [List.erase_cons_head, ← hclosed] at hrest
    refine hclose hsound hrest (fun own hmem => ?_)
      (by rw [hworker, if_neg Bool.false_ne_true])
    exact (count_acquire_concat fun heq => by cases heq).trans (h.opened own hmem)

theorem Accounted.finish (h : Accounted s) (hrunning : s.running = true)
    (hpending : s.pending = []) : Accounted s.finish := by
  obtain ⟨⟨hacc, hrun, hpend⟩, hall⟩ := h.sweep hrunning hpending fun _ => true
  have hempty : (s.sweep fun _ => true).clients = [] := by
    rw [List.eq_nil_iff_forall_not_mem]
    intro fd hfd
    obtain ⟨i, hi, hfd⟩ := mem_clients.mp hfd
    obtain hnone | hfalse := hall i hi
    · rw [hnone] at hfd
      cases hfd
    · cases hfalse
  unfold EpollLoop.finish
  exact hacc.closeOwn hrun hpend hempty

/-! ## Runs -/

theorem accounted_start {config : Option Config.ServerConfig} {workerMode : Bool}
    {listenFd epfd : Nat} (hepfd : epfd ≠ listenFd) :
    Accounted (EpollLoop.start config workerMode listenFd epfd) := by
  have hempty : (EpollLoop.start config workerMode listenFd epfd).clients = [] := by
    rw [List.eq_nil_iff_forall_not_mem]
    intro fd hfd
    obtain ⟨i, -, hfd⟩ := mem_clients.mp hfd
    cases hfd
  have hregistrations : (EpollLoop.start config workerMode listenFd epfd).registrations = [] := by
    rw [← List.map_eq_nil_iff, registrations_fds, hempty]
  have hnone : (Trace.mk [] [] : Trace Nat).Sound := replays_nil
  obtain ⟨hlisten, hlive⟩ := hnone.acquire (h := listenFd) (by simp)
  have hfresh : epfd ∉ ((Trace.mk [] []).perform (.acquire listenFd)).live := by
    rw [hlive, List.mem_singleton]
    exact hepfd
  obtain ⟨hepoll, hlive'⟩ := hlisten.acquire hfresh
  constructor
  · rw [hempty]
    rfl
  · rw [hregistrations]
    exact List.Perm.refl _
  · exact sound_of_running (s := .start config workerMode listenFd epfd) rfl hepoll
  · rw [hempty]
    show (((Trace.mk [] []).perform (.acquire listenFd)).perform (.acquire epfd)).live.Perm _
    rw [hlive', hlive]
    exact List.Perm.swap ..
  · show ∀ fd ∈ [listenFd, epfd], [Op.acquire listenFd, .acquire epfd].count (.acquire fd) = 1
    intro fd hfd
    rcases List.mem_cons.mp hfd with rfl | hfd
    · rw [List.count_cons_self, List.count_singleton, if_neg (by simpa using hepfd)]
    · obtain rfl := List.mem_singleton.mp hfd
      rw [List.count_cons_of_ne (by simpa using hepfd.symm), List.count_singleton, if_pos (by simp)]
  · exact hepfd
  · exact List.nodup_nil
  · exact fun r hr => by cases hr
  · exact fun hstopped => by cases hstopped

theorem Accounted.step (h : Accounted s) {e : EpollEvent} (hstep : EpollLoop.step e s = some s') :
    Accounted s' := by
  unfold EpollLoop.step at hstep
  cases e with
  | wait batch =>
    simp only at hstep
    split at hstep
    next hwait =>
      cases hstep
      obtain ⟨hrunning, -, hnamed, hregistered⟩ := hwait
      exact { h with
        named := hnamed
        pending := hregistered
        returned := fun hstopped => absurd (hrunning.symm.trans hstopped) (by decide) }
    next => cases hstep
  | ready a =>
    simp only at hstep
    split at hstep
    next => cases hstep
    next r rest hpending =>
      cases hrunning : s.running with
      | true => exact (h.handleReady hrunning hpending hstep).1
      | false =>
        rw [(h.returned hrunning).2] at hpending
        cases hpending
  | timeout now =>
    simp only at hstep
    split at hstep
    next hidle =>
      rw [← Option.some.inj hstep]
      exact (h.sweep hidle.1 hidle.2 (Connection.idle now)).1.1
    next => cases hstep
  | shutdown =>
    simp only at hstep
    split at hstep
    next hidle =>
      rw [← Option.some.inj hstep]
      exact h.finish hidle.1 hidle.2
    next => cases hstep

/-- **The connections are accounted for.** After every event `g_active_conns` counts the slots in
use, and their descriptors differ and are the clients registered with epoll, each in its slot. Every
use and close was of an open descriptor, but that `epfd` is closed once more at the return. Neither
`epfd` nor the listening socket is ever a client's, and after the loop each other descriptor was
closed as often as it was opened. -/
theorem run_accounts {config : Option Config.ServerConfig} {workerMode : Bool}
    {listenFd epfd : Nat} (hepfd : epfd ≠ listenFd) {events : List EpollEvent} {s : EpollLoop}
    (hrun : runs EpollLoop.step events (.start config workerMode listenFd epfd) = some s) :
    s.activeConns = Slots.count epollMaxConns (fun i => (fds s.connections i).isSome) ∧
      (∀ i j fd, i < epollMaxConns → j < epollMaxConns → fds s.connections i = some fd →
        fds s.connections j = some fd → i = j) ∧
      (∀ r, r ∈ s.registered ∧ r.ptr ≠ none ↔
        ∃ i < epollMaxConns, ∃ fd, fds s.connections i = some fd ∧ r = ⟨fd, some i⟩) ∧
      s.registered.Nodup ∧
      (∃ t : Trace Nat, t.Sound ∧
        s.descriptors.ops = t.ops ++ if s.running then [] else [.release s.epfd]) ∧
      (∀ fd ∈ [s.listenFd, s.epfd], s.descriptors.ops.count (.acquire fd) = 1) ∧
      (s.running = false → s.activeConns = 0 ∧
        (∀ fd, fd ≠ s.epfd → ¬(s.workerMode = true ∧ fd = s.listenFd) →
          s.descriptors.ops.count (.acquire fd) = s.descriptors.ops.count (.release fd)) ∧
        s.descriptors.ops.count (.release s.epfd) = 2) := by
  have h : Accounted s :=
    runs_invariant (fun _ _ _ h hstep => h.step hstep) (accounted_start hepfd) hrun
  have hnodup : s.clients.Nodup := (List.nodup_append.mp h.nodup).2.1
  obtain ⟨ops, hops, heq⟩ := h.sound
  refine ⟨?_, ?_, ?_, ?_, ⟨⟨_, ops⟩, hops, heq⟩, h.opened, ?_⟩
  · rw [h.counted, EpollLoop.clients, length_entries]
  · intro i j fd hi hj hfdi hfdj
    exact unique_of_nodup hnodup hi hj hfdi hfdj
  · intro r
    rw [h.registered.mem_iff, List.mem_append]
    constructor
    · rintro ⟨hlisten | hclient, hptr⟩
      · unfold EpollLoop.listening at hlisten
        split at hlisten
        · rw [List.mem_singleton] at hlisten
          rw [hlisten] at hptr
          exact absurd rfl hptr
        · cases hlisten
      · obtain ⟨i, fd, hi, hfd, heq⟩ := mem_entries.mp hclient
        exact ⟨i, hi, fd, hfd, heq.symm⟩
    · rintro ⟨i, hi, fd, hfd, rfl⟩
      exact ⟨Or.inr (mem_entries.mpr ⟨i, fd, hi, hfd, rfl⟩), Option.some_ne_none i⟩
  · apply List.Nodup.of_map fun r => r.fd
    have hfds := h.registered.map fun r => r.fd
    rw [List.map_append, registrations_fds] at hfds
    rw [hfds.nodup_iff]
    apply List.Nodup.sublist _ h.nodup
    apply List.Sublist.append_right
    unfold EpollLoop.listening EpollLoop.own
    split
    · exact List.Sublist.cons_cons _ (List.nil_sublist _)
    · exact List.nil_sublist _
  · intro hstopped
    obtain ⟨hempty, -⟩ := h.returned hstopped
    have hlive := h.live
    rw [hempty, List.append_nil, EpollLoop.own, hstopped] at hlive
    rw [EpollLoop.closedAgain, hstopped, if_neg Bool.false_ne_true] at heq
    have hbalance (fd : Nat) (hfd : ¬(s.workerMode = true ∧ fd = s.listenFd)) :
        ops.count (.acquire fd) = ops.count (.release fd) := by
      have hclosed : fd ∉ s.descriptors.live := by
        rw [hlive.mem_iff]
        intro hmem
        simp only [Bool.false_eq_true, if_false] at hmem
        split at hmem
        next hworker => exact hfd ⟨hworker, List.mem_singleton.mp hmem⟩
        next => cases hmem
      have hcount := Replays.balance hops fd
      rwa [List.count_eq_zero.mpr hclosed, Nat.add_zero] at hcount
    refine ⟨?_, fun fd hfd hlisten => ?_, ?_⟩
    · rw [h.counted, hempty]
      rfl
    · have hother : [Op.release s.epfd].count (.release fd) = 0 :=
        List.count_eq_zero.mpr (by simpa using hfd)
      have hnone : Op.release s.epfd ≠ .acquire fd := fun heq => by cases heq
      rw [heq, count_acquire_concat hnone, List.count_append, hother, Nat.add_zero,
        hbalance fd hlisten]
    · have hone := h.opened s.epfd (by simp)
      have hnone : Op.release s.epfd ≠ .acquire s.epfd := fun heq => by cases heq
      rw [heq, count_acquire_concat hnone, hbalance s.epfd fun hworker => h.apart hworker.2] at hone
      rw [heq, List.count_append, hone, List.count_singleton_self]

/-- A client sends a request that is answered and closed, and its slot and descriptor are used
again in the same batch. -/
def reusedSlot : List EpollEvent :=
  let quiet : Answers := ⟨none, true, [], true, 0⟩
  [.wait [⟨⟨3, none⟩, false⟩], .ready { quiet with accepted := some 5 },
    .wait [⟨⟨5, some 0⟩, false⟩, ⟨⟨3, none⟩, false⟩],
    .ready { quiet with bytes := CStr.ascii "GET / HTTP/1.0\r\n\r\n" },
    .ready { quiet with accepted := some 5 }]

theorem run_accounts_reusedSlot :
    (∃ s, runs EpollLoop.step reusedSlot (.start none false 3 4) = some s ∧ s.activeConns = 1 ∧
      Slots.count epollMaxConns (fun i => (fds s.connections i).isSome) = 1) ∧
      ∃ s, runs EpollLoop.step (reusedSlot ++ [.shutdown]) (.start none false 3 4) = some s ∧
        s.running = false ∧ s.activeConns = 0 := by
  have hends : (runs EpollLoop.step reusedSlot (.start none false 3 4)).map (fun s =>
      (s.running, s.pending, s.activeConns)) = some (true, [], 1) := by decide +kernel
  obtain ⟨s, hs, hpair⟩ := Option.map_eq_some_iff.mp hends
  rw [Prod.mk.injEq, Prod.mk.injEq] at hpair
  obtain ⟨hrunning, hpending, hone⟩ := hpair
  constructor
  · refine ⟨s, hs, hone, ?_⟩
    have hcounted := (run_accounts (by decide) hs).1
    rw [hone] at hcounted
    omega
  · have hstop : EpollLoop.step .shutdown s = some s.finish := if_pos ⟨hrunning, hpending⟩
    have hrun : runs EpollLoop.step (reusedSlot ++ [.shutdown]) (.start none false 3 4) =
        some s.finish := by
      rw [runs_append, hs, Option.bind_some, runs_cons, hstop]
      rfl
    obtain ⟨-, -, -, -, -, -, hreturned⟩ := run_accounts (by decide) hrun
    exact ⟨s.finish, hrun, rfl, (hreturned rfl).1⟩

end MiniWeb.EventLoop
