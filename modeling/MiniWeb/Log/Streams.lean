import MiniWeb.Log.Logger

/-!
# The logger's streams

`Sound` is what is wanted after every call: both pointers are NULL or open streams, and every
operation so far was on an open stream. It is kept by every call that does not meet one of two
slips of `log.c`, both about a stream that the two logs share: a rotation of the system log leaves
the pointer of the access log to the closed stream, and `log_close` compares the two pointers when
one of them is NULL already, so it closes the shared stream twice.

The calls that meet a slip are known from the state before them, and they do break `Sound`.
-/

namespace MiniWeb.Log

open Handles Runs
open Config (LogLevel)

/-- What an operation does to a stream. -/
def FileOp.handle? : FileOp → Option (Op Stream)
  | .fopen _ fp => some (.acquire fp)
  | .fgetc fp => some (.use fp)
  | .fprintf fp _ => some (.use fp)
  | .fflush fp => some (.use fp)
  | .fclose fp => some (.release fp)
  | .remove _ => none
  | .rename _ _ => none

/-- The operations are all on open streams, and `live` are the streams open after them. -/
structure Tidy (files : Files) (live : List Stream) : Prop where
  replays : Replays (files.ops.filterMap FileOp.handle?) live
  numbered : ∀ fp ∈ live, fp < files.streams

/-- Each pointer is NULL or an open stream, and so was every stream at its uses. -/
def Sound (l : Logger) : Prop :=
  ∃ live, Replays (l.files.ops.filterMap FileOp.handle?) live ∧
    (∀ fp, l.systemLog = some fp → fp ∈ live) ∧ ∀ fp, l.accessLog = some fp → fp ∈ live

/-! ## The files -/

section Files

variable {files : Files} {live : List Stream} {fp : Stream} {path : CStr} {maxRoll : Int}

theorem tidy_start : Tidy Logger.start.files [] where
  replays := replays_nil
  numbered _ h := by cases h

theorem Tidy.new (h : Tidy files live) : files.streams ∉ live := by
  intro hmem
  exact Nat.lt_irrefl _ (h.numbered _ hmem)

theorem Tidy.fopen (h : Tidy files live) (path : CStr) :
    Tidy (files.fopen path).2 ((files.fopen path).1 :: live) where
  replays := by
    show Replays ((files.ops ++ [FileOp.fopen path files.streams]).filterMap _) _
    rw [List.filterMap_append]
    exact h.replays.acquire h.new
  numbered fp hfp := by
    show fp < files.streams + 1
    obtain rfl | hfp := List.mem_cons.mp hfp
    · exact Nat.lt_succ_self _
    · exact Nat.lt_succ_of_lt (h.numbered fp hfp)

theorem Tidy.fclose (h : Tidy files live) (hfp : fp ∈ live) :
    Tidy (files.perform (.fclose fp)) (live.erase fp) where
  replays := by
    show Replays ((files.ops ++ [FileOp.fclose fp]).filterMap _) _
    rw [List.filterMap_append]
    exact h.replays.release hfp
  numbered fp' hfp' := h.numbered fp' (List.mem_of_mem_erase hfp')

/-- Reading, writing and flushing. -/
theorem Tidy.use {op : FileOp} (h : Tidy files live) (hop : op.handle? = some (.use fp))
    (hfp : fp ∈ live) : Tidy (files.perform op) live where
  replays := by
    show Replays ((files.ops ++ [op]).filterMap _) _
    rw [List.filterMap_append, List.filterMap_cons_some hop]
    exact h.replays.use hfp
  numbered := h.numbered

/-- Names of files are no streams. -/
theorem Tidy.name {op : FileOp} (h : Tidy files live) (hop : op.handle? = none) :
    Tidy (files.perform op) live where
  replays := by
    show Replays ((files.ops ++ [op]).filterMap _) _
    rw [List.filterMap_append, List.filterMap_cons_none hop, List.filterMap_nil, List.append_nil]
    exact h.replays
  numbered := h.numbered

theorem Tidy.write {line : Line} (h : Tidy files live) (hfp : fp ∈ live) :
    Tidy (files.write fp line) live :=
  (h.use rfl hfp).use rfl hfp

theorem Tidy.readAll (h : Tidy files live) : Tidy (files.readAll path) live := by
  have hmem : (files.fopen path).1 ∈ (files.fopen path).1 :: live := List.mem_cons_self
  have hread : Tidy ((files.fopen path).2.perform (.fgetc (files.fopen path).1))
      ((files.fopen path).1 :: live) := (h.fopen path).use rfl hmem
  have hclosed := hread.fclose hmem
  rwa [List.erase_cons_head] at hclosed

theorem Tidy.shift {i : Nat} (h : Tidy files live) : Tidy (shift path maxRoll i files) live := by
  induction i generalizing files with
  | zero => exact h
  | succ i ih =>
    unfold Log.shift
    apply ih
    apply h.name
    split <;> rfl

theorem shift_streams {i : Nat} : (shift path maxRoll i files).streams = files.streams := by
  induction i generalizing files with
  | zero => rfl
  | succ i ih =>
    unfold shift
    rw [ih]
    rfl

theorem Tidy.retire (h : Tidy files live) (maxRoll : Int) (path : CStr) :
    Tidy (retire maxRoll path files) live := by
  unfold Log.retire
  by_cases hroll : 1 ≤ maxRoll
  · rw [if_pos hroll]
    exact h.shift.name rfl
  · rw [if_neg hroll]
    exact h.shift

theorem retire_streams : (retire maxRoll path files).streams = files.streams := by
  unfold retire
  by_cases hroll : 1 ≤ maxRoll
  · rw [if_pos hroll]
    exact shift_streams
  · rw [if_neg hroll]
    exact shift_streams

/-- A rotation closes the stream and opens one that was not open before. -/
theorem Tidy.rotateLog (h : Tidy files live) (maxRoll : Int) (n : Nat) (hfp : fp ∈ live)
    (hpath : path ≠ []) :
    ∃ files', rotateLog maxRoll path (some fp) n files = (some files.streams, 0, files') ∧
      Tidy files' (files.streams :: live.erase fp) := by
  have hopen := ((h.fclose hfp).retire maxRoll path).fopen path
  have hnumber : (Files.fopen path
      (Log.retire maxRoll path (files.perform (.fclose fp)))).1 = files.streams := retire_streams
  rw [hnumber] at hopen
  refine ⟨_, ?_, hopen⟩
  simp only [Log.rotateLog, if_neg hpath, hnumber]

end Files

/-! ## The two pointers -/

/-- Both logs write to one stream. -/
def Logger.shares (l : Logger) : Bool := l.systemLog ≠ none ∧ l.accessLog = l.systemLog

/-- What the paths say about the pointers, with the open streams. -/
structure Wired (l : Logger) (live : List Stream) : Prop where
  tidy : Tidy l.files live
  system : ∀ fp, l.systemLog = some fp → fp ∈ live
  access : ∀ fp, l.accessLog = some fp → fp ∈ live
  named : l.systemLog ≠ none → l.systemPath ≠ []
  -- without a path of its own the access log has the stream of the system log or none
  shared : l.accessPath = [] → l.accessLog = none ∨ l.accessLog = l.systemLog
  separate : l.accessPath ≠ [] → l.accessLog = l.systemLog → l.accessLog = none
  closed : l.accessPath ≠ [] → l.accessLog = none → l.systemLog = none

section Pointers

variable {l : Logger} {live : List Stream} {fp : Stream} {level : LogLevel} {msg : CStr}

theorem wired_start : Wired Logger.start [] where
  tidy := tidy_start
  system _ h := by cases h
  access _ h := by cases h
  named h := absurd rfl h
  shared _ := Or.inl rfl
  separate _ _ := rfl
  closed _ _ := rfl

theorem Wired.sound (h : Wired l live) : Sound l := ⟨live, h.tidy.replays, h.system, h.access⟩

/-- A stream that is open after another was closed. -/
theorem mem_erase_of_ne {a b : Stream} (ha : a ∈ live) (hne : a ≠ b) : a ∈ live.erase b :=
  (List.mem_erase_of_ne hne).mpr ha

/-! ### Writing to the system log -/

theorem logWriteSystem_none (hsys : l.systemLog = none) {msg : Option CStr} :
    logWriteSystem level msg l = l := by
  unfold logWriteSystem
  rw [hsys]

theorem logWriteSystem_kept (level : LogLevel) (msg : CStr) (htidy : Tidy l.files live)
    (hsys : l.systemLog = some fp) (hfp : fp ∈ live) (hdue : l.systemDue = false) :
    ∃ files', logWriteSystem level (some msg) l =
      { l with systemLines := l.systemLines + 1, files := files' } ∧ Tidy files' live := by
  refine ⟨l.files.write fp (.system level msg), ?_, htidy.write hfp⟩
  unfold logWriteSystem
  simp only [hsys, hdue, Bool.false_eq_true, if_false]

theorem logWriteSystem_rotated (level : LogLevel) (msg : CStr) (htidy : Tidy l.files live)
    (hsys : l.systemLog = some fp) (hfp : fp ∈ live) (hdue : l.systemDue = true) :
    ∃ files', logWriteSystem level (some msg) l =
      { l with systemLog := some l.files.streams, systemLines := 1, files := files' } ∧
      Tidy files' (l.files.streams :: live.erase fp) := by
  have hpath : l.systemPath ≠ [] := by
    unfold Logger.systemDue at hdue
    rw [decide_eq_true_eq] at hdue
    exact hdue.2.2
  obtain ⟨files', hrotate, htidy'⟩ :=
    htidy.rotateLog l.maxRoll l.systemLines hfp hpath
  refine ⟨files'.write l.files.streams (.system level msg), ?_, htidy'.write List.mem_cons_self⟩
  unfold logWriteSystem
  simp only [hsys, hdue, if_true, Logger.rotateSystem, hrotate]

/-- A write keeps the pointers right, and whether they are equal, unless it rotates a stream that
both logs share. -/
theorem Wired.written (h : Wired l live) (level : LogLevel) (msg : CStr)
    (hsafe : (l.shares && l.systemDue) = false) :
    ∃ live', Wired (logWriteSystem level (some msg) l) live' ∧
      (logWriteSystem level (some msg) l).shares = l.shares := by
  cases hsys : l.systemLog with
  | none =>
    rw [logWriteSystem_none hsys]
    exact ⟨live, h, rfl⟩
  | some fp =>
    have hfp := h.system fp hsys
    cases hdue : l.systemDue with
    | false =>
      obtain ⟨files', heq, htidy⟩ :=
        logWriteSystem_kept level msg h.tidy hsys hfp hdue
      rw [heq]
      exact ⟨live, { h with tidy := htidy }, rfl⟩
    | true =>
      rw [hdue, Bool.and_true] at hsafe
      have hne : l.accessLog ≠ some fp := by
        intro heq
        unfold Logger.shares at hsafe
        rw [decide_eq_false_iff_not, hsys] at hsafe
        exact hsafe ⟨Option.some_ne_none fp, heq⟩
      have hnew : l.accessLog ≠ some l.files.streams :=
        fun heq => h.tidy.new (h.access _ heq)
      obtain ⟨files', heq, htidy⟩ :=
        logWriteSystem_rotated level msg h.tidy hsys hfp hdue
      rw [heq]
      refine ⟨l.files.streams :: live.erase fp, ?_, ?_⟩
      · constructor
        · exact htidy
        · intro fp' hfp'
          cases hfp'
          exact List.mem_cons_self
        · intro fp' hfp'
          apply List.mem_cons_of_mem
          apply mem_erase_of_ne (h.access fp' hfp')
          rintro rfl
          exact hne hfp'
        · intro _
          exact h.named (by rw [hsys]; exact Option.some_ne_none fp)
        · intro hpath
          refine Or.inl ((h.shared hpath).resolve_right ?_)
          rw [hsys]
          exact hne
        · intro _ heq
          exact absurd heq hnew
        · intro hpath hnone
          rw [h.closed hpath hnone] at hsys
          cases hsys
      · rw [hsafe]
        exact decide_eq_false fun hshares => hnew hshares.2

/-- A write that rotates the shared stream leaves the access log with the closed one. -/
theorem Wired.dangling (h : Wired l live) (level : LogLevel) (msg : CStr)
    (hshares : l.shares = true) (hdue : l.systemDue = true) :
    ∃ fp new live', (logWriteSystem level (some msg) l).accessLog = some fp ∧
      (logWriteSystem level (some msg) l).systemLog = some new ∧
      Tidy (logWriteSystem level (some msg) l).files live' ∧ new ∈ live' ∧ fp ∉ live' := by
  unfold Logger.shares at hshares
  rw [decide_eq_true_eq] at hshares
  obtain ⟨hsome, heq⟩ := hshares
  obtain ⟨fp, hfp⟩ := Option.ne_none_iff_exists'.mp hsome
  obtain ⟨files', hwrite, htidy⟩ :=
    logWriteSystem_rotated level msg h.tidy hfp (h.system fp hfp) hdue
  rw [hwrite]
  refine ⟨fp, l.files.streams, _, heq.trans hfp, rfl, htidy, List.mem_cons_self, ?_⟩
  intro hmem
  obtain rfl | hmem := List.mem_cons.mp hmem
  · exact h.tidy.new (h.system _ hfp)
  · exact h.tidy.replays.not_mem_erase hmem

/-! ### Opening -/

/-- `log_init` gives both logs one stream. -/
def sharing (systemLogPath accessLogPath : Option CStr) : Bool :=
  systemLogPath.getD [] ≠ [] ∧ accessLogPath = systemLogPath

variable {sys acc : Option CStr} {n m : Nat}

/-- After the system part there is the new stream, if any. -/
theorem initSystem_spec (sys : Option CStr) (n : Nat) (htidy : Tidy l.files live) :
    ∃ live', Tidy (initSystem sys n l).files live' ∧
      (∀ fp, (initSystem sys n l).systemLog = some fp → fp ∈ live') ∧
      ((initSystem sys n l).systemLog ≠ none ↔ sys.getD [] ≠ []) ∧
      ((initSystem sys n l).systemLog ≠ none → (initSystem sys n l).systemPath ≠ []) := by
  unfold initSystem
  by_cases hpath : sys.getD [] = []
  · rw [if_neg (not_not_intro hpath)]
    refine ⟨live, htidy, ?_, ?_, ?_⟩
    · intro fp hfp
      cases hfp
    · exact iff_of_false (fun h => h rfl) (not_not_intro hpath)
    · exact fun h => absurd rfl h
  · rw [if_pos hpath]
    refine ⟨_, (htidy.fopen (sys.getD [])).readAll, ?_, ?_, ?_⟩
    · intro fp hfp
      cases hfp
      exact List.mem_cons_self
    · exact iff_of_true (Option.some_ne_none _) hpath
    · intro _ hcut
      cases hget : sys.getD [] with
      | nil => exact hpath hget
      | cons c path =>
        rw [hget] at hcut
        cases hcut

theorem initAccess_spec (acc : Option CStr) (n : Nat) (htidy : Tidy l.files live)
    (hsys : ∀ fp, l.systemLog = some fp → fp ∈ live)
    (hopened : l.systemLog ≠ none ↔ sys.getD [] ≠ [])
    (hnamed : l.systemLog ≠ none → l.systemPath ≠ []) :
    (∃ live', Wired (initAccess sys acc n l) live') ∧
      (initAccess sys acc n l).shares = sharing sys acc := by
  unfold initAccess
  by_cases hpath : acc.getD [] = []
  · rw [if_neg (not_not_intro hpath)]
    refine ⟨⟨live, htidy, hsys, ?_, hnamed, ?_, ?_, ?_⟩, ?_⟩
    · intro fp hfp
      cases hfp
    · exact fun _ => Or.inl rfl
    · exact fun h => absurd rfl h
    · exact fun h => absurd rfl h
    · unfold Logger.shares sharing
      rw [decide_eq_decide]
      apply iff_of_false
      · exact fun h => h.1 h.2.symm
      · rintro ⟨hne, heq⟩
        rw [← heq] at hne
        exact hne hpath
  · rw [if_pos hpath]
    by_cases hsame : sys = some (acc.getD [])
    · rw [if_pos hsame]
      have hne : sys.getD [] ≠ [] := by
        rw [hsame]
        exact hpath
      refine ⟨⟨live, htidy, hsys, hsys, hnamed, ?_, ?_, ?_⟩, ?_⟩
      · exact fun _ => Or.inr rfl
      · exact fun h => absurd rfl h
      · exact fun h => absurd rfl h
      · unfold Logger.shares sharing
        rw [decide_eq_decide]
        apply iff_of_true
        · exact ⟨hopened.mpr hne, rfl⟩
        · refine ⟨hne, ?_⟩
          cases acc with
          | none => exact absurd rfl hpath
          | some path => exact hsame.symm
    · rw [if_neg hsame]
      have hnew : l.systemLog ≠ some l.files.streams :=
        fun heq => htidy.new (hsys _ heq)
      refine ⟨⟨_, (htidy.fopen (acc.getD [])).readAll, ?_, ?_, hnamed, ?_, ?_, ?_⟩, ?_⟩
      · exact fun fp hfp => List.mem_cons_of_mem _ (hsys fp hfp)
      · intro fp hfp
        cases hfp
        exact List.mem_cons_self
      · intro hcut
        cases hget : acc.getD [] with
        | nil => exact absurd hget hpath
        | cons c path =>
          rw [hget] at hcut
          cases hcut
      · exact fun _ heq => absurd heq.symm hnew
      · exact fun _ hnone => absurd hnone (Option.some_ne_none _)
      · unfold Logger.shares sharing
        rw [decide_eq_decide]
        apply iff_of_false
        · exact fun h => hnew h.2.symm
        · rintro ⟨-, heq⟩
          rw [heq] at hsame hpath
          cases sys with
          | none => exact hpath rfl
          | some path => exact hsame rfl

/-! ### Reopening -/

/-- A path of its own means a stream of its own. -/
theorem Wired.own (h : Wired l live) (hacc : l.accessPath ≠ []) (hsys : l.systemLog = some fp) :
    l.accessLog ≠ none ∧ l.accessLog ≠ some fp := by
  have hopen : l.accessLog ≠ none := by
    intro hnone
    rw [h.closed hacc hnone] at hsys
    cases hsys
  exact ⟨hopen, fun heq => hopen (h.separate hacc (heq.trans hsys.symm))⟩

/-- The pointer to another stream stays right when one is closed and a new one opened. -/
theorem mem_reopened {a b new : Stream} {p : Option Stream} (hp : p = some a)
    (hlive : ∀ a, p = some a → a ∈ live) (hne : p ≠ some b) : a ∈ new :: live.erase b := by
  apply List.mem_cons_of_mem
  apply mem_erase_of_ne (hlive a hp)
  rintro rfl
  exact hne hp

theorem Wired.reopenSystem (h : Wired l live) : ∃ live', Wired (reopenSystem l) live' := by
  unfold Log.reopenSystem
  cases hsys : l.systemLog with
  | none => exact ⟨live, h⟩
  | some fp =>
    have hpath : l.systemPath ≠ [] := h.named (by rw [hsys]; exact Option.some_ne_none fp)
    have hclosed := h.tidy.fclose (h.system fp hsys)
    have htidy := hclosed.fopen l.systemPath
    by_cases heq : l.accessLog = some fp
    · have hacc : l.accessPath = [] := by
        by_contra hacc
        exact (h.own hacc hsys).2 heq
      simp only [if_neg hpath, if_pos heq]
      refine ⟨_, htidy, ?_, ?_, fun _ => hpath, fun _ => Or.inl rfl, ?_, ?_⟩
      · intro fp' hfp'
        cases hfp'
        exact List.mem_cons_self
      · intro fp' hfp'
        cases hfp'
      · exact fun h => absurd hacc h
      · exact fun h => absurd hacc h
    · simp only [if_neg hpath, if_neg heq]
      refine ⟨_, htidy, ?_, ?_, fun _ => hpath, ?_, ?_, ?_⟩
      · intro fp' hfp'
        cases hfp'
        exact List.mem_cons_self
      · exact fun fp' hfp' => mem_reopened hfp' h.access heq
      · intro hacc
        refine Or.inl ((h.shared hacc).resolve_right ?_)
        rw [hsys]
        exact heq
      · intro _ hnew
        exact absurd (h.access l.files.streams hnew) h.tidy.new
      · exact fun hacc hnone => absurd hnone (h.own hacc hsys).1

theorem Wired.reopenAccess (h : Wired l live) : ∃ live', Wired (reopenAccess l) live' := by
  unfold Log.reopenAccess
  by_cases hacc : l.accessPath = []
  · rw [if_neg (not_not_intro hacc)]
    by_cases hpath : l.systemPath = []
    · rw [if_neg (not_not_intro hpath)]
      exact ⟨live, h⟩
    · rw [if_pos hpath]
      exact ⟨live, h.tidy, h.system, h.system, h.named, fun _ => Or.inr rfl,
        fun h => absurd hacc h, fun h => absurd hacc h⟩
  · rw [if_pos hacc]
    cases hlog : l.accessLog with
    | none => exact ⟨live, h⟩
    | some fp =>
      have hclosed := h.tidy.fclose (h.access fp hlog)
      have hne : l.systemLog ≠ some fp := fun heq => (h.own hacc heq).2 hlog
      refine ⟨_, hclosed.fopen l.accessPath, ?_, ?_, h.named, ?_, ?_, ?_⟩
      · exact fun fp' hfp' => mem_reopened hfp' h.system hne
      · intro fp' hfp'
        cases hfp'
        exact List.mem_cons_self
      · exact fun h => absurd h hacc
      · intro _ hnew
        exact absurd (h.system l.files.streams hnew.symm) h.tidy.new
      · exact fun _ hnone => absurd hnone (Option.some_ne_none _)

/-! ### Writing to the access log -/

theorem Wired.rotateAccess (h : Wired l live) (hfp : l.accessLog.or l.systemLog = some fp) :
    ∃ fp' l' live', rotateAccess fp l = (some fp', l') ∧ Wired l' live' ∧ fp' ∈ live' := by
  have hmem : fp ∈ live := by
    cases hlog : l.accessLog with
    | none =>
      rw [hlog] at hfp
      exact h.system fp hfp
    | some a =>
      rw [hlog] at hfp
      exact h.access fp (hlog.trans hfp)
  unfold Log.rotateAccess
  by_cases hacc : l.accessPath = []
  · simp only [hacc, ne_eq, not_true_eq_false, if_false]
    split
    · rename_i hdue
      obtain ⟨files', hrotate, htidy⟩ :=
        h.tidy.rotateLog l.maxRoll l.accessLines hmem hdue.2.2
      simp only [hrotate]
      refine ⟨_, _, _, rfl, ⟨htidy, ?_, ?_, fun _ => hdue.2.2, fun _ => Or.inr rfl, ?_, ?_⟩,
        List.mem_cons_self⟩
      · intro fp' hfp'
        cases hfp'
        exact List.mem_cons_self
      · intro fp' hfp'
        cases hfp'
        exact List.mem_cons_self
      · exact fun h => absurd rfl h
      · exact fun h => absurd rfl h
    · exact ⟨fp, l, live, rfl, h, hmem⟩
  · simp only [ne_eq, hacc, not_false_eq_true, if_true, and_true]
    split
    · have hlog : l.accessLog = some fp := by
        cases hlog : l.accessLog with
        | none =>
          rw [hlog, h.closed hacc hlog] at hfp
          cases hfp
        | some a =>
          rw [hlog] at hfp
          exact hfp
      have hne : l.systemLog ≠ some fp := fun heq => (h.own hacc heq).2 hlog
      obtain ⟨files', hrotate, htidy⟩ :=
        h.tidy.rotateLog l.maxRoll l.accessLines hmem hacc
      simp only [hrotate]
      refine ⟨_, _, _, rfl, ⟨htidy, ?_, ?_, h.named, ?_, ?_, ?_⟩, List.mem_cons_self⟩
      · exact fun fp' hfp' => mem_reopened hfp' h.system hne
      · intro fp' hfp'
        cases hfp'
        exact List.mem_cons_self
      · exact fun h => absurd h hacc
      · exact fun _ hnew => absurd (h.system _ hnew.symm) h.tidy.new
      · exact fun _ hnone => absurd hnone (Option.some_ne_none _)
    · exact ⟨fp, l, live, rfl, h, hmem⟩

theorem Wired.logAccess (h : Wired l live) {clientIp method path : Option CStr}
    {status bytesSent : Int} :
    ∃ live', Wired (logAccess clientIp method path status bytesSent l) live' := by
  unfold Log.logAccess
  cases hfp : l.accessLog.or l.systemLog with
  | none => exact ⟨live, h⟩
  | some fp =>
    obtain ⟨fp', l', live', heq, h', hfp'⟩ := h.rotateAccess hfp
    simp only [heq]
    exact ⟨live', { h' with tidy := h'.tidy.write hfp' }⟩

/-! ### Closing -/

theorem Wired.closeStreams (h : Wired l live) (hshares : l.shares = false) :
    ∃ live', Wired (closeStreams l) live' := by
  unfold Logger.shares at hshares
  rw [decide_eq_false_iff_not] at hshares
  -- once both pointers are NULL only the files matter
  have hnone : ∀ {l' : Logger} {live'}, l'.systemLog = none → l'.accessLog = none →
      Tidy l'.files live' → Wired l' live' := by
    intro l' live' hsys hacc htidy
    constructor
    · exact htidy
    · intro fp hfp
      rw [hsys] at hfp
      cases hfp
    · intro fp hfp
      rw [hacc] at hfp
      cases hfp
    · exact fun h => absurd hsys h
    · exact fun _ => Or.inl hacc
    · exact fun _ _ => hacc
    · exact fun _ _ => hsys
  unfold Log.closeStreams
  cases hsys : l.systemLog with
  | none =>
    cases hacc : l.accessLog with
    | none =>
      simp only [hacc]
      exact ⟨live, h⟩
    | some a =>
      simp only [hsys, hacc, ne_eq, reduceCtorEq, not_false_eq_true, if_true]
      exact ⟨_, hnone rfl rfl (h.tidy.fclose (h.access a hacc))⟩
  | some fp =>
    have hclosed := h.tidy.fclose (h.system fp hsys)
    cases hacc : l.accessLog with
    | none =>
      exact ⟨_, hnone rfl rfl hclosed⟩
    | some a =>
      simp only [ne_eq, reduceCtorEq, not_false_eq_true, if_true]
      have hne : a ≠ fp := by
        rintro rfl
        exact hshares ⟨by rw [hsys]; exact Option.some_ne_none a, hacc.trans hsys.symm⟩
      exact ⟨_, hnone rfl rfl (hclosed.fclose (mem_erase_of_ne (h.access a hacc) hne))⟩

/-- The stream of the access log is closed although it is not open any more. -/
theorem closeStreams_broken {new : Stream} (htidy : Tidy l.files live)
    (hsys : l.systemLog = some new) (hnew : new ∈ live) (hacc : l.accessLog = some fp)
    (hfp : fp ∉ live.erase new) : ¬Sound (closeStreams l) := by
  rintro ⟨live', hreplays, -⟩
  unfold closeStreams at hreplays
  simp only [hsys, hacc, ne_eq, reduceCtorEq, not_false_eq_true, if_true] at hreplays
  have hops : ((l.files.perform (.fclose new)).perform (.fclose fp)).ops.filterMap
      FileOp.handle? = (l.files.perform (.fclose new)).ops.filterMap FileOp.handle? ++
        [.release fp] := List.filterMap_append
  rw [hops] at hreplays
  exact not_replays_release (htidy.fclose hnew).replays hfp hreplays

end Pointers

/-! ## The calls -/

/-- A rotation of the system log is due and the access log shares its stream. -/
def Logger.splits (l : Logger) : Bool := l.shares && l.systemDue

/-- The call of `logAt` gets to the write. -/
def Logger.passes (l : Logger) (level : LogLevel) (message : Option CStr) : Bool :=
  ¬(rank level < rank l.logLevel ∨ message = none)

/-- The call does not rotate the system log while the access log shares its stream, and
`log_close` is not called while it does. -/
def Call.safe : Call → Logger → Bool
  | .init sys acc maxLines _ existing _, _ =>
    !(sharing sys acc && decide (0 < maxLines ∧ maxLines ≤ existing))
  | .debug message, l => !(l.passes .debug message && l.splits)
  | .info message, l => !(l.passes .info message && l.splits)
  | .warning message, l => !(l.passes .warning message && l.splits)
  | .error message, l => !(l.passes .error message && l.splits)
  | .close, l => !l.shares
  | _, _ => true

section Calls

variable {l : Logger} {live : List Stream} {level : LogLevel} {message : Option CStr}

theorem Wired.logAt (h : Wired l live) (hsafe : (!(l.passes level message && l.splits)) = true) :
    ∃ live', Wired (logAt level message l) live' := by
  unfold Log.logAt
  by_cases hpass : rank level < rank l.logLevel ∨ message = none
  · rw [if_pos hpass]
    exact ⟨live, h⟩
  · rw [if_neg hpass]
    have hpasses : l.passes level message = true := decide_eq_true hpass
    rw [hpasses, Bool.true_and, Bool.not_eq_true'] at hsafe
    cases message with
    | none => exact absurd (Or.inr rfl) hpass
    | some msg =>
      obtain ⟨live', h', -⟩ := h.written level msg hsafe
      exact ⟨live', h'⟩

/-- A rotation of the shared stream is seen in the pointer of the access log. -/
theorem Wired.split (h : Wired l live) (hsplits : l.splits = true) {msg : CStr} :
    ¬Sound (logWriteSystem level (some msg) l) := by
  obtain ⟨hshares, hdue⟩ := Bool.and_eq_true_iff.mp hsplits
  obtain ⟨fp, new, live', hacc, -, htidy, -, hfp⟩ :=
    h.dangling level msg hshares hdue
  rintro ⟨live'', hreplays, -, haccess⟩
  rw [htidy.replays.unique hreplays] at hfp
  exact hfp (haccess fp hacc)

theorem Wired.logAt_broken (h : Wired l live)
    (hsafe : (!(l.passes level message && l.splits)) = false) :
    ¬Sound (Log.logAt level message l) := by
  rw [Bool.not_eq_false'] at hsafe
  obtain ⟨hpasses, hsplits⟩ := Bool.and_eq_true_iff.mp hsafe
  have hpass := of_decide_eq_true hpasses
  unfold Log.logAt
  rw [if_neg hpass]
  cases message with
  | none => exact absurd (Or.inr rfl) hpass
  | some msg => exact h.split hsplits

theorem Wired.logClose (h : Wired l live) (hsafe : (!l.shares) = true) :
    ∃ live', Wired (logClose l) live' := by
  rw [Bool.not_eq_true'] at hsafe
  have hwrite : (l.shares && l.systemDue) = false := by
    rw [hsafe]
    rfl
  obtain ⟨live₁, h₁, hshares⟩ := h.written .info _ hwrite
  exact h₁.closeStreams (hshares.trans hsafe)

theorem Wired.logClose_broken (h : Wired l live) (hsafe : (!l.shares) = false) :
    ¬Sound (Log.logClose l) := by
  rw [Bool.not_eq_false'] at hsafe
  unfold Log.logClose
  cases hdue : l.systemDue with
  | true =>
    obtain ⟨fp, new, live', hacc, hsys, htidy, hnew, hfp⟩ := h.dangling .info _ hsafe hdue
    exact closeStreams_broken htidy hsys hnew hacc fun hmem => hfp (List.mem_of_mem_erase hmem)
  | false =>
    unfold Logger.shares at hsafe
    rw [decide_eq_true_eq] at hsafe
    obtain ⟨hsome, heq⟩ := hsafe
    obtain ⟨fp, hfp⟩ := Option.ne_none_iff_exists'.mp hsome
    have hmem := h.system fp hfp
    obtain ⟨files', hwrite, htidy⟩ := logWriteSystem_kept .info
      (CStr.ascii "Logging system shutting down") h.tidy hfp hmem hdue
    rw [hwrite]
    exact closeStreams_broken htidy hfp hmem (heq.trans hfp) htidy.replays.not_mem_erase

variable {sys acc : Option CStr} {maxLines maxRoll : Int} {sysExisting accExisting : Nat}

/-- `log_init` up to its own line, which is written from a state with the pointers right. -/
theorem logInit_wired (sys acc : Option CStr) (maxLines maxRoll : Int)
    (sysExisting accExisting : Nat) (htidy : Tidy l.files live) :
    ∃ l' live', logInit sys acc maxLines maxRoll sysExisting accExisting l =
        logWriteSystem .info (some (CStr.ascii "Logging system initialized (v1.2.1)")) l' ∧
      Wired l' live' ∧ l'.shares = sharing sys acc ∧
      (sys.getD [] ≠ [] → l'.systemDue = decide (0 < maxLines ∧ maxLines ≤ sysExisting)) := by
  let l₀ : Logger := { l with
    maxLines := maxLines, maxRoll := maxRoll, systemLines := 0, accessLines := 0 }
  have htidy₀ : Tidy l₀.files live := htidy
  obtain ⟨live₁, htidy₁, hsys, hopened, hnamed⟩ :=
    initSystem_spec sys sysExisting htidy₀
  obtain ⟨⟨live', h'⟩, hshares⟩ :=
    initAccess_spec acc accExisting htidy₁ hsys hopened hnamed
  refine ⟨_, live', rfl, h', hshares, ?_⟩
  intro hpath
  have hdue : (initAccess sys acc accExisting (initSystem sys sysExisting l₀)).systemDue =
      (initSystem sys sysExisting l₀).systemDue := by
    unfold initAccess
    simp only
    split
    · split <;> rfl
    · rfl
  have hname := hnamed (hopened.mpr hpath)
  rw [hdue]
  unfold initSystem at hname ⊢
  rw [if_pos hpath] at hname ⊢
  unfold Logger.systemDue
  rw [decide_eq_decide]
  exact ⟨fun h => ⟨h.1, h.2.1⟩, fun h => ⟨h.1, h.2, hname⟩⟩

theorem Wired.logInit (h : Wired l live)
    (hsafe : (!(sharing sys acc && decide (0 < maxLines ∧ maxLines ≤ sysExisting))) = true) :
    ∃ live', Wired (logInit sys acc maxLines maxRoll sysExisting accExisting l) live' := by
  obtain ⟨l', live', heq, h', hshares, hdue⟩ :=
    logInit_wired sys acc maxLines maxRoll sysExisting accExisting h.tidy
  have hkept : (l'.shares && l'.systemDue) = false := by
    rw [hshares]
    by_cases hpath : sys.getD [] = []
    · have hnot : sharing sys acc = false := decide_eq_false fun h => h.1 hpath
      rw [hnot]
      rfl
    · rw [hdue hpath]
      rwa [Bool.not_eq_true'] at hsafe
  rw [heq]
  obtain ⟨live'', h'', -⟩ := h'.written .info _ hkept
  exact ⟨live'', h''⟩

theorem Wired.logInit_broken (h : Wired l live)
    (hsafe : (!(sharing sys acc && decide (0 < maxLines ∧ maxLines ≤ sysExisting))) = false) :
    ¬Sound (Log.logInit sys acc maxLines maxRoll sysExisting accExisting l) := by
  rw [Bool.not_eq_false'] at hsafe
  obtain ⟨hsharing, hlines⟩ := Bool.and_eq_true_iff.mp hsafe
  obtain ⟨l', live', heq, h', hshares, hdue⟩ :=
    logInit_wired sys acc maxLines maxRoll sysExisting accExisting h.tidy
  rw [heq]
  apply h'.split
  unfold Logger.splits
  rw [hshares, hsharing, hdue (of_decide_eq_true hsharing).1, hlines]
  rfl

/-- The pointers stay right over a call that meets no slip. -/
theorem Wired.call {call : Call} (h : Wired l live) (hsafe : call.safe l = true) :
    ∃ live', Wired (call.run l) live' := by
  cases call with
  | init => exact h.logInit hsafe
  | debug => exact h.logAt hsafe
  | info => exact h.logAt hsafe
  | warning => exact h.logAt hsafe
  | error => exact h.logAt hsafe
  | setLevel => exact ⟨live, { h with }⟩
  | access => exact h.logAccess
  | reopen =>
    obtain ⟨live₁, h₁⟩ := h.reopenSystem
    exact h₁.reopenAccess
  | close => exact h.logClose hsafe

/-- A call that meets a slip does damage. -/
theorem Wired.call_broken {call : Call} (h : Wired l live) (hsafe : call.safe l = false) :
    ¬Sound (call.run l) := by
  cases call with
  | init => exact h.logInit_broken hsafe
  | debug => exact h.logAt_broken hsafe
  | info => exact h.logAt_broken hsafe
  | warning => exact h.logAt_broken hsafe
  | error => exact h.logAt_broken hsafe
  | setLevel => cases hsafe
  | access => cases hsafe
  | reopen => cases hsafe
  | close => exact h.logClose_broken hsafe

end Calls

/-! ## Sequences of calls -/

/-- The step of a run. -/
def Call.step (call : Call) (l : Logger) : Option Logger := some (call.run l)

/-- **No closed stream is touched** in a sequence of calls, and the pointers are right after every
one of them, exactly when no call meets a slip in the state it is made in. -/
theorem calls_sound_iff (calls : List Call) :
    (∀ pre l, pre <+: calls → runs Call.step pre Logger.start = some l → Sound l) ↔
      along Call.step Call.safe calls Logger.start = true := by
  apply along_iff_prefixes (fun l => ∃ live, Wired l live)
  · rintro call l l' ⟨live, h⟩ hsafe hstep
    cases hstep
    exact h.call hsafe
  · rintro l ⟨live, h⟩
    exact h.sound
  · rintro call l ⟨live, h⟩ hsafe
    exact ⟨call.run l, rfl, h.call_broken hsafe⟩
  · exact ⟨[], wired_start⟩

/-- The calls of a server whose configuration sets `log` only: started and stopped. -/
def sharedLog : List Call :=
  [.init (some (CStr.ascii "logs/server.log")) (some (CStr.ascii "logs/server.log")) 10000 5 0 0,
    .close]

/-- The same server writes one line to a log that is full: here one of a single line. -/
def fullLog : List Call :=
  [.init (some (CStr.ascii "logs/server.log")) (some (CStr.ascii "logs/server.log")) 1 5 0 0,
    .error (some (CStr.ascii "out of memory"))]

theorem shared_log_broken :
    (¬∀ pre l, pre <+: sharedLog → runs Call.step pre Logger.start = some l → Sound l) ∧
      ¬∀ pre l, pre <+: fullLog → runs Call.step pre Logger.start = some l → Sound l := by
  constructor
  · intro hall
    have hops : (runs Call.step sharedLog Logger.start).map (fun l =>
        runs Op.step (l.files.ops.filterMap FileOp.handle?) []) = some none := by decide
    obtain ⟨l, hl, hnone⟩ := Option.map_eq_some_iff.mp hops
    obtain ⟨live, hreplays, -⟩ := hall sharedLog l List.prefix_rfl hl
    cases hnone.symm.trans hreplays
  · intro hall
    have hops : (runs Call.step fullLog Logger.start).map (fun l =>
        (runs Op.step (l.files.ops.filterMap FileOp.handle?) [], l.accessLog)) =
          some (some [2], some 0) := by decide
    obtain ⟨l, hl, hpair⟩ := Option.map_eq_some_iff.mp hops
    obtain ⟨hopen, hdangling⟩ := Prod.mk.inj hpair
    obtain ⟨live, hreplays, -, haccess⟩ := hall fullLog l List.prefix_rfl hl
    cases hopen.symm.trans hreplays
    cases haccess 0 hdangling with
    | tail _ h => cases h

end MiniWeb.Log
