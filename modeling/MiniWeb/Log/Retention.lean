import MiniWeb.Log.Disk

/-!
# What the two logs keep

A server with a system log and an access log in files of their own. A rotation of one log gives up
the file with the highest number of that log and nothing else: what the files of a log hold, behind
what was given up, is what they held at first and all lines written to the log since
(`later_calls_retain`).
-/

namespace MiniWeb.Log

open CStr Rotation
open Config (LogLevel)

inductive Side
  | system
  | access
deriving DecidableEq, Repr

def Side.other : Side → Side
  | .system => .access
  | .access => .system

def Line.side : Line → Side
  | .system .. => .system
  | .access .. => .access

/-- What was written to a log, in order. -/
def written (side : Side) (files : Files) : List Item :=
  (files.lines.filter fun line => line.side = side).map Item.line

/-- The stream of a log. -/
def Logger.stream (l : Logger) : Side → Option Stream
  | .system => l.systemLog
  | .access => l.accessLog

/-- The settings of two logs that do not meet: neither path is a name of the other log. -/
structure TwoLogs where
  path : Side → CStr
  maxLines : Int
  rolls : Nat
  named : ∀ side, path side ≠ []
  short : ∀ side, (path side).length < 256
  rolls_pos : 1 ≤ rolls
  rolls_lt : rolls < 2 ^ 31
  apart : ∀ side, ∀ i ≤ rolls, path side ≠ family (path side.other) i

namespace TwoLogs

/-- The names of the files of a log. -/
def names (c : TwoLogs) (side : Side) : Nat → CStr := family (c.path side)

/-- The file that a rotation gives up. -/
def oldest (c : TwoLogs) (side : Side) : CStr := archive (c.path side) c.rolls

/-- What the files of a log hold together, oldest first. -/
def contents (c : TwoLogs) (side : Side) (m : CStr → Option (List Item)) : List Item :=
  holds (c.names side) c.rolls m

/-- The logger after `log_init`, when the files have so many lines. -/
def initialized (c : TwoLogs) (systemExisting accessExisting : Nat) : Logger :=
  logInit (some (c.path .system)) (some (c.path .access)) c.maxLines c.rolls systemExisting
    accessExisting Logger.start

/-- The files of a log are the same. -/
def Same (c : TwoLogs) (side : Side) (d d' : Disk) : Prop :=
  ∀ i ≤ c.rolls, d'.files (c.names side i) = d.files (c.names side i)

/-- What the streams stand for: the two pointers, and no other stream, for the paths. -/
structure Attached (c : TwoLogs) (n : Nat) (streams : Stream → Option CStr)
    (stream : Side → Option Stream) : Prop where
  fresh : ∀ fp, n ≤ fp → streams fp = none
  opened : ∀ side fp, stream side = some fp → streams fp = some (c.path side)
  owned : ∀ side fp, ∀ i ≤ c.rolls, streams fp = some (c.names side i) → stream side = some fp

/-- The account of each log is right. -/
structure Kept (c : TwoLogs) (d₀ : Disk) (files : Files) (stream : Side → Option Stream) :
    Prop where
  attached : c.Attached files.streams (files.on d₀).streams stream
  account : ∀ side, (files.removed (c.oldest side) d₀).flatten ++
    c.contents side (files.on d₀).files = c.contents side d₀.files ++ written side files

section Names

variable {c : TwoLogs} {side side' : Side} {i j : Nat} {d d' d'' : Disk}

theorem eq_other (h : side ≠ side') : side' = side.other := by
  cases side <;> cases side' <;> first | rfl | exact absurd rfl h

theorem names_inj (h : c.names side i = c.names side j) : i = j := family_inj h

theorem names_apart (hside : side ≠ side') (hi : i ≤ c.rolls) (hj : j ≤ c.rolls) :
    c.names side i ≠ c.names side' j := by
  obtain rfl := eq_other hside
  have hback : side.other.other = side := by cases side <;> rfl
  cases i with
  | zero => exact c.apart side j hj
  | succ i =>
    cases j with
    | zero =>
      have hapart := c.apart side.other (i + 1) hi
      rw [hback] at hapart
      exact hapart.symm
    | succ j => exact fun h => c.apart side 0 (Nat.zero_le _) (archive_inj h).1

theorem path_ne (hside : side ≠ side') : c.path side ≠ c.path side' :=
  names_apart (i := 0) (j := 0) hside (Nat.zero_le _) (Nat.zero_le _)

theorem oldest_eq : c.oldest side = c.names side c.rolls := by
  obtain ⟨k, hk⟩ : ∃ k, c.rolls = k + 1 := ⟨c.rolls - 1, by have := c.rolls_pos; omega⟩
  rw [oldest, names, hk]
  rfl

theorem Same.refl : c.Same side d d := fun _ _ => rfl

theorem Same.trans (h : c.Same side d d') (h' : c.Same side d' d'') : c.Same side d d'' :=
  fun i hi => (h' i hi).trans (h i hi)

theorem Same.contents (h : c.Same side d d') : c.contents side d'.files = c.contents side d.files :=
  holds_congr fun i hi => congrArg (Option.getD · []) (h i hi)

/-- Only the current file of the other log is another. -/
theorem same_of_path {m : CStr → Option (List Item)} (hside : side ≠ side')
    (h : ∀ name, name ≠ c.path side' → m name = d.files name) {streams} :
    c.Same side d ⟨m, streams⟩ :=
  fun _ hi => h _ (names_apart (j := 0) hside hi (Nat.zero_le _))

end Names

section Streams

variable {c : TwoLogs} {n : Nat} {streams : Stream → Option CStr} {stream : Side → Option Stream}
  {side : Side} {fp : Stream}

theorem Attached.later (h : c.Attached n streams stream) : c.Attached (n + 1) streams stream :=
  { h with fresh := fun fp hfp => h.fresh fp (by omega) }

theorem Attached.close (h : c.Attached n streams stream) (hfp : stream side = some fp) :
    c.Attached n (Function.update streams fp none) (Function.update stream side none) where
  fresh fp' hfp' := by
    rw [Function.update_apply]
    split
    · rfl
    · exact h.fresh fp' hfp'
  opened side' fp' hfp' := by
    have hside : side' ≠ side := by
      rintro rfl
      rw [Function.update_self] at hfp'
      cases hfp'
    rw [Function.update_of_ne hside] at hfp'
    have hne : fp' ≠ fp := by
      rintro rfl
      have hpath := (h.opened side' fp' hfp').symm.trans (h.opened side fp' hfp)
      exact path_ne hside (Option.some.inj hpath)
    rw [Function.update_of_ne hne]
    exact h.opened side' fp' hfp'
  owned side' fp' i hi hname := by
    have hne : fp' ≠ fp := by
      rintro rfl
      rw [Function.update_self] at hname
      cases hname
    rw [Function.update_of_ne hne] at hname
    have hfp' := h.owned side' fp' i hi hname
    have hside : side' ≠ side := by
      rintro rfl
      exact hne (Option.some.inj (hfp'.symm.trans hfp))
    rw [Function.update_of_ne hside]
    exact hfp'

theorem Attached.open (h : c.Attached n streams stream) (side : Side) (hnone : stream side = none) :
    c.Attached (n + 1) (Function.update streams n (some (c.path side)))
      (Function.update stream side (some n)) where
  fresh fp hfp := by
    have hne : fp ≠ n := by omega
    rw [Function.update_of_ne hne]
    exact h.fresh fp (by omega)
  opened side' fp hfp := by
    by_cases hside : side' = side
    · subst hside
      rw [Function.update_self] at hfp
      obtain rfl := Option.some.inj hfp
      exact Function.update_self ..
    · rw [Function.update_of_ne hside] at hfp
      have hopened := h.opened side' fp hfp
      have hne : fp ≠ n := by
        rintro rfl
        exact Option.some_ne_none _ (hopened.symm.trans (h.fresh fp (Nat.le_refl _)))
      rw [Function.update_of_ne hne]
      exact hopened
  owned side' fp i hi hname := by
    by_cases hne : fp = n
    · subst hne
      rw [Function.update_self] at hname
      have hside : side' = side := by
        by_contra hside
        exact names_apart (i := 0) (Ne.symm hside) (Nat.zero_le _) hi (Option.some.inj hname)
      rw [hside, Function.update_self]
    · rw [Function.update_of_ne hne] at hname
      have hfp := h.owned side' fp i hi hname
      have hside : side' ≠ side := by
        rintro rfl
        exact Option.some_ne_none _ (hfp.symm.trans hnone)
      rw [Function.update_of_ne hside]
      exact hfp

/-- Closing a stream and opening the next for the same log. -/
theorem Attached.reopen (h : c.Attached n streams stream) (hfp : stream side = some fp) :
    c.Attached (n + 1)
      (Function.update (Function.update streams fp none) n (some (c.path side)))
      (Function.update stream side (some n)) := by
  have hopen := (h.close hfp).open side (Function.update_self ..)
  rwa [Function.update_idem] at hopen

end Streams

section Kept

variable {c : TwoLogs} {d₀ : Disk} {files : Files} {stream : Side → Option Stream} {side : Side}
  {fp : Stream} {line : Line}

theorem Kept.quiet {files' : Files} {stream' : Side → Option Stream} (h : c.Kept d₀ files stream)
    (hquiet : Quiet files files')
    (hattached : c.Attached files'.streams (files'.on d₀).streams stream')
    (htext : ∀ name, text (files'.on d₀).files name = text (files.on d₀).files name) :
    c.Kept d₀ files' stream' where
  attached := hattached
  account side := by
    have hcontents : c.contents side (files'.on d₀).files = c.contents side (files.on d₀).files :=
      holds_congr fun i _ => htext (c.names side i)
    rw [hquiet.removed, hcontents, h.account, written, written, hquiet.lines]

theorem Kept.fopen (h : c.Kept d₀ files stream) (side : Side) (hnone : stream side = none) :
    c.Kept d₀ (files.fopen (c.path side)).2
      (Function.update stream side (some (files.fopen (c.path side)).1)) := by
  apply h.quiet quiet_fopen
  · rw [on_fopen]
    exact h.attached.open side hnone
  · exact fun name => text_fopen

theorem Kept.fclose (h : c.Kept d₀ files stream) (side : Side) (hfp : stream side = some fp) :
    c.Kept d₀ (files.perform (.fclose fp)) (Function.update stream side none) := by
  apply h.quiet quiet_fclose
  · rw [on_perform]
    exact h.attached.close hfp
  · intro name
    rw [on_perform]
    rfl

theorem Kept.reopen (h : c.Kept d₀ files stream) (side : Side) (hfp : stream side = some fp) :
    c.Kept d₀ ((files.perform (.fclose fp)).fopen (c.path side)).2
      (Function.update stream side (some files.streams)) := by
  have hopen := (h.fclose side hfp).fopen side (Function.update_self ..)
  rwa [Function.update_idem] at hopen

theorem Kept.readAll (h : c.Kept d₀ files stream) (path : CStr) :
    c.Kept d₀ (files.readAll path) stream := by
  have hquiet : Quiet files (files.readAll path) :=
    (quiet_fopen.trans (quiet_perform rfl fun _ h => by cases h)).trans quiet_fclose
  apply h.quiet hquiet
  · have hstreams : Function.update (Function.update (files.on d₀).streams files.streams
        (some path)) files.streams none = (files.on d₀).streams := by
      rw [Function.update_idem, Function.update_eq_self_iff]
      exact (h.attached.fresh _ (Nat.le_refl _)).symm
    rw [readAll_on, hstreams]
    exact h.attached.later
  · exact fun name => text_readAll

theorem written_append {files' : Files} (h : files'.lines = files.lines ++ [line]) :
    written side files' = written side files ++ if line.side = side then [.line line] else [] := by
  rw [written, h, List.filter_append, List.map_append]
  by_cases hside : line.side = side
  · simp only [List.filter_cons, List.filter_nil, hside, decide_true, if_true]
    rfl
  · simp only [List.filter_cons, List.filter_nil, hside, decide_false, if_false]
    rfl

/-- A line goes to the end of its log. -/
theorem Kept.write (h : c.Kept d₀ files stream) (line : Line) (hfp : stream line.side = some fp) :
    c.Kept d₀ (files.write fp line) stream ∧
      c.Same line.side.other (files.on d₀) ((files.write fp line).on d₀) := by
  have hon : (files.write fp line).on d₀ =
      ⟨Function.update (files.on d₀).files (c.path line.side)
        (some (text (files.on d₀).files (c.path line.side) ++ [.line line])),
        (files.on d₀).streams⟩ := by
    rw [Files.write, on_perform, on_perform]
    simp only [FileOp.apply, h.attached.opened line.side fp hfp]
  have hlines : (files.write fp line).lines = files.lines ++ [line] :=
    (quiet_perform rfl fun _ h => by cases h).lines.trans lines_fprintf
  have hremoved : ∀ name, (files.write fp line).removed name d₀ = files.removed name d₀ :=
    fun name => ((quiet_perform rfl fun _ h => by cases h).removed name d₀).trans
      (removed_perform fun h => by cases h)
  have hsame : ∀ side, side ≠ line.side →
      c.Same side (files.on d₀) ((files.write fp line).on d₀) := by
    intro side hside
    rw [hon]
    exact same_of_path hside fun name hname => Function.update_of_ne hname ..
  refine ⟨⟨?_, ?_⟩, hsame _ ?_⟩
  · rw [hon]
    exact h.attached
  · intro side
    rw [hremoved, written_append hlines, ← List.append_assoc, ← h.account, List.append_assoc]
    apply congrArg
    by_cases hside : line.side = side
    · subst hside
      rw [if_pos rfl, hon]
      exact holds_append (fun _ _ _ _ => names_inj) _
    · rw [if_neg hside, List.append_nil]
      exact (hsame side (Ne.symm hside)).contents
  · cases line <;> exact fun h => by cases h

/-- A rotation gives up the oldest file of its log. -/
theorem Kept.rotate (h : c.Kept d₀ files stream) (side : Side) (hfp : stream side = some fp)
    (lineCount : Nat) :
    ∃ files', rotateLog c.rolls (c.path side) (some fp) lineCount files =
        (some files.streams, 0, files') ∧
      c.Kept d₀ files' (Function.update stream side (some files.streams)) ∧
      c.Same side.other (files.on d₀) (files'.on d₀) := by
  obtain ⟨k, hk⟩ : ∃ k, c.rolls = k + 1 := ⟨c.rolls - 1, by have := c.rolls_pos; omega⟩
  have hfree : ∀ fp', fp' ≠ fp → ∀ i ≤ k + 1,
      (files.on d₀).streams fp' ≠ some (family (c.path side) i) := by
    intro fp' hne i hi hname
    have hfp' := h.attached.owned side fp' i (by omega) hname
    exact hne (Option.some.inj (hfp'.symm.trans hfp))
  have hlt : k + 1 < 2 ^ 31 := hk ▸ c.rolls_lt
  obtain ⟨files', hrotate, hrotated⟩ := rotateLog_on lineCount (c.named side)
    (c.short side) hlt hfree
  obtain ⟨-, -, hother⟩ := rotate_spec (p := c.names side) (k := k) (m := (files.on d₀).files)
    fun _ _ _ _ => names_inj
  have hsame : ∀ side', side' ≠ side → c.Same side' (files.on d₀) (files'.on d₀) := by
    intro side' hside i hi
    rw [hrotated.on_eq]
    exact hother _ fun j hj => names_apart hside hi (by omega)
  refine ⟨files', hk ▸ hrotate, ⟨?_, ?_⟩, hsame _ ?_⟩
  · rw [hrotated.streams, hrotated.on_eq]
    exact h.attached.reopen hfp
  · intro side'
    have hwritten : written side' files' = written side' files := by
      rw [written, written, hrotated.lines]
    rw [hwritten, ← h.account, hrotated.removed, List.flatten_append, List.append_assoc]
    apply congrArg
    by_cases hside : side' = side
    · subst hside
      have hname : c.oldest side' = archive (c.path side') (k + 1) := by rw [oldest, hk]
      rw [if_pos hname, List.flatten_singleton, hrotated.on_eq, oldest_eq, contents, contents, hk]
      exact holds_rotate fun _ _ _ _ => names_inj
    · have hname : c.oldest side' ≠ archive (c.path side) (k + 1) := by
        intro heq
        exact hside (by_contra fun hne => path_ne hne (archive_inj heq).1)
      rw [if_neg hname]
      exact (hsame side' hside).contents
  · cases side <;> exact fun h => by cases h

end Kept

/-- A server after `log_init`, with the logs open or both closed. -/
structure Running (c : TwoLogs) (d₀ : Disk) (l : Logger) : Prop where
  kept : c.Kept d₀ l.files l.stream
  systemPath : l.systemPath = c.path .system
  accessPath : l.accessPath = c.path .access
  maxRoll : l.maxRoll = c.rolls
  closed : l.accessLog = none → l.systemLog = none

section Running

variable {c : TwoLogs} {d₀ : Disk} {l l' : Logger} {fp : Stream} {level : LogLevel}

theorem Kept.system {files : Files} {log : Option Stream}
    (h : c.Kept d₀ files (Function.update l.stream Side.system log))
    (hsystem : l'.systemLog = log) (haccess : l'.accessLog = l.accessLog) :
    c.Kept d₀ files l'.stream := by
  have heq : l'.stream = Function.update l.stream Side.system log := by
    funext side
    cases side with
    | system =>
      rw [Function.update_self]
      exact hsystem
    | access => exact haccess
  rwa [heq]

theorem Kept.access {files : Files} {log : Option Stream}
    (h : c.Kept d₀ files (Function.update l.stream Side.access log))
    (haccess : l'.accessLog = log) (hsystem : l'.systemLog = l.systemLog) :
    c.Kept d₀ files l'.stream := by
  have heq : l'.stream = Function.update l.stream Side.access log := by
    funext side
    cases side with
    | system => exact hsystem
    | access =>
      rw [Function.update_self]
      exact haccess
  rwa [heq]

theorem Running.accessPath_ne (h : c.Running d₀ l) : l.accessPath ≠ [] := by
  rw [h.accessPath]
  exact c.named _

/-! ### The system log -/

theorem Running.rotateSystem (h : c.Running d₀ l) (hfp : l.systemLog = some fp) :
    (∃ fp', l.rotateSystem.systemLog = some fp') ∧ c.Running d₀ l.rotateSystem ∧
      c.Same .access (l.files.on d₀) (l.rotateSystem.files.on d₀) := by
  obtain ⟨files', hrotate, hkept, hsame⟩ := h.kept.rotate .system hfp l.systemLines
  have heq : l.rotateSystem =
      { l with systemLog := some l.files.streams, systemLines := 0, files := files' } := by
    simp only [Logger.rotateSystem, h.maxRoll, h.systemPath, hfp, hrotate]
  have haccess : l.accessLog ≠ none := fun hnone =>
    Option.some_ne_none _ (hfp.symm.trans (h.closed hnone))
  rw [heq]
  exact ⟨⟨_, rfl⟩, ⟨hkept.system rfl rfl, h.systemPath, h.accessPath, h.maxRoll,
    fun hnone => absurd hnone haccess⟩, hsame⟩

theorem Running.logWriteSystem (h : c.Running d₀ l) (level : LogLevel) (msg : Option CStr) :
    c.Running d₀ (logWriteSystem level msg l) ∧
      c.Same .access (l.files.on d₀) ((logWriteSystem level msg l).files.on d₀) := by
  cases hsys : l.systemLog with
  | none =>
    have heq : Log.logWriteSystem level msg l = l := by simp only [Log.logWriteSystem, hsys]
    rw [heq]
    exact ⟨h, Same.refl⟩
  | some fp =>
    cases msg with
    | none =>
      have heq : Log.logWriteSystem level none l = l := by simp only [Log.logWriteSystem, hsys]
      rw [heq]
      exact ⟨h, Same.refl⟩
    | some msg =>
      obtain ⟨l₁, hl₁, ⟨fp', hfp'⟩, hrunning, hsame⟩ : ∃ l₁,
          (if l.systemDue then l.rotateSystem else l) = l₁ ∧ (∃ fp', l₁.systemLog = some fp') ∧
          c.Running d₀ l₁ ∧ c.Same .access (l.files.on d₀) (l₁.files.on d₀) := by
        refine ⟨_, rfl, ?_⟩
        split
        · exact h.rotateSystem hsys
        · exact ⟨⟨fp, hsys⟩, h, Same.refl⟩
      obtain ⟨hkept, hwrite⟩ := hrunning.kept.write (.system level msg) hfp'
      have heq : Log.logWriteSystem level (some msg) l =
          { l₁ with
            files := l₁.files.write fp' (.system level msg)
            systemLines := l₁.systemLines + 1 } := by
        simp only [Log.logWriteSystem, hsys, hl₁, hfp']
      rw [heq]
      exact ⟨{ hrunning with kept := hkept }, hsame.trans hwrite⟩

theorem Running.logAt (h : c.Running d₀ l) (message : Option CStr) :
    c.Running d₀ (logAt level message l) ∧
      c.Same .access (l.files.on d₀) ((logAt level message l).files.on d₀) := by
  unfold Log.logAt
  split
  · exact ⟨h, Same.refl⟩
  · exact h.logWriteSystem level message

/-! ### The access log -/

theorem Running.rotateAccess (h : c.Running d₀ l) (hfp : l.accessLog = some fp) :
    ∃ fp' l', rotateAccess fp l = (some fp', l') ∧ l'.accessLog = some fp' ∧ c.Running d₀ l' ∧
      c.Same .system (l.files.on d₀) (l'.files.on d₀) := by
  unfold Log.rotateAccess
  simp only [if_pos h.accessPath_ne]
  split
  · obtain ⟨files', hrotate, hkept, hsame⟩ := h.kept.rotate .access hfp l.accessLines
    simp only [h.maxRoll, h.accessPath, hrotate]
    exact ⟨_, _, rfl, rfl, ⟨hkept.access rfl rfl, h.systemPath, rfl, rfl,
      fun hnone => by cases hnone⟩, hsame⟩
  · exact ⟨fp, l, rfl, hfp, h, Same.refl⟩

theorem Running.logAccess (h : c.Running d₀ l) (clientIp method path : Option CStr)
    (status bytesSent : Int) :
    c.Running d₀ (logAccess clientIp method path status bytesSent l) ∧
      c.Same .system (l.files.on d₀)
        ((logAccess clientIp method path status bytesSent l).files.on d₀) := by
  cases hacc : l.accessLog with
  | none =>
    have heq : Log.logAccess clientIp method path status bytesSent l = l := by
      simp only [Log.logAccess, hacc, h.closed hacc, Option.or_none]
    rw [heq]
    exact ⟨h, Same.refl⟩
  | some fp =>
    obtain ⟨fp', l', hrotate, hfp', hrunning, hsame⟩ := h.rotateAccess hacc
    simp only [Log.logAccess, hacc, Option.some_or, hrotate]
    obtain ⟨hkept, hwrite⟩ := hrunning.kept.write (.access (clientIp.getD (ascii "-"))
      (method.getD (ascii "-")) (path.getD (ascii "-")) status bytesSent) hfp'
    exact ⟨{ hrunning with kept := hkept }, hsame.trans hwrite⟩

/-! ### Opening and closing -/

theorem Running.separate (h : c.Running d₀ l) (hfp : l.systemLog = some fp) :
    l.accessLog ≠ some fp := by
  intro hacc
  have hpath := (h.kept.attached.opened .system fp hfp).symm.trans
    (h.kept.attached.opened .access fp hacc)
  exact path_ne (fun h => by cases h) (Option.some.inj hpath)

theorem Running.reopenSystem (h : c.Running d₀ l) : c.Running d₀ (reopenSystem l) := by
  unfold Log.reopenSystem
  cases hsys : l.systemLog with
  | none => exact h
  | some fp =>
    have hpath : l.systemPath ≠ [] := by
      rw [h.systemPath]
      exact c.named _
    have hkept := h.kept.reopen .system hsys
    rw [← h.systemPath] at hkept
    simp only [if_neg hpath, if_neg (h.separate hsys)]
    exact ⟨hkept.system rfl rfl, h.systemPath, h.accessPath, h.maxRoll,
      fun hnone => absurd (hsys.symm.trans (h.closed hnone)) (Option.some_ne_none _)⟩

theorem Running.reopenAccess (h : c.Running d₀ l) : c.Running d₀ (reopenAccess l) := by
  unfold Log.reopenAccess
  rw [if_pos h.accessPath_ne]
  cases hacc : l.accessLog with
  | none => exact h
  | some fp =>
    have hkept := h.kept.reopen .access hacc
    rw [← h.accessPath] at hkept
    exact ⟨hkept.access rfl rfl, h.systemPath, h.accessPath, h.maxRoll, fun hnone => by cases hnone⟩

theorem same_fclose {files : Files} {side : Side} :
    c.Same side (files.on d₀) ((files.perform (.fclose fp)).on d₀) := by
  rw [on_perform]
  exact Same.refl

theorem Running.closeStreams (h : c.Running d₀ l) :
    c.Running d₀ (closeStreams l) ∧
      c.Same .access (l.files.on d₀) ((closeStreams l).files.on d₀) := by
  cases hacc : l.accessLog with
  | none =>
    have heq : Log.closeStreams l = l := by simp only [Log.closeStreams, h.closed hacc, hacc]
    rw [heq]
    exact ⟨h, Same.refl⟩
  | some a =>
    cases hsys : l.systemLog with
    | none =>
      have heq : Log.closeStreams l =
          { l with accessLog := none, files := l.files.perform (.fclose a) } := by
        simp only [Log.closeStreams, hsys, hacc, ne_eq, reduceCtorEq, not_false_eq_true, if_true]
      have hkept := h.kept.fclose .access hacc
      rw [heq]
      exact ⟨⟨hkept.access rfl rfl, h.systemPath, h.accessPath, h.maxRoll, fun _ => hsys⟩,
        same_fclose⟩
    | some fp =>
      have heq : Log.closeStreams l =
          { l with
            systemLog := none
            accessLog := none
            files := (l.files.perform (.fclose fp)).perform (.fclose a) } := by
        simp only [Log.closeStreams, hsys, hacc, ne_eq, reduceCtorEq, not_false_eq_true, if_true]
      have hsystem : c.Kept d₀ (l.files.perform (.fclose fp))
          (Logger.stream { l with systemLog := none }) :=
        (h.kept.fclose .system hsys).system rfl rfl
      have hkept := hsystem.fclose .access hacc
      rw [heq]
      exact ⟨⟨hkept.access rfl rfl, h.systemPath, h.accessPath, h.maxRoll, fun _ => rfl⟩,
        same_fclose.trans same_fclose⟩

theorem Running.logClose (h : c.Running d₀ l) :
    c.Running d₀ (logClose l) ∧ c.Same .access (l.files.on d₀) ((logClose l).files.on d₀) := by
  obtain ⟨hrunning, hwrite⟩ := h.logWriteSystem .info
    (some (ascii "Logging system shutting down"))
  obtain ⟨hclosed, hclose⟩ := hrunning.closeStreams
  exact ⟨hclosed, hwrite.trans hclose⟩

theorem kept_start {m₀ : CStr → Option (List Item)} :
    c.Kept ⟨m₀, fun _ => none⟩ Logger.start.files Logger.start.stream where
  attached :=
    { fresh := fun _ _ => rfl
      opened := fun side _ h => by cases side <;> cases h
      owned := fun _ _ _ _ h => by cases h }
  account _ := (List.append_nil _).symm

theorem initSystem_eq {path : CStr} (hne : path ≠ []) (hshort : path.length < 256) (n : Nat) :
    initSystem (some path) n l =
      { l with
        systemLog := some (l.files.fopen path).1
        systemPath := path
        systemLines := n
        files := (l.files.fopen path).2.readAll path } := by
  have hcut : cut 256 path = path := List.take_of_length_le (by omega)
  simp only [initSystem, Option.getD_some, if_pos hne, hcut]

theorem initAccess_eq {sys path : CStr} (hne : path ≠ []) (hshort : path.length < 256)
    (hother : sys ≠ path) (n : Nat) :
    initAccess (some sys) (some path) n l =
      { l with
        accessLog := some (l.files.fopen path).1
        accessPath := path
        accessLines := n
        files := (l.files.fopen path).2.readAll path } := by
  have hcut : cut 256 path = path := List.take_of_length_le (by omega)
  simp only [initAccess, Option.getD_some, if_pos hne, Option.some.injEq, if_neg hother, hcut]

/-- `log_init` opens both logs; its line may rotate the system log. -/
theorem running_initialized (c : TwoLogs) (m₀ : CStr → Option (List Item))
    (systemExisting accessExisting : Nat) :
    c.Running ⟨m₀, fun _ => none⟩ (c.initialized systemExisting accessExisting) ∧
      ∀ i ≤ c.rolls, text ((c.initialized systemExisting accessExisting).files.on
        ⟨m₀, fun _ => none⟩).files (c.names .access i) = text m₀ (c.names .access i) := by
  have hother : c.path .system ≠ c.path .access := path_ne fun h => by cases h
  simp only [initialized, logInit, initSystem_eq (c.named _) (c.short _),
    initAccess_eq (c.named _) (c.short _) hother]
  have hsystem : c.Kept ⟨m₀, fun _ => none⟩
      ((Logger.start.files.fopen (c.path .system)).2.readAll (c.path .system))
      (Logger.stream { Logger.start with systemLog := some 0 }) :=
    ((kept_start.fopen .system rfl).readAll (c.path .system)).system rfl rfl
  have hkept := (hsystem.fopen .access rfl).readAll (c.path .access)
  refine And.imp_right (fun hsame i hi => ?_)
    (Running.logWriteSystem ⟨?_, rfl, rfl, rfl, fun hnone => ?_⟩ .info _)
  · refine Eq.trans (congrArg (Option.getD · []) (hsame i hi)) ?_
    exact ((text_readAll.trans text_fopen).trans text_readAll).trans text_fopen
  · exact hkept.access rfl rfl
  · cases hnone

end Running

end TwoLogs

/-! ## The calls after `log_init` -/

/-- The log that a call writes to. -/
def Call.log? : Call → Option Side
  | .debug _ => some .system
  | .info _ => some .system
  | .warning _ => some .system
  | .error _ => some .system
  | .close => some .system
  | .access .. => some .access
  | _ => none

def Call.isInit : Call → Bool
  | .init .. => true
  | _ => false

/-- The logger after some calls. -/
def afterCalls (calls : List Call) (l : Logger) : Logger := calls.foldl (fun l call => call.run l) l

namespace TwoLogs

variable {c : TwoLogs} {d₀ : Disk} {l : Logger}

/-- One call. -/
theorem Running.call {call : Call} (h : c.Running d₀ l) (hcall : call.isInit = false) :
    c.Running d₀ (call.run l) ∧ ∀ side, call.log? = some side →
      c.Same side.other (l.files.on d₀) ((call.run l).files.on d₀) := by
  have hsystem : ∀ {l'}, c.Running d₀ l' ∧ c.Same .access (l.files.on d₀) (l'.files.on d₀) →
      c.Running d₀ l' ∧ ∀ side, some Side.system = some side →
        c.Same side.other (l.files.on d₀) (l'.files.on d₀) := by
    intro l' h'
    refine ⟨h'.1, fun side hside => ?_⟩
    cases hside
    exact h'.2
  cases call with
  | init => cases hcall
  | debug message => exact hsystem (h.logAt message)
  | info message => exact hsystem (h.logAt message)
  | warning message => exact hsystem (h.logAt message)
  | error message => exact hsystem (h.logAt message)
  | setLevel => exact ⟨{ h with }, fun side hside => by cases hside⟩
  | access clientIp method path status bytesSent =>
    have h' := h.logAccess clientIp method path status bytesSent
    refine ⟨h'.1, fun side hside => ?_⟩
    cases hside
    exact h'.2
  | reopen => exact ⟨h.reopenSystem.reopenAccess, fun side hside => by cases hside⟩
  | close => exact hsystem h.logClose

/-- Any calls. -/
theorem Running.calls {calls : List Call} (h : c.Running d₀ l)
    (hcalls : ∀ call ∈ calls, call.isInit = false) : c.Running d₀ (afterCalls calls l) := by
  induction calls generalizing l with
  | nil => exact h
  | cons call calls ih =>
    exact ih (h.call (hcalls call List.mem_cons_self)).1
      fun call' hcall' => hcalls call' (List.mem_cons_of_mem _ hcall')

end TwoLogs

/-- **A log loses its oldest file only.** After any calls, what its files hold comes behind the
removed files, whole and in their order, and is with them what the files held at first and every
line written to the log since. A call for one log changes no file of the other, nor does the
opening of the logs when it rotates the system log. -/
theorem later_calls_retain (c : TwoLogs) (m₀ : CStr → Option (List Item))
    (systemExisting accessExisting : Nat) (calls : List Call)
    (hcalls : ∀ call ∈ calls, call.isInit = false) :
    let d₀ : Disk := ⟨m₀, fun _ => none⟩
    let l := afterCalls calls (c.initialized systemExisting accessExisting)
    (∀ side, (l.files.removed (c.oldest side) d₀).flatten ++ c.contents side (l.files.on d₀).files =
        c.contents side m₀ ++ written side l.files) ∧
      (∀ (call : Call) (side : Side), call.log? = some side →
        c.Same side.other (l.files.on d₀) ((call.run l).files.on d₀)) ∧
      ∀ i ≤ c.rolls, text ((c.initialized systemExisting accessExisting).files.on d₀).files
        (c.names .access i) = text m₀ (c.names .access i) := by
  obtain ⟨hinit, haccess⟩ := TwoLogs.running_initialized c m₀ systemExisting accessExisting
  have hrunning := hinit.calls hcalls
  refine ⟨hrunning.kept.account, fun call side hside => ?_, haccess⟩
  have hcall : call.isInit = false := by
    cases call with
    | init => cases hside
    | _ => rfl
  exact (hrunning.call hcall).2 side hside

def defaultPath : Side → CStr
  | .system => ascii "logs/system.log"
  | .access => ascii "logs/access.log"

theorem defaultPath_named (side : Side) : defaultPath side ≠ [] := by
  cases side <;> exact List.cons_ne_nil _ _

theorem defaultPath_short (side : Side) : (defaultPath side).length < 256 := by
  cases side <;> decide

theorem defaultPath_apart (side : Side) :
    ∀ i ≤ 5, defaultPath side ≠ family (defaultPath side.other) i := by
  cases side <;> decide

/-- Logs of one line a file, with one rotated file each. -/
def shortLogs : TwoLogs where
  path := defaultPath
  maxLines := 1
  rolls := 1
  named := defaultPath_named
  short := defaultPath_short
  rolls_pos := Nat.one_pos
  rolls_lt := Nat.lt_of_lt_of_le (Nat.lt_succ_self 1) (Nat.le_of_ble_eq_true rfl)
  apart side i hi := defaultPath_apart side i (hi.trans (by decide))

/-- Three errors, after which the file with the first is gone. -/
def threeErrors : List Call :=
  [.error (some (ascii "a")), .reopen, .error (some (ascii "b")), .error (some (ascii "c"))]

theorem later_calls_retain_rotated :
    let d₀ : Disk := ⟨fun _ => none, fun _ => none⟩
    let l := afterCalls threeErrors (shortLogs.initialized 0 0)
    (l.files.removed (shortLogs.oldest .system) d₀).flatten.length = 1 ∧
      (shortLogs.contents .system (l.files.on d₀).files).length = 3 ∧
      (l.files.removed (shortLogs.oldest .system) d₀).flatten ++
          shortLogs.contents .system (l.files.on d₀).files =
        shortLogs.contents .system (fun _ => none) ++ written .system l.files :=
  ⟨by decide +kernel, by decide +kernel,
    (later_calls_retain shortLogs (fun _ => none) 0 0 threeErrors (by decide)).1 .system⟩

/-! ## Names that meet -/

/-- What the files of both logs hold is the end of what they held at first and got since. -/
def Retains (path : Side → CStr) (maxLines : Int) (rolls : Nat) (m₀ : CStr → Option (List Item))
    (systemExisting accessExisting : Nat) (calls : List Call) : Prop :=
  let l := afterCalls calls (logInit (some (path .system)) (some (path .access)) maxLines rolls
    systemExisting accessExisting Logger.start)
  ∀ side, holds (family (path side)) rolls (l.files.on ⟨m₀, fun _ => none⟩).files <:+
    holds (family (path side)) rolls m₀ ++ written side l.files

/-- The access log has the name that the rotated system log gets. -/
def meetingPath : Side → CStr
  | .system => ascii "a"
  | .access => ascii "a.1"

/-- The path of the system log does not fit where it is saved. -/
def longPath : Side → CStr
  | .system => List.replicate 256 97
  | .access => ascii "b"

theorem different_paths_lose :
    (¬∀ (path : Side → CStr) (maxLines : Int) (rolls : Nat) (m₀ : CStr → Option (List Item))
      (systemExisting accessExisting : Nat) (calls : List Call),
      (∀ side, path side ≠ []) → path .system ≠ path .access → 1 ≤ maxLines → 1 ≤ rolls →
      rolls < 2 ^ 31 → (∀ call ∈ calls, call.isInit = false) →
      Retains path maxLines rolls m₀ systemExisting accessExisting calls) ∧
    (∀ side, ∀ i ≤ 1, longPath side ≠ family (longPath side.other) i) ∧
      ¬Retains longPath 1 1 (fun _ => none) 0 0 [.error (some (ascii "out of memory"))] := by
  refine ⟨fun hall => ?_, fun side => ?_, fun hlong => ?_⟩
  · have hnamed : ∀ side, meetingPath side ≠ [] := fun side => by
      cases side <;> exact List.cons_ne_nil _ _
    have hkept := hall meetingPath 1 1 (fun _ => none) 0 0
      [.error (some (ascii "out of memory"))] hnamed (by decide) (by decide) (by decide)
      (by decide) (by decide) .access
    revert hkept
    decide
  · cases side <;> decide
  · have hkept := hlong .system
    revert hkept
    decide +kernel

end MiniWeb.Log
