import MiniWeb.Log.Disk

/-!
# The line limit of the log files

A counter stands for the number of lines of the file its log is written to, and a rotation comes
when the counter has reached `max_lines`. As long as no counter lags behind its file no file gets
more lines. Three things make one lag: `log_reopen`, which sets it to zero whatever the file holds;
`log_access` on the stream of the system log, where each log counts its own lines only; and a
rotation with `max_roll` below one, which leaves the file where it is.
-/

namespace MiniWeb.Log

open CStr Rotation Runs
open Config (LogLevel)

/-! ## Lines of a file -/

/-- The line ends in what is printed. -/
def Line.ends : Line → Nat
  | .system _ msg => msg.count 10 + 1
  | .access clientIp method path _ _ => clientIp.count 10 + method.count 10 + path.count 10 + 1

def Item.ends : Item → Nat
  | .byte c => if c = 10 then 1 else 0
  | .line printed => printed.ends

/-- The lines `log_init` counts. -/
def lineEnds (items : List Item) : Nat := (items.map Item.ends).sum

/-- The lines of a file. -/
def Disk.lines (d : Disk) (name : CStr) : Nat := lineEnds (text d.files name)

theorem lineEnds_append (items items' : List Item) :
    lineEnds (items ++ items') = lineEnds items + lineEnds items' := by
  rw [lineEnds, List.map_append, List.sum_append]
  rfl

/-! ## The calls -/

/-- A text without a line end. -/
structure OneLine where
  text : CStr
  single : (10 : UInt8) ∉ text
deriving DecidableEq

/-- Calls of one process: `log_init`, the functions that write one line, `log_set_level` and
`log_reopen`. -/
inductive LogCall
  | init (systemLogPath accessLogPath : Option CStr) (maxRollFiles : Int)
  | message (level : LogLevel) (text : Option OneLine)
  | setLevel (level : LogLevel)
  | access (clientIp method path : Option OneLine) (status bytesSent : Int)
  | reopen
deriving DecidableEq

/-- The call, on a disk that held `d₀` before the first one. `log_init` counts the lines that its
files have at that time. -/
def LogCall.run (maxLines : Nat) (d₀ : Disk) : LogCall → Logger → Logger
  | .init sys acc maxRoll, l =>
    let d := l.files.on d₀
    logInit sys acc maxLines maxRoll (d.lines (sys.getD [])) (d.lines (acc.getD [])) l
  | .message level msg, l => logAt level (msg.map OneLine.text) l
  | .setLevel level, l => logSetLevel level l
  | .access clientIp method path status bytesSent, l =>
    logAccess (clientIp.map OneLine.text) (method.map OneLine.text) (path.map OneLine.text) status
      bytesSent l
  | .reopen, l => logReopen l

def LogCall.step (maxLines : Nat) (d₀ : Disk) (call : LogCall) (l : Logger) : Option Logger :=
  some (call.run maxLines d₀ l)

/-- The names of the log files of a call: the path, the path as it is saved, and its rotated
files. -/
def LogCall.names : LogCall → CStr → Prop
  | .init sys acc _, name =>
    ∃ path, (sys = some path ∨ acc = some path) ∧
      (name = path ∨ name = cut 256 path ∨ ∃ i, name = rolled (cut 256 path) i)
  | _, _ => False

/-- No counter is made to lag: a rotation that is due moves the file away, an access line goes to
a file of its own, and the files of a reopened log are two and empty. -/
def LogCall.safe (maxLines : Nat) (d₀ : Disk) : LogCall → Logger → Bool
  | .init sys _ maxRoll, l =>
    sys.getD [] ≠ [] ∧ maxLines ≤ (l.files.on d₀).lines (sys.getD []) → 1 ≤ maxRoll
  | .message level msg, l =>
    l.passes level (msg.map OneLine.text) = true ∧ l.systemLog ≠ none ∧ l.systemDue = true →
      1 ≤ l.maxRoll
  | .setLevel _, _ => true
  | .access .., l =>
    l.accessLog.or l.systemLog = none ∨
      l.accessPath ≠ [] ∧ (l.maxLines ≤ l.accessLines → 1 ≤ l.maxRoll)
  | .reopen, l =>
    (l.systemLog ≠ none → (l.files.on d₀).lines l.systemPath = 0) ∧
      (l.accessPath ≠ [] ∧ l.accessLog ≠ none → (l.files.on d₀).lines l.accessPath = 0) ∧
      (l.systemPath = l.accessPath → l.systemPath = [])

/-! ## One operation -/

/-- No file of the given names has more than `M` lines. -/
def Within (S : CStr → Prop) (M : Nat) (d : Disk) : Prop := ∀ name, S name → d.lines name ≤ M

/-- The file a stream is on has at most `count` lines. -/
def Tracks (d : Disk) (fp : Stream) (count : Nat) : Prop :=
  ∀ name, d.streams fp = some name → d.files name ≠ none ∧ d.lines name ≤ count

section Operations

variable {S : CStr → Prop} {M count : Nat} {d : Disk} {fp fp' : Stream} {name path old new : CStr}

theorem Within.of_lines {d' : Disk} (h : Within S M d)
    (hlines : ∀ name, d'.lines name ≤ d.lines name) : Within S M d' :=
  fun name hname => (hlines name).trans (h name hname)

theorem lines_fopen : ((FileOp.fopen path fp).apply d).lines name = d.lines name := by
  simp only [Disk.lines, FileOp.apply, text, Function.update_apply]
  split
  next h => rw [h]; rfl
  next => rfl

theorem lines_remove : ((FileOp.remove old).apply d).lines name =
    if name = old then 0 else d.lines name := by
  simp only [Disk.lines, FileOp.apply, text, Function.update_apply]
  split <;> rfl

theorem files_rename (hfile : d.files old ≠ none) : ((FileOp.rename old new).apply d).files =
    Function.update (Function.update d.files old none) new (d.files old) := by
  obtain ⟨items, hitems⟩ := Option.ne_none_iff_exists'.mp hfile
  have happly : ((FileOp.rename old new).apply d).files = move old new d.files :=
    congrArg Disk.files (if_neg hfile)
  rw [happly, move, hitems]

theorem lines_rename (hfile : d.files old ≠ none) :
    ((FileOp.rename old new).apply d).lines name =
      if name = new then d.lines old else if name = old then 0 else d.lines name := by
  rw [Disk.lines, text, files_rename hfile, Function.update_apply, Function.update_apply]
  split
  · rfl
  · split <;> rfl

theorem within_remove (h : Within S M d) : Within S M ((FileOp.remove old).apply d) := by
  refine h.of_lines fun name => ?_
  rw [lines_remove]
  split
  · exact Nat.zero_le _
  · exact Nat.le_refl _

theorem within_rename (h : Within S M d) (hold : S old) :
    Within S M ((FileOp.rename old new).apply d) := by
  by_cases hfile : d.files old = none
  · have hsame : (FileOp.rename old new).apply d = d := if_pos hfile
    rwa [hsame]
  · intro name hname
    rw [lines_rename hfile]
    split
    · exact h old hold
    · split
      · exact Nat.zero_le _
      · exact h name hname

/-- A stream whose file is removed is on no file. -/
theorem Tracks.remove (h : Tracks d fp count) : Tracks ((FileOp.remove old).apply d) fp count := by
  intro name hname
  simp only [FileOp.apply] at hname
  split at hname
  · cases hname
  next hold =>
    have hne : name ≠ old := fun h0 => hold (h0 ▸ hname)
    rw [lines_remove, if_neg hne]
    refine ⟨?_, (h name hname).2⟩
    show Function.update d.files old none name ≠ none
    rw [Function.update_of_ne hne]
    exact (h name hname).1

/-- A stream follows its file. -/
theorem Tracks.rename (h : Tracks d fp count) :
    Tracks ((FileOp.rename old new).apply d) fp count := by
  by_cases hfile : d.files old = none
  · have hsame : (FileOp.rename old new).apply d = d := if_pos hfile
    rwa [hsame]
  · intro name hname
    have hfiles : ((FileOp.rename old new).apply d).files =
        Function.update (Function.update d.files old none) new (d.files old) := files_rename hfile
    rw [lines_rename hfile, hfiles, Function.update_apply, Function.update_apply]
    simp only [FileOp.apply, if_neg hfile] at hname
    split at hname
    next hold =>
      rw [if_pos (Option.some.inj hname).symm, if_pos (Option.some.inj hname).symm]
      exact ⟨hfile, (h old hold).2⟩
    next hold =>
      split at hname
      · cases hname
      next hnew =>
        have h1 : name ≠ new := fun h0 => hnew (h0 ▸ hname)
        have h2 : name ≠ old := fun h0 => hold (h0 ▸ hname)
        rw [if_neg h1, if_neg h1, if_neg h2, if_neg h2]
        exact h name hname

theorem Tracks.fclose (h : Tracks d fp count) : Tracks ((FileOp.fclose fp').apply d) fp count := by
  intro name hname
  simp only [FileOp.apply, Function.update_apply] at hname
  split at hname
  · cases hname
  · exact h name hname

theorem files_fopen : ((FileOp.fopen path fp).apply d).files name ≠ none ↔
    name = path ∨ d.files name ≠ none := by
  simp only [FileOp.apply, Function.update_apply]
  split
  next h => simp [h]
  next h => simp [h]

theorem Tracks.fopen (h : Tracks d fp count) (hne : fp ≠ fp') :
    Tracks ((FileOp.fopen path fp').apply d) fp count := by
  intro name hname
  have hother : ((FileOp.fopen path fp').apply d).streams fp = d.streams fp :=
    Function.update_of_ne hne ..
  rw [hother] at hname
  rw [lines_fopen, files_fopen]
  exact ⟨Or.inr (h name hname).1, (h name hname).2⟩

theorem tracks_fopen (h : d.lines path ≤ count) :
    Tracks ((FileOp.fopen path fp).apply d) fp count := by
  intro name hname
  have hself : ((FileOp.fopen path fp).apply d).streams fp = some path := Function.update_self ..
  rw [hself] at hname
  cases hname
  rw [lines_fopen, files_fopen]
  exact ⟨Or.inl rfl, h⟩

/-- A line goes to the file of its stream. -/
theorem lines_printed {line : Line} (hname : d.streams fp = some path) :
    ((FileOp.fprintf fp line).apply d).lines name =
      if name = path then d.lines path + line.ends else d.lines name := by
  have hfiles : ((FileOp.fprintf fp line).apply d).files =
      Function.update d.files path (some (text d.files path ++ [.line line])) := by
    simp only [FileOp.apply, hname]
  rw [Disk.lines, text, hfiles, Function.update_apply]
  split
  · rw [Option.getD_some, lineEnds_append]
    rfl
  · rfl

theorem fprintf_nowhere {line : Line} (hnone : d.streams fp = none) :
    (FileOp.fprintf fp line).apply d = d := by
  simp only [FileOp.apply, hnone]

end Operations

/-! ## The files of a run -/

section Files

variable {S : CStr → Prop} {M count : Nat} {d₀ : Disk} {files files' files'' : Files}
  {fp fp' : Stream} {name path old new : CStr} {op : FileOp}

/-- At no time of a run a file had more lines. -/
def Held (S : CStr → Prop) (M : Nat) (d₀ : Disk) (files : Files) : Prop :=
  ∀ ops, ops <+: files.ops → Within S M (ops.foldl (fun d op => op.apply d) d₀)

theorem Held.within (h : Held S M d₀ files) : Within S M (files.on d₀) := h _ List.prefix_rfl

/-- One operation more. -/
theorem Held.append (h : Held S M d₀ files) {n : Nat}
    (hop : Within S M (op.apply (files.on d₀))) :
    Held S M d₀ ⟨n, files.ops ++ [op]⟩ := by
  intro ops hops
  rcases List.prefix_concat_iff.mp hops with rfl | hops
  · rw [List.foldl_append]
    exact hop
  · exact h ops hops

theorem Held.fflush (h : Held S M d₀ files) : Held S M d₀ (files.perform (.fflush fp)) :=
  h.append h.within

/-- What operations that move files keep: the limit, and every counter. -/
structure Moves (S : CStr → Prop) (M : Nat) (d₀ : Disk) (files files' : Files) : Prop where
  streams : files'.streams = files.streams
  held : Held S M d₀ files → Held S M d₀ files'
  tracks : ∀ fp count, Tracks (files.on d₀) fp count → Tracks (files'.on d₀) fp count

theorem Moves.refl : Moves S M d₀ files files := ⟨rfl, id, fun _ _ => id⟩

theorem Moves.trans (h : Moves S M d₀ files files') (h' : Moves S M d₀ files' files'') :
    Moves S M d₀ files files'' :=
  ⟨h'.streams.trans h.streams, fun hheld => h'.held (h.held hheld),
    fun fp count htracks => h'.tracks fp count (h.tracks fp count htracks)⟩

theorem moves_remove : Moves S M d₀ files (files.perform (.remove old)) := by
  refine ⟨rfl, fun h => h.append (within_remove h.within), fun fp count h => ?_⟩
  rw [on_perform]
  exact h.remove

theorem moves_rename (hold : S old) : Moves S M d₀ files (files.perform (.rename old new)) := by
  refine ⟨rfl, fun h => h.append (within_rename h.within hold), fun fp count h => ?_⟩
  rw [on_perform]
  exact h.rename

theorem moves_fclose : Moves S M d₀ files (files.perform (.fclose fp)) := by
  refine ⟨rfl, fun h => h.append (h.within.of_lines fun _ => Nat.le_refl _), fun fp count h => ?_⟩
  rw [on_perform]
  exact h.fclose

theorem moves_shift (maxRoll : Int) (hS : ∀ i, S (rolled path i)) (i : Nat) :
    Moves S M d₀ files (shift path maxRoll i files) := by
  induction i generalizing files with
  | zero => exact .refl
  | succ i ih =>
    rw [shift]
    refine Moves.trans ?_ ih
    split
    · exact moves_remove
    · exact moves_rename (hS _)

theorem Held.fopen (h : Held S M d₀ files) (path : CStr) : Held S M d₀ (files.fopen path).2 :=
  h.append (h.within.of_lines fun _ => Nat.le_of_eq lines_fopen)

theorem rolled_one_ne (hpath : path.length < 256) : rolled path 1 ≠ path := by
  intro h
  have hlen := congrArg List.length h
  have hdot : (ascii "." ++ decimal 1).length = 2 := rfl
  rw [rolled, cut, List.length_take, List.append_assoc, List.length_append, hdot] at hlen
  omega

/-- After the last renaming the log has no lines under its name, and no stream is on a file of
that name. -/
theorem rename_leaves {d : Disk} (hne : old ≠ new) :
    ((FileOp.rename old new).apply d).lines old = 0 ∧
      ∀ fp count, Tracks d fp count → ((FileOp.rename old new).apply d).streams fp ≠ some old := by
  by_cases hfile : d.files old = none
  · have hsame : (FileOp.rename old new).apply d = d := if_pos hfile
    rw [hsame]
    refine ⟨?_, fun fp count h hname => (h old hname).1 hfile⟩
    rw [Disk.lines, text, hfile]
    rfl
  · refine ⟨?_, fun fp count _ hname => ?_⟩
    · rw [lines_rename hfile, if_neg hne, if_pos rfl]
    · simp only [FileOp.apply, if_neg hfile] at hname
      split at hname
      · exact hne (Option.some.inj hname).symm
      next hold =>
        split at hname
        · cases hname
        · exact hold hname

/-- What a rotation with `1 ≤ maxRoll` does: the log has a new empty file, and nobody else is on
it. -/
structure Renewed (S : CStr → Prop) (M : Nat) (d₀ : Disk) (path : CStr) (fp : Stream)
    (files files' : Files) : Prop where
  streams : files'.streams = files.streams + 1
  held : Held S M d₀ files'
  own : Tracks (files'.on d₀) files.streams 0
  others : ∀ fp' count, fp' < files.streams → Tracks (files.on d₀) fp' count →
    Tracks (files'.on d₀) fp' count
  apart : ∀ fp' count name, fp' < files.streams → Tracks (files.on d₀) fp' count →
    (files'.on d₀).streams files.streams = some name → (files'.on d₀).streams fp' ≠ some name

theorem rotateLog_renews (h : Held S M d₀ files) {maxRoll : Int} (hroll : 1 ≤ maxRoll)
    (hne : path ≠ []) (hpath : path.length < 256) (hS : S path) (hrolled : ∀ i, S (rolled path i))
    (fp : Stream) (lineCount : Nat) :
    ∃ files', rotateLog maxRoll path (some fp) lineCount files = (some files.streams, 0, files') ∧
      Renewed S M d₀ path fp files files' := by
  obtain ⟨files₁, hfiles₁⟩ : ∃ files₁,
      files₁ = shift path maxRoll maxRoll.toNat (files.perform (.fclose fp)) := ⟨_, rfl⟩
  have hmoves : Moves S M d₀ files files₁ :=
    hfiles₁ ▸ moves_fclose.trans (moves_shift maxRoll hrolled _)
  have hlast : Moves S M d₀ files₁ (files₁.perform (.rename path (rolled path 1))) :=
    moves_rename hS
  have hall := hmoves.trans hlast
  obtain ⟨hempty, hleft⟩ := rename_leaves (d := files₁.on d₀) (rolled_one_ne hpath).symm
  rw [← on_perform] at hempty hleft
  have hstreams : (files₁.perform (.rename path (rolled path 1))).streams = files.streams :=
    hall.streams
  have hretire : retire maxRoll path (files.perform (.fclose fp)) =
      files₁.perform (.rename path (rolled path 1)) := by
    rw [retire, if_pos hroll, hfiles₁]
  refine ⟨((files₁.perform (.rename path (rolled path 1))).fopen path).2, ?_,
    congrArg (· + 1) hstreams, (hall.held h).fopen path, ?_, fun fp' count hlt htracks => ?_,
    fun fp' count name hlt htracks hown => ?_⟩
  · rw [rotateLog, if_neg hne, hretire]
    exact congrArg (fun n => (some n, 0, _)) hstreams
  · rw [on_fopen, hstreams]
    exact tracks_fopen (Nat.le_of_eq hempty)
  · rw [on_fopen, hstreams]
    exact (hall.tracks fp' count htracks).fopen (Nat.ne_of_lt hlt)
  · rw [on_fopen, hstreams] at hown ⊢
    have hself : ((FileOp.fopen path files.streams).apply
        ((files₁.perform (.rename path (rolled path 1))).on d₀)).streams files.streams =
          some path := Function.update_self ..
    rw [hself] at hown
    cases hown
    have hother : ((FileOp.fopen path files.streams).apply
        ((files₁.perform (.rename path (rolled path 1))).on d₀)).streams fp' =
          ((files₁.perform (.rename path (rolled path 1))).on d₀).streams fp' :=
      Function.update_of_ne (Nat.ne_of_lt hlt) ..
    rw [hother]
    exact hleft fp' count (hmoves.tracks fp' count htracks)

/-- A line more in a file that has room. -/
theorem Held.write (h : Held S M d₀ files) {line : Line} (hline : line.ends = 1)
    (htracks : Tracks (files.on d₀) fp count) (hroom : count < M) :
    Held S M d₀ (files.write fp line) ∧ Tracks ((files.write fp line).on d₀) fp (count + 1) ∧
      ((files.write fp line).on d₀).streams = (files.on d₀).streams ∧
      ∀ fp' count', Tracks (files.on d₀) fp' count' →
        (∀ name, (files.on d₀).streams fp = some name → (files.on d₀).streams fp' ≠ some name) →
        Tracks ((files.write fp line).on d₀) fp' count' := by
  have hon : (files.write fp line).on d₀ = (FileOp.fprintf fp line).apply (files.on d₀) := by
    rw [Files.write, on_perform, on_perform]
    rfl
  cases hname : (files.on d₀).streams fp with
  | none =>
    have hsame : (FileOp.fprintf fp line).apply (files.on d₀) = files.on d₀ :=
      fprintf_nowhere hname
    have hprint : Held S M d₀ (files.perform (.fprintf fp line)) := by
      refine h.append ?_
      rw [hsame]
      exact h.within
    rw [hon, hsame]
    refine ⟨hprint.fflush, fun name h0 => ?_, rfl, fun fp' count' ht _ => ht⟩
    rw [hname] at h0
    cases h0
  | some path =>
    have hstreams : ((FileOp.fprintf fp line).apply (files.on d₀)).streams =
        (files.on d₀).streams := by simp only [FileOp.apply, hname]
    have hfiles : ∀ name, (files.on d₀).files name ≠ none →
        ((FileOp.fprintf fp line).apply (files.on d₀)).files name ≠ none := by
      intro name hfile
      simp only [FileOp.apply, hname, Function.update_apply]
      split
      · exact Option.some_ne_none _
      · exact hfile
    obtain ⟨hfile, hcount⟩ := htracks path hname
    rw [hon]
    refine ⟨?_, fun name h0 => ?_, hstreams, fun fp' count' ht hapart name h0 => ?_⟩
    · have hprint : Held S M d₀ (files.perform (.fprintf fp line)) := by
        refine h.append fun name hS => ?_
        rw [lines_printed hname, hline]
        split
        · omega
        · exact h.within name hS
      exact hprint.fflush
    · rw [hstreams] at h0
      rw [hname] at h0
      cases h0
      rw [lines_printed hname, if_pos rfl, hline]
      exact ⟨hfiles path hfile, by omega⟩
    · rw [hstreams] at h0
      have hne : name ≠ path := fun h1 => hapart path rfl (h1 ▸ h0)
      rw [lines_printed hname, if_neg hne]
      exact ⟨hfiles name (ht name h0).1, (ht name h0).2⟩

/-! ## Counters -/

/-- An open stream with a counter that does not lag behind its file. -/
structure Counted (d₀ : Disk) (files : Files) (fp : Stream) (count : Nat) : Prop where
  opened : fp < files.streams
  tracks : Tracks (files.on d₀) fp count

/-- Two streams on two files. -/
structure Apart (d₀ : Disk) (files : Files) (fp fp' : Stream) : Prop where
  streams : fp ≠ fp'
  names : ∀ name, (files.on d₀).streams fp = some name → (files.on d₀).streams fp' ≠ some name

/-- What work for one log, from the stream `fp` to `fp'`, leaves. -/
structure Ready (S : CStr → Prop) (M : Nat) (d₀ : Disk) (files files' : Files) (fp fp' : Stream)
    (count : Nat) : Prop where
  held : Held S M d₀ files'
  own : Counted d₀ files' fp' count
  others : ∀ other n, Counted d₀ files other n → Apart d₀ files fp other →
    Counted d₀ files' other n ∧ Apart d₀ files' fp' other

theorem ready_rotateLog (h : Held S M d₀ files) {maxRoll : Int} (hroll : 1 ≤ maxRoll)
    (hne : path ≠ []) (hpath : path.length < 256) (hS : S path) (hrolled : ∀ i, S (rolled path i))
    (fp : Stream) (lineCount : Nat) :
    ∃ files', rotateLog maxRoll path (some fp) lineCount files = (some files.streams, 0, files') ∧
      Ready S M d₀ files files' fp files.streams 0 := by
  obtain ⟨files', heq, hnew⟩ := rotateLog_renews h hroll hne hpath hS hrolled fp lineCount
  have hlt : files.streams < files'.streams := by
    rw [hnew.streams]
    exact Nat.lt_succ_self _
  refine ⟨files', heq, hnew.held, ⟨hlt, hnew.own⟩, fun other n hother _ => ⟨⟨?_, ?_⟩, ?_, ?_⟩⟩
  · exact hother.opened.trans hlt
  · exact hnew.others other n hother.opened hother.tracks
  · exact (Nat.ne_of_lt hother.opened).symm
  · exact fun name => hnew.apart other n name hother.opened hother.tracks

theorem ready_refl (h : Held S M d₀ files) (hown : Counted d₀ files fp count) :
    Ready S M d₀ files files fp fp count := ⟨h, hown, fun _ _ hother hapart => ⟨hother, hapart⟩⟩

theorem Ready.write (h : Ready S M d₀ files files' fp fp' count) {line : Line}
    (hline : line.ends = 1) (hroom : count < M) :
    Ready S M d₀ files (files'.write fp' line) fp fp' (count + 1) := by
  obtain ⟨hheld, hown, hstreams, hothers⟩ := h.held.write hline h.own.tracks hroom
  refine ⟨hheld, ⟨h.own.opened, hown⟩, fun other n hother hapart => ?_⟩
  obtain ⟨hcounted, hnow⟩ := h.others other n hother hapart
  refine ⟨⟨hcounted.opened, hothers other n hcounted.tracks hnow.names⟩, hnow.streams, ?_⟩
  rw [hstreams]
  exact hnow.names

theorem streams_fopen : ((files.fopen path).2.on d₀).streams files.streams = some path := by
  rw [on_fopen]
  exact Function.update_self ..

theorem streams_readAll (hlt : fp < files.streams) :
    ((files.readAll path).on d₀).streams fp = (files.on d₀).streams fp := by
  rw [readAll_on]
  show Function.update (Function.update (files.on d₀).streams files.streams (some path))
    files.streams none fp = _
  rw [Function.update_of_ne (Nat.ne_of_lt hlt), Function.update_of_ne (Nat.ne_of_lt hlt)]

/-- Work on other streams: no counter begins to lag, and no stream comes to a file. -/
structure Steady (S : CStr → Prop) (M : Nat) (d₀ : Disk) (files files' : Files) : Prop where
  held : Held S M d₀ files → Held S M d₀ files'
  counted : ∀ fp n, Counted d₀ files fp n → Counted d₀ files' fp n
  streams : ∀ fp name, fp < files.streams → (files'.on d₀).streams fp = some name →
    (files.on d₀).streams fp = some name

theorem steady_fopen (path : CStr) : Steady S M d₀ files (files.fopen path).2 where
  held h := h.fopen path
  counted fp n h := by
    refine ⟨h.opened.trans (Nat.lt_succ_self _), ?_⟩
    rw [on_fopen]
    exact h.tracks.fopen (Nat.ne_of_lt h.opened)
  streams fp name hlt hname := by
    rw [on_fopen] at hname
    exact (Function.update_of_ne (Nat.ne_of_lt hlt) ..).symm.trans hname

theorem steady_fclose (fp : Stream) : Steady S M d₀ files (files.perform (.fclose fp)) where
  held := moves_fclose.held
  counted other n h := by
    have hmoves : Moves S M d₀ files (files.perform (.fclose fp)) := moves_fclose
    exact ⟨h.opened, hmoves.tracks other n h.tracks⟩
  streams other name _ hname := by
    rw [on_perform] at hname
    simp only [FileOp.apply, Function.update_apply] at hname
    split at hname
    · cases hname
    · exact hname

theorem Steady.trans (h : Steady S M d₀ files files') (h' : Steady S M d₀ files' files'')
    (hle : files.streams ≤ files'.streams) : Steady S M d₀ files files'' where
  held hheld := h'.held (h.held hheld)
  counted fp n hcounted := h'.counted fp n (h.counted fp n hcounted)
  streams fp name hlt hname := h.streams fp name hlt (h'.streams fp name (hlt.trans_le hle) hname)

theorem steady_fgetc : Steady S M d₀ files (files.perform (.fgetc fp)) where
  held h := h.append (h.within.of_lines fun _ => Nat.le_refl _)
  counted other n h := by
    refine ⟨h.opened, ?_⟩
    rw [on_perform]
    exact h.tracks
  streams other name _ hname := by
    rw [on_perform] at hname
    exact hname

theorem steady_readAll : Steady S M d₀ files (files.readAll path) :=
  ((steady_fopen path).trans steady_fgetc (Nat.le_succ _)).trans (steady_fclose _) (Nat.le_succ _)

theorem Steady.apart (h : Steady S M d₀ files files') (hapart : Apart d₀ files fp fp')
    (hlt : fp < files.streams) (hlt' : fp' < files.streams) : Apart d₀ files' fp fp' where
  streams := hapart.streams
  names name hname hname' :=
    hapart.names name (h.streams fp name hlt hname) (h.streams fp' name hlt' hname')

theorem Apart.symm (h : Apart d₀ files fp fp') : Apart d₀ files fp' fp :=
  ⟨h.streams.symm, fun name hname hother => h.names name hother hname⟩

end Files

/-! ## The logger -/

/-- The saved path of a log and the names of its rotated files are under the limit. -/
structure Saved (S : CStr → Prop) (path : CStr) : Prop where
  short : path.length < 256
  own : S path
  rolled : ∀ i, S (rolled path i)

/-- Between two calls: the limit held so far, and no counter in use lags. The counter of an access
log without a path of its own is not in use. -/
structure Limited (S : CStr → Prop) (M : Nat) (d₀ : Disk) (l : Logger) : Prop where
  held : Held S M d₀ l.files
  maxLines : l.systemLog ≠ none ∨ l.accessLog ≠ none → l.maxLines = M
  savedSystem : l.systemPath ≠ [] → Saved S l.systemPath
  savedAccess : l.accessPath ≠ [] → Saved S l.accessPath
  system : ∀ fp, l.systemLog = some fp → l.systemPath ≠ [] ∧ Counted d₀ l.files fp l.systemLines
  access : l.accessPath ≠ [] → ∃ fp, l.accessLog = some fp ∧ Counted d₀ l.files fp l.accessLines
  apart : l.accessPath ≠ [] → ∀ fs fa, l.systemLog = some fs → l.accessLog = some fa →
    Apart d₀ l.files fs fa

section Calls

variable {S : CStr → Prop} {M count : Nat} {d₀ : Disk} {l : Logger} {fp fp' : Stream}
  {files' : Files}

theorem Limited.of_system (h : Limited S M d₀ l) (hfp : l.systemLog = some fp)
    (hready : Ready S M d₀ l.files files' fp fp' count) :
    Limited S M d₀ { l with systemLog := some fp', systemLines := count, files := files' } where
  held := hready.held
  maxLines _ := h.maxLines (Or.inl (hfp ▸ Option.some_ne_none fp))
  savedSystem := h.savedSystem
  savedAccess := h.savedAccess
  system fs hfs := by
    cases hfs
    exact ⟨(h.system fp hfp).1, hready.own⟩
  access hpath := by
    obtain ⟨fa, hfa, hcounted⟩ := h.access hpath
    exact ⟨fa, hfa, (hready.others fa _ hcounted (h.apart hpath fp fa hfp hfa)).1⟩
  apart hpath fs fa hfs hfa := by
    cases hfs
    obtain ⟨fa', hfa', hcounted⟩ := h.access hpath
    cases hfa.symm.trans hfa'
    exact (hready.others fa _ hcounted (h.apart hpath fp fa hfp hfa)).2

theorem Limited.of_access (h : Limited S M d₀ l) (hpath : l.accessPath ≠ [])
    (hfp : l.accessLog = some fp) (hready : Ready S M d₀ l.files files' fp fp' count) :
    Limited S M d₀ { l with accessLog := some fp', accessLines := count, files := files' } where
  held := hready.held
  maxLines _ := h.maxLines (Or.inr (hfp ▸ Option.some_ne_none fp))
  savedSystem := h.savedSystem
  savedAccess := h.savedAccess
  system fs hfs := by
    obtain ⟨hsys, hcounted⟩ := h.system fs hfs
    exact ⟨hsys, (hready.others fs _ hcounted (h.apart hpath fs fp hfs hfp).symm).1⟩
  access _ := ⟨fp', rfl, hready.own⟩
  apart _ fs fa hfs hfa := by
    cases hfa
    exact (hready.others fs _ (h.system fs hfs).2 (h.apart hpath fs fp hfs hfp).symm).2.symm

theorem Limited.logWriteSystem (h : Limited S M d₀ l) (hM : 1 ≤ M) (level : LogLevel)
    {msg : Option CStr} (hmsg : ∀ text, msg = some text → (10 : UInt8) ∉ text)
    (hroll : l.systemLog ≠ none → l.systemDue = true → 1 ≤ l.maxRoll) :
    Limited S M d₀ (logWriteSystem level msg l) := by
  cases hfp : l.systemLog with
  | none =>
    rw [logWriteSystem_none hfp]
    exact h
  | some fp =>
    cases msg with
    | none =>
      have hskip : Log.logWriteSystem level none l = l := by simp only [Log.logWriteSystem, hfp]
      rw [hskip]
      exact h
    | some msg =>
      have hopen : l.systemLog ≠ none := hfp ▸ Option.some_ne_none fp
      obtain ⟨hpath, hcounted⟩ := h.system fp hfp
      have hline : (Line.system level msg).ends = 1 := by
        rw [Line.ends, List.count_eq_zero_of_not_mem (hmsg msg rfl)]
      by_cases hdue : l.systemDue = true
      · have hsaved := h.savedSystem hpath
        obtain ⟨files', heq, hready⟩ := ready_rotateLog h.held (hroll hopen hdue) hpath
          hsaved.short hsaved.own hsaved.rolled fp l.systemLines
        have hrotated : l.rotateSystem =
            { l with systemLog := some l.files.streams, systemLines := 0, files := files' } := by
          rw [Logger.rotateSystem, hfp, heq]
        have hwritten := h.of_system hfp (hready.write hline hM)
        simp only [Log.logWriteSystem, hfp, if_pos hdue, hrotated]
        exact hwritten
      · have hroom : l.systemLines < M := by
          have hmax := h.maxLines (Or.inl hopen)
          have hlt : ¬(0 < l.maxLines ∧ l.maxLines ≤ l.systemLines ∧ l.systemPath ≠ []) :=
            fun h0 => hdue (decide_eq_true h0)
          by_contra hle
          exact hlt ⟨by omega, by omega, hpath⟩
        have hwritten := h.of_system hfp ((ready_refl h.held hcounted).write hline hroom)
        simp only [Log.logWriteSystem, hfp, if_neg hdue]
        exact hwritten

theorem Limited.logAccess (h : Limited S M d₀ l) (hM : 1 ≤ M) (hpath : l.accessPath ≠ [])
    (hroll : l.maxLines ≤ l.accessLines → 1 ≤ l.maxRoll) {clientIp method path : Option CStr}
    (hip : ∀ text, clientIp = some text → (10 : UInt8) ∉ text)
    (hmethod : ∀ text, method = some text → (10 : UInt8) ∉ text)
    (hname : ∀ text, path = some text → (10 : UInt8) ∉ text) (status bytesSent : Int) :
    Limited S M d₀ (logAccess clientIp method path status bytesSent l) := by
  obtain ⟨fp, hfp, hcounted⟩ := h.access hpath
  have hdash : ∀ text : Option CStr, (∀ t, text = some t → (10 : UInt8) ∉ t) →
      (text.getD (ascii "-")).count 10 = 0 := by
    intro text htext
    refine List.count_eq_zero_of_not_mem ?_
    cases text with
    | none => exact fun hmem => by cases hmem with | tail _ hmem => cases hmem
    | some text => exact htext text rfl
  have hline : (Line.access (clientIp.getD (ascii "-")) (method.getD (ascii "-"))
      (path.getD (ascii "-")) status bytesSent).ends = 1 := by
    rw [Line.ends, hdash _ hip, hdash _ hmethod, hdash _ hname]
  have hmax := h.maxLines (Or.inr (hfp ▸ Option.some_ne_none fp))
  by_cases hdue : l.maxLines ≤ l.accessLines
  · have hsaved := h.savedAccess hpath
    obtain ⟨files', heq, hready⟩ := ready_rotateLog h.held (hroll hdue) hpath
      hsaved.short hsaved.own hsaved.rolled fp l.accessLines
    have hrotated : rotateAccess fp l = (some l.files.streams,
        { l with accessLog := some l.files.streams, accessLines := 0, files := files' }) := by
      have hall : 0 < l.maxLines ∧ l.maxLines ≤ l.accessLines ∧ l.accessPath ≠ [] :=
        ⟨by omega, hdue, hpath⟩
      simp only [rotateAccess, if_pos hpath, if_pos hall, heq]
    have hwritten := h.of_access hpath hfp (hready.write hline hM)
    simp only [Log.logAccess, hfp, Option.some_or, hrotated]
    exact hwritten
  · have hkept : rotateAccess fp l = (some fp, l) := by
      unfold rotateAccess
      exact if_neg fun h0 => hdue h0.2.1
    have hwritten := h.of_access hpath hfp
      ((ready_refl h.held hcounted).write hline (by omega))
    simp only [Log.logAccess, hfp, Option.some_or, hkept]
    exact hwritten

/-! ### Opening and closing -/

theorem Limited.steady (h : Limited S M d₀ l) (hsteady : Steady S M d₀ l.files files') :
    Limited S M d₀ { l with files := files' } where
  held := hsteady.held h.held
  maxLines := h.maxLines
  savedSystem := h.savedSystem
  savedAccess := h.savedAccess
  system fs hfs := ⟨(h.system fs hfs).1, hsteady.counted fs _ (h.system fs hfs).2⟩
  access hpath := by
    obtain ⟨fa, hfa, hcounted⟩ := h.access hpath
    exact ⟨fa, hfa, hsteady.counted fa _ hcounted⟩
  apart hpath fs fa hfs hfa := by
    obtain ⟨fa', hfa', hcounted⟩ := h.access hpath
    cases hfa.symm.trans hfa'
    exact hsteady.apart (h.apart hpath fs fa hfs hfa) (h.system fs hfs).2.opened hcounted.opened

/-- A system log opened on a file whose lines are counted; the access log is to follow. -/
theorem limited_open_system {path name : CStr} (level : LogLevel) (maxRoll : Int)
    (accessLog : Option Stream) (accessLines : Nat) {files : Files} (h : Held S M d₀ files)
    (hpath : path ≠ []) (hsaved : Saved S path) (hcount : (files.on d₀).lines name ≤ count) :
    Limited S M d₀ ⟨some files.streams, accessLog, level, M, maxRoll, count, accessLines, path, [],
      (files.fopen name).2⟩ where
  held := h.fopen name
  maxLines _ := rfl
  savedSystem _ := hsaved
  savedAccess hnone := absurd rfl hnone
  system fs hfs := by
    cases hfs
    refine ⟨hpath, Nat.lt_succ_self _, ?_⟩
    rw [on_fopen]
    exact tracks_fopen hcount
  access hnone := absurd rfl hnone
  apart hnone := absurd rfl hnone

/-- An access log opened on a file whose lines are counted and on which the system log is not. -/
theorem Limited.open_access {path name : CStr} (h : Limited S M d₀ { l with accessPath := [] })
    (hmax : l.maxLines = M) (hsaved : path ≠ [] → Saved S path)
    (hcount : (l.files.on d₀).lines name ≤ count)
    (hfree : ∀ fs, l.systemLog = some fs → (l.files.on d₀).streams fs ≠ some name) :
    Limited S M d₀ { l with
      accessLog := some l.files.streams
      accessPath := path
      accessLines := count
      files := (l.files.fopen name).2 } where
  held := h.held.fopen name
  maxLines _ := hmax
  savedSystem := h.savedSystem
  savedAccess := hsaved
  system := (h.steady (steady_fopen name)).system
  access _ := by
    refine ⟨_, rfl, Nat.lt_succ_self _, ?_⟩
    rw [on_fopen]
    exact tracks_fopen hcount
  apart _ fs fa hfs hfa := by
    cases hfa
    have hlt := (h.system fs hfs).2.opened
    refine ⟨Nat.ne_of_lt hlt, fun other hname hown => ?_⟩
    rw [streams_fopen] at hown
    cases hown
    exact hfree fs hfs ((steady_fopen (S := S) (M := M) name).streams fs name hlt hname)

theorem Limited.of_system_only (h : Limited S M d₀ l) :
    Limited S M d₀ { l with accessPath := [] } where
  held := h.held
  maxLines := h.maxLines
  savedSystem := h.savedSystem
  savedAccess hnone := absurd rfl hnone
  system := h.system
  access hnone := absurd rfl hnone
  apart hnone := absurd rfl hnone

/-- A logger whose access log has no path of its own. -/
theorem Limited.of_local (h : Limited S M d₀ { l with accessPath := [] })
    (log : Option Stream) (lines : Nat)
    (hmax : l.systemLog ≠ none ∨ log ≠ none → l.maxLines = M) :
    Limited S M d₀ { l with accessLog := log, accessLines := lines, accessPath := [] } where
  held := h.held
  maxLines := hmax
  savedSystem := h.savedSystem
  savedAccess hnone := absurd rfl hnone
  system := h.system
  access hnone := absurd rfl hnone
  apart hnone := absurd rfl hnone

/-- The system part of `log_init`. -/
theorem limited_initSystem (hheld : Held S M d₀ l.files) (hmax : l.maxLines = M)
    {sys : Option CStr} (hcount : (l.files.on d₀).lines (sys.getD []) ≤ count)
    (hsaved : sys.getD [] ≠ [] → Saved S (cut 256 (sys.getD []))) :
    Limited S M d₀ { initSystem sys count l with accessPath := [] } ∧
      ∀ fs, (initSystem sys count l).systemLog = some fs →
        ((initSystem sys count l).files.on d₀).streams fs = some (sys.getD []) := by
  unfold initSystem
  simp only
  by_cases hpath : sys.getD [] ≠ []
  · simp only [if_pos hpath]
    have hcut : cut 256 (sys.getD []) ≠ [] := fun h0 =>
      hpath ((List.take_eq_nil_iff.mp h0).resolve_left (by omega))
    have hopened := limited_open_system l.logLevel l.maxRoll l.accessLog l.accessLines hheld hcut
      (hsaved hpath) hcount
    rw [hmax]
    refine ⟨hopened.steady steady_readAll, fun fs hfs => ?_⟩
    cases hfs
    exact (streams_readAll (Nat.lt_succ_self _)).trans streams_fopen
  · simp only [if_neg hpath]
    refine ⟨⟨hheld, fun _ => hmax, fun h0 => absurd rfl h0, fun h0 => absurd rfl h0,
      fun fs hfs => ?_, fun h0 => absurd rfl h0, fun h0 => absurd rfl h0⟩, fun fs hfs => ?_⟩
    · cases hfs
    · cases hfs

theorem lines_initSystem {sys : Option CStr} {name : CStr} :
    ((initSystem sys count l).files.on d₀).lines name = (l.files.on d₀).lines name := by
  unfold initSystem
  simp only
  split
  · rw [Disk.lines, text_readAll, text_fopen]
    rfl
  · rfl

/-- The access part of `log_init`. -/
theorem Limited.initAccess {sys acc : Option CStr}
    (h : Limited S M d₀ { l with accessPath := [] }) (hmax : l.maxLines = M)
    (hcount : (l.files.on d₀).lines (acc.getD []) ≤ count)
    (hsaved : acc.getD [] ≠ [] → Saved S (cut 256 (acc.getD [])))
    (hfree : ∀ fs, l.systemLog = some fs → (l.files.on d₀).streams fs = some (sys.getD [])) :
    Limited S M d₀ (initAccess sys acc count l) := by
  unfold Log.initAccess
  simp only
  by_cases hpath : acc.getD [] ≠ []
  · rw [if_pos hpath]
    split
    · exact h.of_local l.systemLog l.systemLines fun _ => hmax
    next hdiffer =>
      have hother : ∀ fs, l.systemLog = some fs →
          (l.files.on d₀).streams fs ≠ some (acc.getD []) := by
        intro fs hfs hname
        have hsame := Option.some.inj ((hfree fs hfs).symm.trans hname)
        cases sys with
        | none => exact hpath hsame.symm
        | some sys => exact hdiffer (congrArg some hsame)
      exact (h.open_access hmax (fun _ => hsaved hpath) hcount hother).steady steady_readAll
  · rw [if_neg hpath]
    exact h.of_local none l.accessLines fun _ => hmax

/-- The access part leaves the counter of the system log. -/
theorem initAccess_system (sys acc : Option CStr) (count : Nat) (l : Logger) :
    (initAccess sys acc count l).systemLog = l.systemLog ∧
      (initAccess sys acc count l).systemLines = l.systemLines ∧
      (initAccess sys acc count l).maxLines = l.maxLines ∧
      (initAccess sys acc count l).maxRoll = l.maxRoll := by
  unfold initAccess
  simp only
  split
  · split
    · exact ⟨rfl, rfl, rfl, rfl⟩
    · exact ⟨rfl, rfl, rfl, rfl⟩
  · exact ⟨rfl, rfl, rfl, rfl⟩

theorem initSystem_opens {sys : Option CStr} (hopen : (initSystem sys count l).systemLog ≠ none) :
    sys.getD [] ≠ [] ∧ (initSystem sys count l).systemLines = count := by
  unfold initSystem at hopen ⊢
  simp only at hopen ⊢
  split at hopen
  next hpath =>
    rw [if_pos hpath]
    exact ⟨hpath, rfl⟩
  next => exact absurd rfl hopen

theorem initSystem_limits (sys : Option CStr) (count : Nat) (l : Logger) :
    (initSystem sys count l).maxLines = l.maxLines ∧
      (initSystem sys count l).maxRoll = l.maxRoll := by
  unfold initSystem
  simp only
  split
  · exact ⟨rfl, rfl⟩
  · exact ⟨rfl, rfl⟩

/-- The names of one log. -/
theorem saved_of_names {path : CStr} (h : ∀ name,
    (name = path ∨ name = cut 256 path ∨ ∃ i, name = rolled (cut 256 path) i) → S name) :
    Saved S (cut 256 path) where
  short := by
    rw [cut, List.length_take]
    omega
  own := h _ (Or.inr (Or.inl rfl))
  rolled i := h _ (Or.inr (Or.inr ⟨i, rfl⟩))

theorem Limited.logInit (h : Limited S M d₀ l) (hM : 1 ≤ M) {sys acc : Option CStr}
    {maxRoll : Int} (hnames : ∀ name, (LogCall.init sys acc maxRoll).names name → S name)
    (hroll : sys.getD [] ≠ [] → M ≤ (l.files.on d₀).lines (sys.getD []) → 1 ≤ maxRoll) :
    Limited S M d₀ (LogCall.run M d₀ (.init sys acc maxRoll) l) := by
  have hsaved : ∀ path : Option CStr, (path = sys ∨ path = acc) → path.getD [] ≠ [] →
      Saved S (cut 256 (path.getD [])) := by
    intro path hside hne
    refine saved_of_names fun name hname => hnames name ?_
    cases path with
    | none => exact absurd rfl hne
    | some path => exact ⟨path, hside.imp Eq.symm Eq.symm, hname⟩
  obtain ⟨l₁, hl₁⟩ : ∃ l₁, l₁ = { l with
    maxLines := (M : Int), maxRoll := maxRoll, systemLines := 0, accessLines := 0 } := ⟨_, rfl⟩
  obtain ⟨l₂, hl₂⟩ : ∃ l₂, l₂ = initSystem sys ((l.files.on d₀).lines (sys.getD [])) l₁ := ⟨_, rfl⟩
  have hfiles : l₁.files = l.files := by rw [hl₁]
  obtain ⟨hsystem, hstream⟩ := limited_initSystem (S := S) (M := M) (l := l₁)
    (hfiles ▸ h.held) (by rw [hl₁]) (Nat.le_of_eq (by rw [hfiles])) (hsaved sys (Or.inl rfl))
  rw [← hl₂] at hsystem hstream
  have hmax : l₂.maxLines = M ∧ l₂.maxRoll = maxRoll := by
    rw [hl₂, (initSystem_limits ..).1, (initSystem_limits ..).2, hl₁]
    exact ⟨rfl, rfl⟩
  have haccess : Limited S M d₀ (Log.initAccess sys acc ((l.files.on d₀).lines (acc.getD [])) l₂) :=
    hsystem.initAccess hmax.1 (by rw [hl₂, lines_initSystem, hfiles]) (hsaved acc (Or.inr rfl))
      hstream
  obtain ⟨hlog, hlines, hlimit, hrolls⟩ :=
    initAccess_system sys acc ((l.files.on d₀).lines (acc.getD [])) l₂
  have hrun : LogCall.run M d₀ (.init sys acc maxRoll) l = Log.logWriteSystem .info
      (some (ascii "Logging system initialized (v1.2.1)"))
      (Log.initAccess sys acc ((l.files.on d₀).lines (acc.getD [])) l₂) := by
    rw [hl₂, hl₁]
    rfl
  rw [hrun]
  refine haccess.logWriteSystem hM .info (fun text htext => ?_) fun hopen hdue => ?_
  · cases htext
    decide
  · rw [hlog, hl₂] at hopen
    obtain ⟨hpath, hcount⟩ := initSystem_opens hopen
    have hfull := (of_decide_eq_true hdue).2.1
    rw [hlimit, hlines, hmax.1, hl₂, hcount] at hfull
    rw [hrolls, hmax.2]
    exact hroll hpath (Int.ofNat_le.mp hfull)

theorem limited_reopenSystem (h : Limited S M d₀ l) (hfp : l.systemLog = some fp)
    (hempty : (l.files.on d₀).lines l.systemPath = 0) :
    Limited S M d₀ { reopenSystem l with accessPath := [] } ∧
      ((reopenSystem l).files.on d₀).streams l.files.streams = some l.systemPath := by
  have hpath := (h.system fp hfp).1
  have hclosed := h.steady (steady_fclose fp)
  have hcount : ((l.files.perform (.fclose fp)).on d₀).lines l.systemPath ≤ 0 := by
    rw [on_perform]
    exact Nat.le_of_eq hempty
  have hmax := h.maxLines (Or.inl (hfp ▸ Option.some_ne_none fp))
  unfold reopenSystem
  simp only [hfp, if_neg hpath, hmax]
  exact ⟨limited_open_system _ _ _ _ hclosed.held hpath (h.savedSystem hpath) hcount, streams_fopen⟩

theorem Limited.reopenAccess (h : Limited S M d₀ { l with accessPath := [] })
    (hmax : l.systemLog ≠ none ∨ l.accessLog ≠ none → l.maxLines = M)
    (hsaved : l.accessPath ≠ [] → Saved S l.accessPath)
    (hopen : l.accessPath ≠ [] → l.accessLog ≠ none)
    (hempty : l.accessPath ≠ [] → (l.files.on d₀).lines l.accessPath = 0)
    (hfree : l.accessPath ≠ [] → ∀ fs, l.systemLog = some fs →
      (l.files.on d₀).streams fs ≠ some l.accessPath) :
    Limited S M d₀ (reopenAccess l) := by
  unfold Log.reopenAccess
  by_cases hpath : l.accessPath ≠ []
  · obtain ⟨fa, hfa⟩ := Option.ne_none_iff_exists'.mp (hopen hpath)
    rw [if_pos hpath, hfa]
    have hclosed := h.steady (steady_fclose fa)
    refine Limited.open_access (l := { l with files := l.files.perform (.fclose fa) }) hclosed
      (hmax (Or.inr (hopen hpath))) hsaved ?_ fun fs hfs hname => ?_
    · show ((l.files.perform (.fclose fa)).on d₀).lines l.accessPath ≤ 0
      rw [on_perform]
      exact Nat.le_of_eq (hempty hpath)
    · exact hfree hpath fs hfs ((steady_fclose (S := S) (M := M) fa).streams fs l.accessPath
        (h.system fs hfs).2.opened hname)
  · have hnil : l.accessPath = [] := not_not.mp hpath
    rw [if_neg hpath]
    split
    · have hlocal := h.of_local l.systemLog l.accessLines fun hor =>
        hmax (Or.inl (hor.elim id id))
      rw [← hnil] at hlocal
      exact hlocal
    · have hlocal := h.of_local l.accessLog l.accessLines hmax
      rw [← hnil] at hlocal
      exact hlocal

theorem Limited.logReopen (h : Limited S M d₀ l)
    (hsystem : l.systemLog ≠ none → (l.files.on d₀).lines l.systemPath = 0)
    (haccess : l.accessPath ≠ [] → (l.files.on d₀).lines l.accessPath = 0)
    (hdiffer : l.systemPath = l.accessPath → l.systemPath = []) :
    Limited S M d₀ (logReopen l) := by
  have hopen : l.accessPath ≠ [] → l.accessLog ≠ none := by
    intro hpath hnone
    obtain ⟨fa, hfa, -⟩ := h.access hpath
    exact Option.some_ne_none fa (hfa.symm.trans hnone)
  unfold Log.logReopen
  cases hfp : l.systemLog with
  | none =>
    have hsame : reopenSystem l = l := by
      unfold reopenSystem
      rw [hfp]
    rw [hsame]
    refine Limited.reopenAccess h.of_system_only h.maxLines h.savedAccess hopen haccess
      fun _ fs hfs => ?_
    rw [hfp] at hfs
    cases hfs
  | some fp =>
    have hpath := (h.system fp hfp).1
    have hmax := h.maxLines (Or.inl (hfp ▸ Option.some_ne_none fp))
    obtain ⟨hreopened, hstream⟩ := limited_reopenSystem h hfp
      (hsystem (hfp ▸ Option.some_ne_none fp))
    have hkeeps : (reopenSystem l).accessPath = l.accessPath ∧
        (reopenSystem l).maxLines = l.maxLines ∧
        (reopenSystem l).systemLog = some l.files.streams ∧
        (reopenSystem l).accessLog = (if l.accessLog = some fp then none else l.accessLog) ∧
        ∀ name, ((reopenSystem l).files.on d₀).lines name = (l.files.on d₀).lines name := by
      unfold reopenSystem
      simp only [hfp, if_neg hpath]
      refine ⟨trivial, trivial, rfl, trivial, fun name => ?_⟩
      rw [on_fopen, lines_fopen, on_perform]
      rfl
    obtain ⟨haccessPath, hmaxLines, hlog, haccessLog, hlines⟩ := hkeeps
    refine hreopened.reopenAccess (fun _ => hmaxLines.trans hmax) ?_ ?_ ?_ ?_
    · rw [haccessPath]
      exact h.savedAccess
    · rw [haccessPath, haccessLog]
      intro hne
      obtain ⟨fa, hfa, -⟩ := h.access hne
      have hother : l.accessLog ≠ some fp := by
        intro heq
        exact (h.apart hne fp fp hfp heq).streams rfl
      rw [if_neg hother]
      exact hopen hne
    · rw [haccessPath, hlines]
      exact haccess
    · rw [haccessPath, hlog]
      intro _ fs hfs hname
      cases hfs
      exact hpath (hdiffer (Option.some.inj (hstream.symm.trans hname)))

/-! ### Any call -/

theorem OneLine.getD_single {text : Option OneLine} {t : CStr}
    (h : text.map OneLine.text = some t) : (10 : UInt8) ∉ t := by
  cases text with
  | none => cases h
  | some text =>
    cases h
    exact text.single

theorem Limited.call (h : Limited S M d₀ l) (hM : 1 ≤ M) {call : LogCall}
    (hnames : ∀ name, call.names name → S name) (hsafe : call.safe M d₀ l = true) :
    Limited S M d₀ (call.run M d₀ l) := by
  cases call with
  | init sys acc maxRoll =>
    exact h.logInit hM hnames fun hpath hfull => of_decide_eq_true hsafe ⟨hpath, hfull⟩
  | message level msg =>
    have hcond := of_decide_eq_true hsafe
    show Limited S M d₀ (logAt level (msg.map OneLine.text) l)
    unfold logAt
    split
    · exact h
    next hpass =>
      exact h.logWriteSystem hM level (fun t ht => OneLine.getD_single ht)
        fun hopen hdue => hcond ⟨decide_eq_true hpass, hopen, hdue⟩
  | setLevel level => exact { h with }
  | access clientIp method path status bytesSent =>
    rcases of_decide_eq_true hsafe with hnone | ⟨hpath, hroll⟩
    · have hskip : LogCall.run M d₀ (.access clientIp method path status bytesSent) l = l := by
        simp only [LogCall.run, Log.logAccess, hnone]
      rw [hskip]
      exact h
    · exact h.logAccess hM hpath hroll (fun t ht => OneLine.getD_single ht)
        (fun t ht => OneLine.getD_single ht) (fun t ht => OneLine.getD_single ht) status bytesSent
  | reopen =>
    obtain ⟨hsystem, haccess, hdiffer⟩ := of_decide_eq_true hsafe
    refine h.logReopen hsystem (fun hpath => haccess ⟨hpath, fun hnone => ?_⟩) hdiffer
    obtain ⟨fa, hfa, -⟩ := h.access hpath
    exact Option.some_ne_none fa (hfa.symm.trans hnone)

theorem limited_start (h : Within S M d₀) : Limited S M d₀ Logger.start where
  held ops hops := by
    rw [List.prefix_nil.mp hops]
    exact h
  maxLines hopen := by
    rcases hopen with hopen | hopen
    · exact absurd rfl hopen
    · exact absurd rfl hopen
  savedSystem hnone := absurd rfl hnone
  savedAccess hnone := absurd rfl hnone
  system fs hfs := by cases hfs
  access hnone := absurd rfl hnone
  apart hnone := absurd rfl hnone

end Calls

/-! ## A run -/

/-- The names of the log files of a run. -/
def logFile (calls : List LogCall) (name : CStr) : Prop := ∃ call ∈ calls, call.names name

/-- At no time of the run a log file has more than `maxLines` lines. -/
def KeepsLimit (maxLines : Nat) (d₀ : Disk) (calls : List LogCall) : Prop :=
  ∀ l, runs (LogCall.step maxLines d₀) calls .start = some l → ∀ ops, ops <+: l.files.ops →
    ∀ name, logFile calls name → (ops.foldl (fun d op => op.apply d) d₀).lines name ≤ maxLines

/-- **The log files keep their limit** in every run in which no counter is made to lag. -/
theorem safe_run_keeps_limit (maxLines : Nat) (hM : 1 ≤ maxLines) (d₀ : Disk)
    (calls : List LogCall)
    (hstart : ∀ name, logFile calls name → d₀.lines name ≤ maxLines)
    (hsafe : along (LogCall.step maxLines d₀) (LogCall.safe maxLines d₀) calls .start = true) :
    KeepsLimit maxLines d₀ calls := by
  intro l hrun ops hops
  have hlimited : Limited (logFile calls) maxLines d₀ l := by
    refine runs_rule_mem (fun call hcall l l' h hcond hstep => ?_) (limited_start hstart) hsafe hrun
    cases hstep
    exact h.call hM (fun name hname => ⟨call, hcall, hname⟩) hcond
  exact hlimited.held ops hops

/-! ### Logs of one line -/

/-- No files and no streams. -/
def emptyDisk : Disk := ⟨fun _ => none, fun _ => none⟩

def twoLogs (maxRoll : Int) : LogCall := .init (some (ascii "s.log")) (some (ascii "a.log")) maxRoll

def oneLog : LogCall := .init (some (ascii "s.log")) (some (ascii "s.log")) 2

def accessLine : LogCall := .access none none none 200 0

theorem hello_single : (10 : UInt8) ∉ ascii "hello" := by decide

def helloLine : LogCall := .message .info (some ⟨ascii "hello", hello_single⟩)

theorem safe_run_keeps_limit_two :
    (∀ name, logFile [twoLogs 2, helloLine, accessLine, accessLine, helloLine] name →
      emptyDisk.lines name ≤ 1) ∧
    KeepsLimit 1 emptyDisk [twoLogs 2, helloLine, accessLine, accessLine, helloLine] :=
  ⟨fun _ _ => Nat.zero_le 1, safe_run_keeps_limit 1 (Nat.le_refl 1) emptyDisk _
    (fun _ _ => Nat.zero_le 1) (by decide +kernel)⟩

theorem not_keepsLimit {maxLines : Nat} {d₀ : Disk} {calls : List LogCall} {l : Logger}
    (hrun : runs (LogCall.step maxLines d₀) calls .start = some l) {name : CStr}
    (hname : logFile calls name) (hmore : maxLines < (l.files.on d₀).lines name) :
    ¬KeepsLimit maxLines d₀ calls :=
  fun h => absurd (h l hrun l.files.ops List.prefix_rfl name hname) (Nat.not_le_of_lt hmore)

/-- A second line in a log of one line: an access line after the first line of the shared log, a
line after `log_reopen`, and a line after a rotation with no rotated file. -/
theorem limit_broken :
    ¬KeepsLimit 1 emptyDisk [oneLog, accessLine] ∧
    ¬KeepsLimit 1 emptyDisk [twoLogs 2, accessLine, .reopen, accessLine] ∧
    ¬KeepsLimit 1 emptyDisk [twoLogs 0, accessLine, accessLine] := by
  have hsystem : logFile [oneLog, accessLine] (ascii "s.log") :=
    ⟨oneLog, List.mem_cons_self, ascii "s.log", Or.inl rfl, Or.inl rfl⟩
  have haccess : ∀ roll calls, logFile (twoLogs roll :: calls) (ascii "a.log") := fun roll calls =>
    ⟨twoLogs roll, List.mem_cons_self, ascii "a.log", Or.inr rfl, Or.inl rfl⟩
  refine ⟨not_keepsLimit rfl hsystem ?_, not_keepsLimit rfl (haccess _ _) ?_,
    not_keepsLimit rfl (haccess _ _) ?_⟩
  · decide +kernel
  · decide +kernel
  · decide +kernel

end MiniWeb.Log
