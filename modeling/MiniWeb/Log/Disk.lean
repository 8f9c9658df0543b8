import MiniWeb.Lib.Rotation
import MiniWeb.Log.Streams

/-!
# The files behind the logger

What the recorded operations do to files with names: a stream opened for appending stands for the
file of its name, creates it if there is none, and follows it when it is renamed; to remove or
rename a missing file does nothing. Names are taken for files: no file has two.

`rotateLog_on` says what a rotation makes of the files of one log.
-/

namespace MiniWeb.Log

open CStr Rotation

/-- A piece of a file: a byte it had before, or a line of the logger. -/
inductive Item
  | byte (c : UInt8)
  | line (line : Line)
deriving DecidableEq, Repr

/-- The files by name, and the name of the file an open stream stands for. -/
structure Disk where
  files : CStr → Option (List Item)
  streams : Stream → Option CStr

def FileOp.apply : FileOp → Disk → Disk
  | .fopen path fp, d =>
    ⟨Function.update d.files path (some (text d.files path)),
      Function.update d.streams fp (some path)⟩
  | .fgetc _, d => d
  | .fprintf fp line, d =>
    match d.streams fp with
    | none => d
    | some path =>
      { d with files := Function.update d.files path (some (text d.files path ++ [.line line])) }
  | .fflush _, d => d
  | .fclose fp, d => { d with streams := Function.update d.streams fp none }
  | .remove name, d =>
    ⟨Function.update d.files name none,
      fun fp => if d.streams fp = some name then none else d.streams fp⟩
  | .rename old new, d =>
    if d.files old = none then d
    else
      -- a stream of the file that had the new name loses it
      ⟨move old new d.files, fun fp =>
        if d.streams fp = some old then some new
        else if d.streams fp = some new then none else d.streams fp⟩

/-- The disk after all operations so far. -/
def Files.on (files : Files) (d : Disk) : Disk := files.ops.foldl (fun d op => op.apply d) d

def FileOp.line? : FileOp → Option Line
  | .fprintf _ line => some line
  | _ => none

/-- The lines printed so far. -/
def Files.lines (files : Files) : List Line := files.ops.filterMap FileOp.line?

/-- What a file held each time it was removed. -/
def removals (name : CStr) : List FileOp → Disk → List (List Item)
  | [], _ => []
  | op :: ops, d =>
    if op = .remove name then text d.files name :: removals name ops (op.apply d)
    else removals name ops (op.apply d)

def Files.removed (name : CStr) (files : Files) (d : Disk) : List (List Item) :=
  removals name files.ops d

/-- `"%s.%d"`. -/
def archive (path : CStr) (i : Nat) : CStr := path ++ ascii "." ++ decimal i

/-- The names of a log: its path, and behind it those of the rotated files. -/
def family (path : CStr) : Nat → CStr
  | 0 => path
  | i + 1 => archive path (i + 1)

section

variable {files : Files} {d : Disk} {path name old new : CStr} {fp : Stream} {op : FileOp}
  {i j k : Nat}

theorem on_perform : (files.perform op).on d = op.apply (files.on d) := by
  rw [Files.on, Files.perform, List.foldl_append]
  rfl

theorem on_fopen : (files.fopen path).2.on d =
    (FileOp.fopen path files.streams).apply (files.on d) :=
  List.foldl_append

theorem lines_fprintf {line : Line} :
    (files.perform (.fprintf fp line)).lines = files.lines ++ [line] := List.filterMap_append

theorem removals_append {ops : List FileOp} :
    removals name (ops ++ [op]) d = removals name ops d ++
      if op = .remove name then [text (ops.foldl (fun d op => op.apply d) d).files name]
      else [] := by
  induction ops generalizing d with
  | nil => rfl
  | cons op' ops ih =>
    rw [List.cons_append, removals, removals, ih]
    split <;> rfl

/-- No line was printed and no file removed. -/
structure Quiet (files files' : Files) : Prop where
  lines : files'.lines = files.lines
  removed : ∀ name d, files'.removed name d = files.removed name d

theorem Quiet.trans {files' files'' : Files} (h : Quiet files files') (h' : Quiet files' files'') :
    Quiet files files'' where
  lines := h'.lines.trans h.lines
  removed name d := (h'.removed name d).trans (h.removed name d)

theorem removed_perform (h : op ≠ .remove name) :
    (files.perform op).removed name d = files.removed name d := by
  rw [Files.removed, Files.perform, removals_append, if_neg h, List.append_nil]
  rfl

theorem quiet_perform (hline : op.line? = none) (hremove : ∀ name, op ≠ .remove name) :
    Quiet files (files.perform op) where
  lines := by
    rw [Files.lines, Files.perform, List.filterMap_append, List.filterMap_cons_none hline,
      List.filterMap_nil, List.append_nil]
    rfl
  removed name _ := removed_perform (hremove name)

theorem quiet_fopen : Quiet files (files.fopen path).2 := by
  have hquiet : Quiet files (files.perform (.fopen path files.streams)) :=
    quiet_perform rfl fun _ h => by cases h
  exact ⟨hquiet.lines, hquiet.removed⟩

theorem quiet_fclose : Quiet files (files.perform (.fclose fp)) :=
  quiet_perform rfl fun _ h => by cases h

/-! ## Opening -/

/-- A file that is opened keeps its text; a missing one is empty before and after. -/
theorem text_fopen :
    text ((files.fopen path).2.on d).files name = text (files.on d).files name := by
  rw [on_fopen]
  show (Function.update (files.on d).files path (some (text (files.on d).files path))
    name).getD [] = text (files.on d).files name
  rw [Function.update_apply]
  split
  next h =>
    rw [h]
    rfl
  next => rfl

/-- Reading opens and closes a stream. -/
theorem readAll_on : (files.readAll path).on d =
    ⟨((files.fopen path).2.on d).files,
      Function.update (Function.update (files.on d).streams files.streams (some path))
        files.streams none⟩ := by
  rw [Files.readAll, on_perform, on_perform, on_fopen]
  rfl

theorem text_readAll :
    text ((files.readAll path).on d).files name = text (files.on d).files name := by
  rw [readAll_on]
  exact text_fopen

/-! ## Names -/

/-- A decimal with `k` digits at most. -/
theorem decimalFrom_length {fuel n : Nat} (hk : 0 < k) (h : n < 10 ^ k) :
    (decimalFrom fuel n).length ≤ k := by
  induction fuel generalizing n k with
  | zero => exact hk
  | succ fuel ih =>
    rw [decimalFrom]
    split
    · exact hk
    next hten =>
      obtain ⟨k, rfl⟩ : ∃ j, k = j + 1 := ⟨k - 1, by omega⟩
      have hpos : 0 < k := by
        rcases Nat.eq_zero_or_pos k with rfl | hpos
        · omega
        · exact hpos
      have hdiv : n / 10 < 10 ^ k := by
        rw [Nat.div_lt_iff_lt_mul (by omega), ← Nat.pow_succ]
        exact h
      rw [List.length_append, List.length_singleton]
      exact Nat.succ_le_succ (ih hpos hdiv)

theorem rolled_eq (hpath : path.length < 256) (hi : i < 2 ^ 31) :
    rolled path i = archive path i := by
  have hdigits : (decimal i).length ≤ 10 := decimalFrom_length (by omega) (by omega)
  have hdot : (ascii ".").length = 1 := rfl
  refine List.take_of_length_le ?_
  rw [List.length_append, List.length_append]
  omega

theorem decimal_inj (h : decimal i = decimal j) : i = j := by
  rw [← digits_decimal i, h, digits_decimal]

/-- The name of a rotated file tells its log and its number. -/
theorem archive_inj {other : CStr} (h : archive path i = archive other j) :
    path = other ∧ i = j := by
  have hdot : ∀ n, (46 : UInt8) ∉ (decimal n).reverse := by
    intro n hmem
    have hdigit := isDigit_of_mem_decimal (List.mem_reverse.mp hmem)
    cases hdigit
  have hrev : ∀ (p : CStr) n, (archive p n).reverse = (decimal n).reverse ++ 46 :: p.reverse := by
    intro p n
    rw [archive, List.reverse_append, List.reverse_append]
    rfl
  have hcut : ∀ (p : CStr) n,
      (archive p n).reverse.takeWhile (· ≠ 46) = (decimal n).reverse ∧
        (archive p n).reverse.dropWhile (· ≠ 46) = 46 :: p.reverse := by
    intro p n
    have hall : ∀ c ∈ (decimal n).reverse, (decide (c ≠ 46)) = true := by
      intro c hc
      rw [decide_eq_true_iff]
      rintro rfl
      exact hdot n hc
    rw [hrev, List.takeWhile_append_of_pos hall, List.dropWhile_append_of_pos hall]
    simp
  have hpath := (hcut path i).2
  rw [h, (hcut other j).2] at hpath
  have hnum := (hcut path i).1
  rw [h, (hcut other j).1] at hnum
  exact ⟨(List.reverse_injective (List.cons.inj hpath).2).symm,
    (decimal_inj (List.reverse_injective hnum)).symm⟩

theorem family_inj (h : family path i = family path j) : i = j := by
  have hne : ∀ n, path ≠ archive path n := by
    intro n h0
    have hlen := congrArg List.length h0
    have hdot : (ascii ".").length = 1 := rfl
    rw [archive, List.length_append, List.length_append] at hlen
    omega
  cases i with
  | zero =>
    cases j with
    | zero => rfl
    | succ j => exact absurd h (hne _)
  | succ i =>
    cases j with
    | zero => exact absurd h.symm (hne _)
    | succ j => exact (archive_inj h).2

/-! ## A rotation -/

/-- No open stream is on a file of the log up to the number `k`. -/
def Unused (d : Disk) (path : CStr) (k : Nat) : Prop :=
  ∀ fp, ∀ i ≤ k, d.streams fp ≠ some (family path i)

theorem apply_remove (h : ∀ fp, d.streams fp ≠ some name) :
    (FileOp.remove name).apply d = ⟨Function.update d.files name none, d.streams⟩ :=
  congrArg (Disk.mk _) (funext fun fp => if_neg (h fp))

theorem apply_rename (hold : ∀ fp, d.streams fp ≠ some old) (hnew : ∀ fp, d.streams fp ≠ some new) :
    (FileOp.rename old new).apply d = ⟨move old new d.files, d.streams⟩ := by
  simp only [FileOp.apply]
  by_cases hfile : d.files old = none
  · have hmove : move old new d.files = d.files := by rw [move, hfile]
    rw [if_pos hfile, hmove]
  · have hstreams : (fun fp => if d.streams fp = some old then some new
        else if d.streams fp = some new then none else d.streams fp) = d.streams := by
      funext fp
      rw [if_neg (hold fp), if_neg (hnew fp)]
    rw [if_neg hfile, hstreams]

/-- The renamings of a rotation, for files below the oldest. -/
theorem shift_on {rolls : Nat} (hpath : path.length < 256) (hroll : rolls < 2 ^ 31)
    (hk : k < rolls) (hfree : Unused (files.on d) path (k + 1)) :
    ((shift path rolls k files).perform (.rename path (rolled path 1))).on d =
      ⟨moveUp (family path) k (files.on d).files, (files.on d).streams⟩ := by
  induction k generalizing files with
  | zero =>
    rw [shift, on_perform, rolled_eq hpath (by omega)]
    exact apply_rename (fun fp => hfree fp 0 (by omega)) fun fp => hfree fp 1 (by omega)
  | succ k ih =>
    have hbelow : ¬((k + 1 : Nat) : Int) = (rolls : Int) := by omega
    have hstep : (files.perform (.rename (rolled path (k + 1)) (rolled path (k + 2)))).on d =
        ⟨move (family path (k + 1)) (family path (k + 2)) (files.on d).files,
          (files.on d).streams⟩ := by
      rw [on_perform, rolled_eq hpath (by omega), rolled_eq hpath (by omega)]
      exact apply_rename (fun fp => hfree fp (k + 1) (by omega))
        fun fp => hfree fp (k + 2) (by omega)
    have hunused : Unused ((files.perform
        (.rename (rolled path (k + 1)) (rolled path (k + 2)))).on d) path (k + 1) := by
      intro fp i hi
      rw [hstep]
      exact hfree fp i (by omega)
    rw [shift, if_neg hbelow, ih (by omega) hunused, hstep]
    rfl

theorem quiet_shift {rolls : Nat} (hk : k < rolls) : Quiet files (shift path rolls k files) := by
  induction k generalizing files with
  | zero => exact ⟨rfl, fun _ _ => rfl⟩
  | succ k ih =>
    have hbelow : ¬((k + 1 : Nat) : Int) = (rolls : Int) := by omega
    rw [shift, if_neg hbelow]
    exact (quiet_perform rfl fun _ h => by cases h).trans (ih (by omega))

theorem removed_remove :
    (files.perform (.remove old)).removed name d = files.removed name d ++
      if name = old then [text (files.on d).files name] else [] := by
  rw [Files.removed, Files.perform, removals_append]
  by_cases h : name = old
  · rw [if_pos h, if_pos (congrArg FileOp.remove h.symm)]
    rfl
  · rw [if_neg h, if_neg fun heq => h (FileOp.remove.inj heq).symm]
    rfl

/-- The removal of the oldest file, then the renamings. -/
theorem retire_eq (hpath : path.length < 256) (hroll : k + 1 < 2 ^ 31) :
    retire ((k + 1 : Nat) : Int) path files =
      (shift path ((k + 1 : Nat) : Int) k (files.perform (.remove (archive path (k + 1))))).perform
        (.rename path (rolled path 1)) := by
  have hpos : (1 : Int) ≤ ((k + 1 : Nat) : Int) := by omega
  simp only [retire, if_pos hpos, Int.toNat_natCast, shift, if_true, rolled_eq hpath hroll]

theorem retire_on (hpath : path.length < 256) (hroll : k + 1 < 2 ^ 31)
    (hfree : Unused (files.on d) path (k + 1)) :
    (retire ((k + 1 : Nat) : Int) path files).on d =
      ⟨moveUp (family path) k (Function.update (files.on d).files (family path (k + 1)) none),
        (files.on d).streams⟩ := by
  have hstep : (files.perform (.remove (archive path (k + 1)))).on d =
      ⟨Function.update (files.on d).files (family path (k + 1)) none, (files.on d).streams⟩ :=
    on_perform.trans (apply_remove fun fp => hfree fp (k + 1) (by omega))
  have hunused : Unused ((files.perform (.remove (archive path (k + 1)))).on d) path (k + 1) := by
    intro fp i hi
    rw [hstep]
    exact hfree fp i hi
  rw [retire_eq hpath hroll, shift_on hpath hroll (Nat.lt_succ_self k) hunused, hstep]

/-- A rotation removes one file only. -/
theorem retire_quiet (hpath : path.length < 256) (hroll : k + 1 < 2 ^ 31) :
    Quiet (files.perform (.remove (archive path (k + 1))))
      (retire ((k + 1 : Nat) : Int) path files) := by
  rw [retire_eq hpath hroll]
  exact (quiet_shift (Nat.lt_succ_self k)).trans (quiet_perform rfl fun _ h => by cases h)

/-- What `rotateLog_on` says of the files after a rotation. -/
structure Rotated (path : CStr) (k : Nat) (fp : Stream) (d : Disk) (files files' : Files) :
    Prop where
  streams : files'.streams = files.streams + 1
  on_eq : files'.on d = ⟨rotate (family path) k (files.on d).files,
    Function.update (Function.update (files.on d).streams fp none) files.streams (some path)⟩
  lines : files'.lines = files.lines
  removed : ∀ name, files'.removed name d = files.removed name d ++
    if name = archive path (k + 1) then [text (files.on d).files name] else []

/-- **`rotate_log` rotates the files of its log** when only the closed stream was on one of them. -/
theorem rotateLog_on (lineCount : Nat) (hne : path ≠ []) (hpath : path.length < 256)
    (hroll : k + 1 < 2 ^ 31)
    (hfree : ∀ fp', fp' ≠ fp → ∀ i ≤ k + 1, (files.on d).streams fp' ≠ some (family path i)) :
    ∃ files', rotateLog ((k + 1 : Nat) : Int) path (some fp) lineCount files =
      (some files.streams, 0, files') ∧ Rotated path k fp d files files' := by
  have hclosed : (files.perform (.fclose fp)).on d =
      { files.on d with streams := Function.update (files.on d).streams fp none } := on_perform
  have hunused : Unused ((files.perform (.fclose fp)).on d) path (k + 1) := by
    intro fp' i hi
    rw [hclosed]
    by_cases h : fp' = fp
    · have hnone : Function.update (files.on d).streams fp none fp' = none := by
        rw [h, Function.update_self]
      exact fun hsome => Option.some_ne_none _ (hsome.symm.trans hnone)
    · intro hsome
      exact hfree fp' h i hi ((Function.update_of_ne h ..).symm.trans hsome)
  have hnumber : (retire ((k + 1 : Nat) : Int) path (files.perform (.fclose fp))).streams =
      files.streams := retire_streams
  have hempty : moveUp (family path) k
      (Function.update (files.on d).files (family path (k + 1)) none) path = none :=
    (moveUp_spec (fun _ _ _ _ => family_inj) (Function.update_self ..)).2.1
  have hquiet : Quiet ((files.perform (.fclose fp)).perform (.remove (archive path (k + 1))))
      ((retire ((k + 1 : Nat) : Int) path (files.perform (.fclose fp))).fopen path).2 :=
    (retire_quiet hpath hroll).trans quiet_fopen
  refine ⟨((retire ((k + 1 : Nat) : Int) path (files.perform (.fclose fp))).fopen path).2, ?_,
    congrArg (· + 1) hnumber, ?_, ?_, ?_⟩
  · rw [rotateLog, if_neg hne]
    exact congrArg (fun n => (some n, 0, _)) hnumber
  · rw [on_fopen, retire_on hpath hroll hunused, hclosed, hnumber]
    simp only [FileOp.apply, text, hempty, Option.getD_none]
    rfl
  · have hclose : (files.perform (.fclose fp)).lines = files.lines := quiet_fclose.lines
    have hremove : ((files.perform (.fclose fp)).perform
        (.remove (archive path (k + 1)))).lines = (files.perform (.fclose fp)).lines :=
      List.filterMap_append.trans (List.append_nil _)
    rw [hquiet.lines, hremove, hclose]
  · intro name
    rw [hquiet.removed, removed_remove, quiet_fclose.removed, hclosed]

end

end MiniWeb.Log
