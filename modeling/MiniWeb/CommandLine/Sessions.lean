import MiniWeb.CommandLine.Commands
import MiniWeb.UserStore.Roster

/-!
# Sessions at the command line

A command says what is to be done, whatever the store is (`Command`); `dispatch` reads it off the
arguments and does it. On a roster of names a command has an answer of its own, except where it
prints records, and a session prints these answers.
-/

namespace MiniWeb.CommandLine

open CStr Words UserStore RequestHandler

/-! ## Commands -/

/-- What the arguments ask for. -/
inductive Command where
  | nothing
  | quit
  | help
  | find (name : CStr)
  | add (csvLine : CStr)
  | delete (name : CStr)
  | index
  | findIndex (name : CStr)
  | compare (name : CStr) (verbose : Bool)
  /-- The arguments are wrong in some way. -/
  | wrong (complaint : CStr)
deriving DecidableEq

/-- The command behind `users`. -/
def usersCommand : List CStr → Command
  | [] => .wrong (complaint "users" "a subcommand")
  | sub :: args =>
    if sub = ascii "index" then .index
    else if sub = ascii "find-index" then
      args.head?.elim (.wrong (complaint "users find-index" "a name argument")) .findIndex
    else if sub = ascii "compare_search_method" then
      (compareArgs args).elim
        (.wrong (complaint "users compare_search_method" "a name argument"))
        fun (name, verbose) => .compare name verbose
    else .wrong (ascii "error: unknown users subcommand '" ++ sub ++ ascii "', " ++ useHelp)

/-- The command in the arguments. -/
def commandOf : List CStr → Command
  | [] => .nothing
  | command :: args =>
    if command = ascii "quit" ∨ command = ascii "exit" then .quit
    else if command = ascii "help" then .help
    else if command = ascii "findusr" then
      args.head?.elim (.wrong (complaint "findusr" "an argument")) .find
    else if command = ascii "addusr" then
      args.head?.elim (.wrong (complaint "addusr" "an argument")) .add
    else if command = ascii "delusr" then
      args.head?.elim (.wrong (complaint "delusr" "an argument")) .delete
    else if command = ascii "users" then usersCommand args
    else .wrong (ascii "error: unknown command '" ++ command ++ ascii "'\n")

/-- What a command does in a session. -/
def Command.run (console : Console) : Command → Store → Option (CStr × Int × Store)
  | .nothing, s => some ([], 0, s)
  | .quit, s => some ([], -1, s)
  | .help, s => some (printInteractiveHelp, 0, s)
  | .find name, s => (userStoreFind s.shm name).map (found s)
  | .add csvLine, s => (userStoreAdd csvLine s).map (updated (ascii "ADDED\n") (ascii "EXISTS\n"))
  | .delete name, s =>
    (userStoreDelete name s).map (updated (ascii "DELETED\n") (ascii "NO_SUCH_USER\n"))
  | .index, s => (userStorePrintIndex s).map fun text => (text, 0, s)
  | .findIndex name, s => (userStoreFindIndex s name).map (found s)
  | .compare name verbose, s => some (console.comparison name verbose s, 0, s)
  | .wrong complaint, s => some (complaint, 1, s)

section

variable {console : Console} {argv args : List CStr} {s s' : Store} {r : Roster}

theorem dispatchUsers_interactive (console : Console) (args : List CStr) (s : Store) :
    dispatchUsers console args (.interactive s) =
      ((usersCommand args).run console s).map fun (text, ret, s) => ⟨text, ret, some s⟩ := by
  cases args with
  | nil => rfl
  | cons sub args =>
    unfold dispatchUsers usersCommand
    simp only
    split_ifs with hindex hfind hcompare
    · rfl
    · cases args <;> rfl
    · cases compareArgs args <;> rfl
    · rfl

/-- **`dispatch` reads the command and does it**, in a session. -/
theorem dispatch_interactive (console : Console) (argv : List CStr) (s : Store) :
    dispatch console argv (.interactive s) =
      ((commandOf argv).run console s).map fun (text, ret, s) => ⟨text, ret, some s⟩ := by
  cases argv with
  | nil => rfl
  | cons command args =>
    unfold dispatch commandOf
    simp only
    split_ifs with hquit hhelp hfind hadd hdelete husers
    · rfl
    · rfl
    · cases args <;> rfl
    · cases args <;> rfl
    · cases args <;> rfl
    · exact dispatchUsers_interactive console args s
    · rfl

/-! ## Arguments -/

theorem tokenizeFrom_eq (n : Nat) (p : CStr) : tokenizeFrom n p = (words isBlank p).take n := by
  induction n generalizing p with
  | zero => rfl
  | succ n ih =>
    rw [tokenizeFrom, words_eq]
    split
    case isTrue => rfl
    case isFalse =>
      simp only
      rw [List.take_succ_cons, ih]
      congr 2
      cases hrest : (p.dropWhile isBlank).dropWhile fun c => !isBlank c with
      | nil => rfl
      | cons c rest =>
        -- a token ends at a blank
        have hc : isBlank c = true := by
          have h := head?_dropWhile_sep (fun c => !isBlank c) (p.dropWhile isBlank) c
            (by rw [hrest]; rfl)
          simpa using h
        rw [words_sep hc]
        rfl

/-- The arguments are the first words. -/
theorem tokenize_eq (line : CStr) : tokenize line = (words isBlank line).take maxArgc :=
  tokenizeFrom_eq maxArgc line

/-! ## Answers on a roster -/

/-- What a command prints on a roster, unless it prints records, and the roster it leaves. -/
def Command.answer : Command → Roster → Option CStr × Roster
  | .nothing, r => (some [], r)
  | .quit, r => (some [], r)
  | .help, r => (some printInteractiveHelp, r)
  | .find name, r => (some (if name ∈ r.names then ascii "FOUND\n" else ascii "NOT_FOUND\n"), r)
  | .add csvLine, r =>
    (some (if (r.add csvLine).1 then ascii "ADDED\n" else ascii "EXISTS\n"), (r.add csvLine).2)
  | .delete name, r =>
    (some (if (r.delete name).1 then ascii "DELETED\n" else ascii "NO_SUCH_USER\n"),
      (r.delete name).2)
  | .index, r => (none, r)
  | .findIndex name, r =>
    (some (if name ∈ r.names then ascii "FOUND\n" else ascii "NOT_FOUND\n"), r)
  | .compare _ _, r => (none, r)
  | .wrong complaint, r => (some complaint, r)

/-- The text is the one that is foreseen, if one is. -/
def AsForeseen (foreseen : Option CStr) (text : CStr) : Prop := ∀ t ∈ foreseen, text = t

theorem found_answer (s : Store) {user : Off} {name : CStr} (h : user ≠ 0 ↔ name ∈ r.names) :
    ∃ text, found s user = (text, 0, s) ∧ AsForeseen
      (some (if name ∈ r.names then ascii "FOUND\n" else ascii "NOT_FOUND\n")) text := by
  refine ⟨_, rfl, fun t ht => ?_⟩
  obtain rfl := Option.some.inj ht
  exact ite_congr (propext h) (fun _ => rfl) fun _ => rfl

theorem updated_answer (s : Store) {done refused : CStr} {res : Int} {ok : Bool}
    (h : res = 0 ↔ ok = true) :
    ∃ text ret, updated done refused (res, s) = (text, ret, s) ∧
      AsForeseen (some (if ok then done else refused)) text ∧ 0 ≤ ret := by
  refine ⟨_, _, rfl, fun t ht => ?_, ?_⟩
  · obtain rfl := Option.some.inj ht
    exact ite_congr (propext h) (fun _ => rfl) fun _ => rfl
  · split
    · exact le_rfl
    · exact Int.one_nonneg

/-- **One command** answers as foreseen and leaves a store that stands for the roster behind it. -/
theorem Command.run_answer (h : Stands s r) (console : Console) (c : Command) :
    ∃ text ret s', c.run console s = some (text, ret, s') ∧ AsForeseen (c.answer r).1 text ∧
      Stands s' (c.answer r).2 ∧ (ret < 0 ↔ c = .quit) := by
  have hsame {t : CStr} : AsForeseen (some t) t := fun _ ht => Option.some.inj ht
  have hnone {t : CStr} : AsForeseen none t := fun _ ht => by cases ht
  cases c with
  | nothing => exact ⟨_, _, s, rfl, hsame, h, iff_of_false (by decide) (by decide)⟩
  | quit => exact ⟨_, _, s, rfl, hsame, h, iff_of_true (by decide) rfl⟩
  | help => exact ⟨_, _, s, rfl, hsame, h, iff_of_false (by decide) (by decide)⟩
  | find name =>
    obtain ⟨a, hfind, ha⟩ := h.find name
    obtain ⟨text, htext, hanswer⟩ := found_answer s ha
    refine ⟨text, 0, s, ?_, hanswer, h, iff_of_false (by decide) (fun h => by cases h)⟩
    rw [Command.run, hfind, Option.map_some, htext]
  | add csvLine =>
    obtain ⟨res, s', hadd, hres, hs'⟩ := h.add csvLine
    obtain ⟨text, ret, htext, hanswer, hret⟩ := updated_answer s' hres
    refine ⟨text, ret, s', ?_, hanswer, hs',
      iff_of_false (Int.not_lt.mpr hret) (fun h => by cases h)⟩
    rw [Command.run, hadd, Option.map_some, htext]
  | delete name =>
    obtain ⟨res, s', hdelete, hres, hs'⟩ := h.delete name
    obtain ⟨text, ret, htext, hanswer, hret⟩ := updated_answer s' hres
    refine ⟨text, ret, s', ?_, hanswer, hs',
      iff_of_false (Int.not_lt.mpr hret) (fun h => by cases h)⟩
    rw [Command.run, hdelete, Option.map_some, htext]
  | index =>
    obtain ⟨X, L, hs⟩ := h.sound
    exact ⟨_, _, s, congrArg (Option.map fun text => (text, 0, s))
      (userStorePrintIndex_eq hs.toStoreOK), hnone, h, iff_of_false (by decide) (by decide)⟩
  | findIndex name =>
    obtain ⟨a, hfind, ha⟩ := h.findIndex name
    obtain ⟨text, htext, hanswer⟩ := found_answer s ha
    refine ⟨text, 0, s, ?_, hanswer, h, iff_of_false (by decide) (fun h => by cases h)⟩
    rw [Command.run, hfind, Option.map_some, htext]
  | compare name verbose =>
    exact ⟨_, _, s, rfl, hnone, h, iff_of_false (by decide) (fun h => by cases h)⟩
  | wrong complaint => exact ⟨_, _, s, rfl, hsame, h, iff_of_false (by decide) (fun h => by cases h)⟩

/-! ## Sessions -/

/-- What a session prints for its commands, up to the one that ends it. -/
def answers : List Command → Roster → List (Option CStr)
  | [], _ => []
  | c :: cs, r => (c.answer r).1 :: if c = .quit then [] else answers cs (c.answer r).2

/-- The roster at the end of a session. -/
def rosterAfter : List Command → Roster → Roster
  | [], r => r
  | c :: cs, r => if c = .quit then (c.answer r).2 else rosterAfter cs (c.answer r).2

def prompt : CStr := ascii "> "

/-- What the end of the input prints, if no command ended the session before. -/
def ending (cs : List Command) : CStr := if .quit ∈ cs then [] else prompt ++ [10]

/-- The commands in the lines of an input. -/
def lineCommands (bufs : List (List UInt8)) : List Command :=
  bufs.map fun buf => commandOf ((words isBlank (ofBuffer buf)).take maxArgc)

/-- **The loop of a session.** -/
theorem sessionLoop_answers {t : Session} (h : Stands t.store r) (console : Console)
    (bufs : List (List UInt8)) :
    ∃ texts t', sessionLoop console bufs t = some t' ∧
      List.Forall₂ AsForeseen (answers (lineCommands bufs) r) texts ∧
      Stands t'.store (rosterAfter (lineCommands bufs) r) ∧
      t'.output = t.output ++ texts.flatMap (prompt ++ ·) ++ ending (lineCommands bufs) := by
  induction bufs generalizing t r with
  | nil => exact ⟨[], _, rfl, .nil, h, by rw [List.flatMap_nil, List.append_nil]; rfl⟩
  | cons buf bufs ih =>
    rw [sessionLoop, tokenize_eq]
    simp only [lineCommands, List.map_cons]
    generalize (words isBlank (ofBuffer buf)).take maxArgc = argv
    obtain ⟨text, ret, s', hrun, htext, hs', hret⟩ := Command.run_answer h console (commandOf argv)
    by_cases hquit : commandOf argv = .quit
    · have hne : argv ≠ [] := by
        rintro rfl
        cases hquit
      have hneg : ret < 0 := hret.mpr hquit
      refine ⟨[text], ⟨t.output ++ prompt ++ text, s'⟩, ?_, ?_, ?_, ?_⟩
      · rw [if_neg hne, dispatch_interactive, hrun]
        exact if_pos hneg
      · rw [answers, if_pos hquit]
        exact .cons htext .nil
      · rw [rosterAfter, if_pos hquit]
        exact hs'
      · rw [ending, if_pos (hquit ▸ List.mem_cons_self), List.append_nil, List.flatMap_singleton,
          List.append_assoc]
    · have hnext : (if argv = [] then sessionLoop console bufs ⟨t.output ++ prompt, t.store⟩
          else (dispatch console argv (.interactive t.store)).bind fun reply =>
            if reply.ret < 0 then some ⟨t.output ++ prompt ++ reply.text, reply.store.getD t.store⟩
            else sessionLoop console bufs
              ⟨t.output ++ prompt ++ reply.text, reply.store.getD t.store⟩) =
          sessionLoop console bufs ⟨t.output ++ prompt ++ text, s'⟩ := by
        split
        case isTrue hnil =>
          subst hnil
          obtain ⟨rfl, -, rfl⟩ : [] = text ∧ 0 = ret ∧ t.store = s' := by
            simpa [commandOf, Command.run] using hrun
          rw [List.append_nil]
        case isFalse =>
          rw [dispatch_interactive, hrun]
          exact if_neg (fun hneg => hquit (hret.mp hneg))
      obtain ⟨texts, t', hloop, hforeseen, hstands, houtput⟩ :=
        ih (t := ⟨t.output ++ prompt ++ text, s'⟩) hs'
      refine ⟨text :: texts, t', hnext.trans hloop, ?_, ?_, ?_⟩
      · rw [answers, if_neg hquit]
        exact .cons htext hforeseen
      · rw [rosterAfter, if_neg hquit]
        exact hstands
      · have hending : ending (commandOf argv :: lineCommands bufs) = ending (lineCommands bufs) := by
          rw [ending, ending]
          exact ite_congr (propext (List.mem_cons.trans (or_iff_right fun h => hquit h.symm)))
            (fun _ => rfl) fun _ => rfl
        change _ = _ ++ _ ++ ending (commandOf argv :: lineCommands bufs)
        rw [houtput, hending, List.flatMap_cons]
        simp only [List.append_assoc]

/-! ## Commands of their own -/

end

/-! ## What the user sees -/

/-- What `run_interactive` prints before the first prompt. -/
def banner (path : CStr) : CStr :=
  ascii "Loading " ++ path ++ ascii " ...\n" ++
    ascii "Ready.  Type 'help' for commands, 'quit' to exit.\n\n"

/-- **A session is a conversation about a roster.** Whatever is typed and whatever the file holds, the
session ends and has printed, behind a prompt each, the answers of the roster of the file to the
commands in the lines, up to the first `quit` or `exit`; the store it frees stands for the roster
that the commands leave. -/
theorem session_answers (console : Console) (path : CStr) (file : Option (List UInt8))
    (input : List UInt8) :
    ∃ texts s, runInteractive console true path file input =
        some (banner path ++ texts.flatMap (prompt ++ ·) ++
          ending (lineCommands (fgets 1024 input)) ++ ascii "Bye.\n", 0, some s) ∧
      List.Forall₂ AsForeseen
        (answers (lineCommands (fgets 1024 input)) (Roster.empty.load file)) texts ∧
      Stands s (rosterAfter (lineCommands (fgets 1024 input)) (Roster.empty.load file)) := by
  obtain ⟨s, hload, hs⟩ := stands_init.load file
  obtain ⟨texts, t, hloop, hforeseen, hstands, houtput⟩ :=
    sessionLoop_answers (t := ⟨banner path, s⟩) hs console (fgets 1024 input)
  refine ⟨texts, t.store, ?_, hforeseen, hstands⟩
  rw [runInteractive, if_neg (by decide), hload, Option.bind_some]
  exact (congrArg (Option.map _) hloop).trans
    (by rw [Option.map_some, houtput])

/-- What is typed behind `quit` is not read, and a name that was deleted is not found. -/
example : answers (lineCommands (fgets 1024
    (ascii "delusr bob\n\nusers find-index bob\nquit\nfindusr bob\n")))
    (Roster.empty.load (some (ascii "bob,1,2000"))) =
      [some (ascii "DELETED\n"), some [], some (ascii "NOT_FOUND\n"), some []] := by
  decide +kernel

end MiniWeb.CommandLine
