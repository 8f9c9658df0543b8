import MiniWeb.Lib.Handles
import MiniWeb.Config.Settings

/-!
# The logger

The two log streams of `log.c` with their paths and line counters, and the functions that open,
rotate, reopen and close them. Every file operation succeeds, as in a run without faults. The
operations are kept in the order they are made; a stream is named by the call of `fopen` that
returned it, so a pointer to a closed stream stays a pointer to that stream.

A line is kept as what it is written from; time, process and thread are left out.
-/

namespace MiniWeb.Log

open CStr
open Config (LogLevel)

abbrev Stream := Nat

inductive Line
  | system (level : LogLevel) (msg : CStr)
  | access (clientIp method path : CStr) (status bytesSent : Int)
deriving DecidableEq, Repr

inductive FileOp
  | fopen (path : CStr) (fp : Stream)
  | fgetc (fp : Stream)
  | fprintf (fp : Stream) (line : Line)
  | fflush (fp : Stream)
  | fclose (fp : Stream)
  | remove (name : CStr)
  | rename (old new : CStr)
deriving DecidableEq, Repr

/-- The file operations so far and the number of streams opened. -/
structure Files where
  streams : Nat
  ops : List FileOp
deriving DecidableEq, Repr

namespace Files

def perform (op : FileOp) (files : Files) : Files := { files with ops := files.ops ++ [op] }

def fopen (path : CStr) (files : Files) : Stream × Files :=
  (files.streams, { streams := files.streams + 1, ops := files.ops ++ [.fopen path files.streams] })

/-- Opens a file, reads it to its end and closes it. -/
def readAll (path : CStr) (files : Files) : Files :=
  let tmp := files.fopen path
  (tmp.2.perform (.fgetc tmp.1)).perform (.fclose tmp.1)

/-- One line, flushed. -/
def write (fp : Stream) (line : Line) (files : Files) : Files :=
  (files.perform (.fprintf fp line)).perform (.fflush fp)

end Files

structure Logger where
  systemLog : Option Stream
  accessLog : Option Stream
  logLevel : LogLevel
  maxLines : Int
  maxRoll : Int
  systemLines : Nat
  accessLines : Nat
  systemPath : CStr
  accessPath : CStr
  files : Files
deriving DecidableEq, Repr

/-- The static variables before any call. -/
def Logger.start : Logger where
  systemLog := none
  accessLog := none
  logLevel := .info
  maxLines := 0
  maxRoll := 0
  systemLines := 0
  accessLines := 0
  systemPath := []
  accessPath := []
  files := ⟨0, []⟩

/-- `"%s.%d"` in a buffer of 320 bytes. -/
def rolled (path : CStr) (i : Nat) : CStr := cut 320 (path ++ ascii "." ++ decimal i)

/-- The loop of `rotate_log` from `i` down to 1: the oldest file is removed, every other gets the
next number. -/
def shift (path : CStr) (maxRoll : Int) : Nat → Files → Files
  | 0, files => files
  | i + 1, files =>
    shift path maxRoll i <| files.perform <|
      if ((i + 1 : Nat) : Int) = maxRoll then .remove (rolled path (i + 1))
      else .rename (rolled path (i + 1)) (rolled path (i + 2))

/-- The renaming in `rotate_log`, with the current file last. -/
def retire (maxRoll : Int) (path : CStr) (files : Files) : Files :=
  let files := shift path maxRoll maxRoll.toNat files
  if 1 ≤ maxRoll then files.perform (.rename path (rolled path 1)) else files

/-- `rotate_log`: the new `*fp`, the new `*line_count` and the files. -/
def rotateLog (maxRoll : Int) (path : CStr) (fp : Option Stream) (lineCount : Nat)
    (files : Files) : Option Stream × Nat × Files :=
  match fp with
  | none => (none, lineCount, files)
  | some stream =>
    if path = [] then (some stream, lineCount, files)
    else
      let opened := (retire maxRoll path (files.perform (.fclose stream))).fopen path
      (some opened.1, 0, opened.2)

/-- The rotation threshold of the system log. -/
def Logger.systemDue (l : Logger) : Bool :=
  0 < l.maxLines ∧ l.maxLines ≤ l.systemLines ∧ l.systemPath ≠ []

def Logger.rotateSystem (l : Logger) : Logger :=
  let r := rotateLog l.maxRoll l.systemPath l.systemLog l.systemLines l.files
  { l with systemLog := r.1, systemLines := r.2.1, files := r.2.2 }

def logWriteSystem (level : LogLevel) (msg : Option CStr) (l : Logger) : Logger :=
  match l.systemLog, msg with
  | some _, some msg =>
    let l := if l.systemDue then l.rotateSystem else l
    match l.systemLog with
    | none => l
    | some fp =>
      { l with
        files := l.files.write fp (.system level msg)
        systemLines := l.systemLines + 1 }
  | _, _ => l

/-- The system part of `log_init`; `existing` is the number of lines of the file. -/
def initSystem (systemLogPath : Option CStr) (existing : Nat) (l : Logger) : Logger :=
  let path := systemLogPath.getD []
  if path ≠ [] then
    let opened := l.files.fopen path
    { l with
      systemLog := some opened.1
      systemPath := cut 256 path
      systemLines := existing
      files := opened.2.readAll path }
  else { l with systemLog := none, systemPath := [] }

/-- The access part of `log_init`. -/
def initAccess (systemLogPath accessLogPath : Option CStr) (existing : Nat) (l : Logger) :
    Logger :=
  let path := accessLogPath.getD []
  if path ≠ [] then
    if systemLogPath = some path then
      { l with accessLog := l.systemLog, accessLines := l.systemLines, accessPath := [] }
    else
      let opened := l.files.fopen path
      { l with
        accessLog := some opened.1
        accessPath := cut 256 path
        accessLines := existing
        files := opened.2.readAll path }
  else { l with accessLog := none, accessPath := [] }

def logInit (systemLogPath accessLogPath : Option CStr) (maxLines maxRollFiles : Int)
    (systemExisting accessExisting : Nat) (l : Logger) : Logger :=
  let l := { l with
    maxLines := maxLines, maxRoll := maxRollFiles, systemLines := 0, accessLines := 0 }
  let l := initSystem systemLogPath systemExisting l
  let l := initAccess systemLogPath accessLogPath accessExisting l
  logWriteSystem .info (some (ascii "Logging system initialized (v1.2.1)")) l

/-- Closes and reopens the system log. -/
def reopenSystem (l : Logger) : Logger :=
  match l.systemLog with
  | none => l
  | some fp =>
    if l.systemPath = [] then l
    else
      let opened := (l.files.perform (.fclose fp)).fopen l.systemPath
      { l with
        -- an access log that shares the stream is not closed a second time
        accessLog := if l.accessLog = l.systemLog then none else l.accessLog
        systemLog := some opened.1
        systemLines := 0
        files := opened.2 }

/-- Closes and reopens the access log, or lets it share the system log again. -/
def reopenAccess (l : Logger) : Logger :=
  if l.accessPath ≠ [] then
    match l.accessLog with
    | none => l
    | some fp =>
      let opened := (l.files.perform (.fclose fp)).fopen l.accessPath
      { l with accessLog := some opened.1, accessLines := 0, files := opened.2 }
  else if l.systemPath ≠ [] then { l with accessLog := l.systemLog }
  else l

def logReopen (l : Logger) : Logger := reopenAccess (reopenSystem l)

def logSetLevel (level : LogLevel) (l : Logger) : Logger := { l with logLevel := level }

/-- The value of an enumerator of `log_level_t`. -/
def rank : LogLevel → Nat
  | .debug => 0
  | .info => 1
  | .warning => 2
  | .error => 3
  | .none => 4

/-- The four functions of the simple string API. -/
def logAt (level : LogLevel) (message : Option CStr) (l : Logger) : Logger :=
  if rank level < rank l.logLevel ∨ message = none then l else logWriteSystem level message l

def logDebug (message : Option CStr) (l : Logger) : Logger := logAt .debug message l

def logInfo (message : Option CStr) (l : Logger) : Logger := logAt .info message l

def logWarning (message : Option CStr) (l : Logger) : Logger := logAt .warning message l

def logError (message : Option CStr) (l : Logger) : Logger := logAt .error message l

/-- The rotation of `log_access`, which knows the stream as `fp`. -/
def rotateAccess (fp : Stream) (l : Logger) : Option Stream × Logger :=
  let rotPath := if l.accessPath ≠ [] then l.accessPath else l.systemPath
  if 0 < l.maxLines ∧ l.maxLines ≤ l.accessLines ∧ rotPath ≠ [] then
    let r := rotateLog l.maxRoll rotPath (some fp) l.accessLines l.files
    let l := { l with accessLines := r.2.1, files := r.2.2 }
    match r.1 with
    | none => (none, l)
    | some fp =>
      if l.accessPath ≠ [] then (some fp, { l with accessLog := some fp })
      else (some fp, { l with systemLog := some fp, accessLog := some fp })
  else (some fp, l)

def logAccess (clientIp method path : Option CStr) (status bytesSent : Int) (l : Logger) :
    Logger :=
  match l.accessLog.or l.systemLog with
  | none => l
  | some fp =>
    let dash := ascii "-"
    let line := Line.access (clientIp.getD dash) (method.getD dash) (path.getD dash) status
      bytesSent
    match rotateAccess fp l with
    | (none, l) => l
    | (some fp, l) =>
      { l with files := l.files.write fp line, accessLines := l.accessLines + 1 }

/-- What `log_close` does after its last line. -/
def closeStreams (l : Logger) : Logger :=
  let l := match l.systemLog with
    | some fp => { l with systemLog := none, files := l.files.perform (.fclose fp) }
    | none => l
  match l.accessLog with
  | some fp =>
    -- the comparison is made after `g_system_log` was set to NULL
    if l.accessLog ≠ l.systemLog then
      { l with accessLog := none, files := l.files.perform (.fclose fp) }
    else { l with accessLog := none }
  | none => l

def logClose (l : Logger) : Logger :=
  closeStreams (logWriteSystem .info (some (ascii "Logging system shutting down")) l)

/-- The calls of the public interface. For `log_init` also the number of lines that the two files
have at that time. -/
inductive Call
  | init (systemLogPath accessLogPath : Option CStr) (maxLines maxRollFiles : Int)
      (systemExisting accessExisting : Nat)
  | debug (message : Option CStr)
  | info (message : Option CStr)
  | warning (message : Option CStr)
  | error (message : Option CStr)
  | setLevel (level : LogLevel)
  | access (clientIp method path : Option CStr) (status bytesSent : Int)
  | reopen
  | close
deriving DecidableEq, Repr

def Call.run : Call → Logger → Logger
  | .init sys acc maxLines maxRoll sysExisting accExisting =>
    logInit sys acc maxLines maxRoll sysExisting accExisting
  | .debug message => logDebug message
  | .info message => logInfo message
  | .warning message => logWarning message
  | .error message => logError message
  | .setLevel level => logSetLevel level
  | .access clientIp method path status bytesSent => logAccess clientIp method path status bytesSent
  | .reopen => logReopen
  | .close => logClose

end MiniWeb.Log
