import Stencil.Settings.Basic

/-!
Where log records go: a console, and two files if there is a directory for them.

A record is written by every handler whose level it reaches, if it reaches the level of all logging.
Time and line number are left to the moment of writing and stand as placeholders here.
-/

namespace Stencil

/-- How grave a record is, from least to most. -/
inductive LogLevel
  | notSet
  | debug
  | info
  | warning
  | error
  | critical
  deriving DecidableEq

namespace LogLevel

def name : LogLevel → String
  | .notSet => "NOTSET"
  | .debug => "DEBUG"
  | .info => "INFO"
  | .warning => "WARNING"
  | .error => "ERROR"
  | .critical => "CRITICAL"

/-- The level of that name; two levels have a second name. -/
def ofName? : String → Option LogLevel
  | "NOTSET" => some .notSet
  | "DEBUG" => some .debug
  | "INFO" => some .info
  | "WARNING" => some .warning
  | "WARN" => some .warning
  | "ERROR" => some .error
  | "CRITICAL" => some .critical
  | "FATAL" => some .critical
  | _ => none

def rank : LogLevel → Nat
  | .notSet => 0
  | .debug => 10
  | .info => 20
  | .warning => 30
  | .error => 40
  | .critical => 50

end LogLevel

/-- The level that the settings ask for; an unknown name means the level for information. -/
def Settings.level (s : Settings) : LogLevel := (LogLevel.ofName? s.logLevel).getD .info

structure LogRecord where
  logger : String
  level : LogLevel
  message : String

/-- What writes records. -/
inductive LogSink
  | console
  | file (path : String)
  deriving DecidableEq

/-- A sink and the least level that it writes. -/
structure LogHandler where
  sink : LogSink
  level : LogLevel

namespace LogHandler

/-- How a handler lays a record out: the console leaves out where the record comes from. -/
def format (h : LogHandler) : String :=
  match h.sink with
  | .console => "%(asctime)s | %(levelname)-8s | %(message)s"
  | .file _ => "%(asctime)s | %(levelname)-8s | %(name)s:%(lineno)d | %(message)s"

def lines (h : LogHandler) (r : LogRecord) : List String :=
  let level := r.level.name.toList
  let padded := String.ofList (level ++ List.replicate (8 - level.length) ' ')
  let place :=
    match h.sink with
    | .console => ""
    | .file _ => (if r.logger.isEmpty then "root" else r.logger) ++ ":<line> | "
  let text := "<time> | " ++ padded ++ " | " ++ place ++ r.message
  (text.toList.splitOn '\n').map String.ofList

end LogHandler

/-- The level of all logging and the handlers. -/
structure Logging where
  level : LogLevel
  handlers : List LogHandler

namespace Logging

/-- The logging that settings ask for: all information and all errors go to files if there is a
directory, and what reaches the level goes to the console. -/
def ofSettings (s : Settings) : Logging :=
  let files : List LogHandler :=
    match s.logDir with
    | none => []
    | some directory =>
      [⟨.file (normalizePath (directory ++ "/info.log")), .info⟩,
       ⟨.file (normalizePath (directory ++ "/error.log")), .error⟩]
  ⟨s.level, files ++ [⟨.console, s.level⟩]⟩

def accepts (l : Logging) (r : LogRecord) : Bool :=
  r.level ≠ .notSet && l.level.rank ≤ r.level.rank

def written (l : Logging) (h : LogHandler) (records : List LogRecord) : List String :=
  records.flatMap fun r =>
    if l.accepts r && h.level.rank ≤ r.level.rank then h.lines r else []

end Logging

end Stencil
