import WordMachine.Text.Glob

/-!
# Notices

What an operation reports beside its result.  Warnings and plain notices are always reported;
details have a level and are reported from that verbosity on.  The settings of the log give the
verbosity, for all parts of the program or for those that a pattern names, and say what reaches the
screen.
-/

namespace WordMachine

inductive LogSeverity where
  | info
  | warning
  | error
  | fatal
  deriving DecidableEq, Repr

namespace LogSeverity

def all : List LogSeverity := [.info, .warning, .error, .fatal]

def rank : LogSeverity → Nat
  | .info => 0
  | .warning => 1
  | .error => 2
  | .fatal => 3

def name : LogSeverity → String
  | .info => "INFO"
  | .warning => "WARNING"
  | .error => "ERROR"
  | .fatal => "FATAL"

end LogSeverity

inductive Notice.Origin where
  | assembly
  | directives
  | execution
  | command
  deriving DecidableEq, Repr

def Notice.Origin.name : Notice.Origin → String
  | .assembly => "assembler"
  | .directives => "directives"
  | .execution => "execute"
  | .command => "main"

inductive Notice.Kind where
  | warning
  | info
  | detail (level : Int)
  deriving DecidableEq, Repr

structure Notice where
  origin : Notice.Origin
  kind : Notice.Kind
  text : String
  deriving DecidableEq, Repr

/-- The verbosity of the parts that a pattern names. -/
structure LogFilter where
  pattern : String
  level : Int
  deriving DecidableEq, Repr

namespace LogFilter

/-- Whether a pattern fits the name of a part.  A pattern with a slash is meant for whole paths,
which parts do not have. -/
def fits (f : LogFilter) (origin : Notice.Origin) : Bool :=
  let pattern := f.pattern.toList
  if pattern.contains '/' then false
  else if pattern.any fun c => ['\\', '*', '?', '[', ']'].contains c then
    match Glob.ofString? f.pattern with
    | some glob => glob.accepts origin.name.toList
    | none => false
  else f.pattern == origin.name

end LogFilter

structure LogSettings where
  verbosity : Int
  filters : List LogFilter
  -- Lines go to the screen only, or to the screen too: all of them, or those from a severity on.
  toScreen : Bool
  alsoToScreen : Bool
  threshold : LogSeverity
  deriving Repr

namespace LogSettings

/-- Settings of a verbosity, of which the low 32 bits count, with all lines on the screen. -/
def ofVerbosity (level : Int) : LogSettings :=
  ⟨Int.bmod level 0x100000000, [], true, false, .error⟩

/-- The verbosity of a part: that of the first filter that fits it, or the one of all parts. -/
def verbosityOf (s : LogSettings) (origin : Notice.Origin) : Int :=
  match s.filters.find? (·.fits origin) with
  | some f => f.level
  | none => s.verbosity

def reports (s : LogSettings) (origin : Notice.Origin) (level : Int) : Bool :=
  level ≤ s.verbosityOf origin

def shows (s : LogSettings) (severity : LogSeverity) : Bool :=
  s.toScreen || s.alsoToScreen || s.threshold.rank ≤ severity.rank

end LogSettings

namespace Notice

def warning (origin : Origin) (text : String) : Notice := ⟨origin, .warning, text⟩

def info (origin : Origin) (text : String) : Notice := ⟨origin, .info, text⟩

def detail (origin : Origin) (level : Int) (text : String) : Notice :=
  ⟨origin, .detail level, text⟩

def severity (n : Notice) : LogSeverity :=
  match n.kind with
  | .warning => .warning
  | .info | .detail _ => .info

def isShown (s : LogSettings) (n : Notice) : Bool :=
  s.shows n.severity &&
    match n.kind with
    | .warning | .info => true
    | .detail level => s.reports n.origin level

def render (n : Notice) : String :=
  match n.severity with
  | .warning => "W] " ++ n.text
  | _ => "I] " ++ n.text

def lines (s : LogSettings) (notices : List Notice) : List String :=
  (notices.filter (isShown s)).map render

end Notice

end WordMachine
