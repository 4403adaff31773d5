import WordMachine.Command.FlagValue

/-!
# Flags

Arguments are flags and positional arguments in any order.  A flag has a long name and may have a
short one; short ones can stand together behind one dash.  A value follows behind an equals sign, as
the rest of a short group, or as the next argument.  A double dash ends the flags.  The first
argument that is wrong decides.

Every command has the flags of the log.  Where log files are kept and how they are written is
checked but has no bearing on what a command shows.
-/

namespace WordMachine

structure Flag (α : Type) where
  name : String
  short : Option Char
  description : String
  /-- The value of the flag when it stands alone; without one it takes the next argument. -/
  alone : Option String
  set : String → α → Except FlagValue.Failure α

inductive UsageError where
  | malformed (argument : String)
  | unknown (name : String)
  | unknownShort (group : List Char)
  | missing (argument : String)
  | missingShort (group : List Char)
  | invalid (value : String) (flag : String) (why : FlagValue.Failure)
  | argumentCount (least most received : Nat)
  | noArguments (least : Nat)
  | unknownCommand (name command : String)
  deriving DecidableEq, Repr

namespace UsageError

def firstByte (group : List Char) : Char :=
  Char.ofNat (((group.head?.map String.utf8EncodeChar).getD []).headD 0).toNat

def message : UsageError → String
  | .malformed argument => "bad flag syntax: " ++ argument
  | .unknown name => "unknown flag: --" ++ name
  | .unknownShort group =>
      "unknown shorthand flag: " ++ Quoted.single (firstByte group) ++ " in -" ++
        String.ofList group
  | .missing argument => "flag needs an argument: " ++ argument
  | .missingShort group =>
      "flag needs an argument: " ++ Quoted.single (firstByte group) ++ " in -" ++
        String.ofList group
  | .invalid value flag why =>
      "invalid argument " ++ Quoted.text value ++ " for " ++ Quoted.text flag ++ " flag: " ++
        why.message
  | .argumentCount least most received =>
      if least = most then s!"accepts {least} arg(s), received {received}"
      else s!"accepts between {least} and {most} arg(s), received {received}"
  | .noArguments least => s!"requires at least {least} arg(s), only received 0"
  | .unknownCommand name command =>
      "unknown command " ++ Quoted.text name ++ " for " ++ Quoted.text command

end UsageError

namespace Flag

variable {α β : Type}

def lift (get : β → α) (put : α → β → β) (flag : Flag α) : Flag β :=
  { name := flag.name
    short := flag.short
    description := flag.description
    alone := flag.alone
    set := fun value settings =>
      match flag.set value (get settings) with
      | .ok part => .ok (put part settings)
      | .error e => .error e }

/-- A flag whose value is read by `read` and put into the settings. -/
def valued (name : String) (short : Option Char) (description : String)
    (read : String → Except FlagValue.Failure β) (put : β → α → α) : Flag α :=
  ⟨name, short, description, none, fun value settings => (read value).map (put · settings)⟩

def text (name : String) (short : Option Char) (description : String)
    (put : String → α → α) : Flag α :=
  valued name short description .ok put

def word (name : String) (description : String) (put : Word → α → α) : Flag α :=
  valued name none description FlagValue.word put

def switch (name : String) (short : Option Char) (description : String)
    (put : Bool → α → α) : Flag α :=
  { valued name short description FlagValue.switch put with alone := some "true" }

def title (flag : Flag α) : String :=
  match flag.short with
  | some c => "-".push c ++ ", --" ++ flag.name
  | none => "--" ++ flag.name

def assign (flag : Flag α) (value : String) (settings : α) : Except UsageError α :=
  match flag.set value settings with
  | .ok settings => .ok settings
  | .error why => .error (.invalid value flag.title why)

inductive Reading (α : Type) where
  | settled (settings : α)
  | awaiting (flag : Flag α) (settings : α) (missing : UsageError)

def settle : Except UsageError α → Except UsageError (Reading α)
  | .ok settings => .ok (.settled settings)
  | .error e => .error e

/-- Read an argument that begins with a double dash, `body` being what follows. -/
def readLong (flags : List (Flag α)) (settings : α) (body : List Char) :
    Except UsageError (Reading α) :=
  let argument := "--" ++ String.ofList body
  let name := String.ofList (body.takeWhile (· != '='))
  match body with
  | [] | '-' :: _ | '=' :: _ => .error (.malformed argument)
  | _ =>
      match flags.find? (·.name == name) with
      | none => .error (.unknown name)
      | some flag =>
          match body.dropWhile (· != '='), flag.alone with
          | _ :: value, _ => settle (flag.assign (String.ofList value) settings)
          | [], some value => settle (flag.assign value settings)
          | [], none => .ok (.awaiting flag settings (.missing argument))

/-- Read a group of short flags.  What begins with `test.` is passed over. -/
def readShort (flags : List (Flag α)) (settings : α) :
    List Char → Except UsageError (Reading α)
  | [] => .ok (.settled settings)
  | c :: rest =>
      if "test.".toList.isPrefixOf (c :: rest) then .ok (.settled settings)
      else
        match flags.find? (·.short == some c) with
        | none => .error (.unknownShort (c :: rest))
        | some flag =>
            match rest, flag.alone with
            | '=' :: d :: value, _ => settle (flag.assign (String.ofList (d :: value)) settings)
            | rest, some value =>
                match flag.assign value settings with
                | .ok settings => readShort flags settings rest
                | .error e => .error e
            | [], none => .ok (.awaiting flag settings (.missingShort [c]))
            | d :: value, none => settle (flag.assign (String.ofList (d :: value)) settings)

structure Parsed (α : Type) where
  settings : α
  positional : List String
  ended : Bool

def readFrom (flags : List (Flag α)) (settings : α) (done : List String) :
    List String → Except UsageError (Parsed α)
  | [] => .ok ⟨settings, done.reverse, false⟩
  | argument :: rest =>
      let reading :=
        match argument.toList with
        | '-' :: '-' :: body => some (readLong flags settings body)
        | '-' :: c :: group => some (readShort flags settings (c :: group))
        | _ => none
      if argument = "--" then .ok ⟨settings, done.reverse ++ rest, true⟩
      else
        match reading with
        | none => readFrom flags settings (argument :: done) rest
        | some (.error e) => .error e
        | some (.ok (.settled settings)) => readFrom flags settings done rest
        | some (.ok (.awaiting flag settings missing)) =>
            match rest with
            | [] => .error missing
            | value :: rest =>
                match flag.assign value settings with
                | .ok settings => readFrom flags settings done rest
                | .error e => .error e

def read (flags : List (Flag α)) (settings : α) (arguments : List String) :
    Except UsageError (Parsed α) :=
  readFrom flags settings [] arguments

/-- A flag that also notes, in a list beside the settings, that it has been given. -/
def noting (flag : Flag α) : Flag (List String × α) :=
  { name := flag.name
    short := flag.short
    description := flag.description
    alone := flag.alone
    set := fun value (given, settings) =>
      (flag.set value settings).map fun settings => (flag.name :: given, settings) }

end Flag

/-! ## The flags of the log -/

def LogSettings.default : LogSettings :=
  .ofVerbosity 0

namespace LogFlags

/-- A flag that has no bearing on what is shown. -/
def checked (name : String) (description : String)
    (check : String → Except FlagValue.Failure Unit) : Flag LogSettings :=
  .valued name none description check fun _ s => s

def switch (name : String) (description : String) (put : Bool → LogSettings → LogSettings) :
    Flag LogSettings :=
  { Flag.valued name none description FlagValue.logSwitch put with alone := some "true" }

def all : List (Flag LogSettings) :=
  [switch "alsologtostderr" "log to standard error as well as files"
      fun v s => { s with alsoToScreen := v },
    checked "log_backtrace_at" "when logging hits line file:N, emit a stack trace"
      FlagValue.locations,
    checked "log_dir" "If non-empty, write log files in this directory" fun _ => .ok (),
    checked "log_link" "If non-empty, add symbolic links in this directory to the log files"
      fun _ => .ok (),
    checked "logbuflevel"
      ("Buffer log messages logged at this level or lower (-1 means don't buffer; 0 means buffer " ++
        "INFO only; ...). Has limited applicability on non-prod platforms.")
      fun value => (FlagValue.logNumber value).map fun _ => (),
    switch "logtostderr" "log to standard error instead of files"
      fun v s => { s with toScreen := v },
    .valued "stderrthreshold" none "logs at or above this threshold go to stderr"
      FlagValue.severity fun v s => { s with threshold := v },
    .valued "v" (some 'v') "log level for V logs" FlagValue.level
      fun v s => { s with verbosity := v },
    .valued "vmodule" none
      "comma-separated list of pattern=N settings for file-filtered logging"
      FlagValue.filters fun v s => { s with filters := v }]

end LogFlags

/-! ## Settings -/

structure Settings (α : Type) where
  log : LogSettings
  help : Bool
  own : α

namespace Settings

variable {α : Type}

def initial (own : α) : Settings α :=
  ⟨.default, false, own⟩

def logFlags : List (Flag (Settings α)) :=
  LogFlags.all.map (Flag.lift (·.log) fun log s => { s with log })

def helpFlag (name : String) : Flag (Settings α) :=
  .switch "help" (some 'h') ("help for " ++ name) fun v s => { s with help := v }

def ownFlags (flags : List (Flag α)) : List (Flag (Settings α)) :=
  flags.map (Flag.lift (·.own) fun own s => { s with own })

end Settings

end WordMachine
