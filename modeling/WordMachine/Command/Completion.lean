import WordMachine.Command.Flags

/-!
# Completion

A shell asks a command how the last argument of an unfinished line can go on.  The answer lists the
choices and ends with a directive that tells the shell what else it may offer.  A command of its own
gives a shell the script by which it asks, with one command below it for each shell.
-/

namespace WordMachine

/-- What a command leaves behind besides files. -/
structure Outcome where
  stdout : Bytes
  stderr : List String
  failure : Option String

namespace Outcome

def success : Outcome := ⟨[], [], none⟩

def failed (message : String) : Outcome := ⟨[], [], some message⟩

def printed (text : String) : Outcome := ⟨Bytes.ofString text, [], none⟩

def logging (lines : List String) (o : Outcome) : Outcome :=
  { o with stderr := lines ++ o.stderr }

def exitCode (o : Outcome) : UInt32 :=
  if o.failure.isSome then 1 else 0

def errorLines (o : Outcome) : List String :=
  o.stderr ++ (o.failure.map ("Error: " ++ ·)).toList

end Outcome

/-! ## Choices -/

/-- A command as a shell sees it. -/
structure Command (α : Type) where
  name : String
  inherited : List (Flag α)
  own : List (Flag α)
  defaults : α
  below : List (String × String)
  takesFiles : Bool

inductive Completion.Directive where
  | files
  | nothing
  deriving DecidableEq, Repr

structure Completion where
  choices : List (String × String)
  directive : Completion.Directive
  complaint : Option String
  deriving DecidableEq, Repr

namespace Completion

def Directive.code : Directive → Nat
  | .files => 0
  | .nothing => 4

def Directive.name : Directive → String
  | .files => "ShellCompDirectiveDefault"
  | .nothing => "ShellCompDirectiveNoFileComp"

def report (described : Bool) (c : Completion) : Outcome :=
  let line := fun (choice : String × String) =>
    if described then choice.1 ++ "\t" ++ choice.2 ++ "\n" else choice.1 ++ "\n"
  { stdout :=
      Bytes.ofString (String.join (c.choices.map line) ++ s!":{c.directive.code}\n")
    stderr :=
      (c.complaint.map ("[Debug] [Error] " ++ ·)).toList ++
        ["Completion ended with directive: " ++ c.directive.name]
    failure := none }

def lastByte (s : String) : String :=
  match s.toList.getLast? with
  | some c => String.singleton (if c.toNat < 0x80 then c else Char.ofNat 0xfffd)
  | none => ""

/-- The name of the flag that an argument without a value ends in: a long one whole, of a group of
short ones the last. -/
def flagName (argument : String) : String :=
  if argument.startsWith "--" then (argument.drop 2).toString else lastByte argument

def awaitsValue (argument : String) : Bool :=
  !argument.contains '=' &&
    match argument.toList with
    | '-' :: '-' :: rest => !rest.isEmpty
    | '-' :: rest => !rest.isEmpty
    | _ => false

/-- What the last argument is part of. -/
structure Cursor (α : Type) where
  flag : Option (Flag α)
  before : List String
  last : String
  -- The name of the flag whose value it would be, if there were such a flag.
  unsupported : Option String

end Completion

namespace Command

open Completion

variable {α : Type}

def flags (c : Command α) : List (Flag α) :=
  c.inherited ++ c.own

/-- Find a flag by its name, which is a short one if it is one character. -/
def flagNamed? (c : Command α) (name : String) : Option (Flag α) :=
  match name.toList with
  | [short] => c.flags.find? (·.short == some short)
  | _ => c.flags.find? (·.name == name)

def cursor (c : Command α) (arguments : List String) (last : String) : Cursor α :=
  let equals := last.startsWith "-" && last.contains '='
  let spelled := String.ofList (last.toList.takeWhile (· != '='))
  let value := if equals then String.ofList ((last.toList.dropWhile (· != '=')).drop 1) else last
  if last.startsWith "-" && !equals then ⟨none, arguments, last, none⟩
  else
    let (name, before) :=
      if equals && flagName spelled != "" then (flagName spelled, arguments)
      else
        match arguments.getLast? with
        | some argument =>
            if awaitsValue argument then (flagName argument, arguments.dropLast)
            else ("", arguments)
        | none => ("", arguments)
    if name = "" then ⟨none, before, value, none⟩
    else
      match c.flagNamed? name with
      | none => ⟨none, arguments, last, some name⟩
      | some flag =>
          if !equals && flag.alone.isSome then ⟨none, arguments, value, none⟩
          else ⟨some flag, before, value, none⟩

def flagChoices (c : Command α) (given : List String) (beginning : String) :
    List (String × String) :=
  (c.flags.filter fun flag => !given.contains flag.name).flatMap fun flag =>
    let names := ("--" ++ flag.name) :: (flag.short.map fun s => "-".push s).toList
    (names.filter (·.startsWith beginning)).map (·, flag.description)

def complete (c : Command α) (arguments : List String) (last : String) : Completion :=
  let cursor := c.cursor arguments last
  match Flag.read (c.flags.map Flag.noting) ([], c.defaults) cursor.before with
  | .error e =>
      ⟨[], .files, some ("Error while parsing flags from args [" ++
        " ".intercalate cursor.before ++ "]: " ++ e.message)⟩
  | .ok ⟨(given, _), positional, ended⟩ =>
      let offersBelow := cursor.flag.isNone && positional.isEmpty && !c.below.isEmpty
      let choices := if offersBelow then c.below.filter (·.1.startsWith cursor.last) else []
      let isValue := cursor.flag.isSome && !ended
      match cursor.unsupported, ended with
      | some name, false =>
          ⟨[], .files,
            some ("Subcommand '" ++ c.name ++ "' does not support flag '" ++ name ++ "'")⟩
      | _, _ =>
          if given.contains "help" then ⟨[], .nothing, none⟩
          else if cursor.flag.isNone && cursor.last.startsWith "-" &&
              !cursor.last.contains '=' && !ended then
            ⟨c.flagChoices given cursor.last, .nothing, none⟩
          else if isValue || c.takesFiles then ⟨choices, .files, none⟩
          else ⟨choices, .nothing, none⟩

/-- Whether the argument behind one is the value of a flag in it, as far as the flags are known. -/
def takesNext (flags : List (Flag α)) (argument : String) : Bool :=
  !argument.contains '=' &&
    match argument.toList with
    | '-' :: '-' :: name =>
        match flags.find? (·.name == String.ofList name) with
        | some flag => flag.alone.isNone
        | none => true
    | ['-', short] =>
        short.toNat < 0x80 &&
          match flags.find? (·.short == some short) with
          | some flag => flag.alone.isNone
          | none => true
    | _ => false

/-- The first argument that is neither a flag nor the value of one, and the other arguments; `done`
holds those passed over, last first. -/
def firstWordFrom (flags : List (Flag α)) (done : List String) :
    List String → Option (String × List String)
  | [] => none
  | argument :: rest =>
      if argument = "--" then none
      else if takesNext flags argument then
        match rest with
        | value :: next :: rest => firstWordFrom flags (value :: argument :: done) (next :: rest)
        | _ => none
      else if argument = "" ∨ argument.startsWith "-" then
        firstWordFrom flags (argument :: done) rest
      else some (argument, done.reverse ++ rest)

def firstWord (flags : List (Flag α)) (arguments : List String) :
    Option (String × List String) :=
  firstWordFrom flags [] arguments

end Command

/-! ## Shells -/

inductive Shell where
  | bash
  | fish
  | powershell
  | zsh
  deriving DecidableEq, Repr

namespace Shell

def all : List Shell := [.bash, .fish, .powershell, .zsh]

def name : Shell → String
  | .bash => "bash"
  | .fish => "fish"
  | .powershell => "powershell"
  | .zsh => "zsh"

def ofName? (name : String) : Option Shell :=
  all.find? (·.name == name)

def description (s : Shell) : String :=
  "Generate the autocompletion script for " ++ s.name

def command (s : Shell) : Command (Settings Bool) where
  name := s.name
  inherited := Settings.logFlags
  own := [Settings.helpFlag s.name,
    .switch "no-descriptions" none "disable completion descriptions"
      fun v settings => { settings with own := v }]
  defaults := .initial false
  below := []
  takesFiles := false

def family : Command (Settings Bool) where
  name := "completion"
  inherited := Settings.logFlags
  own := [Settings.helpFlag "completion"]
  defaults := .initial false
  below := all.map fun s => (s.name, s.description)
  takesFiles := false

def select (arguments : List String) : Option Shell × List String :=
  match Command.firstWord (Settings.logFlags : List (Flag (Settings Bool))) arguments with
  | some (word, rest) =>
      match ofName? word with
      | some shell => (some shell, rest)
      | none => (none, arguments)
  | none => (none, arguments)

def commandOf : Option Shell → Command (Settings Bool)
  | some shell => shell.command
  | none => family

def script (s : Shell) (tool : String) (described : Bool) : String :=
  let request := tool ++ if described then " __complete" else " __completeNoDesc"
  match s with
  | .bash =>
      "_" ++ tool ++ "() \x7b\n" ++
      "    local IFS=$'\\n'\n" ++
      "    COMPREPLY=($(" ++ request ++ " \"$\x7bCOMP_WORDS[@]:1:COMP_CWORD\x7d\" 2>/dev/null" ++
        " | grep -v '^:' | cut -f1))\n" ++
      "\x7d\n" ++
      "complete -o default -F _" ++ tool ++ " " ++ tool ++ "\n"
  | .zsh =>
      "#compdef " ++ tool ++ "\n" ++
      "compadd -- $\x7b(f)\"$(" ++ request ++ " \"$\x7b(@)words[2,CURRENT]\x7d\" 2>/dev/null" ++
        " | grep -v '^:' | cut -f1)\"\x7d\n"
  | .fish =>
      "complete -c " ++ tool ++ " -a '(" ++ request ++
        " (commandline -opc)[2..] (commandline -ct) 2>/dev/null | string match -v -r \"^:\")'\n"
  | .powershell =>
      "Register-ArgumentCompleter -Native -CommandName " ++ tool ++ " -ScriptBlock \x7b\n" ++
      "    param($word, $line, $position)\n" ++
      "    $words = @($line.CommandElements | Select-Object -Skip 1 | ForEach-Object \x7b \"$_\" \x7d)\n" ++
      "    & " ++ request ++ " @words 2>$null | Where-Object \x7b $_ -notmatch '^:' \x7d |" ++
        " ForEach-Object \x7b ($_ -split \"`t\")[0] \x7d\n" ++
      "\x7d\n"

def run (tool : String) (arguments : List String) : Outcome :=
  let (shell?, rest) := select arguments
  let command := commandOf shell?
  match Flag.read command.flags command.defaults rest with
  | .error e => .failed e.message
  | .ok parsed =>
      match shell?, parsed.settings.help with
      | some shell, false =>
          match parsed.positional with
          | [] => .printed (shell.script tool (!parsed.settings.own))
          | word :: _ =>
              .failed (UsageError.unknownCommand word
                (tool ++ " completion " ++ shell.name)).message
      | some shell, true => .printed (shell.description ++ "\n")
      | none, _ =>
          .printed (String.join (all.map fun s =>
            "  " ++ Numeral.padRight 12 s.name ++ s.description ++ "\n"))

end Shell

end WordMachine
