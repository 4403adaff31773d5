import WordMachine.Assembly.Layout
import WordMachine.Command.Completion
import WordMachine.Command.FileSystem
import WordMachine.Listing
import WordMachine.Machine.Run

/-!
# Tools

A tool reads its flags, checks the number of its arguments, and then does its work.  Beside its work
it completes unfinished lines, and gives shells the script by which they ask for that.  There is one
tool that assembles a source file, one that lists an image as source text, and one that runs an
image.
-/

namespace WordMachine

/-- The flags of a tool, their defaults, and how many arguments it takes. -/
structure Tool (α : Type) where
  name : String
  usage : String
  flags : List (Flag α)
  defaults : α
  leastArguments : Nat
  mostArguments : Nat

namespace Tool

variable {α : Type} {m : Type → Type} [Monad m]

/-- The flags by which the arguments of a tool are told from their values. -/
def knownFlags (tool : Tool α) : List (Flag (Settings α)) :=
  Settings.logFlags ++ Settings.ownFlags tool.flags

def command (tool : Tool α) : Command (Settings α) where
  name := tool.name
  inherited := []
  own := (Settings.helpFlag tool.name :: tool.knownFlags).mergeSort fun a b => a.name ≤ b.name
  defaults := .initial tool.defaults
  below := []
  takesFiles := true

def complete (tool : Tool α) (described : Bool) (arguments : List String) : Outcome :=
  match arguments.getLast? with
  | none => .failed (UsageError.noArguments 1).message
  | some last =>
      let before := arguments.dropLast
      let completion :=
        match before with
        | "completion" :: rest =>
            let (shell?, rest) := Shell.select rest
            (Shell.commandOf shell?).complete rest last
        | _ => tool.command.complete before last
      completion.report described

def work (tool : Tool α) (body : Settings α → List String → m Outcome)
    (arguments : List String) : m Outcome :=
  match Flag.read tool.command.flags tool.command.defaults arguments with
  | .error e => pure (.failed e.message)
  | .ok parsed =>
      let count := parsed.positional.length
      if parsed.settings.help then pure (.printed (tool.usage ++ "\n"))
      else if count < tool.leastArguments ∨ tool.mostArguments < count then
        pure (.failed
          (UsageError.argumentCount tool.leastArguments tool.mostArguments count).message)
      else body parsed.settings parsed.positional

def run (tool : Tool α) (body : Settings α → List String → m Outcome)
    (arguments : List String) : m Outcome :=
  match Command.firstWord tool.knownFlags arguments with
  | some ("__complete", rest) => pure (tool.complete true rest)
  | some ("__completeNoDesc", rest) => pure (tool.complete false rest)
  | some ("completion", rest) => pure (Shell.run tool.name rest)
  | _ => tool.work body arguments

end Tool

/-! ## Assembling a file

Nothing is written unless the whole file assembles. -/

namespace AssembleTool

structure Options where
  output : String
  strict : Bool
  dump : Bool

def tool : Tool Options where
  name := "tasm"
  usage := "Assemble FILE into a memory image."
  flags :=
    [.switch "dump" (some 'd') "print parsed lines and labels to stderr"
        fun v o => { o with dump := v },
      .text "output" (some 'o') "name of the output memory image, - for stdout"
        fun v o => { o with output := v },
      .switch "strict" none "reject inline labels, label redefinition and unaligned .base"
        fun v o => { o with strict := v }]
  defaults := ⟨"tvmimage.bin", false, false⟩
  leastArguments := 1
  mostArguments := 1

def describeLine : Line → String
  | .label name position => position.description ++ " label " ++ Quoted.bytes name
  | .specifier name args position =>
      " ".intercalate ((position.description ++ " specifier " ++ Quoted.bytes name) ::
        args.map Token.description)
  | .instruction line =>
      " ".intercalate ((line.position.description ++ " instruction " ++
        Quoted.bytes line.mnemonic) :: line.operands.map fun g =>
          if g.indirect then "[" ++ g.token.description ++ "]" else g.token.description)

def dump (report : AssemblyReport) : List String :=
  "parsed lines" :: report.lines.map describeLine ++
    "labels" :: report.labels.toList.map fun (name, address) =>
      Quoted.bytes name ++ s!" = {address}"

variable {m : Type → Type} [Monad m] [FileSystem m]

/-- Whether a path means the root, which has no place beside it for a temporary file. -/
def isRoot (path : String) : Bool :=
  path != "" && path.all (· == '/')

def deliver (log : LogSettings) (output : String) (image : Image) : m Outcome := do
  let written := Notice.lines log [.detail .command 1 ("wrote " ++ output)]
  if output = "-" then return ⟨image.bytes, written, none⟩
  if isRoot output then
    return .failed
      (FileError.mk "createtemp" "./.*" (.other "pattern contains path separator")).message
  match ← FileSystem.write output image.bytes with
  | .error e => return .failed e.message
  | .ok () => return ⟨[], written, none⟩

def body (s : Settings Options) (arguments : List String) : m Outcome := do
  let path := arguments.headD ""
  match ← FileSystem.read path with
  | .error e => return .failed e.message
  | .ok source =>
      let d := if s.own.strict then Dialect.strict else .standard
      let report := AssemblyReport.ofSource d source
      let lines :=
        Notice.lines s.log report.notices ++ if s.own.dump then dump report else []
      match report.outcome with
      | .error e => return (Outcome.failed (path ++ ": " ++ e.message)).logging lines
      | .ok image => return (← deliver s.log s.own.output image).logging lines

def run (arguments : List String) : m Outcome :=
  tool.run body arguments

end AssembleTool

/-! ## Listing an image -/

namespace ListTool

def tool : Tool Unit where
  name := "tdis"
  usage := "List the memory image IMAGE as source text, on standard output or in OUTFILE."
  flags := []
  defaults := ()
  leastArguments := 1
  mostArguments := 2

variable {m : Type → Type} [Monad m] [FileSystem m]

def body (s : Settings Unit) (arguments : List String) : m Outcome := do
  let output := arguments[1]?.getD ""
  match ← FileSystem.read (arguments.headD "") with
  | .error e => return .failed ("reading input file: " ++ e.message)
  | .ok bytes =>
      match Listing.ofBytes bytes with
      | .error e => return .failed ("disassembly: " ++ e.message)
      | .ok text =>
          if output = "" then return .printed text
          match ← FileSystem.write output (Bytes.ofString text) with
          | .error e => return .failed ("writing output file: " ++ e.message)
          | .ok () =>
              return Outcome.success.logging
                (Notice.lines s.log [.info .command ("disassembly written to " ++ output)])

def run (arguments : List String) : m Outcome :=
  tool.run body arguments

end ListTool

/-! ## Running an image -/

namespace RunTool

structure Options where
  entry : Word
  stack : Word
  maxSteps : Word
  registers : Bool

def tool : Tool Options where
  name := "trun"
  usage := "Run the memory image IMAGE until it halts or faults."
  flags :=
    [.word "entry" "word address of the first instruction" fun v o => { o with entry := v },
      .word "max-steps" "stop after this many instructions, 0 for no limit"
        fun v o => { o with maxSteps := v },
      .switch "registers" (some 'r') "print the registers when the program stops"
        fun v o => { o with registers := v },
      .word "stack" "word address of the stack base" fun v o => { o with stack := v }]
  defaults := ⟨0, Machine.initialStackBase, 0, false⟩
  leastArguments := 1
  mostArguments := 1

variable {σ : Type} [RandomSource σ]

def start (source : σ) (o : Options) (bytes : Bytes) : Except LoadFault (Machine σ) :=
  match Machine.loadImage bytes (Machine.new source) with
  | .error fault _ => .error fault
  | .ok () m =>
      .ok ((m.setRegister Register.instructionPointer o.entry).setRegister
        Register.stackBase o.stack)

/-- Run a machine that has been started; its registers can be shown even after a fault. -/
def execute (s : Settings Options) (path : String) (m : Machine σ) : Outcome :=
  let (result, notices) := m.runLogged s.log s.own.maxSteps
  let shown := fun m : Machine σ => if s.own.registers then Bytes.ofString m.registerTable else []
  let lines := Notice.lines s.log notices
  match result with
  | .ok () m => ⟨shown m, lines, none⟩
  | .error fault m => ⟨shown m, lines, some (path ++ ": " ++ fault.message)⟩

variable {m : Type → Type} [Monad m] [FileSystem m]

def body (source : σ) (s : Settings Options) (arguments : List String) : m Outcome := do
  let path := arguments.headD ""
  match ← FileSystem.read path with
  | .error e => return .failed ("reading image: " ++ e.message)
  | .ok bytes =>
      match start source s.own bytes with
      | .error fault => return .failed (path ++ ": " ++ fault.message)
      | .ok machine =>
          let loaded := Notice.detail .command 1
            (s!"loaded {bytes.length} bytes from " ++ path ++ s!", entry {s.own.entry}")
          return (execute s path machine).logging (Notice.lines s.log [loaded])

def run (source : σ) (arguments : List String) : m Outcome :=
  tool.run (body source) arguments

end RunTool

end WordMachine
