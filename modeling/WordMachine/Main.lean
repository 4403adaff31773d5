import WordMachine.Command.Tools

/-!
# The command line

The first argument names the tool, the others are the tool's own.
-/

namespace WordMachine

def FileError.ofSystem (operation path : String) : IO.Error → FileError
  | .noFileOrDirectory .. => ⟨operation, path, .notFound⟩
  | e => ⟨operation, path, .other (toString e)⟩

instance : FileSystem IO where
  read path := do
    match ← (IO.FS.readBinFile path).toBaseIO with
    | .ok contents => return .ok contents.data.toList
    | .error e => return .error (.ofSystem "open" path e)
  write path contents := do
    match ← (IO.FS.writeBinFile path ⟨contents.toArray⟩).toBaseIO with
    | .ok () => return .ok ()
    | .error e => return .error (.ofSystem "open" path e)

def Outcome.report (o : Outcome) : IO UInt32 := do
  let output ← IO.getStdout
  output.write ⟨o.stdout.toArray⟩
  output.flush
  for line in o.errorLines do
    IO.eprintln line
  return o.exitCode

end WordMachine

open WordMachine in
def main (arguments : List String) : IO UInt32 := do
  match arguments with
  | "assemble" :: rest => (← AssembleTool.run rest : Outcome).report
  | "list" :: rest => (← ListTool.run rest : Outcome).report
  | "run" :: rest =>
      let seed ← IO.rand 0 0x3fffffffffffffff
      (← RunTool.run (mkStdGen seed) rest : Outcome).report
  | _ =>
      IO.eprintln "usage: assemble FILE | list IMAGE [OUTFILE] | run IMAGE"
      return 1
