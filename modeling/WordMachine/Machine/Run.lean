import WordMachine.Log
import WordMachine.Machine.Step

/-!
# Runs

A run steps until the machine stops itself, a step faults or the allowed number of steps is used up.
The trace of a run lists the instructions it executes.
-/

namespace WordMachine

namespace Machine

variable {σ : Type} [RandomSource σ]

/-- Step at most a number of times.  A machine that still runs then is stopped by the limit; a fault
stops it too. -/
def runSteps : Nat → Machine σ → EStateM.Result RunFault (Machine σ) Unit
  | 0, m => if m.running then .error .stepLimit { m with running := false } else .ok () m
  | n + 1, m =>
      if m.running then
        match step m with
        | .ok () m => runSteps n m
        | .error fault m => .error (.step fault) { m with running := false }
      else .ok () m

/-- The number of steps that a limit allows.  Zero means no limit, for which `2 ^ 64` steps stand:
one more than the greatest limit, and more than a run can take. -/
def allowedSteps (limit : Word) : Nat :=
  if limit = 0 then UInt64.size else limit.toNat

def run (limit : Word) : EStateM RunFault (Machine σ) Unit := fun m =>
  runSteps (allowedSteps limit) { m with running := true }

end Machine

structure Trace where
  address : Word
  op : Opcode
  operands : List Operand
  deriving DecidableEq, Repr

def Trace.render (t : Trace) : String :=
  let operand := fun x : Operand => "\x7b" ++ x.mode.description ++ s!" {x.value}" ++ "\x7d"
  Numeral.padLeft ' ' 5 s!"{t.address}" ++ ": " ++ t.op.mnemonic ++ " [" ++
    " ".intercalate (t.operands.map operand) ++ "]"

def Trace.notice (t : Trace) : Notice :=
  .detail .execution 3 t.render

namespace Machine

variable {σ : Type}

def trace? (m : Machine σ) : Option Trace :=
  if m.running then
    match m.fetch with
    | .error _ => none
    | .ok (op, i) =>
        some ⟨m.register Register.instructionPointer, op, i.operands.take op.arity⟩
  else none

def traceFrom [RandomSource σ] (done : List Trace) : Nat → Machine σ → List Trace
  | 0, _ => done.reverse
  | n + 1, m =>
      match m.trace? with
      | none => done.reverse
      | some t =>
          match step m with
          | .ok () m => traceFrom (t :: done) n m
          | .error _ _ => (t :: done).reverse

def trace [RandomSource σ] (limit : Word) (m : Machine σ) : List Trace :=
  traceFrom [] (allowedSteps limit) { m with running := true }

def haltNotices : EStateM.Result RunFault (Machine σ) Unit → List Notice
  | .ok () m => [.detail .execution 1
      s!"halted after {m.register Register.instructionCount} instructions"]
  | .error _ _ => []

/-- A run and what it reports; the trace is long and made only on demand. -/
def runLogged [RandomSource σ] (log : LogSettings) (limit : Word) (m : Machine σ) :
    EStateM.Result RunFault (Machine σ) Unit × List Notice :=
  let traced := if log.reports .execution 3 then (m.trace limit).map Trace.notice else []
  let result := run limit m
  (result, traced ++ haltNotices result)

def registerTable (m : Machine σ) : String :=
  String.join <| Register.all.map fun r =>
    Numeral.padRight 4 r.name ++ " = " ++ Numeral.hex 16 (m.register r).toNat ++
      if r.val % 4 = 3 ∨ r.val + 1 = registerCount then "\n" else "  "

end Machine

end WordMachine
