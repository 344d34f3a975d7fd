import Runbook.Json.Printer
import Runbook.Json.Reader
import Runbook.Session.Exchange
import Runbook.Version

/-! The program at the command line. It runs beside a host: the first line of input describes the
surroundings, and after that every act is one line of output, with one line of input for the answer
where it has one. -/
namespace Runbook

/-- What the program says about its use. -/
def usage : Text := "usage: runbook [options] [run | project | eval] [arguments]\n"

/-- The data in the next line of input; there are none if it is not in order. -/
def receive : IO Value := do
  match Json.parse (← (← IO.getStdin).getLine).toList with
  | .ok v => return v
  | .error _ => return .null

def send (v : Value) : IO Unit := do
  IO.println (String.ofList (Json.write v))
  (← IO.getStdout).flush

def Act.reply : (a : Act) → IO (Asking.Answer a)
  | .print t => send (Exchange.object [("print", .text t)])
  | .report t => IO.eprint (String.ofList t)
  | .deed d => do
    send (Exchange.ofDeed d)
    return Exchange.answer (← receive) d

/-- The program with its arguments, up to its exit code. -/
def start (args : List String) : IO UInt32 := do
  match CommandLine.Invocation.parse (args.map String.toList) with
  | .error stop =>
    IO.eprint (String.ofList (usage ++ version none ++ ['\n']))
    return stop.exitCode.toUInt32
  | .ok i =>
    let (surroundings, interactive) := Exchange.asSurroundings (← receive)
    match ← (i.acts surroundings interactive).run Act.reply with
    | .ok code => return (code % 256).toNat.toUInt32
    | .error e =>
      IO.eprintln (String.ofList ("fatal: " ++ e.message))
      return 1

end Runbook

def main (args : List String) : IO UInt32 := Runbook.start args
