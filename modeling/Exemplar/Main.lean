import Exemplar.CommandLine.Execution
import Exemplar.Samples

/-! The program: the commands, on the library of samples. -/
namespace Exemplar

/-- What an error that ended the program leaves on the screen. -/
def Described.report : Described → String
  | .error kind message => kind ++ (if message.isEmpty then "" else ": " ++ message) ++ "\n"
  | .invalid model issues => model ++ ": " ++ toString issues.length ++ " issues\n"

end Exemplar

open Exemplar in
def main (args : List String) : IO UInt32 := do
  let finish := CommandLine.execute {} Samples.library [] args
  IO.print finish.exit.output
  for error in finish.exit.raised.toList do
    IO.eprint error.report
  return UInt32.ofNat (finish.exit.status % 256).toNat
