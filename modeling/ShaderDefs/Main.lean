import ShaderDefs.CommandLine.Run

/-! The command-line program: reads its file, prints the outcome and exits. -/

set_option autoImplicit false

namespace ShaderDefs.CommandLine

def readSource (file : String) : IO (Except ReadError String) := do
  try
    return decode (← IO.FS.readBinFile file)
  catch
    | .noFileOrDirectory .. => return .error .missing
    | .permissionDenied .. => return .error .denied
    | .inappropriateType .. => return .error .directory
    | other => return .error (.other (toString other))

def emit (outcome : Outcome) : IO UInt32 := do
  IO.eprint outcome.stderr
  IO.print outcome.stdout
  return outcome.exit

end ShaderDefs.CommandLine

open ShaderDefs.CommandLine

def main (arguments : List String) : IO UInt32 := do
  match parse arguments with
  | .error problem => emit (usageOutcome problem)
  | .ok (.run request) => emit (request.executeOn (← readSource request.file))
  | .ok command => emit (command.outcome fun _ => .error .missing)
