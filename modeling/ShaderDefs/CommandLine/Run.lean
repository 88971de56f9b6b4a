import ShaderDefs.CommandLine.Options
import ShaderDefs.Dump
import ShaderDefs.Json.Codec

/-! What the command line prints and how it ends, as a function of its arguments and of what its file
holds. -/

set_option autoImplicit false

namespace ShaderDefs.CommandLine

structure Outcome where
  exit : UInt32
  stdout : String
  stderr : String
  deriving DecidableEq

inductive ReadError where
  | missing
  | denied
  | directory
  | notText
  | other (reason : String)
  deriving DecidableEq

def ReadError.message : ReadError → String
  | .missing => "No such file or directory (os error 2)"
  | .denied => "Permission denied (os error 13)"
  | .directory => "Is a directory (os error 21)"
  | .notText => "stream did not contain valid UTF-8"
  | .other reason => reason

def decode (bytes : ByteArray) : Except ReadError String :=
  match String.fromUTF8? bytes with
  | some text => .ok text
  | none => .error .notText

namespace Request

def rules (request : Request) : Lint.Rules :=
  (Lint.Rules.standard.withBuiltins request.builtins).withWarnUnresolved !request.allowUnresolved

def report (request : Request) (source : String) : Report :=
  request.stage.report request.rules source

def dump (source : String) (report : Report) : Stage → Dump
  | .lexer => .list ((Token.ofText source).map .token)
  | .parser => .list ((Definition.recover (Token.ofText source)).definitions.map .definition)
  | .validator =>
    match report.program with
    | some program => .tagged "Some" [.program program]
    | none => .plain "None"

def warnings (request : Request) (source : String) (report : Report) : String :=
  String.join ((report.rendered request.file source).map (· ++ "\n"))

def status (request : Request) (report : Report) : UInt32 :=
  if report.hasErrors || (request.denyWarnings && decide (0 < report.warningCount)) then 1 else 0

/-- The run on a text. Only the validator has anything to print as JSON. -/
def execute (request : Request) (source : String) : Outcome :=
  let report := request.report source
  let warnings := request.warnings source report
  match request.output, report.program with
  | .text, _ => ⟨request.status report, report.text, warnings⟩
  | .json, some program => ⟨request.status report, program.toJson.pretty ++ "\n", warnings⟩
  | .json, none =>
    ⟨2, "", warnings ++ "JSON output is only available for the validator stage\n"⟩
  | .debug, _ =>
    ⟨request.status report, (dump source report request.stage).render ++ "\n", warnings⟩

def executeOn (request : Request) : Except ReadError String → Outcome
  | .ok source => request.execute source
  | .error problem =>
    ⟨1, "", "Error reading file '" ++ request.file ++ "': " ++ problem.message ++ "\n"⟩

end Request

def versionText : String := "shade 0.1.0\n"

def usageText : String := "Usage: shade [OPTIONS] <FILE>\n"

def usageOutcome (problem : UsageError) : Outcome :=
  ⟨2, "", "error: " ++ problem.message ++ "\n\n" ++ usageText⟩

def Command.outcome (content : String → Except ReadError String) : Command → Outcome
  | .run request => request.executeOn (content request.file)
  | .version => ⟨0, versionText, ""⟩
  | .help => ⟨0, usageText, ""⟩

end ShaderDefs.CommandLine
