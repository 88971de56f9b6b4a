import ShaderDefs.Stage

/-! The arguments of the command line. They are read from left to right, and the first that cannot be
accepted decides. -/

set_option autoImplicit false

namespace ShaderDefs.CommandLine

inductive Output where
  | text
  | json
  | debug
  deriving DecidableEq

namespace Output

def all : List Output := [.text, .json, .debug]

def name : Output → String
  | .text => "text"
  | .json => "json"
  | .debug => "debug"

def ofName? (name : String) : Option Output := all.find? (·.name == name)

end Output

inductive Setting where
  | stage
  | output
  | builtin
  deriving DecidableEq

inductive Switch where
  | allowUnresolved
  | denyWarnings
  | version
  | help
  deriving DecidableEq

inductive Key where
  | setting (setting : Setting)
  | switch (switch : Switch)
  deriving DecidableEq

def Key.ofLong? : String → Option Key
  | "stage" => some (.setting .stage)
  | "output" => some (.setting .output)
  | "builtin" => some (.setting .builtin)
  | "allow-unresolved" => some (.switch .allowUnresolved)
  | "deny-warnings" => some (.switch .denyWarnings)
  | "version" => some (.switch .version)
  | "help" => some (.switch .help)
  | _ => none

def Key.ofShort? : Char → Option Key
  | 's' => some (.setting .stage)
  | 'o' => some (.setting .output)
  | 'b' => some (.setting .builtin)
  | 'V' => some (.switch .version)
  | 'h' => some (.switch .help)
  | _ => none

inductive UsageError where
  | missingFile
  | extraFile (file : String)
  | unknownOption (argument : String)
  | missingValue
  | invalidValue (value : String)
  | unexpectedValue (value : String)
  | repeated
  deriving DecidableEq

def UsageError.message : UsageError → String
  | .missingFile => "a file is required"
  | .extraFile file => "unexpected second file '" ++ file ++ "'"
  | .unknownOption argument => "unknown option '" ++ argument ++ "'"
  | .missingValue => "an option lacks its value"
  | .invalidValue value => "invalid value '" ++ value ++ "'"
  | .unexpectedValue value => "unexpected value '" ++ value ++ "'"
  | .repeated => "an option is given twice"

structure Request where
  file : String
  stage : Stage
  output : Output
  builtins : List String
  allowUnresolved : Bool
  denyWarnings : Bool
  deriving DecidableEq

inductive Command where
  | run (request : Request)
  | version
  | help
  deriving DecidableEq

/-- A request in the making: what the arguments so far have said. -/
structure Draft where
  file : Option String
  stage : Option Stage
  output : Option Output
  builtins : List String
  allowUnresolved : Bool
  denyWarnings : Bool

def Draft.empty : Draft := ⟨none, none, none, [], false, false⟩

/-- A stage and an output are given once at most, a built-in any number of times. -/
def Draft.set (draft : Draft) (value : String) : Setting → Except UsageError Draft
  | .stage =>
    if draft.stage.isSome then .error .repeated
    else match Stage.ofName? value with
      | some stage => .ok { draft with stage := some stage }
      | none => .error (.invalidValue value)
  | .output =>
    if draft.output.isSome then .error .repeated
    else match Output.ofName? value with
      | some output => .ok { draft with output := some output }
      | none => .error (.invalidValue value)
  | .builtin => .ok { draft with builtins := draft.builtins ++ [value] }

def Draft.setFile (draft : Draft) (file : String) : Except UsageError Draft :=
  if draft.file.isSome then .error (.extraFile file)
  else .ok { draft with file := some file }

inductive Mode where
  /-- As an option or a file. -/
  | either
  /-- As the value of an option. -/
  | value (setting : Setting)
  /-- As a file, whatever it looks like. -/
  | files
  deriving DecidableEq

inductive Progress where
  | more (mode : Mode) (draft : Draft)
  | done (command : Command)

def Draft.switchOn (draft : Draft) : Switch → Except UsageError Progress
  | .allowUnresolved =>
    if draft.allowUnresolved then .error .repeated
    else .ok (.more .either { draft with allowUnresolved := true })
  | .denyWarnings =>
    if draft.denyWarnings then .error .repeated
    else .ok (.more .either { draft with denyWarnings := true })
  | .version => .ok (.done .version)
  | .help => .ok (.done .help)

def readLong (draft : Draft) (argument : List Char) : Except UsageError Progress :=
  let name := argument.takeWhile (· ≠ '=')
  match Key.ofLong? (.ofList name), argument.drop name.length with
  | none, _ => .error (.unknownOption (.ofList argument))
  | some (.setting setting), [] => .ok (.more (.value setting) draft)
  | some (.setting setting), _ :: value =>
    (draft.set (.ofList value) setting).map (.more .either)
  | some (.switch switch), [] => draft.switchOn switch
  | some (.switch _), _ :: value => .error (.unexpectedValue (.ofList value))

def readShort (draft : Draft) (letter : Char) (rest : List Char) : Except UsageError Progress :=
  match Key.ofShort? letter, rest with
  | none, _ => .error (.unknownOption (.ofList (letter :: rest)))
  | some (.switch switch), _ => draft.switchOn switch
  | some (.setting setting), [] => .ok (.more (.value setting) draft)
  | some (.setting setting), '=' :: value =>
    (draft.set (.ofList value) setting).map (.more .either)
  | some (.setting setting), value => (draft.set (.ofList value) setting).map (.more .either)

def readOpen (draft : Draft) (argument : String) : Except UsageError Progress :=
  match argument.toList with
  | ['-', '-'] => .ok (.more .files draft)
  | '-' :: '-' :: long => readLong draft long
  | '-' :: letter :: rest => readShort draft letter rest
  | _ => (draft.setFile argument).map (.more .either)

/-- A value that looks like an option is no value. -/
def readValue (draft : Draft) (setting : Setting) (argument : String) :
    Except UsageError Progress :=
  match argument.toList with
  | '-' :: _ :: _ => .error .missingValue
  | _ => (draft.set argument setting).map (.more .either)

def readNext (draft : Draft) (argument : String) : Mode → Except UsageError Progress
  | .either => readOpen draft argument
  | .value setting => readValue draft setting argument
  | .files => (draft.setFile argument).map (.more .files)

def Draft.finish (draft : Draft) : Mode → Except UsageError Command
  | .value _ => .error .missingValue
  | _ =>
    match draft.file with
    | none => .error .missingFile
    | some file => .ok (.run {
        file
        stage := draft.stage.getD .validator
        output := draft.output.getD .text
        builtins := draft.builtins
        allowUnresolved := draft.allowUnresolved
        denyWarnings := draft.denyWarnings })

def parseFrom (mode : Mode) (draft : Draft) : List String → Except UsageError Command
  | [] => draft.finish mode
  | argument :: rest =>
    match readNext draft argument mode with
    | .error problem => .error problem
    | .ok (.done command) => .ok command
    | .ok (.more next changed) => parseFrom next changed rest

def parse (arguments : List String) : Except UsageError Command :=
  parseFrom .either .empty arguments

end ShaderDefs.CommandLine
