import ShaderDefs.Json.Basic
import ShaderDefs.Lint.Finding
import ShaderDefs.Program

/-! The JSON forms of definitions, programs and findings. Reading takes what writing makes, and also
forms in which fields come in another order or among others. -/

set_option autoImplicit false

namespace ShaderDefs

def Json.integer? (low high : Int) : Json → Option Int
  | .number value => if low ≤ value ∧ value ≤ high then some value else none
  | _ => none

def Json.all? {Value : Type} (read : Json → Option Value) (json : Json) : Option (List Value) :=
  json.items?.bind (·.mapM read)

def Json.strings (texts : List String) : Json := .array (texts.map .string)

namespace Position

def toJson (position : Position) : Json :=
  .object [("line", .number position.line.toNat), ("column", .number position.column.toNat)]

def ofJson? (json : Json) : Option Position := do
  match ← json.record? ["line", "column"] with
  | [line, column] =>
    let line ← line.integer? 0 0xFFFFFFFF
    let column ← column.integer? 0 0xFFFFFFFF
    return .ofNat line.toNat column.toNat
  | _ => none

end Position

/-- A choice without a value is its name, or an object that holds nothing under the name. -/
def Operator.ofJson? : Json → Option Operator
  | .string name => ofName? name
  | .object [(name, .null)] => ofName? name
  | _ => none

namespace Expr

mutual

def toJson : Expr → Json
  | .literal value => .object [("Literal", .number value.toInt)]
  | .identifier name => .object [("Identifier", .string name)]
  | .binary operator left right =>
    .object [("BinaryOp", .object
      [("op", .string operator.name), ("lhs", left.toJson), ("rhs", right.toJson)])]
  | .application callee arguments =>
    .object [("Application", .object
      [("callee", callee.toJson), ("args", .array (toJsonAll arguments))])]

def toJsonAll : List Expr → List Json
  | [] => []
  | expr :: rest => expr.toJson :: toJsonAll rest

end

mutual

def ofJson? (json : Json) : Option Expr :=
  match _ : json.choice? with
  | some ("Literal", value) =>
    (value.integer? Int64.minValue.toInt Int64.maxValue.toInt).map fun literal =>
      .literal (.ofInt literal)
  | some ("Identifier", value) => value.text?.map .identifier
  | some ("BinaryOp", value) =>
    match _ : value.fields? ["op", "lhs", "rhs"] with
    | some [operator, left, right] => do
      let operator ← Operator.ofJson? operator
      let left ← ofJson? left
      let right ← ofJson? right
      return .binary operator left right
    | _ => none
  | some ("Application", value) =>
    match _ : value.fields? ["callee", "args"] with
    | some [callee, .array arguments] => do
      let callee ← ofJson? callee
      let arguments ← ofJsonAll? arguments
      return .application callee arguments
    | _ => none
  | _ => none
termination_by sizeOf json
decreasing_by
  all_goals
    have outer := Json.sizeOf_lt_of_choice? ‹json.choice? = some _›
    have inner := fun (item : Json) (member : item ∈ _) =>
      Json.sizeOf_lt_of_mem_fields? ‹_› member
    simp only [List.mem_cons, List.not_mem_nil, or_false, forall_eq_or_imp, forall_eq,
      Json.array.sizeOf_spec] at inner
    omega

def ofJsonAll? (items : List Json) : Option (List Expr) :=
  match items with
  | [] => some []
  | item :: rest => do
    let first ← ofJson? item
    let others ← ofJsonAll? rest
    return first :: others
termination_by sizeOf items

end

end Expr

namespace Definition

def toJson (definition : Definition) : Json :=
  .object [("name", .string definition.name), ("params", .strings definition.parameters),
    ("param_positions", .array (definition.parameterPositions.map (·.toJson))),
    ("body", definition.body.toJson), ("position", definition.position.toJson)]

def ofJson? (json : Json) : Option Definition := do
  match ← json.record? ["name", "params", "param_positions", "body", "position"] with
  | [name, parameters, parameterPositions, body, position] =>
    let name ← name.text?
    let parameters ← parameters.all? Json.text?
    let parameterPositions ← parameterPositions.all? Position.ofJson?
    let body ← Expr.ofJson? body
    let position ← Position.ofJson? position
    return { name, parameters, parameterPositions, body, position }
  | _ => none

end Definition

namespace Signature

def toJson (signature : Signature) : Json :=
  .object [("name", .string signature.name), ("arguments", .strings signature.arguments),
    ("expression", .string signature.expression), ("position", signature.position.toJson)]

def ofJson? (json : Json) : Option Signature := do
  match ← json.record? ["name", "arguments", "expression", "position"] with
  | [name, arguments, expression, position] =>
    let name ← name.text?
    let arguments ← arguments.all? Json.text?
    let expression ← expression.text?
    let position ← Position.ofJson? position
    return { name, arguments, expression, position }
  | _ => none

end Signature

namespace Program

def toJson (program : Program) : Json :=
  .object [("functions", .array (program.functions.map (·.toJson)))]

def ofJson? (json : Json) : Option Program := do
  match ← json.record? ["functions"] with
  | [functions] => return ⟨← functions.all? Signature.ofJson?⟩
  | _ => none

end Program

def Lint.Finding.toJson (finding : Lint.Finding) : Json :=
  .object [("code", .string finding.code), ("message", .string finding.description),
    ("severity", .string "Warning"), ("definition", .string finding.definition),
    ("position", finding.position.toJson)]

end ShaderDefs
