import ShaderDefs.Program
import ShaderDefs.Text.Quoted
import ShaderDefs.Token.Basic

/-! Dumps: every part of a value by name, on lines of its own. -/

set_option autoImplicit false

namespace ShaderDefs

inductive Dump where
  | plain (text : String)
  | tagged (name : String) (parts : List Dump)
  | record (name : String) (fields : List (String × Dump))
  | list (items : List Dump)

namespace Dump

def indent (level : Nat) : String := String.ofList (List.replicate (4 * level) ' ')

def block (level : Nat) (opening closing : String) (entries : List String) : String :=
  if entries.isEmpty then opening ++ closing
  else
    opening ++ "\n" ++
      String.join (entries.map fun entry => indent (level + 1) ++ entry ++ ",\n") ++
      indent level ++ closing

mutual

def renderAt (level : Nat) : Dump → String
  | .plain text => text
  | .tagged name parts => name ++ block level "(" ")" (renderAll (level + 1) parts)
  | .record name fields => name ++ block level " \x7b" "\x7d" (renderFields (level + 1) fields)
  | .list items => block level "[" "]" (renderAll (level + 1) items)

def renderAll (level : Nat) : List Dump → List String
  | [] => []
  | item :: rest => renderAt level item :: renderAll level rest

def renderFields (level : Nat) : List (String × Dump) → List String
  | [] => []
  | (name, value) :: rest => (name ++ ": " ++ renderAt level value) :: renderFields level rest

end

def render (dump : Dump) : String := dump.renderAt 0

def text (content : String) : Dump := .plain (Text.Quoted.encode content)

def texts (contents : List String) : Dump := .list (contents.map text)

def position (place : Position) : Dump :=
  .record "SourcePosition"
    [("line", .plain (toString place.line)), ("column", .plain (toString place.column))]

def operator (symbol : Operator) : Dump := .plain symbol.name

def kind : Token.Kind → Dump
  | .identifier => .plain "Ident"
  | .integer => .plain "Int"
  | .operator symbol => .tagged "Op" [operator symbol]
  | .equals => .plain "Equals"
  | .opening => .plain "LParen"
  | .closing => .plain "RParen"
  | .lineEnd => .plain "Newline"
  | .inputEnd => .plain "Eof"
  | .unknown character => .tagged "Unknown" [.plain (Text.Quoted.encodeChar character)]

def token (token : Token) : Dump :=
  .record "Token"
    [("kind", kind token.kind), ("text", text token.text), ("position", position token.position)]

mutual

def expr : Expr → Dump
  | .literal value => .tagged "Literal" [.plain (Text.Integer.write value)]
  | .identifier name => .tagged "Identifier" [text name]
  | .binary symbol left right =>
    .record "BinaryOp" [("op", operator symbol), ("lhs", expr left), ("rhs", expr right)]
  | .application callee arguments =>
    .record "Application" [("callee", expr callee), ("args", .list (exprs arguments))]

def exprs : List Expr → List Dump
  | [] => []
  | first :: rest => expr first :: exprs rest

end

def definition (definition : Definition) : Dump :=
  .record "Definition"
    [("name", text definition.name), ("params", texts definition.parameters),
      ("param_positions", .list (definition.parameterPositions.map position)),
      ("body", expr definition.body), ("position", position definition.position)]

def signature (signature : Signature) : Dump :=
  .record "FunctionSignature"
    [("name", text signature.name), ("arguments", texts signature.arguments),
      ("expression", text signature.expression), ("position", position signature.position)]

def program (program : Program) : Dump :=
  .record "Program" [("functions", .list (program.functions.map signature))]

end Dump

end ShaderDefs
