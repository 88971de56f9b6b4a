/-! The arithmetic operators and how they bind. -/

set_option autoImplicit false

namespace ShaderDefs

inductive Operator where
  | add
  | subtract
  | multiply
  | divide
  deriving DecidableEq

inductive Associativity where
  | left
  deriving DecidableEq

namespace Operator

def all : List Operator := [.add, .subtract, .multiply, .divide]

def symbol : Operator → Char
  | .add => '+'
  | .subtract => '-'
  | .multiply => '*'
  | .divide => '/'

def ofSymbol? (symbol : Char) : Option Operator := all.find? (·.symbol == symbol)

def precedence : Operator → Nat
  | .add | .subtract => 1
  | .multiply | .divide => 2

def associativity (_ : Operator) : Associativity := .left

def name : Operator → String
  | .add => "Add"
  | .subtract => "Sub"
  | .multiply => "Mul"
  | .divide => "Div"

def ofName? (name : String) : Option Operator := all.find? (·.name == name)

@[simp] theorem ofSymbol?_symbol (operator : Operator) :
    ofSymbol? operator.symbol = some operator := by
  cases operator <;> rfl

theorem symbol_of_ofSymbol? {symbol : Char} {operator : Operator}
    (found : ofSymbol? symbol = some operator) : operator.symbol = symbol := by
  simpa using List.find?_some found

@[simp] theorem ofName?_name (operator : Operator) : ofName? operator.name = some operator := by
  cases operator <;> rfl

end Operator

end ShaderDefs
