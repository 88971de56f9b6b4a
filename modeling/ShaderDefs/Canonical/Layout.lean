import ShaderDefs.Canonical.Atom

/-! The two layouts of canonical text. -/

set_option autoImplicit false

namespace ShaderDefs

namespace Canonical

inductive Layout where
  /-- No blank on the inner side of a parenthesis. -/
  | compact
  /-- A blank between any two atoms. -/
  | spaced
  deriving DecidableEq

namespace Layout

def separates : Layout → Atom → Atom → Bool
  | .compact, .opening, _ => false
  | .compact, _, .closing => false
  | _, _, _ => true

def pieces (layout : Layout) : List Atom → List String
  | [] => []
  | [last] => [last.text]
  | atom :: next :: rest =>
    (if layout.separates atom next then atom.text ++ " " else atom.text) ::
      pieces layout (next :: rest)

def render (layout : Layout) (atoms : List Atom) : String := String.join (layout.pieces atoms)

end Layout

end Canonical

def Expr.print (layout : Canonical.Layout) (expr : Expr) : String := layout.render expr.atoms

end ShaderDefs
