/-! What the checks on definitions take as given: which names are built in and which are outputs of
the shader. -/

set_option autoImplicit false

namespace ShaderDefs.Lint

def standardBuiltins : List String :=
  ["sin", "cos", "tan", "dot", "fract", "ftransform", "max", "min", "mix", "normalize", "pow",
    "reflect", "step", "vec2", "vec3", "vec4", "if"]

def standardOutputs : List String := ["gl_Position", "gl_FragColor"]

structure Rules where
  /-- Built-in functions beside the standard ones. -/
  extraBuiltins : List String
  /-- A name that starts with one of these is built in. -/
  builtinPrefixes : List String
  /-- Names whose definitions must be plain values. -/
  outputNames : List String
  /-- Whether an applied name has to be known. -/
  warnUnresolved : Bool
  deriving DecidableEq

namespace Rules

def standard : Rules where
  extraBuiltins := []
  builtinPrefixes := ["gl_"]
  outputNames := standardOutputs
  warnUnresolved := true

def withBuiltins (rules : Rules) (names : List String) : Rules :=
  { rules with extraBuiltins := rules.extraBuiltins ++ names }

def withBuiltin (rules : Rules) (name : String) : Rules := rules.withBuiltins [name]

def withWarnUnresolved (rules : Rules) (enabled : Bool) : Rules :=
  { rules with warnUnresolved := enabled }

def isBuiltin (rules : Rules) (name : String) : Bool :=
  standardBuiltins.contains name || rules.extraBuiltins.contains name ||
    rules.builtinPrefixes.any fun start => start.toList.isPrefixOf name.toList

def isOutput (rules : Rules) (name : String) : Bool := rules.outputNames.contains name

theorem isBuiltin_iff {rules : Rules} {name : String} :
    rules.isBuiltin name ↔ name ∈ standardBuiltins ∨ name ∈ rules.extraBuiltins ∨
      ∃ start ∈ rules.builtinPrefixes, start.toList <+: name.toList := by
  simp [isBuiltin, or_assoc]

theorem isOutput_iff {rules : Rules} {name : String} :
    rules.isOutput name ↔ name ∈ rules.outputNames := by
  simp [isOutput]

end Rules

end ShaderDefs.Lint
