import ShaderDefs.Fault

/-! What a reader makes of an input: a value with the symbols after it, or a refusal to go deeper.
Both readers of expressions settle every text of their grammar in one of these two ways. -/

set_option autoImplicit false

namespace ShaderDefs.Reading

variable {Symbol Value : Type} {bound : Nat}

def Yields (result : Except Fault (Reading Symbol Value bound)) (value : Value)
    (rest : List Symbol) : Prop :=
  ∃ shorter, result = .ok ⟨value, rest, shorter⟩

theorem Yields.eq {result : Except Fault (Reading Symbol Value bound)} {value other : Value}
    {rest others : List Symbol} (yields : Yields result value rest)
    (again : Yields result other others) : value = other ∧ rest = others := by
  obtain ⟨_, rfl⟩ := yields
  obtain ⟨_, same⟩ := again
  cases same
  exact ⟨rfl, rfl⟩

def TooDeep {Result : Type} (result : Except Fault Result) : Prop :=
  ∃ position found, result = .error (.unexpected position .shallowExpression found)

/-- The result is the value where it is within the limits, and too deep everywhere else. -/
structure Settles (fits : Prop) (result : Except Fault (Reading Symbol Value bound)) (value : Value)
    (rest : List Symbol) : Prop where
  yields : fits → Yields result value rest
  tooDeep : ¬fits → TooDeep result

theorem TooDeep.error (position : Position) (found : String) {Result : Type} :
    TooDeep (.error (.unexpected position .shallowExpression found) : Except Fault Result) :=
  ⟨position, found, rfl⟩

theorem Settles.of_yields {fits : Prop} {result : Except Fault (Reading Symbol Value bound)}
    {value : Value} {rest : List Symbol} (holds : fits) (yields : Yields result value rest) :
    Settles fits result value rest where
  yields _ := yields
  tooDeep fails := absurd holds fails

section Then

variable {Middle : Type} {inner : Nat} {fits more : Prop}
variable {first : Except Fault (Reading Symbol Middle inner)} {middle : Middle} {value : Value}
variable {left rest : List Symbol} {whole : Except Fault (Reading Symbol Value bound)}

/-- A reading that goes on from another one settles where both do. The first to go too deep
decides. -/
theorem Settles.bind (head : Settles fits first middle left)
    (stops : ∀ fault, first = .error fault → whole = .error fault)
    (goesOn : ∀ shorter, first = .ok ⟨middle, left, shorter⟩ → Settles more whole value rest) :
    Settles (fits ∧ more) whole value rest where
  yields := by
    rintro ⟨holds, moreHolds⟩
    obtain ⟨shorter, same⟩ := head.yields holds
    exact (goesOn shorter same).yields moreHolds
  tooDeep fails := by
    by_cases holds : fits
    · obtain ⟨shorter, same⟩ := head.yields holds
      exact (goesOn shorter same).tooDeep fun moreHolds => fails ⟨holds, moreHolds⟩
    · obtain ⟨position, found, same⟩ := head.tooDeep holds
      exact ⟨position, found, stops _ same⟩

theorem Settles.map (head : Settles fits first middle left)
    (stops : ∀ fault, first = .error fault → whole = .error fault)
    (done : ∀ shorter, first = .ok ⟨middle, left, shorter⟩ → Yields whole value rest) :
    Settles fits whole value rest := by
  have both : Settles (fits ∧ True) whole value rest :=
    head.bind stops fun shorter same => .of_yields trivial (done shorter same)
  rwa [and_true] at both

end Then

end ShaderDefs.Reading
