import ShaderDefs.Canonical.Read
import ShaderDefs.Proofs.Text.Numeral

/-! The words of canonical text. A word is an integer, a name, an operator or none of these, and never
two of them. -/

set_option autoImplicit false

namespace ShaderDefs.Canonical

open Text (IsDigits IsName)
open Text.Integer (SignedNumeral)

theorem isIntegerWord_iff {characters : List Char} :
    isIntegerWord characters ↔
      IsDigits characters ∨ ∃ digits, characters = '-' :: digits ∧ IsDigits digits := by
  by_cases minus : ∃ digits, characters = '-' :: digits
  · obtain ⟨digits, rfl⟩ := minus
    simp [isIntegerWord, IsDigits, show '-'.isDigit = false by rfl]
  · have noSign : characters.head? ≠ some '-' := by
      intro sign
      obtain ⟨digits, same⟩ := List.head?_eq_some_iff.1 sign
      exact minus ⟨digits, same⟩
    have noDigits : ∀ digits, characters = '-' :: digits → ¬IsDigits digits :=
      fun digits same => absurd ⟨digits, same⟩ minus
    simp only [isIntegerWord, noSign, if_false]
    constructor
    · intro word
      exact .inl (by simpa [IsDigits] using word)
    · rintro (decimal | ⟨digits, same, decimal⟩)
      · simpa [IsDigits] using decimal
      · exact absurd decimal (noDigits digits same)

theorem isIntegerWord_of_signedNumeral {text : String} {value : Int64}
    (signed : SignedNumeral text value) : isIntegerWord text.toList := by
  rcases signed with numeral | ⟨digits, minus, decimal, _⟩
  · exact isIntegerWord_iff.2 (.inl numeral.1)
  · exact isIntegerWord_iff.2 (.inr ⟨digits, minus, decimal⟩)

theorem read?_eq_some_iff_signedNumeral {text : String} (word : isIntegerWord text.toList)
    {value : Int64} : Text.Integer.read? text = some value ↔ SignedNumeral text value := by
  constructor
  · intro read
    rcases isIntegerWord_iff.1 word with decimal | ⟨digits, minus, decimal⟩
    · exact .inl ((Text.Integer.read?_eq_some_iff_numeral decimal value).1 read)
    · have same := (Text.Integer.read?_eq_some_iff_of_minus minus decimal value).1 read
      exact .inr ⟨digits, minus, decimal, same⟩
  · exact Text.Integer.read?_of_signedNumeral

theorem isNameWord_iff {text : String} : isNameWord text.toList ↔ IsName text := by
  unfold IsName
  cases text.toList with
  | nil => simp [isNameWord]
  | cons first rest =>
    constructor
    · intro word
      exact ⟨first, rest, rfl, by simpa [isNameWord] using word⟩
    · rintro ⟨_, _, ⟨⟩, named⟩
      simpa [isNameWord] using named

theorem isDigit_eq_false_of_isAlpha {character : Char} (letter : character.isAlpha) :
    character.isDigit = false := by
  have := Text.toNat_of_isAlpha letter
  rw [Bool.eq_false_iff]
  intro digit
  have := Text.toNat_of_isDigit digit
  omega

theorem not_isIntegerWord_of_isName {text : String} (named : IsName text) :
    isIntegerWord text.toList = false := by
  obtain ⟨first, rest, same, starts, _⟩ := named
  -- The character that begins a name is neither a digit nor a sign.
  have noDigit : first.isDigit = false := by
    rcases starts with letter | rfl
    · exact isDigit_eq_false_of_isAlpha letter
    · rfl
  have noSign : first ≠ '-' := by
    rintro rfl
    rcases starts with letter | same
    · exact absurd letter (by decide)
    · exact absurd same (by decide)
  rw [Bool.eq_false_iff, ne_eq, isIntegerWord_iff, same]
  rintro (decimal | ⟨digits, sign, _⟩)
  · have := decimal.2 first List.mem_cons_self
    simp [noDigit] at this
  · exact noSign (List.cons.inj sign).1

theorem readWord_of_signedNumeral {text : String} {value : Int64}
    (signed : SignedNumeral text value) : readWord text = .ok (.literal value) := by
  rw [readWord, if_pos (isIntegerWord_of_signedNumeral signed),
    Text.Integer.read?_of_signedNumeral signed]

theorem readWord_of_isName {text : String} (named : IsName text) :
    readWord text = .ok (.identifier text) := by
  rw [readWord, not_isIntegerWord_of_isName named, if_neg Bool.false_ne_true,
    if_pos (isNameWord_iff.2 named)]

theorem signedNumeral_or_isName_of_readWord {text : String} {expr : Expr}
    (read : readWord text = .ok expr) :
    (∃ value, SignedNumeral text value ∧ expr = .literal value) ∨
      IsName text ∧ expr = .identifier text := by
  unfold readWord at read
  split at read
  next word =>
    split at read
    next value same =>
      cases read
      exact .inl ⟨value, (read?_eq_some_iff_signedNumeral word).1 same, rfl⟩
    next => cases read
  split at read
  next named =>
    cases read
    exact .inr ⟨isNameWord_iff.1 named, rfl⟩
  next => cases read

theorem operatorWord?_eq_some_iff {text : String} {operator : Operator} :
    operatorWord? text = some operator ↔ text = operator.symbol.toString := by
  constructor
  · intro found
    unfold operatorWord? at found
    split at found
    next symbol same =>
      rw [Operator.symbol_of_ofSymbol? found, ← String.toList_inj, same]
      simp
    next => cases found
  · rintro rfl
    cases operator <;> rfl

theorem operatorWord?_eq_none_of_readWord {text : String} {expr : Expr}
    (read : readWord text = .ok expr) : operatorWord? text = none := by
  rw [Option.eq_none_iff_forall_ne_some]
  intro operator found
  rw [operatorWord?_eq_some_iff.1 found] at read
  cases operator <;> cases read

end ShaderDefs.Canonical
