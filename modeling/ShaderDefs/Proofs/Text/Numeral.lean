import Mathlib.Data.List.TakeWhile
import ShaderDefs.Expr.Basic

/-! Numerals and names. An integer is written as digits with at most one minus sign before them, and
reading its text gives back exactly the integers that fit a word. Such a run of characters is found again
in front of anything that does not go on with it. -/

set_option autoImplicit false

namespace ShaderDefs.Text

theorem toNat_of_isDigit {character : Char} (digit : character.isDigit) :
    48 ≤ character.toNat ∧ character.toNat ≤ 57 := by
  obtain ⟨low, high⟩ := Bool.and_eq_true_iff.1 digit
  exact ⟨of_decide_eq_true low, of_decide_eq_true high⟩

theorem toNat_of_isAlpha {character : Char} (letter : character.isAlpha) :
    (65 ≤ character.toNat ∧ character.toNat ≤ 90) ∨
      (97 ≤ character.toNat ∧ character.toNat ≤ 122) := by
  rcases Bool.or_eq_true_iff.1 letter with upper | lower
  · exact .inl (of_decide_eq_true upper)
  · obtain ⟨low, high⟩ := Bool.and_eq_true_iff.1 lower
    exact .inr ⟨of_decide_eq_true low, of_decide_eq_true high⟩

def IsDigits (characters : List Char) : Prop :=
  characters ≠ [] ∧ ∀ character ∈ characters, character.isDigit

def IsName (text : String) : Prop :=
  ∃ first rest, text.toList = first :: rest ∧ (first.isAlpha ∨ first = '_') ∧
    ∀ character ∈ rest, character.isAlphanum ∨ character = '_'

namespace Integer

/-- The text is the value in decimal without a sign. Zeros may stand in front. -/
def Numeral (text : String) (value : Int64) : Prop :=
  IsDigits text.toList ∧ value.toInt = Nat.ofDigitChars 10 text.toList 0

def SignedNumeral (text : String) (value : Int64) : Prop :=
  Numeral text value ∨ ∃ digits, text.toList = '-' :: digits ∧ IsDigits digits ∧
    value.toInt = -(Nat.ofDigitChars 10 digits 0 : Int)

theorem magnitude?_eq_some_iff {digits : List Char} {magnitude : Nat} :
    magnitude? digits = some magnitude ↔
      IsDigits digits ∧ magnitude = Nat.ofDigitChars 10 digits 0 := by
  unfold magnitude?
  split
  next decimal =>
    have : IsDigits digits := by simpa [IsDigits] using decimal
    simp [this, eq_comm]
  next decimal =>
    have : ¬IsDigits digits := by simpa [IsDigits] using decimal
    simp [this]

theorem fit?_eq_some_iff {value : Int} {word : Int64} : fit? value = some word ↔ word.toInt = value := by
  constructor
  · intro fits
    unfold fit? at fits
    split at fits
    next bounds =>
      cases fits
      have low := Int64.toInt_minValue ▸ bounds.1
      have high := Int64.toInt_maxValue ▸ bounds.2
      exact Int64.toInt_ofInt_of_le low (Int.lt_of_le_sub_one high)
    next => cases fits
  · rintro rfl
    exact fit?_toInt word

theorem signed?_of_isDigits {digits : List Char} (decimal : IsDigits digits) :
    signed? digits = some (Nat.ofDigitChars 10 digits 0 : Int) := by
  have magnitude := magnitude?_eq_some_iff.2 ⟨decimal, rfl⟩
  unfold signed?
  split
  next => exact absurd (decimal.2 '-' (by simp)) (by decide)
  next => exact absurd (decimal.2 '+' (by simp)) (by decide)
  next => simp [magnitude]

theorem signed?_of_minus {digits : List Char} (decimal : IsDigits digits) :
    signed? ('-' :: digits) = some (-(Nat.ofDigitChars 10 digits 0 : Int)) := by
  simp [signed?, magnitude?_eq_some_iff.2 ⟨decimal, rfl⟩]

theorem read?_eq_some_iff_numeral {text : String} (decimal : IsDigits text.toList) (value : Int64) :
    read? text = some value ↔ Numeral text value := by
  rw [read?, signed?_of_isDigits decimal, Option.bind_some, fit?_eq_some_iff]
  exact (and_iff_right decimal).symm

theorem read?_eq_some_iff_of_minus {text : String} {digits : List Char}
    (minus : text.toList = '-' :: digits) (decimal : IsDigits digits) (value : Int64) :
    read? text = some value ↔ value.toInt = -(Nat.ofDigitChars 10 digits 0 : Int) := by
  rw [read?, minus, signed?_of_minus decimal, Option.bind_some, fit?_eq_some_iff]

theorem read?_of_signedNumeral {text : String} {value : Int64} (signed : SignedNumeral text value) :
    read? text = some value := by
  rcases signed with numeral | ⟨digits, minus, decimal, same⟩
  · exact (read?_eq_some_iff_numeral numeral.1 value).2 numeral
  · exact (read?_eq_some_iff_of_minus minus decimal value).2 same

theorem isDigits_toDigits (number : Nat) : IsDigits (Nat.toDigits 10 number) :=
  ⟨Nat.toDigits_ne_nil, fun _ member => Nat.isDigit_of_mem_toDigits (by decide) (by decide) member⟩

theorem signedNumeral_write (value : Int64) : SignedNumeral (write value) value := by
  unfold write
  cases same : value.toInt with
  | ofNat magnitude =>
    refine .inl ⟨?_, ?_⟩
    · simpa [Int.repr] using isDigits_toDigits magnitude
    · simp [Int.repr, same, Nat.ofDigitChars_ten_toDigits]
  | negSucc magnitude =>
    refine .inr ⟨Nat.toDigits 10 (magnitude + 1), ?_, isDigits_toDigits _, ?_⟩
    · simp [Int.repr]
    · rw [same, Nat.ofDigitChars_ten_toDigits]
      rfl

theorem numeral_write {value : Int64} (natural : 0 ≤ value.toInt) : Numeral (write value) value := by
  rcases signedNumeral_write value with numeral | ⟨digits, minus, decimal, same⟩
  · exact numeral
  · have zero : value.toInt = 0 := by omega
    have : write value = "0" := by
      rw [write, zero]
      rfl
    rw [this] at minus
    cases minus

end Integer

section Run

variable {test : Char → Bool} {front rest : List Char}

theorem takeWhile_eq_of_stops (inside : ∀ character ∈ front, test character)
    (stops : ∀ character ∈ rest.head?, test character = false) :
    (front ++ rest).takeWhile test = front := by
  rw [List.takeWhile_append_of_pos inside]
  cases rest with
  | nil => simp
  | cons next rest => simp [stops next rfl]

theorem dropWhile_eq_of_stops (inside : ∀ character ∈ front, test character)
    (stops : ∀ character ∈ rest.head?, test character = false) :
    (front ++ rest).dropWhile test = rest := by
  rw [List.dropWhile_append_of_pos inside]
  cases rest with
  | nil => rfl
  | cons next rest => simp [stops next rfl]

end Run

end ShaderDefs.Text
