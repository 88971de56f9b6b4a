import ShaderDefs.Proofs.Token.Scanning
import ShaderDefs.Proofs.Token.Spelling

/-! Where the text of a token occurs. Scanning a line takes each token from the line as it stands there,
and the token ends where its kind does not go on. -/

set_option autoImplicit false

namespace ShaderDefs.Token

def Kind.ofMark : Char → Kind
  | '=' => .equals
  | '(' => .opening
  | ')' => .closing
  | '+' => .operator .add
  | '-' => .operator .subtract
  | '*' => .operator .multiply
  | '/' => .operator .divide
  | other => .unknown other

/-- The text of the token stands at the offset. It is a whole name, a whole integer, or a single
character that is part of neither and decides the kind. -/
structure Occurs (characters : List Char) (offset : Nat) (token : Token) : Prop where
  text : token.text.toList <+: characters.drop offset
  name : token.kind = .identifier → Text.IsName token.text ∧
    ∀ next ∈ (characters.drop (offset + token.text.length)).head?, isNamePart next = false
  integer : token.kind = .integer → Text.IsDigits token.text.toList ∧
    ∀ next ∈ (characters.drop (offset + token.text.length)).head?, next.isDigit = false
  mark : token.kind ≠ .identifier → token.kind ≠ .integer → ∃ character,
    token.text = character.toString ∧ token.kind = Kind.ofMark character ∧
      isNamePart character = false

theorem isNamePart_iff {character : Char} :
    isNamePart character ↔ isNameStart character ∨ character.isDigit := by
  simp only [isNamePart, isNameStart, Char.isAlphanum, Bool.or_eq_true, decide_eq_true_eq]
  exact or_right_comm

theorem Kind.ofFirst_eq_ofMark {character : Char} (noName : isNamePart character = false) :
    ofFirst character = ofMark character := by
  obtain ⟨noStart, noDigit⟩ := not_or.1 (mt isNamePart_iff.2 (Bool.eq_false_iff.1 noName))
  unfold ofMark
  split
  all_goals try rfl
  next equals opening closing plus minus star slash =>
    have noSymbol : ∀ operator : Operator, operator.symbol ≠ character := by
      rintro operator rfl
      cases operator
      · exact plus rfl
      · exact minus rfl
      · exact star rfl
      · exact slash rfl
    have noOperator : Operator.ofSymbol? character = none := by
      cases found : Operator.ofSymbol? character with
      | none => rfl
      | some operator => exact absurd (Operator.symbol_of_ofSymbol? found) (noSymbol operator)
    rw [ofFirst, if_neg noStart, if_neg noDigit, if_neg equals, if_neg opening, if_neg closing,
      noOperator]

theorem length_span (test : Char → Bool) (characters : List Char) :
    (characters.takeWhile test).length + (characters.dropWhile test).length = characters.length := by
  rw [← List.length_append, List.takeWhile_append_dropWhile]

variable {characters rest : List Char} {offset : Nat} {token : Token}

theorem Occurs.append_left (occurs : Occurs rest offset token) (front : List Char) :
    Occurs (front ++ rest) (front.length + offset) token := by
  have more : ∀ count, (front ++ rest).drop (front.length + count) = rest.drop count :=
    fun count => List.drop_length_add_append count
  constructor
  · rw [more]
    exact occurs.text
  · rw [Nat.add_assoc, more]
    exact occurs.name
  · rw [Nat.add_assoc, more]
    exact occurs.integer
  · exact occurs.mark

theorem Occurs.add_length_le (occurs : Occurs characters offset token)
    (low : offset < characters.length) : offset + token.text.length ≤ characters.length := by
  have short := occurs.text.length_le
  rw [String.length_toList, List.length_drop] at short
  omega

theorem occurs_ofFirst (first : Char) (rest : List Char) (position : Position) :
    Occurs (first :: rest) 0
      ⟨.ofFirst first, .ofList (first :: rest.takeWhile (Kind.ofFirst first).goesOn), position⟩ := by
  have spelled := spelled_ofFirst first rest position
  generalize made : Kind.ofFirst first = kind at spelled ⊢
  have whole : first :: rest =
      (first :: rest.takeWhile kind.goesOn) ++ rest.dropWhile kind.goesOn := by
    rw [List.cons_append, List.takeWhile_append_dropWhile]
  have after : (first :: rest).drop
      (0 + (String.ofList (first :: rest.takeWhile kind.goesOn)).length) =
      rest.dropWhile kind.goesOn := by
    rw [Nat.zero_add, String.length_ofList, whole, List.drop_left]
  have stops : ∀ next ∈ (rest.dropWhile kind.goesOn).head?, kind.goesOn next = false := by
    intro next head
    have := List.head?_dropWhile_not kind.goesOn rest
    rw [head] at this
    exact this
  rw [← after] at stops
  constructor
  · rw [String.toList_ofList, List.drop_zero]
    exact ⟨_, whole.symm⟩
  · rintro rfl
    exact ⟨spelled, stops⟩
  · rintro rfl
    exact ⟨spelled, stops⟩
  · intro noName noInteger
    have noPart : isNamePart first = false := by
      rw [Bool.eq_false_iff, Ne, isNamePart_iff]
      rintro (start | digit)
      · exact noName (made.symm.trans (ofFirst_of_isNameStart start))
      · exact noInteger (made.symm.trans (ofFirst_of_isDigit digit))
    exact ⟨first, ofList_takeWhile_goesOn noName noInteger,
      made.symm.trans (Kind.ofFirst_eq_ofMark noPart), noPart⟩

/-- Every token of a line is taken from the line where it stands. -/
theorem exists_occurs_of_mem_scanLine {line column : Nat}
    (member : token ∈ scanLine line column characters) :
    ∃ offset < characters.length,
      token.position = .ofNat line (column + offset) ∧ Occurs characters offset token := by
  fun_induction scanLine line column characters with
  | case1 => cases member
  | case2 column first rest gap ih =>
    obtain ⟨offset, low, same, occurs⟩ := ih member
    have further := occurs.append_left [first]
    refine ⟨1 + offset, ?_, ?_, further⟩
    · rw [List.length_cons]
      omega
    · rw [same, Nat.add_assoc]
  | case3 => cases member
  | case4 column first rest noGap noComment kind more ih =>
    rcases List.mem_cons.1 member with rfl | member
    · exact ⟨0, Nat.succ_pos _, rfl, occurs_ofFirst first rest _⟩
    · obtain ⟨offset, low, same, occurs⟩ := ih member
      have split : more.length + _ = rest.length := length_span kind.goesOn rest
      have further := occurs.append_left (first :: more)
      rw [List.cons_append, List.takeWhile_append_dropWhile] at further
      refine ⟨(first :: more).length + offset, ?_, ?_, further⟩
      · rw [List.length_cons, List.length_cons]
        omega
      · rw [same, List.length_cons]
        congr 1
        omega

end ShaderDefs.Token
