import Mathlib.Data.List.Nodup
import ShaderDefs.Proofs.Relocation
import ShaderDefs.Proofs.Token.Occurrence

/-! Where the tokens of a line stand. They stand on that line, from left to right, and further down in
a text the same line has the same tokens further down. -/

set_option autoImplicit false

namespace ShaderDefs

namespace Position

def down (count : Nat) (position : Position) : Position :=
  { position with line := position.line + .ofNat count }

theorem down_ofNat (count line column : Nat) :
    (ofNat line column).down count = ofNat (line + count) column := by
  simp [down, ofNat, UInt32.ofNat_add]

theorem toNat_line_down {count : Nat} {position : Position}
    (fits : position.line.toNat + count < UInt32.size) :
    (position.down count).line.toNat = position.line.toNat + count := by
  have line : (position.down count).line = .ofNat (position.line.toNat + count) := by
    rw [UInt32.ofNat_add, UInt32.ofNat_toNat]
    rfl
  rw [line, UInt32.toNat_ofNat_of_lt' fits]

def right (count : Nat) (position : Position) : Position :=
  { position with column := position.column + .ofNat count }

theorem right_ofNat (count line column : Nat) :
    (ofNat line column).right count = ofNat line (column + count) := by
  simp [right, ofNat, UInt32.ofNat_add]

def Before (first second : Position) : Prop :=
  first.line < second.line ∨ (first.line = second.line ∧ first.column < second.column)

theorem Before.ne {first second : Position} (before : Before first second) : first ≠ second := by
  rintro rfl
  rcases before with less | ⟨_, less⟩
  · exact UInt32.lt_irrefl _ less
  · exact UInt32.lt_irrefl _ less

end Position

namespace Token

/-- Something other than spaces, tabs and carriage returns stands on the line outside a comment. -/
def HasContent (characters : List Char) : Prop :=
  ∃ character ∈ characters.takeWhile (· ≠ '#'), character ∉ [' ', '\t', '\r']

instance : DecidablePred HasContent := fun characters =>
  List.decidableBEx (· ∉ [' ', '\t', '\r']) (characters.takeWhile (· ≠ '#'))

theorem isGap_iff {character : Char} : isGap character ↔ character ∈ [' ', '\t', '\r'] := by
  simp [isGap, or_assoc]

theorem takeWhile_cons_of_isGap {first : Char} (gap : isGap first) (rest : List Char) :
    (first :: rest).takeWhile (· ≠ '#') = first :: rest.takeWhile (· ≠ '#') := by
  apply List.takeWhile_cons_of_pos
  rw [decide_eq_true_iff]
  rintro rfl
  exact absurd gap (by decide)

/-- Scanning leaves out exactly what is not content. -/
theorem scanLine_ne_nil_iff (line column : Nat) (characters : List Char) :
    scanLine line column characters ≠ [] ↔ HasContent characters := by
  fun_induction scanLine line column characters with
  | case1 => simp [HasContent]
  | case2 column first rest gap ih =>
    rw [ih, HasContent, HasContent, takeWhile_cons_of_isGap gap]
    constructor
    · rintro ⟨character, member, content⟩
      exact ⟨character, List.mem_cons_of_mem _ member, content⟩
    · rintro ⟨character, member, content⟩
      rcases List.mem_cons.1 member with rfl | member
      · exact absurd (isGap_iff.1 gap) content
      · exact ⟨character, member, content⟩
  | case3 column first rest noGap comment => simp [HasContent, of_decide_eq_true comment]
  | case4 column first rest noGap noComment kind more ih =>
    have other : first ≠ '#' := fun same => noComment (decide_eq_true same)
    refine iff_of_true (List.cons_ne_nil _ _) ⟨first, ?_, fun member => noGap (isGap_iff.2 member)⟩
    rw [List.takeWhile_cons_of_pos (by simpa using other)]
    exact List.mem_cons_self

theorem ofLine_ne_nil_iff (number : Nat) (characters : List Char) :
    ofLine number characters ≠ [] ↔ HasContent characters := by
  rw [← scanLine_ne_nil_iff number 1, ofLine]
  cases scanLine number 1 characters with
  | nil => simp [closeLine]
  | cons token rest => simp [closeLine]

theorem scanLine_down (line column count : Nat) (characters : List Char) :
    scanLine (line + count) column characters =
      (scanLine line column characters).map (·.relocate (·.down count)) := by
  fun_induction scanLine line column characters with
  | case1 => rw [scanLine, List.map_nil]
  | case2 column first rest gap ih => rw [scanLine, if_pos gap, ih]
  | case3 column first rest noGap comment => rw [scanLine, if_neg noGap, if_pos comment, List.map_nil]
  | case4 column first rest noGap noComment kind more ih =>
    rw [scanLine, if_neg noGap, if_neg noComment, List.map_cons, ← ih, relocate, Position.down_ofNat]

theorem ofLine_down (number count : Nat) (characters : List Char) :
    ofLine (number + count) characters =
      (ofLine number characters).map (·.relocate (·.down count)) := by
  unfold ofLine
  rw [scanLine_down]
  cases scanLine number 1 characters with
  | nil => rfl
  | cons token rest =>
    simp [closeLine, relocate, Position.down_ofNat]

theorem scanLine_right (line column count : Nat) (characters : List Char) :
    scanLine line (column + count) characters =
      (scanLine line column characters).map (·.relocate (·.right count)) := by
  fun_induction scanLine line column characters with
  | case1 => rw [scanLine, List.map_nil]
  | case2 column first rest gap ih =>
    rw [scanLine, if_pos gap, ← ih, Nat.add_right_comm]
  | case3 column first rest noGap comment => rw [scanLine, if_neg noGap, if_pos comment, List.map_nil]
  | case4 column first rest noGap noComment kind more ih =>
    rw [scanLine, if_neg noGap, if_neg noComment, List.map_cons, ← ih, relocate, Position.right_ofNat,
      Nat.add_right_comm column count, Nat.add_right_comm (column + 1) more.length]

theorem exists_position_of_mem_ofLine {number : Nat} {characters : List Char} {token : Token}
    (member : token ∈ ofLine number characters) :
    ∃ offset ≤ characters.length, token.position = .ofNat number (offset + 1) := by
  rcases mem_or_eq_of_mem_ofLine member with scanned | rfl
  · obtain ⟨offset, low, same, _⟩ := exists_occurs_of_mem_scanLine scanned
    exact ⟨offset, Nat.le_of_lt low, by rw [same, Nat.add_comm]⟩
  · exact ⟨characters.length, Nat.le_refl _, rfl⟩

theorem line_of_mem_ofLine {number : Nat} {characters : List Char} {token : Token}
    (member : token ∈ ofLine number characters) : token.position.line = .ofNat number := by
  obtain ⟨offset, _, same⟩ := exists_position_of_mem_ofLine member
  rw [same, Position.ofNat]

theorem before_ofNat {line column further : Nat} (less : column < further)
    (fits : further < UInt32.size) :
    (Position.ofNat line column).Before (.ofNat line further) :=
  .inr ⟨rfl, (UInt32.ofNat_lt_iff_lt (Nat.lt_trans less fits) fits).2 less⟩

/-- The second token stands behind the first, and on one line behind the whole text of the first. -/
def Precedes (first second : Token) : Prop :=
  first.position.Before second.position ∧
    (first.position.line = second.position.line →
      first.position.column.toNat + first.text.length ≤ second.position.column.toNat)

theorem toNat_column_ofNat {line column : Nat} (fits : column < UInt32.size) :
    (Position.ofNat line column).column.toNat = column :=
  UInt32.toNat_ofNat_of_lt' fits

theorem precedes_of_add_length_le {first second : Token} {line column further : Nat}
    (place : first.position = .ofNat line column) (next : second.position = .ofNat line further)
    (less : column < further) (behind : column + first.text.length ≤ further)
    (fits : further < UInt32.size) : Precedes first second := by
  rw [Precedes, place, next]
  refine ⟨before_ofNat less fits, fun _ => ?_⟩
  rwa [toNat_column_ofNat (Nat.lt_trans less fits), toNat_column_ofNat fits]

theorem pairwise_scanLine {line column : Nat} {characters : List Char}
    (fits : column + characters.length < UInt32.size) :
    (scanLine line column characters).Pairwise Precedes := by
  fun_induction scanLine line column characters with
  | case1 => exact .nil
  | case2 column first rest gap ih =>
    apply ih
    simp only [List.length_cons] at fits
    omega
  | case3 => exact .nil
  | case4 column first rest noGap noComment kind more ih =>
    have split : more.length + _ = rest.length := length_span kind.goesOn rest
    rw [List.length_cons] at fits
    refine .cons ?_ (ih (by omega))
    intro token member
    obtain ⟨offset, low, same, _⟩ := exists_occurs_of_mem_scanLine member
    refine precedes_of_add_length_le rfl same (by omega) ?_ (by omega)
    simp only [String.length_ofList, List.length_cons]
    omega

/-- On a line the tokens stand from left to right, and the line end comes last. -/
theorem pairwise_ofLine {number : Nat} {characters : List Char}
    (fits : characters.length + 1 < UInt32.size) :
    (ofLine number characters).Pairwise Precedes := by
  by_cases none : ofLine number characters = []
  · rw [none]
    exact .nil
  · rw [ofLine_eq_append (scanLine_ne_nil_of_ofLine none)]
    refine List.pairwise_append.2
      ⟨pairwise_scanLine (by omega), List.pairwise_singleton _ _, fun first inLine last member => ?_⟩
    obtain ⟨offset, low, place, occurs⟩ := exists_occurs_of_mem_scanLine inLine
    have within := occurs.add_length_le low
    cases List.mem_singleton.1 member
    exact precedes_of_add_length_le place rfl (by omega) (by omega) fits

theorem eq_of_pairwise_before {line : List Token}
    (ordered : line.Pairwise fun first second => first.position.Before second.position)
    {token other : Token} (member : token ∈ line) (inLine : other ∈ line)
    (same : token.position = other.position) : token = other := by
  have apart : (line.map (·.position)).Nodup :=
    List.pairwise_map.2 (ordered.imp Position.Before.ne)
  exact List.inj_on_of_nodup_map apart member inLine same

theorem index_eq_of_pairwise_before {tokens : List Token}
    (ordered : tokens.Pairwise fun first second => first.position.Before second.position)
    {index other : Nat} {token twin : Token} (found : tokens[index]? = some token)
    (again : tokens[other]? = some twin) (same : twin.position = token.position) : other = index := by
  have apart : (tokens.map (·.position)).Nodup :=
    List.pairwise_map.2 (ordered.imp Position.Before.ne)
  have low := (List.getElem?_eq_some_iff.1 again).1
  refine (List.getElem?_inj (by rwa [List.length_map]) apart).1 ?_
  rw [List.getElem?_map, List.getElem?_map, found, again, Option.map_some, Option.map_some, same]

end Token

end ShaderDefs
