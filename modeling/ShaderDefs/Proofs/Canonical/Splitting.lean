import ShaderDefs.Canonical.Layout
import ShaderDefs.Proofs.Expr.WellFormed

/-! Splitting a text into atoms. It cuts at white space once the parentheses stand alone. It also
undoes laying out: both layouts keep neighbouring atoms apart, so splitting the text of a sequence of
whole atoms gives back the sequence. -/

set_option autoImplicit false

namespace ShaderDefs.Canonical

/-- A word of at least one character, none of which ends a word. -/
def Atom.Whole : Atom → Prop
  | .word text => text.toList ≠ [] ∧ ∀ character ∈ text.toList, isWordPart character
  | _ => True

theorem isWordPart_iff {character : Char} :
    isWordPart character ↔ Text.isBlank character = false ∧ character ≠ '(' ∧ character ≠ ')' := by
  simp [isWordPart, and_assoc]

theorem isWordPart_of_toNat {character : Char} (low : 33 ≤ character.toNat)
    (high : character.toNat ≤ 126) (noOpening : character ≠ '(') (noClosing : character ≠ ')') :
    isWordPart character := by
  have noBlank : Text.isBlank character = false := by
    rw [Text.isBlank, Bool.eq_false_iff, ne_eq, Text.Ranges.covers_iff]
    rintro ⟨range, member, above, below⟩
    simp only [Text.blankRanges, List.mem_cons, List.not_mem_nil, or_false] at member
    rcases member with rfl | rfl | rfl | rfl | rfl | rfl | rfl | rfl | rfl | rfl <;>
      simp only at above below <;> omega
  exact isWordPart_iff.2 ⟨noBlank, noOpening, noClosing⟩

section Split

variable {rest : List Char}

theorem split_blank {character : Char} (blank : Text.isBlank character) :
    split (character :: rest) = split rest := by
  rw [split, if_pos blank]

theorem split_opening : split ('(' :: rest) = .opening :: split rest := by
  rw [split, if_neg (by decide), if_pos rfl]

theorem split_closing : split (')' :: rest) = .closing :: split rest := by
  rw [split, if_neg (by decide), if_neg (by decide), if_pos rfl]

theorem split_word {text : String} (whole : (Atom.word text).Whole)
    (stops : ∀ character ∈ rest.head?, isWordPart character = false) :
    split (text.toList ++ rest) = .word text :: split rest := by
  obtain ⟨some, parts⟩ := whole
  obtain ⟨first, others, same⟩ := List.exists_cons_of_ne_nil some
  rw [same] at parts
  have inside : ∀ character ∈ others, isWordPart character :=
    fun character member => parts character (List.mem_cons_of_mem _ member)
  obtain ⟨noBlank, noOpening, noClosing⟩ := isWordPart_iff.1 (parts first List.mem_cons_self)
  rw [same, List.cons_append, split, if_neg (by simp [noBlank]), if_neg noOpening,
    if_neg noClosing, Text.takeWhile_eq_of_stops inside stops,
    Text.dropWhile_eq_of_stops inside stops, ← same, String.ofList_toList]

theorem split_atom {atom : Atom} (whole : atom.Whole)
    (stops : ∀ text, atom = .word text → ∀ character ∈ rest.head?, isWordPart character = false) :
    split (atom.text.toList ++ rest) = atom :: split rest := by
  cases atom with
  | opening => exact split_opening
  | closing => exact split_closing
  | word text => exact split_word whole (stops text rfl)

theorem whole_of_mem_split {characters : List Char} {atom : Atom} (member : atom ∈ split characters) :
    atom.Whole := by
  fun_induction split characters with
  | case1 => cases member
  | case2 first rest blank ih => exact ih member
  | case3 rest _ ih =>
    rcases List.mem_cons.1 member with rfl | later
    · exact trivial
    · exact ih later
  | case4 rest _ _ ih =>
    rcases List.mem_cons.1 member with rfl | later
    · exact trivial
    · exact ih later
  | case5 first rest noBlank noOpening noClosing ih =>
    rcases List.mem_cons.1 member with rfl | later
    · rw [Atom.Whole, String.toList_ofList, List.forall_mem_cons]
      refine ⟨List.cons_ne_nil _ _, isWordPart_iff.2 ⟨by simpa using noBlank, noOpening, noClosing⟩, ?_⟩
      exact fun character => List.mem_takeWhile_imp
    · exact ih later

theorem Atom.Whole.text_ne_empty {atom : Atom} (whole : atom.Whole) : atom.text ≠ "" := by
  cases atom with
  | opening => decide
  | closing => decide
  | word text =>
    rintro rfl
    exact whole.1 rfl

end Split

section Cut

/-- The text with a blank on both sides of every parenthesis. -/
def isolate (characters : List Char) : List Char :=
  characters.flatMap fun character =>
    if character = '(' ∨ character = ')' then [' ', character, ' '] else [character]

/-- The pieces between white space that are not empty. -/
def cut (characters : List Char) : List (List Char) :=
  (characters.splitOnP Text.isBlank).filter (!·.isEmpty)

def Atom.ofPiece : List Char → Atom
  | ['('] => .opening
  | [')'] => .closing
  | piece => .word (.ofList piece)

variable {rest : List Char}

theorem cut_nil : cut [] = [] := by
  simp [cut, List.splitOnP_nil]

theorem cut_blank {character : Char} (blank : Text.isBlank character) :
    cut (character :: rest) = cut rest := by
  simp [cut, List.splitOnP_cons_eq_if_modifyHead, blank]

theorem cut_append_blank {blank : Char} (isBlank : Text.isBlank blank) (front : List Char) :
    cut (front ++ blank :: rest) = cut front ++ cut rest := by
  simp only [cut, List.splitOnP_append_cons front rest isBlank, List.filter_append]

theorem cut_piece {piece : List Char} (some : piece ≠ [])
    (solid : ∀ character ∈ piece, Text.isBlank character = false)
    (stops : ∀ character ∈ rest.head?, Text.isBlank character) :
    cut (piece ++ rest) = piece :: cut rest := by
  have alone : cut piece = [piece] := by
    simp [cut, List.splitOnP_eq_singleton solid, some]
  cases rest with
  | nil => rw [List.append_nil, alone, cut_nil]
  | cons blank rest =>
    have isBlank := stops blank rfl
    rw [cut_append_blank isBlank, alone, cut_blank isBlank, List.singleton_append]

theorem isolate_append (front back : List Char) :
    isolate (front ++ back) = isolate front ++ isolate back :=
  List.flatMap_append

theorem isolate_blank {blank : Char} (isBlank : Text.isBlank blank) :
    isolate (blank :: rest) = blank :: isolate rest := by
  unfold isolate
  rw [List.flatMap_cons, if_neg, List.singleton_append]
  rintro (rfl | rfl)
  · exact absurd isBlank (by decide)
  · exact absurd isBlank (by decide)

theorem isolate_piece {piece : List Char} (parts : ∀ character ∈ piece, isWordPart character) :
    isolate piece = piece := by
  induction piece with
  | nil => rfl
  | cons first piece ih =>
    obtain ⟨_, noOpening, noClosing⟩ := isWordPart_iff.1 (parts first List.mem_cons_self)
    have others := ih fun character member => parts character (List.mem_cons_of_mem _ member)
    unfold isolate at others ⊢
    rw [List.flatMap_cons, if_neg (by simp [noOpening, noClosing]), others, List.singleton_append]

theorem isBlank_head_isolate (stops : ∀ character ∈ rest.head?, isWordPart character = false) :
    ∀ character ∈ (isolate rest).head?, Text.isBlank character := by
  cases rest with
  | nil => exact nofun
  | cons first rest =>
    have outside := stops first rfl
    unfold isolate
    rw [List.flatMap_cons]
    split
    next =>
      rintro _ ⟨⟩
      decide
    next solid =>
      rintro _ ⟨⟩
      rw [not_or] at solid
      by_contra blank
      have part := isWordPart_iff.2 ⟨by simpa using blank, solid⟩
      rw [part] at outside
      cases outside

theorem ofPiece_of_ne {first : Char} {piece : List Char} (noOpening : first ≠ '(')
    (noClosing : first ≠ ')') : Atom.ofPiece (first :: piece) = .word (.ofList (first :: piece)) := by
  unfold Atom.ofPiece
  split
  next same => exact absurd (List.cons.inj same).1 noOpening
  next same => exact absurd (List.cons.inj same).1 noClosing
  next => rfl

/-- Splitting is cutting at white space, with every parenthesis standing alone. -/
theorem split_eq_cut (characters : List Char) :
    split characters = (cut (isolate characters)).map Atom.ofPiece := by
  -- A parenthesis standing alone is cut off as a piece of its own.
  have parenthesis : ∀ {mark : Char} {rest : List Char}, Text.isBlank mark = false →
      cut (' ' :: mark :: ' ' :: rest) = [mark] :: cut rest := by
    intro mark rest solid
    have piece : cut ([mark] ++ ' ' :: rest) = [mark] :: cut (' ' :: rest) := by
      apply cut_piece (List.cons_ne_nil _ _) (by simpa using solid)
      rintro _ ⟨⟩
      decide
    rw [cut_blank (by decide)]
    exact piece.trans (congrArg _ (cut_blank (by decide)))
  fun_induction split characters with
  | case1 => rw [isolate, List.flatMap_nil, cut_nil, List.map_nil]
  | case2 first rest blank ih =>
    rw [ih, isolate_blank blank, cut_blank blank]
  | case3 rest _ ih =>
    have alone : isolate ('(' :: rest) = ' ' :: '(' :: ' ' :: isolate rest := rfl
    rw [ih, alone, parenthesis (by decide), List.map_cons]
    rfl
  | case4 rest _ _ ih =>
    have alone : isolate (')' :: rest) = ' ' :: ')' :: ' ' :: isolate rest := rfl
    rw [ih, alone, parenthesis (by decide), List.map_cons]
    rfl
  | case5 first rest noBlank noOpening noClosing ih =>
    have parts : ∀ character ∈ first :: rest.takeWhile isWordPart, isWordPart character := by
      refine List.forall_mem_cons.2 ⟨?_, fun character => List.mem_takeWhile_imp⟩
      exact isWordPart_iff.2 ⟨by simpa using noBlank, noOpening, noClosing⟩
    have alone : isolate (first :: rest) =
        (first :: rest.takeWhile isWordPart) ++ isolate (rest.dropWhile isWordPart) :=
      calc
        isolate (first :: rest) =
            isolate ((first :: rest.takeWhile isWordPart) ++ rest.dropWhile isWordPart) := by
          rw [List.cons_append, List.takeWhile_append_dropWhile]
        _ = _ := by rw [isolate_append, isolate_piece parts]
    have stops : ∀ character ∈ (rest.dropWhile isWordPart).head?, isWordPart character = false := by
      intro character member
      have := List.head?_dropWhile_not isWordPart rest
      rwa [Option.mem_def.1 member] at this
    -- What ends the word is a blank already or becomes one by standing alone.
    rw [ih, alone, cut_piece (List.cons_ne_nil _ _) _ (isBlank_head_isolate stops), List.map_cons,
      ofPiece_of_ne noOpening noClosing]
    exact fun character member => (isWordPart_iff.1 (parts character member)).1

theorem split_append_blank {blank : Char} (isBlank : Text.isBlank blank) (front : List Char) :
    split (front ++ blank :: rest) = split front ++ split rest := by
  rw [split_eq_cut, split_eq_cut, split_eq_cut, isolate_append, isolate_blank isBlank,
    cut_append_blank isBlank, List.map_append]

end Cut

theorem split_whole {text : String} (whole : (Atom.word text).Whole) :
    split text.toList = [.word text] := by
  have alone := @split_word [] _ whole nofun
  rwa [List.append_nil, split] at alone

theorem split_intercalate {words : List String} (whole : ∀ word ∈ words, (Atom.word word).Whole) :
    split (" ".intercalate words).toList = words.map .word := by
  induction words with
  | nil => rw [String.intercalate_nil, String.toList_empty, split, List.map_nil]
  | cons first words ih =>
    obtain ⟨wholeFirst, others⟩ := List.forall_mem_cons.1 whole
    cases words with
    | nil => rw [String.intercalate_singleton, split_whole wholeFirst, List.map_singleton]
    | cons next words =>
      have blank : " ".toList = [' '] := rfl
      rw [String.intercalate_cons_cons, String.toList_append, String.toList_append, blank,
        List.append_assoc, List.singleton_append, split_append_blank (by decide), ih others,
        split_whole wholeFirst]
      rfl

namespace Layout

theorem separates_eq_false {layout : Layout} {atom next : Atom}
    (joins : layout.separates atom next = false) : atom = .opening ∨ next = .closing := by
  cases layout <;> cases atom <;> cases next <;> simp_all [separates]

theorem exists_pieces_eq (layout : Layout) (atom : Atom) (rest : List Atom) :
    ∃ more, (layout.pieces (atom :: rest)).flatMap String.toList = atom.text.toList ++ more := by
  cases rest with
  | nil => exact ⟨[], by simp [pieces]⟩
  | cons next rest =>
    rw [pieces, List.flatMap_cons]
    split
    · exact ⟨_, by rw [String.toList_append, List.append_assoc]⟩
    · exact ⟨_, rfl⟩

theorem split_pieces (layout : Layout) {atoms : List Atom} (whole : ∀ atom ∈ atoms, atom.Whole) :
    split ((layout.pieces atoms).flatMap String.toList) = atoms := by
  fun_induction layout.pieces atoms with
  | case1 => rw [List.flatMap_nil, split]
  | case2 last =>
    have alone : split (last.text.toList ++ []) = last :: split [] := by
      apply split_atom (whole last List.mem_cons_self)
      intro text same character member
      cases member
    rw [split] at alone
    simpa using alone
  | case3 atom next rest ih =>
    have wholeAtom := whole atom List.mem_cons_self
    have more := ih fun other member => whole other (List.mem_cons_of_mem _ member)
    rw [List.flatMap_cons]
    -- Either a blank ends the atom and is skipped, or no blank is needed.
    by_cases apart : layout.separates atom next = true
    · rw [if_pos apart, String.toList_append, List.append_assoc, split_atom wholeAtom]
      · exact congrArg _ ((split_blank (by decide)).trans more)
      · rintro _ _ _ ⟨⟩
        decide
    · rw [if_neg apart, split_atom wholeAtom, more]
      rintro text rfl character member
      -- Only a closing parenthesis stands directly after a word.
      rcases separates_eq_false (by simpa using apart) with same | rfl
      · cases same
      · obtain ⟨tail, same⟩ := exists_pieces_eq layout .closing rest
        rw [same] at member
        cases member
        decide

theorem split_render (layout : Layout) {atoms : List Atom} (whole : ∀ atom ∈ atoms, atom.Whole) :
    split (layout.render atoms).toList = atoms := by
  rw [render, String.toList_join]
  exact split_pieces layout whole

end Layout

end ShaderDefs.Canonical
