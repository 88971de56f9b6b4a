import ShaderDefs.Proofs.Canonical.Uniqueness
import ShaderDefs.Proofs.Definition.Recovery
import ShaderDefs.Stage

/-! What the texts of reports tell. The parser's text and the validator's text can both be cut into the
parts that the definitions gave, and from each part everything can be read off but the places. So
the two texts tell the same. -/

set_option autoImplicit false

namespace ShaderDefs

open Canonical (Atom ReadsOff split eq_of_append_cons_eq)

namespace Definition

@[ext]
structure Content where
  name : String
  parameters : List String
  body : Expr
  deriving DecidableEq

def content (definition : Definition) : Content where
  name := definition.name
  parameters := definition.parameters
  body := definition.body

namespace Content

structure Formed (content : Content) : Prop where
  named : Text.IsName content.name
  parametersNamed : ∀ parameter ∈ content.parameters, Text.IsName parameter
  body : content.body.WellFormed

def definition (content : Content) : Definition where
  name := content.name
  parameters := content.parameters
  parameterPositions := []
  body := content.body
  position := .start

def line (content : Content) : String := content.definition.print

def block (content : Content) : String := (Signature.ofDefinition content.definition).describe

variable {content other : Content}

section Line

def headAtoms (content : Content) : List Atom :=
  if content.parameters.isEmpty then [.word content.name]
  else .opening :: ((content.name :: content.parameters).map .word ++ [.closing])

def lineAtoms (content : Content) : List Atom :=
  .opening :: .word "=" :: (content.headAtoms ++ (content.body.atoms ++ [.closing]))

theorem whole_of_mem (formed : content.Formed) :
    ∀ name ∈ content.name :: content.parameters, (Atom.word name).Whole :=
  List.forall_mem_cons.2 ⟨Canonical.whole_of_isName formed.named, fun parameter member =>
    Canonical.whole_of_isName (formed.parametersNamed parameter member)⟩

def headText (content : Content) : String :=
  if content.parameters.isEmpty then content.name
  else "( " ++ " ".intercalate (content.name :: content.parameters) ++ " )"

theorem split_last : split [')'] = [.closing] := by decide +kernel

theorem split_headText (formed : content.Formed) :
    split content.headText.toList = content.headAtoms := by
  have whole := content.whole_of_mem formed
  unfold headText headAtoms
  split
  · exact Canonical.split_whole (whole _ List.mem_cons_self)
  · have opening : "( ".toList = '(' :: [' '] := rfl
    have closing : " )".toList = [' ', ')'] := rfl
    rw [String.toList_append, String.toList_append, opening, closing, List.append_assoc,
      List.cons_append, Canonical.split_opening, List.singleton_append,
      Canonical.split_blank (by decide), Canonical.split_append_blank (by decide),
      Canonical.split_intercalate whole, split_last]

theorem split_line (formed : content.Formed) :
    ∃ front, content.line.toList = front ++ ['\n'] ∧ split front = content.lineAtoms := by
  refine ⟨[' ', '(', ' ', '='] ++ ' ' :: (content.headText.toList ++
    ' ' :: ((content.body.print .spaced).toList ++ ' ' :: [')'])), ?_, ?_⟩
  · have opening : " ( = ".toList = [' ', '(', ' ', '=', ' '] := rfl
    have blank : " ".toList = [' '] := rfl
    have closing : " )\n".toList = [' ', ')', '\n'] := rfl
    have shape : content.line =
        " ( = " ++ content.headText ++ " " ++ content.body.print .spaced ++ " )\n" := rfl
    rw [shape]
    simp only [String.toList_append, opening, blank, closing, List.append_assoc, List.cons_append,
      List.nil_append]
  · have first : split [' ', '(', ' ', '='] = [.opening, .word "="] := by decide +kernel
    rw [Canonical.split_append_blank (by decide), Canonical.split_append_blank (by decide),
      Canonical.split_append_blank (by decide), split_headText formed,
      Canonical.split_print formed.body, first, split_last]
    rfl

theorem eq_of_map_word_eq {words others : List String}
    (same : words.map Atom.word = others.map .word) : words = others :=
  List.map_injective_iff.2 (fun _ _ => Atom.word.inj) same

theorem headAtoms_append_of_eq_nil (none : content.parameters = []) (rest : List Atom) :
    content.headAtoms ++ rest = .word content.name :: rest := by
  simp [headAtoms, none]

theorem headAtoms_append_of_ne_nil (some : content.parameters ≠ []) (rest : List Atom) :
    content.headAtoms ++ rest =
      .opening :: ((content.name :: content.parameters).map .word ++ .closing :: rest) := by
  simp [headAtoms, some]

/-- A parenthesis tells whether there are parameters, and the next one where they end. -/
theorem eq_of_headAtoms_append_eq {rest others : List Atom}
    (same : content.headAtoms ++ rest = other.headAtoms ++ others) :
    content.name = other.name ∧ content.parameters = other.parameters ∧ rest = others := by
  have noClosing : ∀ words : List String, Atom.closing ∉ words.map .word := by simp
  by_cases none : content.parameters = []
  · rw [headAtoms_append_of_eq_nil none] at same
    by_cases otherNone : other.parameters = []
    · rw [headAtoms_append_of_eq_nil otherNone] at same
      obtain ⟨first, rests⟩ := List.cons.inj same
      exact ⟨Atom.word.inj first, none.trans otherNone.symm, rests⟩
    · rw [headAtoms_append_of_ne_nil otherNone] at same
      exact absurd (List.cons.inj same).1 nofun
  · rw [headAtoms_append_of_ne_nil none] at same
    by_cases otherNone : other.parameters = []
    · rw [headAtoms_append_of_eq_nil otherNone] at same
      exact absurd (List.cons.inj same).1 nofun
    · rw [headAtoms_append_of_ne_nil otherNone] at same
      obtain ⟨words, rests⟩ :=
        eq_of_append_cons_eq (noClosing _) (noClosing _) (List.cons.inj same).2
      obtain ⟨names, parameters⟩ := List.cons.inj (eq_of_map_word_eq words)
      exact ⟨names, parameters, rests⟩

theorem lineAtoms_append (content : Content) (rest : List Atom) :
    content.lineAtoms ++ rest =
      .opening :: .word "=" :: (content.headAtoms ++ (content.body.atoms ++ .closing :: rest)) := by
  simp [lineAtoms]

theorem readsOff_lineAtoms : ReadsOff Formed lineAtoms := by
  intro content other formed otherFormed rest others same
  rw [lineAtoms_append, lineAtoms_append] at same
  obtain ⟨name, parameters, tails⟩ :=
    eq_of_headAtoms_append_eq (List.cons.inj (List.cons.inj same).2).2
  obtain ⟨body, ends⟩ := Canonical.readsOff_atoms formed.body otherFormed.body tails
  exact ⟨Content.ext name parameters body, (List.cons.inj ends).2⟩

end Line

section Block

def argumentText (content : Content) : String :=
  if content.parameters.isEmpty then ""
  else "  Arguments: " ++ " ".intercalate content.parameters ++ "\n"

def argumentAtoms (content : Content) : List Atom :=
  if content.parameters.isEmpty then []
  else .word "Arguments:" :: content.parameters.map .word

def blockAtoms (content : Content) : List Atom :=
  .word "Function:" :: .word content.name ::
    (content.argumentAtoms ++ .word "Expression:" :: content.body.atoms)

theorem split_argumentText_append (formed : content.Formed) (rest : List Char) :
    split (content.argumentText.toList ++ rest) = content.argumentAtoms ++ split rest := by
  have whole : ∀ name ∈ content.parameters, (Atom.word name).Whole :=
    fun name member => content.whole_of_mem formed name (List.mem_cons_of_mem _ member)
  unfold argumentText argumentAtoms
  split
  · rfl
  · have opening : "  Arguments: ".toList = [' ', ' '] ++ "Arguments:".toList ++ [' '] := rfl
    have closing : "\n".toList = ['\n'] := rfl
    have label : split ([' ', ' '] ++ "Arguments:".toList) = [.word "Arguments:"] := by
      decide +kernel
    rw [String.toList_append, String.toList_append, opening, closing, List.append_assoc,
      List.append_assoc, List.append_assoc, List.singleton_append, List.singleton_append,
      Canonical.split_append_blank (by decide), Canonical.split_append_blank (by decide), label,
      Canonical.split_intercalate whole]
    rfl

theorem split_block (formed : content.Formed) :
    ∃ front, content.block.toList = front ++ ['\n'] ∧ split front = content.blockAtoms := by
  refine ⟨"Function:".toList ++ ' ' :: (content.name.toList ++ '\n' ::
    (content.argumentText.toList ++ ([' ', ' '] ++ "Expression:".toList ++
      ' ' :: (content.body.print .compact).toList))), ?_, ?_⟩
  · have opening : "Function: ".toList = "Function:".toList ++ [' '] := rfl
    have label : "  Expression: ".toList = [' ', ' '] ++ "Expression:".toList ++ [' '] := rfl
    have closing : "\n".toList = ['\n'] := rfl
    have shape : content.block = "Function: " ++ content.name ++ "\n" ++ content.argumentText ++
        "  Expression: " ++ content.body.print .compact ++ "\n" := rfl
    rw [shape]
    simp only [String.toList_append, opening, label, closing, List.append_assoc, List.cons_append,
      List.nil_append]
  · have first : split "Function:".toList = [.word "Function:"] := by decide +kernel
    have label : split ([' ', ' '] ++ "Expression:".toList) = [.word "Expression:"] := by
      decide +kernel
    rw [Canonical.split_append_blank (by decide), Canonical.split_append_blank (by decide),
      split_argumentText_append formed, Canonical.split_append_blank (by decide), first, label,
      Canonical.split_whole (content.whole_of_mem formed _ List.mem_cons_self),
      Canonical.split_print formed.body]
    rfl

theorem not_mem_argumentAtoms (formed : content.Formed) :
    Atom.word "Expression:" ∉ content.argumentAtoms := by
  have noName : ¬Text.IsName "Expression:" := by
    rw [← Canonical.isNameWord_iff]
    decide
  unfold argumentAtoms
  split
  · exact List.not_mem_nil
  · rw [List.mem_cons, List.mem_map, not_or]
    refine ⟨by decide, ?_⟩
    rintro ⟨parameter, member, same⟩
    exact noName (Atom.word.inj same ▸ formed.parametersNamed parameter member)

theorem tail_argumentAtoms (content : Content) :
    content.argumentAtoms.tail = content.parameters.map .word := by
  unfold argumentAtoms
  split
  next none => rw [List.isEmpty_iff.1 none, List.tail_nil, List.map_nil]
  next => rw [List.tail_cons]

theorem blockAtoms_append (content : Content) (rest : List Atom) :
    content.blockAtoms ++ rest = .word "Function:" :: .word content.name ::
      (content.argumentAtoms ++ .word "Expression:" :: (content.body.atoms ++ rest)) := by
  simp [blockAtoms]

theorem readsOff_blockAtoms : ReadsOff Formed blockAtoms := by
  intro content other formed otherFormed rest others same
  rw [blockAtoms_append, blockAtoms_append] at same
  obtain ⟨name, tails⟩ := List.cons.inj (List.cons.inj same).2
  obtain ⟨arguments, bodies⟩ := eq_of_append_cons_eq (not_mem_argumentAtoms formed)
    (not_mem_argumentAtoms otherFormed) tails
  obtain ⟨body, ends⟩ := Canonical.readsOff_atoms formed.body otherFormed.body bodies
  have words := congrArg List.tail arguments
  rw [tail_argumentAtoms, tail_argumentAtoms] at words
  exact ⟨Content.ext (Atom.word.inj name) (eq_of_map_word_eq words) body, ends⟩

end Block

end Content

theorem content_formed_of_mem_recover {source : String} {definition : Definition}
    (member : definition ∈ (recover (Token.ofText source)).definitions) :
    definition.content.Formed := by
  obtain ⟨line, statement, read⟩ := mem_recover_iff.1 member
  have spelled := spelled_of_mem statement
  obtain ⟨name, parameters, header⟩ := exists_header_of_readLine spelled read
  obtain ⟨equals, rest, _, shape⟩ := header.shape
  have isName : ∀ token ∈ line, token.kind = .identifier → Text.IsName token.text :=
    fun token inLine kind => by simpa [Token.Spelled, kind] using spelled token inLine
  constructor
  · rw [content, header.name_eq]
    exact isName name (by simp [shape]) header.named
  · rw [content, header.parameters_eq]
    simp only [List.mem_map]
    rintro _ ⟨token, inParameters, rfl⟩
    exact isName token (by simp [shape, inParameters]) (header.parametersNamed token inParameters)
  · exact (body_of_mem_recover member).1

/-- Where each part of a text ends a line and is cut into atoms that tell what is said, the text tells
what all parts say. -/
theorem join_map_eq_iff {text : Content → String} {atoms : Content → List Canonical.Atom}
    (readsOff : ReadsOff Content.Formed atoms) (some : ∀ content, atoms content ≠ [])
    (parts : ∀ content : Content, content.Formed →
      ∃ front, (text content).toList = front ++ ['\n'] ∧ split front = atoms content)
    {contents others : List Content} (formed : ∀ content ∈ contents, content.Formed)
    (othersFormed : ∀ content ∈ others, content.Formed) :
    String.join (contents.map text) = String.join (others.map text) ↔ contents = others := by
  have cut : ∀ {contents : List Content}, (∀ content ∈ contents, content.Formed) →
      split (String.join (contents.map text)).toList = contents.flatMap atoms := by
    intro contents formed
    induction contents with
    | nil => rw [List.map_nil, String.join_nil, String.toList_empty, split, List.flatMap_nil]
    | cons content contents ih =>
      obtain ⟨own, more⟩ := List.forall_mem_cons.1 formed
      obtain ⟨front, shape, own⟩ := parts content own
      rw [List.map_cons, String.join_cons, String.toList_append, shape, List.append_assoc,
        List.singleton_append, Canonical.split_append_blank (by decide), own, ih more,
        List.flatMap_cons]
  refine ⟨fun same => ?_, fun same => by rw [same]⟩
  refine readsOff.eq_of_flatMap_eq some formed othersFormed ?_
  rw [← cut formed, same, cut othersFormed]

end Definition

namespace Report

variable (rules : Lint.Rules)

def contents (source : String) : List Definition.Content :=
  (Definition.recover (Token.ofText source)).definitions.map (·.content)

theorem formed_of_mem_contents {source : String} :
    ∀ content ∈ contents source, content.Formed := by
  intro content member
  obtain ⟨definition, inDefinitions, rfl⟩ := List.mem_map.1 member
  exact Definition.content_formed_of_mem_recover inDefinitions

theorem parser_text_eq (source : String) :
    (Stage.parser.report rules source).text =
      String.join ((contents source).map (·.line)) := by
  rw [contents, List.map_map]
  rfl

theorem validator_text_eq (source : String) :
    (Stage.validator.report rules source).text =
      String.join ((contents source).map (·.block)) := by
  simp only [Stage.report, signatures, Validation.ofDefinitions, Program.ofDefinitions,
    Program.describe, contents, List.map_map]
  rfl

/-- Canonical text is unique, and the parser and the validator tell the same. -/
theorem print_injective_and_texts_eq_iff :
    (∀ (layout otherLayout : Canonical.Layout) (expr other : Expr), expr.WellFormed →
      other.WellFormed → expr.print layout = other.print otherLayout → expr = other) ∧
    ∀ source other : String,
      ((Stage.parser.report rules source).text = (Stage.parser.report rules other).text ↔
        (Stage.validator.report rules source).text = (Stage.validator.report rules other).text) ∧
      ((Stage.validator.report rules source).text = (Stage.validator.report rules other).text ↔
        contents source = contents other) := by
  have lines : ∀ source other : String,
      (Stage.parser.report rules source).text = (Stage.parser.report rules other).text ↔
        contents source = contents other := by
    intro source other
    rw [parser_text_eq, parser_text_eq]
    exact Definition.join_map_eq_iff Definition.Content.readsOff_lineAtoms
      (fun _ => List.cons_ne_nil _ _) (fun _ formed => Definition.Content.split_line formed)
      formed_of_mem_contents formed_of_mem_contents
  have blocks : ∀ source other : String,
      (Stage.validator.report rules source).text = (Stage.validator.report rules other).text ↔
        contents source = contents other := by
    intro source other
    rw [validator_text_eq, validator_text_eq]
    exact Definition.join_map_eq_iff Definition.Content.readsOff_blockAtoms
      (fun _ => List.cons_ne_nil _ _) (fun _ formed => Definition.Content.split_block formed)
      formed_of_mem_contents formed_of_mem_contents
  exact ⟨fun _ _ _ _ formed otherFormed same => Canonical.eq_of_print_eq formed otherFormed same,
    fun source other => ⟨(lines source other).trans (blocks source other).symm, blocks source other⟩⟩

theorem print_and_texts_of_application :
    let name (text : String) : Expr := .identifier text
    let nested : Expr := .application (.application (name "f") [name "x"]) [name "y"]
    let flat : Expr := .application (name "f") [name "x", name "y"]
    let source := "g y = (f x) y\nh = -1"
    let other := "\ng y=((f x) y) # next\n"
    let third := "g y = f x y"
    nested.WellFormed ∧ flat.WellFormed ∧ nested.print .compact ≠ flat.print .spaced ∧
      (Stage.parser.report .standard source).text = (Stage.parser.report .standard other).text ∧
      contents source = contents other ∧
      (Stage.validator.report .standard source).text ≠
        (Stage.validator.report .standard third).text := by
  intro name nested flat source other third
  have named : ∀ text ∈ ["f", "x", "y"], (name text).WellFormed := by
    intro text member
    refine .identifier (Canonical.isNameWord_iff.1 ?_)
    revert text
    decide
  have nestedFormed : nested.WellFormed :=
    .application (by simp) (.application (by simp) (named "f" (by simp)) (by simp [named]))
      (by simp [named])
  have flatFormed : flat.WellFormed :=
    .application (by simp) (named "f" (by simp)) (by simp [named])
  obtain ⟨injective, texts⟩ := print_injective_and_texts_eq_iff .standard
  obtain ⟨sameTexts, sameContents⟩ := texts source other
  have parsed : (Stage.parser.report .standard source).text =
      (Stage.parser.report .standard other).text := by decide +kernel
  refine ⟨nestedFormed, flatFormed, fun same => ?_, parsed, sameContents.1 (sameTexts.1 parsed),
    fun same => ?_⟩
  · exact absurd (injective _ _ _ _ nestedFormed flatFormed same) (by decide)
  · exact absurd ((texts source third).2.1 same) (by decide +kernel)

end Report

end ShaderDefs
