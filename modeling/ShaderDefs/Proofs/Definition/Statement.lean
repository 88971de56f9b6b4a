import Mathlib.Data.List.SplitBy
import ShaderDefs.Definition.Read
import ShaderDefs.Proofs.Token.Spelling

/-! The statement lines of a source text. They are the lines that scan to any token at all, in their
order, and each is closed by its own line end. -/

set_option autoImplicit false

namespace ShaderDefs.Token

/-- Some tokens that stand for text, and then one line end. -/
def IsStatement (line : List Token) : Prop :=
  ∃ body finish, line = body ++ [finish] ∧ body ≠ [] ∧
    (∀ token ∈ body, token.kind.isEnd = false) ∧ finish.kind = .lineEnd

theorem isStatement_ofLine {number : Nat} {characters : List Char}
    (some : ofLine number characters ≠ []) : IsStatement (ofLine number characters) := by
  have tokens := scanLine_ne_nil_of_ofLine some
  exact ⟨_, _, ofLine_eq_append tokens, tokens, fun token member => isEnd_of_mem_scanLine member, rfl⟩

theorem spelled_of_mem_ofLine {number : Nat} {characters : List Char} {token : Token}
    (member : token ∈ ofLine number characters) : token.Spelled := by
  rcases mem_or_eq_of_mem_ofLine member with scanned | rfl
  · exact spelled_of_mem_scanLine scanned
  · exact rfl

theorem isChain_of_isEnd_eq_false {body : List Token} (finish : Token)
    (inner : ∀ token ∈ body, token.kind.isEnd = false) :
    (body ++ [finish]).IsChain fun token _ => decide (token.kind ≠ .lineEnd) = true := by
  induction body with
  | nil => exact .singleton _
  | cons token body ih =>
    rw [List.cons_append, List.isChain_cons]
    refine ⟨fun _ _ => ?_, ih fun other member => inner other (List.mem_cons_of_mem _ member)⟩
    have := inner token List.mem_cons_self
    cases kind : token.kind <;> simp_all [Kind.isEnd]

theorem groups_append {line : List Token} (statement : IsStatement line) (rest : List Token) :
    groups (line ++ rest) = line :: groups rest := by
  obtain ⟨body, finish, rfl, _, inner, closes⟩ := statement
  unfold groups
  rw [List.splitBy_append, List.splitBy_of_isChain (by simp) (isChain_of_isEnd_eq_false finish inner)]
  · rfl
  · intro token member
    rw [List.getLast?_concat] at member
    cases member
    simp [closes]

theorem groups_flatten {lines : List (List Token)} (statements : ∀ line ∈ lines, IsStatement line)
    (rest : List Token) : groups (lines.flatten ++ rest) = lines ++ groups rest := by
  induction lines with
  | nil => rfl
  | cons line lines ih =>
    rw [List.flatten_cons, List.append_assoc, groups_append (statements line List.mem_cons_self),
      ih fun other member => statements other (List.mem_cons_of_mem _ member), List.cons_append]

end ShaderDefs.Token

namespace ShaderDefs.Definition

theorem any_isEnd_of_isStatement {line : List Token} (statement : Token.IsStatement line) :
    line.any (!·.kind.isEnd) := by
  obtain ⟨body, finish, rfl, some, inner, _⟩ := statement
  obtain ⟨token, rest, rfl⟩ := List.exists_cons_of_ne_nil some
  simp [inner token List.mem_cons_self]

theorem statements_flatten {lines : List (List Token)}
    (closed : ∀ line ∈ lines, Token.IsStatement line) (ends : Option Token)
    (isEnd : ∀ finish ∈ ends, finish.kind = .inputEnd) :
    statements (lines.flatten ++ ends.toList) = lines := by
  have kept : lines.filter (·.any (!·.kind.isEnd)) = lines :=
    List.filter_eq_self.2 fun line member => any_isEnd_of_isStatement (closed line member)
  unfold statements
  rw [Token.groups_flatten closed, List.filter_append, kept]
  cases ends with
  | none => exact List.append_nil lines
  | some finish =>
    have last : Token.groups [finish] = [[finish]] := rfl
    simp [last, isEnd finish rfl, Token.Kind.isEnd]

theorem statements_ofText (source : String) :
    statements (Token.ofText source) =
      (((Text.lines source).zipIdx 1).map fun numbered =>
        Token.ofLine numbered.2 numbered.1).filter (!·.isEmpty) := by
  generalize given : ((Text.lines source).zipIdx 1).map (fun numbered =>
    Token.ofLine numbered.2 numbered.1) = lines
  have closed : ∀ line ∈ lines.filter (!·.isEmpty), Token.IsStatement line := by
    intro line member
    obtain ⟨member, some⟩ := List.mem_filter.1 member
    rw [← given] at member
    obtain ⟨numbered, _, rfl⟩ := List.mem_map.1 member
    exact Token.isStatement_ofLine (by simpa using some)
  -- A line without tokens leaves no trace in the token sequence.
  have same : Token.ofText source = Token.closeText (Text.lines source)
      (lines.filter (!·.isEmpty)).flatten := by
    rw [List.flatten_filter_not_isEmpty, ← given, ← List.flatMap_def]
    rfl
  rw [same]
  cases shape : (lines.filter (!·.isEmpty)).flatten with
  | nil =>
    have none : lines.filter (!·.isEmpty) = [] := by
      rw [List.flatten_eq_nil_iff] at shape
      refine List.eq_nil_iff_forall_not_mem.2 fun line member => ?_
      simpa [shape line member] using (List.mem_filter.1 member).2
    rw [none]
    rfl
  | cons token rest =>
    rw [Token.closeText, ← shape]
    · refine statements_flatten closed (some _) ?_
      rintro _ ⟨⟩
      rfl
    · exact nofun

theorem exists_ofLine_of_mem_statements {source : String} {line : List Token}
    (statement : line ∈ statements (Token.ofText source)) :
    ∃ number characters, line = Token.ofLine number characters ∧ line ≠ [] := by
  rw [statements_ofText, List.mem_filter] at statement
  obtain ⟨numbered, _, rfl⟩ := List.mem_map.1 statement.1
  exact ⟨numbered.2, numbered.1, rfl, by simpa using statement.2⟩

theorem isStatement_of_mem {source : String} {line : List Token}
    (statement : line ∈ statements (Token.ofText source)) : Token.IsStatement line := by
  obtain ⟨number, characters, rfl, some⟩ := exists_ofLine_of_mem_statements statement
  exact Token.isStatement_ofLine some

theorem spelled_of_mem {source : String} {line : List Token}
    (statement : line ∈ statements (Token.ofText source)) : ∀ token ∈ line, token.Spelled := by
  obtain ⟨number, characters, rfl, _⟩ := exists_ofLine_of_mem_statements statement
  exact fun token member => Token.spelled_of_mem_ofLine member

end ShaderDefs.Definition
