import ShaderDefs.Proofs.Infix.Grammar
import ShaderDefs.Proofs.Token.Spelling

/-! What is read is derived. Whenever an expression is read, the tokens used up derive its tree, and
the tree and the parentheses are within the limits. -/

set_option autoImplicit false

namespace ShaderDefs.Infix

def Derived (room : Nat) (level : Level) (input : List Token) (expr : Expr) (rest : List Token) :
    Prop :=
  ∃ tokens nesting, input = tokens ++ rest ∧ Derives level tokens expr nesting ∧
    Fits room expr nesting

def Sound (room : Nat) (level : Level) (reader : Reader Token Expr) : Prop :=
  ∀ ⦃input : List Token⦄ ⦃reading : Reading Token Expr input.length⦄,
    (∀ token ∈ input, token.Spelled) → reader input = .ok reading →
      Derived room level input reading.value reading.rest

variable {finish : Position} {room bound : Nat} {reader : Reader Token Expr}

theorem limitDepth_eq_ok {reading limited : Reading Token Expr bound}
    (read : limitDepth finish reading = .ok limited) :
    limited = reading ∧ reading.value.depth ≤ maxDepth := by
  unfold limitDepth at read
  split at read
  next shallow =>
    cases read
    exact ⟨rfl, shallow⟩
  next => cases read

theorem expect_eq_ok {kind : Token.Kind} {input : List Token} {reading : Reading Token Token input.length}
    (read : expect finish kind input = .ok reading) :
    input = reading.value :: reading.rest ∧ reading.value.kind = kind := by
  cases input with
  | nil => cases read
  | cons token rest =>
    by_cases same : token.kind = kind
    · rw [expect, if_pos same] at read
      cases read
      exact ⟨rfl, same⟩
    · rw [expect, if_neg same] at read
      cases read

theorem operatorAt?_eq_some_iff {precedence : Nat} {token : Token} {operator : Operator} :
    operatorAt? precedence token = some operator ↔
      token.kind = .operator operator ∧ operator.precedence = precedence := by
  unfold operatorAt?
  split
  next other kind =>
    rw [kind]
    by_cases same : other.precedence = precedence
    · simp only [if_pos same, Option.some.injEq, Token.Kind.operator.injEq]
      exact ⟨fun equal => ⟨equal, equal ▸ same⟩, And.left⟩
    · simp only [if_neg same, Token.Kind.operator.injEq]
      exact ⟨nofun, fun ⟨equal, bound⟩ => absurd (equal ▸ bound) same⟩
  next other => exact ⟨nofun, fun ⟨kind, _⟩ => absurd kind (other operator)⟩

theorem derived_chain {lower upper : Level} {precedence : Nat} (operand : Sound room lower reader)
    (rule : ∀ {head tokens : List Token} {token : Token} {operator : Operator} {left right : Expr}
      {first last : Nat}, operator.precedence = precedence → token.kind = .operator operator →
      Derives upper head left first → Derives lower tokens right last →
      Derives upper (head ++ token :: tokens) (.binary operator left right) (max first last))
    {head input : List Token} {left : Expr} {nesting : Nat} {within : input.length < bound}
    {reading : Reading Token Expr bound} (spelled : ∀ token ∈ input, token.Spelled)
    (derives : Derives upper head left nesting) (fits : Fits room left nesting)
    (read : chain finish precedence reader left input within = .ok reading) :
    Derived room upper (head ++ input) reading.value reading.rest := by
  -- The tokens in front derive the tree on the left, at every turn of the loop.
  fun_induction chain finish precedence reader left input within generalizing head nesting with
  | case1 left within =>
    cases read
    exact ⟨head, nesting, rfl, derives, fits⟩
  | case2 left token rest within operator =>
    cases read
    exact ⟨head, nesting, rfl, derives, fits⟩
  | case3 => cases read
  | case4 => cases read
  | case5 left token rest within operator isOperator right readRight joined limit _ ih =>
    obtain ⟨rfl, shallow⟩ := limitDepth_eq_ok limit
    obtain ⟨kind, precedes⟩ := operatorAt?_eq_some_iff.1 isOperator
    obtain ⟨tokens, last, same, derivesRight, fitsRight⟩ :=
      operand (fun token member => spelled token (List.mem_cons_of_mem _ member)) readRight
    have continued := ih
      (fun token member => spelled token (by rw [same]; simp [member]))
      (rule precedes kind derives derivesRight)
      (fits_binary_iff.2 ⟨⟨fits, fitsRight⟩, shallow⟩) read
    rwa [List.append_assoc, List.cons_append, ← same] at continued

theorem Sound.level {lower upper : Level} {precedence : Nat} (operand : Sound room lower reader)
    (start : ∀ {tokens expr nesting}, Derives lower tokens expr nesting →
      Derives upper tokens expr nesting)
    (rule : ∀ {head tokens : List Token} {token : Token} {operator : Operator} {left right : Expr}
      {first last : Nat}, operator.precedence = precedence → token.kind = .operator operator →
      Derives upper head left first → Derives lower tokens right last →
      Derives upper (head ++ token :: tokens) (.binary operator left right) (max first last)) :
    Sound room upper (Infix.level finish precedence reader) := by
  intro input reading spelled read
  unfold Infix.level at read
  cases readFirst : reader input with
  | error fault => simp [readFirst] at read
  | ok first =>
    simp only [readFirst] at read
    obtain ⟨tokens, nesting, same, derives, fits⟩ := operand spelled readFirst
    have chained := derived_chain operand rule
      (fun token member => spelled token (by rw [same]; exact List.mem_append_right _ member))
      (start derives) fits read
    rwa [← same] at chained

theorem multiplies_of_precedence {operator : Operator} (tight : operator.precedence = 2) :
    operator = .multiply ∨ operator = .divide := by
  cases operator <;> simp_all [Operator.precedence]

theorem adds_of_precedence {operator : Operator} (loose : operator.precedence = 1) :
    operator = .add ∨ operator = .subtract := by
  cases operator <;> simp_all [Operator.precedence]

theorem Sound.product (operand : Sound room .application reader) :
    Sound room .product (Infix.level finish 2 reader) := by
  apply operand.level .factor
  intro head tokens token operator left right first last precedes kind derives next
  exact .multiply derives kind (multiplies_of_precedence precedes) next

theorem Sound.sum (operand : Sound room .product reader) :
    Sound room .sum (Infix.level finish 1 reader) := by
  apply operand.level .term
  intro head tokens token operator left right first last precedes kind derives next
  exact .add derives kind (adds_of_precedence precedes) next

def Applies (tokens : List Token) (callee : Expr) (arguments : List Expr) (nesting : Nat) : Prop :=
  match arguments with
  | [] => Derives .atom tokens callee nesting
  | _ :: _ => Derives .run tokens (.application callee arguments) nesting

theorem Applies.extend {head tokens : List Token} {callee argument : Expr} {arguments : List Expr}
    {first last : Nat} (applies : Applies head callee arguments first)
    (next : Derives .atom tokens argument last) :
    Applies (head ++ tokens) callee (arguments ++ [argument]) (max first last) := by
  cases arguments with
  | nil => exact Derives.apply applies next
  | cons first others => exact Derives.extend applies next

theorem Applies.derives {tokens : List Token} {callee : Expr} {arguments : List Expr} {nesting : Nat}
    (applies : Applies tokens callee arguments nesting) (some : arguments ≠ []) :
    Derives .run tokens (.application callee arguments) nesting := by
  cases arguments with
  | nil => exact absurd rfl some
  | cons first others => exact applies

theorem derived_run (operand : Sound room .atom reader) {head input : List Token} {callee : Expr}
    {taken : List Expr} {nesting : Nat} {within : input.length < bound}
    {reading : Reading Token (List Expr) bound} (spelled : ∀ token ∈ input, token.Spelled)
    (applies : Applies head callee taken.reverse nesting) (enough : nesting ≤ room)
    (read : run reader taken input within = .ok reading) :
    ∃ tokens nesting, head ++ input = tokens ++ reading.rest ∧
      Applies tokens callee reading.value nesting ∧ nesting ≤ room := by
  -- The tokens in front derive the callee applied to what is taken.
  fun_induction run reader taken input within generalizing head nesting with
  | case1 => cases read
  | case2 taken input within starts next readNext ih =>
    obtain ⟨tokens, last, same, derives, fits⟩ := operand spelled readNext
    have continued := ih
      (fun token member => spelled token (by rw [same]; exact List.mem_append_right _ member))
      (by rw [List.reverse_cons]; exact applies.extend derives)
      (Nat.max_le.2 ⟨enough, fits.1⟩) read
    rwa [List.append_assoc, ← same] at continued
  | case3 taken input within =>
    cases read
    exact ⟨head, nesting, rfl, applies, enough⟩

theorem Sound.application (operand : Sound room .atom reader) :
    Sound room .application (Infix.application finish reader) := by
  intro input reading spelled read
  unfold Infix.application at read
  cases readCallee : reader input with
  | error fault => simp [readCallee] at read
  | ok callee =>
    simp only [readCallee] at read
    obtain ⟨head, first, same, derives, fits⟩ := operand spelled readCallee
    cases readArguments : run reader [] callee.rest callee.shorter with
    | error fault => simp [readArguments] at read
    | ok arguments =>
      simp only [readArguments] at read
      have applied : Applies head callee.value ([] : List Expr).reverse first := derives
      obtain ⟨tokens, nesting, used, applies, enough⟩ := derived_run operand
        (fun token member => spelled token (by rw [same]; exact List.mem_append_right _ member))
        applied fits.1 readArguments
      rw [← same] at used
      split at read
      next =>
        cases read
        exact ⟨head, first, same, .lone derives, fits⟩
      next some =>
        obtain ⟨rfl, shallow⟩ := limitDepth_eq_ok read
        have derivesRun := applies.derives fun none => some (List.isEmpty_iff.2 none)
        exact ⟨tokens, nesting, used, .run derivesRun, enough, shallow⟩

theorem derived_leaf {token : Token} {leaf : Expr} {rest : List Token}
    (derives : Derives .atom [token] leaf 0) (flat : leaf.depth = 1) :
    Derived room .atom (token :: rest) leaf rest :=
  ⟨[token], 0, rfl, derives, fits_leaf room flat⟩

theorem derived_parentheses {opening : Token} {inner : Reader Token Expr} {rest : List Token}
    {reading : Reading Token Expr (opening :: rest).length} (opens : opening.kind = .opening)
    (sound : Sound room .sum inner) (spelled : ∀ token ∈ rest, token.Spelled)
    (read : atom finish (some inner) (opening :: rest) = .ok reading) :
    Derived (room + 1) .atom (opening :: rest) reading.value reading.rest := by
  simp only [atom, opens] at read
  cases readInner : inner rest with
  | error fault => simp [readInner] at read
  | ok expr =>
    simp only [readInner] at read
    cases readClosing : expect finish .closing expr.rest with
    | error fault => simp [readClosing] at read
    | ok closing =>
      simp only [readClosing] at read
      cases read
      obtain ⟨tokens, nesting, same, derives, fits⟩ := sound spelled readInner
      obtain ⟨used, closes⟩ := expect_eq_ok readClosing
      refine ⟨_, nesting + 1, ?_, .parentheses opens closes derives, fits_parentheses_iff.2 fits⟩
      have shape : rest = tokens ++ closing.value :: closing.rest :=
        same.trans (congrArg (tokens ++ ·) used)
      exact (congrArg (opening :: ·) shape).trans (by simp)

theorem Sound.atom {inside : Option (Reader Token Expr)}
    (sound : ∀ inner ∈ inside, ∃ less, room = less + 1 ∧ Sound less .sum inner) :
    Sound room .atom (Infix.atom finish inside) := by
  intro input reading spelled read
  cases input with
  | nil => cases read
  | cons token rest =>
    cases kind : token.kind with
    | identifier =>
      simp only [Infix.atom, kind] at read
      cases read
      exact derived_leaf (.name kind) rfl
    | integer =>
      have digits : Text.IsDigits token.text.toList := by
        simpa [Token.Spelled, kind] using spelled token List.mem_cons_self
      simp only [Infix.atom, kind] at read
      cases value : Text.Integer.read? token.text with
      | none => simp [value] at read
      | some value' =>
        simp only [value] at read
        cases read
        exact derived_leaf (.integer kind ((Text.Integer.read?_eq_some_iff_numeral digits _).1 value)) rfl
    | opening =>
      cases inside with
      | none => simp [Infix.atom, kind] at read
      | some inner =>
        obtain ⟨less, rfl, soundInner⟩ := sound inner rfl
        exact derived_parentheses kind soundInner
          (fun token member => spelled token (List.mem_cons_of_mem _ member)) read
    | _ => simp [Infix.atom, kind] at read

/-- An expression that is read is derived by the tokens used up. -/
theorem sound_expression (finish : Position) (room : Nat) : Sound room .sum (expression finish room) := by
  induction room with
  | zero =>
    have sound : Sound 0 .atom (atom finish none) := Sound.atom (fun _ member => nomatch member)
    exact sound.application.product.sum
  | succ room ih =>
    have sound : Sound (room + 1) .atom (atom finish (some (expression finish room))) := by
      apply Sound.atom
      rintro inner ⟨⟩
      exact ⟨room, rfl, ih⟩
    exact sound.application.product.sum

end ShaderDefs.Infix
