import RegisterCalc.Proofs.Grammar.Following
import RegisterCalc.Proofs.Token.Lexing
import RegisterCalc.Proofs.Tree.Positions
import RegisterCalc.Tree.SourceText

/-!
# The text of a tree is derived

The text of a tree is cut into the tokens of a derivation of that tree, whatever may follow the text
(`Expr.isSpelled_text`). The derivation is a call or a primary expression, so it may stand in every
place, and it is as deep as the text nests: a prefix operator and an assignment nest twice, once for
the brackets around them and once for what they hold (`Expr.renderedNesting`).

This holds of the trees whose numbers are finite and not negative and whose calls are of functions
(`Expr.isPlain`); every tree that is derived from the tokens of a text is one of them
(`Derivation.isPlain_tree`).
-/

namespace RegisterCalc

namespace Expr

/-- Whether the numbers of a tree are finite and not negative and its calls are of functions. -/
def isPlain : Expr → Bool
  | number value _ => Binary64.isFinite value && !Binary64.isNegative value
  | register _ _ => true
  | unary _ operand _ => operand.isPlain
  | binary _ left right _ => left.isPlain && right.isPlain
  | call name argument _ => (Function.ofName? name).isSome && argument.isPlain
  | assign _ value _ => value.isPlain

/-- A plain number is finite and not negative. -/
theorem isPlain_number (value : Float) (offset : Offset) : (number value offset).isPlain ↔
    Binary64.isFinite value ∧ Binary64.isNegative value = false := by
  simp [isPlain]

/-- A plain call is of a function. -/
theorem isPlain_call (name : String) (argument : Expr) (offset : Offset) :
    (call name argument offset).isPlain ↔
      (∃ function : Function, name = function.name) ∧ argument.isPlain := by
  simp only [isPlain, Bool.and_eq_true]
  refine and_congr_left fun _ => ⟨fun known => ?_, ?_⟩
  · obtain ⟨function, found⟩ := Option.isSome_iff_exists.1 known
    have named := List.find?_some (p := fun f : Function => decide (f.name = name)) found
    exact ⟨function, (of_decide_eq_true named).symm⟩
  · rintro ⟨function, rfl⟩
    rw [Function.ofName?_name]
    rfl

/-- How deep the text of a tree nests. -/
def renderedNesting : Expr → Nat
  | number _ _ | register _ _ => 0
  | unary _ operand _ => operand.renderedNesting + 2
  | binary _ left right _ => max left.renderedNesting right.renderedNesting + 1
  | call _ argument _ => argument.renderedNesting + 1
  | assign _ value _ => value.renderedNesting + 2

end Expr

/-! ## Calls in every place -/

namespace Derivation

/-- A call as an expression of the loosest of the given levels. -/
def asLadder (levels : List (List BinaryOp)) (inner : Derivation .call) :
    Derivation (.ladder levels) :=
  (unprefixed inner).climb levels

/-- A call as an assignment. -/
def asAssignment (inner : Derivation .call) : Derivation .assignment :=
  loosest (inner.asLadder BinaryOp.levels)

section
variable (inner : Derivation .call)

/-- A call as an assignment spells the same tokens. -/
@[simp] theorem tokens_asAssignment : inner.asAssignment.tokens = inner.tokens :=
  tokens_climb _ (unprefixed inner)

/-- A call as an assignment denotes the same tree. -/
@[simp] theorem tree_asAssignment : inner.asAssignment.tree = inner.tree :=
  tree_climb _ (unprefixed inner)

/-- A call as an assignment is as deep. -/
@[simp] theorem depth_asAssignment : inner.asAssignment.depth = inner.depth :=
  depth_climb _ (unprefixed inner)

end

/-- Between two calls every operator of the given levels makes an expression. -/
theorem exists_operation {levels : List (List BinaryOp)} {op : BinaryOp}
    (known : op ∈ levels.flatten) (left right : Derivation .call) (offset : Offset) :
    ∃ d : Derivation (.ladder levels),
      d.tokens = left.tokens ++ ⟨.symbol op.symbol, offset⟩ :: right.tokens ∧
      d.tree = .binary op left.tree right.tree offset ∧ d.depth = max left.depth right.depth := by
  induction levels with
  | nil => cases known
  | cons level levels ih =>
    by_cases ofLevel : op ∈ level
    · refine ⟨operation (left.asLadder _) op ofLevel offset (right.asLadder _), ?_, ?_, ?_⟩
      · exact congrArg₂ (· ++ ⟨.symbol op.symbol, offset⟩ :: ·)
          (tokens_climb levels (unprefixed left)) (tokens_climb levels (unprefixed right))
      · exact congrArg₂ (Expr.binary op · · offset)
          (tree_climb levels (unprefixed left)) (tree_climb levels (unprefixed right))
      · exact congrArg₂ max
          (depth_climb levels (unprefixed left)) (depth_climb levels (unprefixed right))
    · obtain ⟨d, spelled, denoted, depth⟩ := ih ((List.mem_append.1 known).resolve_left ofLevel)
      exact ⟨tighter d, spelled, denoted, depth⟩

end Derivation

/-! ## What a text starts with and what follows it -/

/-- What may follow the text of a tree in a text: nothing, a space or a closing bracket. -/
def Bounded (cs : List Char) : Prop := ∀ c ∈ cs.head?, c = ' ' ∨ c = ')'

namespace Bounded

variable {cs : List Char}

/-- What may follow is no second character of an operator. -/
theorem joins (h : Bounded cs) : ∀ c ∈ cs.head?, RegisterCalc.joins c = false := by
  intro c mem
  rcases h c mem with rfl | rfl <;> rfl

/-- What may follow is not numeric. -/
theorem isNumeric (h : Bounded cs) : ∀ c ∈ cs.head?, RegisterCalc.isNumeric c = false := by
  intro c mem
  rcases h c mem with rfl | rfl <;> rfl

/-- What may follow is no digit. -/
theorem isDigit (h : Bounded cs) : ∀ c ∈ cs.head?, c.isDigit = false := by
  intro c mem
  rcases h c mem with rfl | rfl <;> rfl

/-- A space may follow. -/
theorem space (cs : List Char) : Bounded (' ' :: cs) := by
  intro c mem
  exact .inl (Option.some.inj mem).symm

/-- A closing bracket may follow. -/
theorem paren (cs : List Char) : Bounded (')' :: cs) := by
  intro c mem
  exact .inr (Option.some.inj mem).symm

end Bounded

namespace Expr

attribute [local simp] text

/-- A number that is finite and not negative is written as a numeral. -/
theorem literalText_of_finite {x : Float} (finite : Binary64.isFinite x)
    (positive : Binary64.isNegative x = false) : literalText x = numberText x := by
  have below : Binary64.point x < Binary64.infinity := of_decide_eq_true finite
  unfold literalText
  dsimp only
  rw [if_neg (by omega), if_neg below.ne, positive, if_neg Bool.false_ne_true]

/-- The text of a tree starts with no second character of an operator. -/
theorem joins_head_text {t : Expr} (plain : t.isPlain) (cs : List Char) :
    ∀ c ∈ (t.text.toList ++ cs).head?, joins c = false := by
  suffices starts : ∃ c, (t.text.toList ++ cs).head? = some c ∧ joins c = false by
    obtain ⟨c, first, notJoined⟩ := starts
    rw [first]
    intro c' mem
    cases mem
    exact notJoined
  cases t with
  | number value position =>
    obtain ⟨finite, positive⟩ := (isPlain_number value position).1 plain
    obtain ⟨c, more, spelled, numeric, -⟩ := toList_numberText finite positive
    refine ⟨c, ?_, joins_of_isNumeric numeric⟩
    rw [text, literalText_of_finite finite positive, spelled]
    rfl
  | register id position => exact ⟨'#', by simp [RegisterId.text], rfl⟩
  | unary | binary | assign => exact ⟨'(', by simp, rfl⟩
  | call name argument position =>
    obtain ⟨⟨function, rfl⟩, -⟩ := (isPlain_call name argument position).1 plain
    cases function with
    | sin => exact ⟨'s', by simp [Function.name], rfl⟩
    | cos => exact ⟨'c', by simp [Function.name], rfl⟩
    | exp => exact ⟨'e', by simp [Function.name], rfl⟩

/-- The text of a tree, before what may follow it, is cut into the tokens of a derivation of the
tree that is as deep as the text nests. -/
def IsSpelled (t : Expr) : Prop :=
  ∀ offset cs, Bounded cs → ∃ (d : Derivation .call) (offset' : Offset),
    Lexes offset (t.text.toList ++ cs) d.tokens offset' cs ∧
      d.tree.bare = t.bare ∧ d.depth = t.renderedNesting

namespace IsSpelled

/-- A number is spelled. -/
theorem number {x : Float} (finite : Binary64.isFinite x)
    (positive : Binary64.isNegative x = false) (position : Offset) :
    (number x position).IsSpelled := by
  intro offset cs bounded
  have cut := Lexes.number finite positive offset bounded.isNumeric
  rw [text, literalText_of_finite finite positive]
  exact ⟨.uncalled (.number (some (numberText x)) x offset), _, cut, rfl, rfl⟩

/-- A register is spelled. -/
theorem register (id : RegisterId) (position : Offset) : (register id position).IsSpelled := by
  intro offset cs bounded
  obtain ⟨offset', cut⟩ := Lexes.register id offset bounded.isDigit
  exact ⟨.uncalled (.register _ id id.ofText?_repr offset), offset', cut, rfl, rfl⟩

/-- A prefix operator is spelled before its operand. -/
theorem unary {operand : Expr} (ih : operand.IsSpelled) (plain : operand.isPlain) (op : PrefixOp)
    (position : Offset) : (unary op operand position).IsSpelled := by
  intro offset cs bounded
  have sign := Lexes.symbol op.symbol (offset + 1) (operand.joins_head_text plain (')' :: cs))
  obtain ⟨d, offset', cut, denoted, depth⟩ :=
    ih (offset + 1 + op.text.toList.length) (')' :: cs) (.paren cs)
  let inner := (Derivation.prefixed op (offset + 1) (.unprefixed d)).climb BinaryOp.levels
  refine ⟨.uncalled (.group offset (.loosest inner) offset'), offset' + 1, ?_, ?_, ?_⟩
  · have text : (Expr.unary op operand position).text.toList ++ cs =
        '(' :: (op.text.toList ++ operand.text.toList ++ ')' :: cs) := by simp
    have spelled : inner.tokens = ⟨.symbol op.symbol, offset + 1⟩ :: d.tokens :=
      Derivation.tokens_climb _ _
    rw [text]
    simp only [Derivation.tokens, spelled]
    refine .enclosed ?_
    rw [List.append_assoc]
    exact sign.trans cut
  · show inner.tree.bare = _
    rw [Derivation.tree_climb]
    exact congrArg (Expr.unary op · 0) denoted
  · show inner.depth + 1 = _
    rw [Derivation.depth_climb]
    exact congrArg (· + 2) depth

/-- A binary operator is spelled between its operands. -/
theorem binary {left right : Expr} (ihl : left.IsSpelled) (ihr : right.IsSpelled) (op : BinaryOp)
    (position : Offset) : (binary op left right position).IsSpelled := by
  intro offset cs bounded
  obtain ⟨dl, offset₁, cutLeft, denotedLeft, depthLeft⟩ :=
    ihl (offset + 1) (' ' :: (op.text.toList ++ ' ' :: (right.text.toList ++ ')' :: cs))) (.space _)
  have sign := Lexes.symbol op.symbol (offset₁ + 1)
    (Bounded.space (right.text.toList ++ ')' :: cs)).joins
  obtain ⟨dr, offset₂, cutRight, denotedRight, depthRight⟩ :=
    ihr (offset₁ + 1 + op.text.toList.length + 1) (')' :: cs) (.paren cs)
  obtain ⟨inner, spelled, denoted, depth⟩ :=
    Derivation.exists_operation op.mem_levels dl dr (offset₁ + 1)
  refine ⟨.uncalled (.group offset (.loosest inner) offset₂), offset₂ + 1, ?_, ?_, ?_⟩
  · have text : (Expr.binary op left right position).text.toList ++ cs =
        '(' :: (left.text.toList ++ ' ' :: (op.text.toList ++ ' ' :: right.text.toList) ++
          ')' :: cs) := by simp
    rw [text]
    simp only [Derivation.tokens, spelled]
    refine .enclosed ?_
    have inside := cutLeft.trans ((Lexes.space offset₁ _).trans
      (sign.trans ((Lexes.space _ _).trans cutRight)))
    simpa using inside
  · show inner.tree.bare = _
    rw [denoted]
    exact congrArg₂ (Expr.binary op · · 0) denotedLeft denotedRight
  · show inner.depth + 1 = _
    rw [depth, depthLeft, depthRight]
    rfl

/-- A call is spelled as the name of a function and its argument. -/
theorem call {argument : Expr} (ih : argument.IsSpelled) (function : Function)
    (position : Offset) : (call function.name argument position).IsSpelled := by
  intro offset cs bounded
  have beforeParen : ∀ c ∈ ('(' :: (argument.text.toList ++ ')' :: cs)).head?,
      c.isAlpha = false := by
    intro c mem
    cases mem
    rfl
  obtain ⟨opened, name⟩ := Lexes.name function offset beforeParen
  obtain ⟨d, closed, cut, denoted, depth⟩ := ih (opened + 1) (')' :: cs) (.paren cs)
  refine ⟨.call function offset opened d.asAssignment closed, closed + 1, ?_, ?_, ?_⟩
  · have text : (Expr.call function.name argument position).text.toList ++ cs =
        function.name.toList ++ '(' :: (argument.text.toList ++ ')' :: cs) := by simp
    rw [text, Derivation.tokens, Derivation.tokens_asAssignment]
    exact name.trans (.enclosed cut)
  · show (Expr.call function.name d.asAssignment.tree offset).bare = _
    rw [Derivation.tree_asAssignment]
    exact congrArg (Expr.call function.name · 0) denoted
  · show d.asAssignment.depth + 1 = _
    rw [Derivation.depth_asAssignment]
    exact congrArg (· + 1) depth

/-- An assignment is spelled as its target and its value. -/
theorem assign {value : Expr} (ih : value.IsSpelled) (target : RegisterId) (position : Offset) :
    (assign target value position).IsSpelled := by
  intro offset cs bounded
  obtain ⟨offset₁, register⟩ := Lexes.register target (offset + 1)
    (Bounded.space ('=' :: ' ' :: (value.text.toList ++ ')' :: cs))).isDigit
  have sign := Lexes.symbol .assign (offset₁ + 1)
    (Bounded.space (value.text.toList ++ ')' :: cs)).joins
  obtain ⟨d, offset₂, cut, denoted, depth⟩ := ih (offset₁ + 1 + 1 + 1) (')' :: cs) (.paren cs)
  refine ⟨.uncalled (.group offset (.assign _ target target.ofText?_repr (offset + 1) (offset₁ + 1)
    d.asAssignment) offset₂), offset₂ + 1, ?_, ?_, ?_⟩
  · have text : (Expr.assign target value position).text.toList ++ cs =
        '(' :: (target.text.toList ++ ' ' :: '=' :: ' ' :: value.text.toList ++ ')' :: cs) := by
      simp
    rw [text]
    simp only [Derivation.tokens, Derivation.tokens_asAssignment]
    refine .enclosed ?_
    have inside := register.trans ((Lexes.space offset₁ _).trans
      (sign.trans ((Lexes.space _ _).trans cut)))
    simpa using inside
  · show (Expr.assign target d.asAssignment.tree (offset₁ + 1)).bare = _
    rw [Derivation.tree_asAssignment]
    exact congrArg (Expr.assign target · 0) denoted
  · show d.asAssignment.depth + 2 = _
    rw [Derivation.depth_asAssignment]
    exact congrArg (· + 2) depth

end IsSpelled

/-- The text of every plain tree is spelled. -/
theorem isSpelled_text {t : Expr} (plain : t.isPlain) : t.IsSpelled := by
  induction t with
  | number value position =>
    obtain ⟨finite, positive⟩ := (isPlain_number value position).1 plain
    exact .number finite positive position
  | register id position => exact .register id position
  | unary op operand position ih => exact (ih plain).unary plain op position
  | binary op left right position ihl ihr =>
    obtain ⟨plainLeft, plainRight⟩ := Bool.and_eq_true_iff.1 plain
    exact (ihl plainLeft).binary (ihr plainRight) op position
  | call name argument position ih =>
    obtain ⟨⟨function, rfl⟩, plainArgument⟩ := (isPlain_call name argument position).1 plain
    exact (ih plainArgument).call function position
  | assign target value position ih => exact (ih plain).assign target position

end Expr

/-! ## Trees of texts -/

/-- A tree that is derived from lexemes of a text is plain. -/
theorem Derivation.isPlain_tree {c : Category} (d : Derivation c)
    (ofText : ∀ token ∈ d.tokens, token.lexeme.IsOfText) : d.tree.isPlain := by
  induction d with
  | assign digits target named targetOffset signOffset value ih =>
    exact ih (List.forall_mem_cons.1 (List.forall_mem_cons.1 ofText).2).2
  | operation left op ofLevel offset right ihl ihr =>
    obtain ⟨ofLeft, ofRight⟩ := List.forall_mem_append.1 ofText
    exact Bool.and_eq_true_iff.2 ⟨ihl ofLeft, ihr (List.forall_mem_cons.1 ofRight).2⟩
  | prefixed op offset inner ih => exact ih (List.forall_mem_cons.1 ofText).2
  | call function nameOffset openOffset argument closeOffset ih =>
    have inside := (List.forall_mem_cons.1 (List.forall_mem_cons.1 ofText).2).2
    exact (Expr.isPlain_call _ _ nameOffset).2
      ⟨⟨function, rfl⟩, ih (List.forall_mem_append.1 inside).1⟩
  | number text value offset =>
    obtain ⟨x, same, plain⟩ := ofText _ (List.mem_singleton_self _)
    obtain rfl := Option.some.inj same
    exact (Expr.isPlain_number value offset).2 plain
  | register digits id named offset => rfl
  | group openOffset inner closeOffset ih =>
    exact ih (List.forall_mem_append.1 (List.forall_mem_cons.1 ofText).2).1
  | loosest inner ih | tighter inner ih | operand inner ih | unprefixed inner ih
  | uncalled inner ih => exact ih ofText

end RegisterCalc
