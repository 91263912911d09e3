import RegisterCalc.Tree.Basic
import RegisterCalc.Tree.Function

/-!
# The grammar of statements

The grammar that statements are written in, as a type of derivations:

* an assignment is `#n = assignment`, or an expression of the loosest level;
* an expression of a level is one of that level, an operator of the level and an expression of the
  next tighter level, or an expression of the next tighter level; so operators group to the left;
* below the tightest level, an operand is a prefix operator before an operand, or a call;
* a call is the name of a function before an assignment in brackets, or a primary expression;
* a primary expression is a number, a register or an assignment in brackets.

A derivation spells a list of tokens (`Derivation.tokens`) and denotes a tree (`Derivation.tree`),
in which brackets leave no node. Its depth (`Derivation.depth`) counts how deep prefix operands,
brackets, arguments and assigned values are nested in each other.
-/

namespace RegisterCalc

/-- The categories of the grammar. The levels of a `ladder` are those of its binary operators, the
loosest first. -/
inductive Category where
  | assignment
  | ladder (levels : List (List BinaryOp))
  | unary
  | call
  | primary

/-- The derivations of a category, each with the positions of its tokens. -/
inductive Derivation : Category → Type where
  | assign (digits : String) (target : RegisterId)
      (named : RegisterId.ofText? digits = some target) (targetOffset signOffset : Offset)
      (value : Derivation .assignment) : Derivation .assignment
  | loosest (inner : Derivation (.ladder BinaryOp.levels)) : Derivation .assignment
  | operation {level : List BinaryOp} {levels : List (List BinaryOp)}
      (left : Derivation (.ladder (level :: levels))) (op : BinaryOp) (ofLevel : op ∈ level)
      (offset : Offset) (right : Derivation (.ladder levels)) :
      Derivation (.ladder (level :: levels))
  | tighter {level : List BinaryOp} {levels : List (List BinaryOp)}
      (inner : Derivation (.ladder levels)) : Derivation (.ladder (level :: levels))
  | operand (inner : Derivation .unary) : Derivation (.ladder [])
  | prefixed (op : PrefixOp) (offset : Offset) (inner : Derivation .unary) : Derivation .unary
  | unprefixed (inner : Derivation .call) : Derivation .unary
  | call (function : Function) (nameOffset openOffset : Offset)
      (argument : Derivation .assignment) (closeOffset : Offset) : Derivation .call
  | uncalled (inner : Derivation .primary) : Derivation .call
  | number (text : Option String) (value : Float) (offset : Offset) : Derivation .primary
  | register (digits : String) (id : RegisterId) (named : RegisterId.ofText? digits = some id)
      (offset : Offset) : Derivation .primary
  | group (openOffset : Offset) (inner : Derivation .assignment) (closeOffset : Offset) :
      Derivation .primary

namespace Derivation

variable {c : Category}

/-- The tokens that a derivation spells. -/
def tokens : {c : Category} → Derivation c → List Token
  | _, assign digits _ _ targetOffset signOffset value =>
    ⟨.register (some digits), targetOffset⟩ :: ⟨.symbol .assign, signOffset⟩ :: value.tokens
  | _, operation left op _ offset right =>
    left.tokens ++ ⟨.symbol op.symbol, offset⟩ :: right.tokens
  | _, prefixed op offset inner => ⟨.symbol op.symbol, offset⟩ :: inner.tokens
  | _, call function nameOffset openOffset argument closeOffset =>
    ⟨.name (some function.name), nameOffset⟩ :: ⟨.symbol .leftParen, openOffset⟩ ::
      (argument.tokens ++ [⟨.symbol .rightParen, closeOffset⟩])
  | _, number text value offset => [⟨.number text (some value), offset⟩]
  | _, register digits _ _ offset => [⟨.register (some digits), offset⟩]
  | _, group openOffset inner closeOffset =>
    ⟨.symbol .leftParen, openOffset⟩ :: (inner.tokens ++ [⟨.symbol .rightParen, closeOffset⟩])
  | _, loosest inner | _, tighter inner | _, operand inner | _, unprefixed inner
  | _, uncalled inner => inner.tokens

/-- The tree that a derivation denotes. -/
def tree : {c : Category} → Derivation c → Expr
  | _, assign _ target _ _ signOffset value => .assign target value.tree signOffset
  | _, operation left op _ offset right => .binary op left.tree right.tree offset
  | _, prefixed op offset inner => .unary op inner.tree offset
  | _, call function nameOffset _ argument _ => .call function.name argument.tree nameOffset
  | _, number _ value offset => .number value offset
  | _, register _ id _ offset => .register id offset
  | _, group _ inner _ | _, loosest inner | _, tighter inner | _, operand inner
  | _, unprefixed inner | _, uncalled inner => inner.tree

/-- How deep prefix operands, brackets, arguments and assigned values are nested. -/
def depth : {c : Category} → Derivation c → Nat
  | _, operation left _ _ _ right => max left.depth right.depth
  | _, number .. | _, register .. => 0
  | _, assign _ _ _ _ _ inner | _, prefixed _ _ inner | _, call _ _ _ inner _
  | _, group _ inner _ => inner.depth + 1
  | _, loosest inner | _, tighter inner | _, operand inner | _, unprefixed inner
  | _, uncalled inner => inner.depth

/-! ## Operands in every place -/

/-- An operand as an expression of the loosest of the given levels. -/
def climb : (levels : List (List BinaryOp)) → Derivation .unary → Derivation (.ladder levels)
  | [], inner => operand inner
  | _ :: levels, inner => tighter (inner.climb levels)

section
variable (levels : List (List BinaryOp))

/-- An operand spells the same tokens at every level. -/
@[simp] theorem tokens_climb (inner : Derivation .unary) :
    (inner.climb levels).tokens = inner.tokens := by
  induction levels with
  | nil => rfl
  | cons level levels ih => exact ih

/-- An operand denotes the same tree at every level. -/
@[simp] theorem tree_climb (inner : Derivation .unary) :
    (inner.climb levels).tree = inner.tree := by
  induction levels with
  | nil => rfl
  | cons level levels ih => exact ih

/-- An operand is as deep at every level. -/
@[simp] theorem depth_climb (inner : Derivation .unary) :
    (inner.climb levels).depth = inner.depth := by
  induction levels with
  | nil => rfl
  | cons level levels ih => exact ih

end

/-! ## The first tokens -/

/-- A primary expression begins with neither a name nor a prefix operator. -/
theorem tokens_primary (d : Derivation .primary) : ∃ token more, d.tokens = token :: more ∧
    (∀ letters, token.lexeme ≠ .name letters) ∧
    token.symbol?.bind PrefixOp.ofSymbol? = none := by
  cases d with
  | number text value offset => exact ⟨_, _, rfl, nofun, rfl⟩
  | register digits id named offset => exact ⟨_, _, rfl, nofun, rfl⟩
  | group openOffset inner closeOffset => exact ⟨_, _, rfl, nofun, rfl⟩

/-- A call begins with no prefix operator. -/
theorem tokens_call (d : Derivation .call) : ∃ token more, d.tokens = token :: more ∧
    token.symbol?.bind PrefixOp.ofSymbol? = none := by
  cases d with
  | call function nameOffset openOffset argument closeOffset => exact ⟨_, _, rfl, rfl⟩
  | uncalled inner =>
    obtain ⟨token, more, tokens, -, notPrefix⟩ := inner.tokens_primary
    exact ⟨token, more, tokens, notPrefix⟩

/-- The end of the input is no token of a derivation. -/
theorem isEnd_tokens (d : Derivation c) : ∀ token ∈ d.tokens, token.isEnd = false := by
  induction d with
  | assign digits target named targetOffset signOffset value ih =>
    exact List.forall_mem_cons.2 ⟨rfl, List.forall_mem_cons.2 ⟨rfl, ih⟩⟩
  | operation left op ofLevel offset right ihl ihr =>
    exact List.forall_mem_append.2 ⟨ihl, List.forall_mem_cons.2 ⟨rfl, ihr⟩⟩
  | prefixed op offset inner ih => exact List.forall_mem_cons.2 ⟨rfl, ih⟩
  | call function nameOffset openOffset argument closeOffset ih =>
    exact List.forall_mem_cons.2 ⟨rfl, List.forall_mem_cons.2 ⟨rfl,
      List.forall_mem_append.2 ⟨ih, List.forall_mem_singleton.2 rfl⟩⟩⟩
  | group openOffset inner closeOffset ih =>
    exact List.forall_mem_cons.2 ⟨rfl,
      List.forall_mem_append.2 ⟨ih, List.forall_mem_singleton.2 rfl⟩⟩
  | number text value offset | register digits id named offset =>
    exact List.forall_mem_singleton.2 rfl
  | loosest inner ih | tighter inner ih | operand inner ih | unprefixed inner ih
  | uncalled inner ih => exact ih

end Derivation

end RegisterCalc
