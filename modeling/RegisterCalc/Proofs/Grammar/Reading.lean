import RegisterCalc.Proofs.Grammar.Following
import RegisterCalc.Tree.Nesting

/-!
# What readers do

A reading carries a proof that it left fewer tokens. Here that proof is put aside: `Reader.run` is
the tree that a reader takes and the tokens that it leaves. For each reader there is an equation for
each form of its tokens, and one lemma that says all that can have happened where it succeeded, so
no other proof opens the readers.
-/

namespace RegisterCalc

/-- A tree and the tokens that are left, or a fault. -/
abbrev Outcome := Except SyntaxFault (Expr × List Token)

/-- A reading without the proof that it left fewer tokens. -/
def Reading.plain {tokens : List Token} (reading : Reading tokens) : Expr × List Token :=
  (reading.tree, reading.rest)

/-- A token that is a symbol is that symbol at its position. -/
theorem Token.eq_of_symbol? {token : Token} {symbol : Symbol} (h : token.symbol? = some symbol) :
    token = ⟨.symbol symbol, token.offset⟩ := by
  obtain ⟨lexeme, offset⟩ := token
  cases lexeme <;> cases h
  rfl

/-- A token that names a register is that register at its position. -/
theorem Token.eq_of_registerId? {token : Token} {id : RegisterId}
    (h : token.lexeme.registerId? = some id) : ∃ digits, RegisterId.ofText? digits = some id ∧
      token = ⟨.register (some digits), token.offset⟩ := by
  match token with
  | ⟨.register (some digits), offset⟩ => exact ⟨digits, h, rfl⟩
  | ⟨.register none, _⟩ | ⟨.number _ _, _⟩ | ⟨.name _, _⟩ | ⟨.symbol _, _⟩ | ⟨.endOfInput, _⟩ =>
    cases h

/-- A token that stands for an operator of a level is the symbol of that operator. -/
theorem Token.eq_of_operator? {token : Token} {level : List BinaryOp} {op : BinaryOp}
    (h : token.operator? level = some op) :
    op ∈ level ∧ token = ⟨.symbol op.symbol, token.offset⟩ := by
  have found : token.symbol? = some op.symbol := by
    simpa using
      List.find?_some (p := fun op : BinaryOp => decide (token.symbol? = some op.symbol)) h
  exact ⟨List.mem_of_find?_eq_some h, Token.eq_of_symbol? found⟩

/-- The symbol of an operator of a level stands for that operator. -/
theorem Token.operator?_of_mem {level : List BinaryOp} {op : BinaryOp} (ofLevel : op ∈ level)
    (offset : Offset) : Token.operator? ⟨.symbol op.symbol, offset⟩ level = some op := by
  cases h : Token.operator? ⟨.symbol op.symbol, offset⟩ level with
  | none =>
    have := List.find?_eq_none.1 h op ofLevel
    exact absurd (decide_eq_true rfl) this
  | some op' =>
    obtain ⟨-, same⟩ := Token.eq_of_operator? h
    injection same with same
    injection same with same
    rw [BinaryOp.symbol_inj same]

/-- What follows an expression is no operator of a level at which the expression stops. -/
theorem Stops.operator?_eq_none {level : List BinaryOp} {token : Token} {rest : List Token}
    (stops : Stops level (token :: rest)) : token.operator? level = none := by
  refine List.find?_eq_none.2 fun op mem => ?_
  simpa using (stops token rfl).2 op mem

/-- A text that is the name of a function is the one it is found under. -/
theorem Function.eq_name_of_ofName? {letters : Option String} {function : Function}
    (h : Function.ofName? (letters.getD "") = some function) : letters = some function.name := by
  have named : function.name = letters.getD "" := by
    simpa using List.find?_some
      (p := fun f : Function => decide (f.name = letters.getD "")) h
  cases letters with
  | none => cases function <;> exact absurd named (by decide +kernel)
  | some letters => exact congrArg some named.symm

namespace Reader

/-- What a reader makes of tokens. -/
def run (reader : Reader) (tokens : List Token) : Outcome := (reader tokens).map Reading.plain

/-- A reader leaves fewer tokens than it was given. -/
theorem length_lt_of_run {reader : Reader} {tokens rest : List Token} {tree : Expr}
    (h : reader.run tokens = .ok (tree, rest)) : rest.length < tokens.length := by
  rw [run] at h
  cases read : reader tokens with
  | error fault =>
    rw [read] at h
    cases h
  | ok reading =>
    rw [read] at h
    cases h
    exact reading.shorter

/-- Only where the first of two steps succeeds do both. -/
theorem bind_eq_ok {first : Outcome} {next : Expr × List Token → Outcome}
    {last : Expr × List Token} (h : first.bind next = .ok last) :
    ∃ tree rest, first = .ok (tree, rest) ∧ next (tree, rest) = .ok last := by
  cases first with
  | error fault => cases h
  | ok reading => exact ⟨_, _, rfl, h⟩

/-- An outcome with a node put over its tree. -/
def under (node : Expr → Expr) (outcome : Outcome) : Outcome :=
  outcome.bind fun (tree, rest) => .ok (node tree, rest)

/-- Only where there is a tree is there one with a node over it. -/
theorem under_eq_ok {node : Expr → Expr} {outcome : Outcome} {tree : Expr} {rest : List Token}
    (h : under node outcome = .ok (tree, rest)) :
    ∃ inner, outcome = .ok (inner, rest) ∧ tree = node inner := by
  obtain ⟨inner, rest', read, last⟩ := bind_eq_ok h
  cases last
  exact ⟨inner, read, rfl⟩

section
variable {stop : Offset} {nested : Scope} {rest : List Token} {tree : Expr}

/-! ## Binary operators -/

section
variable {level : List BinaryOp} {operand : Reader}

/-- What `chain` makes of a left operand and the tokens after it. -/
def goOn (level : List BinaryOp) (operand : Reader) (left : Expr) (rest : List Token) : Outcome :=
  (@chain level operand (⟨.endOfInput, 0⟩ :: rest) ⟨left, rest, Nat.lt_succ_self _⟩).map
    Reading.plain

/-- A chain does the same whatever list its left operand was taken from. -/
theorem map_plain_chain_congr {tokens tokens' : List Token} (left : Expr) (rest : List Token)
    (shorter : rest.length < tokens.length) (shorter' : rest.length < tokens'.length) :
    (@chain level operand tokens ⟨left, rest, shorter⟩).map Reading.plain =
      (@chain level operand tokens' ⟨left, rest, shorter'⟩).map Reading.plain := by
  -- The two sides differ in their proofs only, at every step: the induction is on what is left.
  induction length : rest.length using Nat.strongRecOn generalizing left rest with
  | ind n ih =>
    rw [chain, chain]
    dsimp only
    cases rest with
    | nil => rfl
    | cons token after =>
      dsimp only
      cases token.operator? level with
      | none => rfl
      | some op =>
        dsimp only
        cases operand after with
        | error fault => rfl
        | ok right =>
          dsimp only
          have fewer : right.rest.length < n := by
            have := right.shorter
            rw [List.length_cons] at length
            omega
          exact ih _ fewer _ _ _ _ rfl

/-- A chain without further tokens is its left operand. -/
theorem goOn_nil (left : Expr) : goOn level operand left [] = .ok (left, []) := by
  rw [goOn, chain]
  rfl

/-- A chain ends before what is no operator of its level. -/
theorem goOn_of_none {token : Token} (none : token.operator? level = none) (left : Expr) :
    goOn level operand left (token :: rest) = .ok (left, token :: rest) := by
  rw [goOn, chain]
  simp only [none]
  rfl

/-- A chain goes on behind an operator of its level with the operand that follows. -/
theorem goOn_of_some {token : Token} {op : BinaryOp} (some : token.operator? level = some op)
    (left : Expr) :
    goOn level operand left (token :: rest) =
      (operand.run rest).bind fun (right, rest) =>
        goOn level operand (.binary op left right token.offset) rest := by
  rw [goOn, chain, run]
  simp only [some]
  cases operand rest with
  | error fault => rfl
  | ok right => exact map_plain_chain_congr _ _ _ _

/-- A level takes one operand of the next tighter level and goes on from it. -/
theorem run_leftAssociative (tokens : List Token) :
    (leftAssociative level operand).run tokens =
      (operand.run tokens).bind fun (left, rest) => goOn level operand left rest := by
  rw [run, leftAssociative, run]
  cases operand tokens with
  | error fault => rfl
  | ok left => exact map_plain_chain_congr _ _ _ _

end

/-! ## Brackets -/

/-- What is made of the expression inside a bracket and the tokens after it. -/
def closing (stop opened : Offset) : Expr × List Token → Outcome
  | (_, []) => .error (.unbalancedParens opened (current stop []))
  | (tree, token :: rest) =>
    if token.symbol? = some .rightParen then .ok (tree, rest)
    else .error (.unbalancedParens opened token)

/-- Behind an opening bracket stands an expression and then what closes the bracket. -/
theorem run_enclosed (opened : Offset) (inside : Reader) (tokens : List Token) :
    (enclosed stop opened inside).run tokens =
      (inside.run tokens).bind (closing stop opened) := by
  rw [run, enclosed, run]
  cases inside tokens with
  | error fault => rfl
  | ok inner =>
    obtain ⟨tree, rest, shorter⟩ := inner
    cases rest with
    | nil => rfl
    | cons token rest =>
      by_cases paren : token.symbol? = some .rightParen <;>
        simp [Except.map, Except.bind, closing, Reading.plain, paren]

/-- An expression in brackets that was read is closed by a bracket. -/
theorem enclosed_eq_ok {opened : Offset} {inside : Reader} {tokens : List Token}
    (h : (enclosed stop opened inside).run tokens = .ok (tree, rest)) :
    ∃ closeOffset, inside.run tokens = .ok (tree, ⟨.symbol .rightParen, closeOffset⟩ :: rest) := by
  rw [run_enclosed] at h
  obtain ⟨inner, left, read, closed⟩ := bind_eq_ok h
  cases left with
  | nil => cases closed
  | cons token left =>
    simp only [closing] at closed
    split at closed
    case isTrue paren =>
      cases closed
      exact ⟨token.offset, Token.eq_of_symbol? paren ▸ read⟩
    case isFalse => cases closed

/-! ## Primary expressions -/

/-- A number is read as its value. -/
theorem run_primary_number (text : Option String) (value : Float) (offset : Offset) :
    (primary stop nested).run (⟨.number text (some value), offset⟩ :: rest) =
      .ok (.number value offset, rest) := rfl

/-- A register is read as the register that it names. -/
theorem run_primary_register {digits : String} {id : RegisterId}
    (named : RegisterId.ofText? digits = some id) (offset : Offset) :
    (primary stop nested).run (⟨.register (some digits), offset⟩ :: rest) =
      .ok (.register id offset, rest) := by
  simp only [run, primary, Lexeme.registerId?, named]
  rfl

/-- Behind an opening bracket stands an expression of a nested place. -/
theorem run_primary_group (openOffset : Offset) :
    (primary stop nested).run (⟨.symbol .leftParen, openOffset⟩ :: rest) =
      (enclosed stop openOffset nested.expression).run rest := by
  simp only [run, primary]
  cases enclosed stop openOffset nested.expression rest <;> rfl

/-- A primary expression that was read is a number, a register or an expression in brackets. -/
theorem primary_eq_ok {tokens : List Token}
    (h : (primary stop nested).run tokens = .ok (tree, rest)) :
    (∃ text value offset, tokens = ⟨.number text (some value), offset⟩ :: rest ∧
        tree = .number value offset) ∨
      (∃ digits id offset, RegisterId.ofText? digits = some id ∧
        tokens = ⟨.register (some digits), offset⟩ :: rest ∧ tree = .register id offset) ∨
      ∃ openOffset inside closeOffset, tokens = ⟨.symbol .leftParen, openOffset⟩ :: inside ∧
        nested.expression.run inside = .ok (tree, ⟨.symbol .rightParen, closeOffset⟩ :: rest) := by
  match tokens with
  | [] => cases h
  | ⟨.number text (some value), offset⟩ :: rest =>
    cases h
    exact .inl ⟨text, value, offset, rfl, rfl⟩
  | ⟨.register (some digits), offset⟩ :: after =>
    cases named : RegisterId.ofText? digits with
    | none =>
      simp only [run, primary, Lexeme.registerId?, named] at h
      cases h
    | some id =>
      rw [run_primary_register named] at h
      cases h
      exact .inr (.inl ⟨digits, id, offset, named, rfl, rfl⟩)
  | ⟨.symbol symbol, openOffset⟩ :: inside =>
    by_cases paren : symbol = .leftParen
    · rw [paren, run_primary_group] at h
      obtain ⟨closeOffset, read⟩ := enclosed_eq_ok h
      exact .inr (.inr ⟨openOffset, inside, closeOffset, by rw [paren], read⟩)
    · cases symbol <;> first | exact absurd rfl paren | cases h
  | ⟨.number _ none, _⟩ :: _ | ⟨.register none, _⟩ :: _ | ⟨.name _, _⟩ :: _
  | ⟨.endOfInput, _⟩ :: _ => cases h

/-! ## Calls -/

/-- The name of a function and an opening bracket start a call. -/
theorem run_call_name (function : Function) (nameOffset openOffset : Offset) :
    (call stop nested).run
        (⟨.name (some function.name), nameOffset⟩ :: ⟨.symbol .leftParen, openOffset⟩ :: rest) =
      under (.call function.name · nameOffset)
        ((enclosed stop openOffset nested.expression).run rest) := by
  simp only [run, call, Option.getD_some, Function.isCallable_name, Bool.not_true,
    Bool.false_eq_true, if_false]
  rw [if_pos (by rfl)]
  cases enclosed stop openOffset nested.expression rest <;> rfl

/-- What starts with no name is no call. -/
theorem run_call_of_not_name {token : Token} (notName : ∀ letters, token.lexeme ≠ .name letters) :
    (call stop nested).run (token :: rest) = (primary stop nested).run (token :: rest) := by
  obtain ⟨lexeme, offset⟩ := token
  cases lexeme with
  | name letters => exact absurd rfl (notName letters)
  | _ => rfl

/-- What was read as a call or a primary expression is the call of a function or was read as a
primary expression. -/
theorem call_eq_ok {tokens : List Token} (h : (call stop nested).run tokens = .ok (tree, rest)) :
    (∃ (function : Function) (nameOffset openOffset : Offset) (inside : List Token)
        (closeOffset : Offset) (argument : Expr),
        tokens = ⟨.name (some function.name), nameOffset⟩ :: ⟨.symbol .leftParen, openOffset⟩ ::
          inside ∧
        nested.expression.run inside =
          .ok (argument, ⟨.symbol .rightParen, closeOffset⟩ :: rest) ∧
        tree = .call function.name argument nameOffset) ∨
      (primary stop nested).run tokens = .ok (tree, rest) := by
  match tokens with
  | ⟨.name letters, nameOffset⟩ :: after =>
    left
    cases isFunction : Function.ofName? (letters.getD "") with
    | none =>
      simp only [run, call, Function.isCallable_eq, isFunction] at h
      cases h
    | some function =>
      obtain rfl := Function.eq_name_of_ofName? isFunction
      match after with
      | [] =>
        simp only [run, call, Function.isCallable_eq, isFunction] at h
        cases h
      | opening :: inside =>
        by_cases paren : opening.symbol? = some .leftParen
        · have same := Token.eq_of_symbol? paren
          rw [same, run_call_name] at h
          obtain ⟨argument, read, node⟩ := under_eq_ok h
          obtain ⟨closeOffset, closed⟩ := enclosed_eq_ok read
          exact ⟨function, nameOffset, opening.offset, inside, closeOffset, argument,
            by rw [← same], closed, node⟩
        · simp only [run, call, Function.isCallable_eq, isFunction, if_neg paren] at h
          cases h
  | [] | ⟨.number _ _, _⟩ :: _ | ⟨.register _, _⟩ :: _ | ⟨.symbol _, _⟩ :: _
  | ⟨.endOfInput, _⟩ :: _ => exact .inr h

/-! ## Prefix operators -/

/-- Behind a prefix operator stands an operand of a nested place. -/
theorem run_unary_prefixed (op : PrefixOp) (offset : Offset) :
    (unary stop nested).run (⟨.symbol op.symbol, offset⟩ :: rest) =
      under (.unary op · offset) (nested.operand.run rest) := by
  have isOp : (Token.symbol? ⟨.symbol op.symbol, offset⟩).bind PrefixOp.ofSymbol? = some op :=
    op.ofSymbol?_symbol
  simp only [run, unary, isOp]
  cases nested.operand rest <;> rfl

/-- What starts with no prefix operator is a call or a primary expression. -/
theorem run_unary_of_unprefixed {token : Token}
    (notPrefix : token.symbol?.bind PrefixOp.ofSymbol? = none) :
    (unary stop nested).run (token :: rest) = (call stop nested).run (token :: rest) := by
  simp only [run, unary, notPrefix]

/-- A prefix operator that a token stands for is the one it is the symbol of. -/
theorem eq_of_prefixOp {token : Token} {op : PrefixOp}
    (h : token.symbol?.bind PrefixOp.ofSymbol? = some op) :
    token = ⟨.symbol op.symbol, token.offset⟩ := by
  obtain ⟨symbol, isSymbol, isOp⟩ := Option.bind_eq_some_iff.1 h
  have same : op.symbol = symbol := by
    simpa using List.find?_some (p := fun op : PrefixOp => decide (op.symbol = symbol)) isOp
  exact Token.eq_of_symbol? (same ▸ isSymbol)

/-- What was read as an operand is a prefix operator before an operand or was read as a call. -/
theorem unary_eq_ok {tokens : List Token} (h : (unary stop nested).run tokens = .ok (tree, rest)) :
    (∃ op offset inside operand, tokens = ⟨.symbol op.symbol, offset⟩ :: inside ∧
        nested.operand.run inside = .ok (operand, rest) ∧ tree = .unary op operand offset) ∨
      (call stop nested).run tokens = .ok (tree, rest) := by
  cases tokens with
  | nil => exact .inr h
  | cons token inside =>
    cases isPrefix : token.symbol?.bind PrefixOp.ofSymbol? with
    | none =>
      rw [run_unary_of_unprefixed isPrefix] at h
      exact .inr h
    | some op =>
      have same := eq_of_prefixOp isPrefix
      rw [same, run_unary_prefixed] at h
      obtain ⟨operand, read, node⟩ := under_eq_ok h
      exact .inl ⟨op, token.offset, inside, operand, congrArg (· :: inside) same, read, node⟩

/-! ## Assignments -/

/-- Behind a register and an assignment sign stands an expression of a nested place. -/
theorem run_assignment_assign {digits : String} {target : RegisterId}
    (named : RegisterId.ofText? digits = some target) (targetOffset signOffset : Offset) :
    (assignment stop nested).run
        (⟨.register (some digits), targetOffset⟩ :: ⟨.symbol .assign, signOffset⟩ :: rest) =
      under (.assign target · signOffset) (nested.expression.run rest) := by
  simp only [run, assignment, Lexeme.registerId?, named]
  rw [if_pos ⟨rfl, rfl⟩]
  cases nested.expression rest <;> rfl

/-- What starts no assignment is an expression of the loosest level. -/
theorem run_assignment_of_not {tokens : List Token} (h : startsAssignment tokens = false) :
    (assignment stop nested).run tokens =
      (ladder BinaryOp.levels (unary stop nested)).run tokens := by
  match tokens with
  | [] | [_] => rfl
  | target :: sign :: rest =>
    have notBoth : ¬(target.isRegister ∧ sign.symbol? = some .assign) := by
      rintro ⟨register, sign⟩
      simp [startsAssignment, register, sign] at h
    simp only [run, assignment, if_neg notBoth]

/-- What was read as an assignment or an expression is an assignment to a register or was read as
an expression of the loosest level. -/
theorem assignment_eq_ok {tokens : List Token}
    (h : (assignment stop nested).run tokens = .ok (tree, rest)) :
    (∃ (digits : String) (target : RegisterId) (targetOffset signOffset : Offset)
        (inside : List Token) (value : Expr), RegisterId.ofText? digits = some target ∧
        tokens = ⟨.register (some digits), targetOffset⟩ :: ⟨.symbol .assign, signOffset⟩ ::
          inside ∧
        nested.expression.run inside = .ok (value, rest) ∧
        tree = .assign target value signOffset) ∨
      (ladder BinaryOp.levels (unary stop nested)).run tokens = .ok (tree, rest) := by
  match tokens with
  | ⟨.register written, targetOffset⟩ :: sign :: inside =>
    by_cases isSign : sign.symbol? = some .assign
    · left
      have same := Token.eq_of_symbol? isSign
      cases named : Lexeme.registerId? (.register written) with
      | none =>
        simp only [run, assignment, named] at h
        rw [if_pos ⟨rfl, isSign⟩] at h
        cases h
      | some target =>
        cases written with
        | none => cases named
        | some digits =>
          rw [same, run_assignment_assign named] at h
          obtain ⟨value, read, node⟩ := under_eq_ok h
          exact ⟨digits, target, targetOffset, sign.offset, inside, value, named, by rw [← same],
            read, node⟩
    · have starts : startsAssignment (⟨.register written, targetOffset⟩ :: sign :: inside) =
          false := beq_false_of_ne isSign
      rw [run_assignment_of_not starts] at h
      exact .inr h
  | [] | [_] | ⟨.number _ _, _⟩ :: _ :: _ | ⟨.name _, _⟩ :: _ :: _ | ⟨.symbol _, _⟩ :: _ :: _
  | ⟨.endOfInput, _⟩ :: _ :: _ =>
    rw [run_assignment_of_not rfl] at h
    exact .inr h

end

end Reader

/-! ## The readers of the categories -/

/-- The reader of a category, over the readers of nested places. -/
def Category.reader (stop : Offset) (nested : Scope) : Category → Reader
  | assignment => Reader.assignment stop nested
  | ladder levels => Reader.ladder levels (Reader.unary stop nested)
  | unary => Reader.unary stop nested
  | call => Reader.call stop nested
  | primary => Reader.primary stop nested

/-- The readers of the places that are nested where `budget` further levels are allowed. -/
def Scope.nested (stop : Offset) (limit : Nat) : (budget : Nat) → Scope
  | 0 => ⟨Reader.tooDeep stop limit, Reader.tooDeep stop limit⟩
  | budget + 1 => within stop limit budget

/-- A place is read over the readers of the places nested in it. -/
theorem Scope.within_eq_around (stop : Offset) (limit budget : Nat) :
    within stop limit budget = around stop (nested stop limit budget) := by
  cases budget with
  | zero => rfl
  | succ budget => rfl

end RegisterCalc
