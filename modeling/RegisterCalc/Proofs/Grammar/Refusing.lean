import RegisterCalc.Proofs.Grammar.Reading

/-!
# What readers refuse

Of the tokens that are left a reader looks at the current one (`Reader.current`), which is the end
of the input if none are left. Here is what each reader does where the current token is none that it
goes on with: a chain ends, an operand may be one of a tighter kind, and what is left are the
refusals, each at the current token.

For each reader there is also a lemma on the cases that it tells apart (`Reader.primary_cases` and
so on), so that what is shown of all readers needs one step for each case and no other.
-/

namespace RegisterCalc

/-- Whether a primary expression starts with a token: a number with a value, a register that can be
read or an opening bracket. -/
def Token.startsPrimary (token : Token) : Bool :=
  match token.lexeme with
  | .number _ value => value.isSome
  | .register _ => token.lexeme.registerId?.isSome
  | .symbol symbol => symbol = .leftParen
  | _ => false

/-- A primary expression starts with a register if that can be read. -/
theorem Token.startsPrimary_of_isRegister {token : Token} (register : token.isRegister) :
    token.startsPrimary = token.lexeme.registerId?.isSome := by
  obtain ⟨lexeme, offset⟩ := token
  cases lexeme with
  | register written => rfl
  | number _ _ | name _ | symbol _ | endOfInput => cases register

/-- The tokens that a primary expression starts with. -/
theorem Token.eq_of_startsPrimary {token : Token} (h : token.startsPrimary) :
    (∃ text value, token = ⟨.number text (some value), token.offset⟩) ∨
      (∃ digits id, RegisterId.ofText? digits = some id ∧
        token = ⟨.register (some digits), token.offset⟩) ∨
      token = ⟨.symbol .leftParen, token.offset⟩ := by
  match token with
  | ⟨.number text (some value), offset⟩ => exact .inl ⟨text, value, rfl⟩
  | ⟨.register (some digits), offset⟩ =>
    obtain ⟨id, named⟩ := Option.isSome_iff_exists.1 h
    exact .inr (.inl ⟨digits, id, named, rfl⟩)
  | ⟨.symbol symbol, offset⟩ =>
    obtain rfl : symbol = .leftParen := of_decide_eq_true h
    exact .inr (.inr rfl)
  | ⟨.number _ none, _⟩ | ⟨.register none, _⟩ | ⟨.name _, _⟩ | ⟨.endOfInput, _⟩ => cases h

/-- A register that a primary expression starts with names a register. -/
theorem Token.eq_of_isRegister {token : Token} (register : token.isRegister)
    (readable : token.startsPrimary) : ∃ digits id, RegisterId.ofText? digits = some id ∧
      token = ⟨.register (some digits), token.offset⟩ := by
  rcases Token.eq_of_startsPrimary readable with ⟨text, value, is⟩ | found | is
  · rw [is] at register
    cases register
  · exact found
  · rw [is] at register
    cases register

namespace Reader

section
variable {stop : Offset} {nested : Scope} {tokens rest : List Token}

/-! ## Binary operators and brackets -/

/-- A chain ends where no operator of its level is current. -/
theorem goOn_of_current {level : List BinaryOp} {operand : Reader}
    (none : (current stop rest).operator? level = none) (left : Expr) :
    goOn level operand left rest = .ok (left, rest) := by
  cases rest with
  | nil => exact goOn_nil left
  | cons token rest => exact goOn_of_none none left

/-- A level refuses what its operands refuse at the start. -/
theorem run_ladder_of_error {operand : Reader} {fault : SyntaxFault}
    (h : operand.run tokens = .error fault) (levels : List (List BinaryOp)) :
    (ladder levels operand).run tokens = .error fault := by
  induction levels with
  | nil => exact h
  | cons level levels ih =>
    rw [ladder, run_leftAssociative, ih]
    rfl

/-- A bracket is refused where no closing one is current. -/
theorem closing_of_current (unclosed : (current stop rest).symbol? ≠ some .rightParen)
    (opened : Offset) (tree : Expr) :
    closing stop opened (tree, rest) = .error (.unbalancedParens opened (current stop rest)) := by
  cases rest with
  | nil => rfl
  | cons token rest => exact if_neg unclosed

/-! ## Operands -/

/-- Where no primary expression starts, the current token is unexpected. -/
theorem run_primary_of_current (h : (current stop tokens).startsPrimary = false) :
    (primary stop nested).run tokens = .error (.unexpectedToken (current stop tokens)) := by
  match tokens with
  | [] => rfl
  | ⟨.register (some digits), offset⟩ :: rest =>
    have unreadable : RegisterId.ofText? digits = none :=
      Option.not_isSome_iff_eq_none.1 (Bool.eq_false_iff.1 h)
    simp only [run, primary, Lexeme.registerId?, unreadable]
    rfl
  | ⟨.symbol symbol, offset⟩ :: rest =>
    cases symbol <;> first | rfl | cases h
  | ⟨.number _ none, _⟩ :: _ | ⟨.register none, _⟩ :: _ | ⟨.name _, _⟩ :: _
  | ⟨.endOfInput, _⟩ :: _ => rfl

/-- Where no name is current, there is no call. -/
theorem run_call_of_current (notName : ∀ letters, (current stop tokens).lexeme ≠ .name letters) :
    (call stop nested).run tokens = (primary stop nested).run tokens := by
  cases tokens with
  | nil => rfl
  | cons token rest => exact run_call_of_not_name notName

/-- A name that is no function's is refused. -/
theorem run_call_unknown {letters : Option String} {offset : Offset}
    (unknown : Function.ofName? (letters.getD "") = none) :
    (call stop nested).run (⟨.name letters, offset⟩ :: rest) =
      .error (.unexpectedIdentifier (letters.getD "") offset) := by
  simp only [run, call, Function.isCallable_eq, unknown]
  rfl

/-- Behind the name of a function whatever is no opening bracket is refused. -/
theorem run_call_unopened (unopened : (current stop rest).symbol? ≠ some .leftParen)
    (function : Function) (offset : Offset) :
    (call stop nested).run (⟨.name (some function.name), offset⟩ :: rest) =
      .error (.expectedOpening function.name (current stop rest)) := by
  simp only [run, call, Option.getD_some, Function.isCallable_name]
  cases rest with
  | nil => rfl
  | cons token rest =>
    simp only [if_neg (show token.symbol? ≠ some .leftParen from unopened)]
    rfl

/-- Where no prefix operator is current, the operand is a call or a primary expression. -/
theorem run_unary_of_current
    (notPrefix : (current stop tokens).symbol?.bind PrefixOp.ofSymbol? = none) :
    (unary stop nested).run tokens = (call stop nested).run tokens := by
  cases tokens with
  | nil => rfl
  | cons token rest => exact run_unary_of_unprefixed notPrefix

/-! ## Assignments -/

/-- A register that cannot be read is refused, whether it is assigned or not. -/
theorem run_assignment_of_current (register : (current stop tokens).isRegister)
    (unreadable : (current stop tokens).startsPrimary = false) :
    (assignment stop nested).run tokens = .error (.unexpectedToken (current stop tokens)) := by
  match tokens with
  | [] => cases register
  | ⟨.register written, offset⟩ :: rest =>
    cases starts : startsAssignment (⟨.register written, offset⟩ :: rest) with
    | true =>
      cases rest with
      | nil => cases starts
      | cons sign rest =>
        have unread : Lexeme.registerId? (.register written) = none :=
          Option.not_isSome_iff_eq_none.1 (Bool.eq_false_iff.1 unreadable)
        have isSign : sign.symbol? = some .assign := beq_iff_eq.1 starts
        simp only [run, assignment, unread]
        rw [if_pos ⟨rfl, isSign⟩]
        rfl
    | false =>
      have refused : (primary stop nested).run (⟨.register written, offset⟩ :: rest) =
          .error (.unexpectedToken ⟨.register written, offset⟩) := run_primary_of_current unreadable
      rw [run_assignment_of_not starts]
      exact @run_ladder_of_error _ (unary stop nested) _ refused _

/-! ## What readers tell apart -/

/-- A symbol that is current is the first token. -/
theorem eq_cons_of_symbol? {symbol : Symbol} (h : (current stop rest).symbol? = some symbol) :
    ∃ offset more, rest = ⟨.symbol symbol, offset⟩ :: more := by
  cases rest with
  | nil => cases h
  | cons token more => exact ⟨token.offset, more, congrArg (· :: more) (Token.eq_of_symbol? h)⟩

variable (stop)

/-- A chain ends or goes on with an operator of its level. -/
theorem goOn_cases (level : List BinaryOp) (rest : List Token) :
    (current stop rest).operator? level = none ∨
      ∃ op ∈ level, ∃ offset after, rest = ⟨.symbol op.symbol, offset⟩ :: after := by
  cases isOp : (current stop rest).operator? level with
  | none => exact .inl rfl
  | some op =>
    obtain ⟨ofLevel, symbol⟩ := Token.eq_of_operator? isOp
    obtain ⟨offset, after, rfl⟩ := eq_cons_of_symbol? (congrArg Token.symbol? symbol)
    exact .inr ⟨op, ofLevel, offset, after, rfl⟩

/-- A bracket is left open or closed. -/
theorem closing_cases (rest : List Token) : (current stop rest).symbol? ≠ some .rightParen ∨
    ∃ closeOffset more, rest = ⟨.symbol .rightParen, closeOffset⟩ :: more := by
  by_cases closed : (current stop rest).symbol? = some .rightParen
  · exact .inr (eq_cons_of_symbol? closed)
  · exact .inl closed

/-- There is no primary expression, or it starts with a number, a register or an opening bracket. -/
theorem primary_cases (tokens : List Token) : (current stop tokens).startsPrimary = false ∨
    (∃ text value offset rest, tokens = ⟨.number text (some value), offset⟩ :: rest) ∨
    (∃ digits id offset rest, RegisterId.ofText? digits = some id ∧
      tokens = ⟨.register (some digits), offset⟩ :: rest) ∨
    ∃ openOffset rest, tokens = ⟨.symbol .leftParen, openOffset⟩ :: rest := by
  cases starts : (current stop tokens).startsPrimary with
  | false => exact .inl rfl
  | true =>
    cases tokens with
    | nil => cases starts
    | cons token rest =>
      rcases Token.eq_of_startsPrimary starts with ⟨text, value, is⟩ | ⟨digits, id, named, is⟩ | is
      · exact .inr (.inl ⟨text, value, _, rest, congrArg (· :: rest) is⟩)
      · exact .inr (.inr (.inl ⟨digits, id, _, rest, named, congrArg (· :: rest) is⟩))
      · exact .inr (.inr (.inr ⟨_, rest, congrArg (· :: rest) is⟩))

/-- There is no name, or it is that of no function, or of a function without an opening bracket, or
of one with it. -/
theorem call_cases (tokens : List Token) :
    (∀ letters, (current stop tokens).lexeme ≠ .name letters) ∨
    (∃ letters nameOffset rest, Function.ofName? (letters.getD "") = none ∧
      tokens = ⟨.name letters, nameOffset⟩ :: rest) ∨
    ∃ (function : Function) (nameOffset : Offset) (rest : List Token),
      tokens = ⟨.name (some function.name), nameOffset⟩ :: rest ∧
      ((current stop rest).symbol? ≠ some .leftParen ∨
        ∃ openOffset inside, rest = ⟨.symbol .leftParen, openOffset⟩ :: inside) := by
  match tokens with
  | ⟨.name letters, nameOffset⟩ :: rest =>
    cases isFunction : Function.ofName? (letters.getD "") with
    | none => exact .inr (.inl ⟨letters, nameOffset, rest, isFunction, rfl⟩)
    | some function =>
      obtain rfl := Function.eq_name_of_ofName? isFunction
      refine .inr (.inr ⟨function, nameOffset, rest, rfl, ?_⟩)
      by_cases opened : (current stop rest).symbol? = some .leftParen
      · exact .inr (eq_cons_of_symbol? opened)
      · exact .inl opened
  | [] | ⟨.number _ _, _⟩ :: _ | ⟨.register _, _⟩ :: _ | ⟨.symbol _, _⟩ :: _
  | ⟨.endOfInput, _⟩ :: _ => exact .inl nofun

/-- There is no prefix operator or one before what is left. -/
theorem unary_cases (tokens : List Token) :
    (current stop tokens).symbol?.bind PrefixOp.ofSymbol? = none ∨
      ∃ (op : PrefixOp) (offset : Offset) (inside : List Token),
        tokens = ⟨.symbol op.symbol, offset⟩ :: inside := by
  cases isPrefix : (current stop tokens).symbol?.bind PrefixOp.ofSymbol? with
  | none => exact .inl rfl
  | some op =>
    exact .inr ⟨op, eq_cons_of_symbol? (congrArg Token.symbol? (eq_of_prefixOp isPrefix))⟩

/-- There is a register that cannot be read, a register that is assigned, or no assignment. -/
theorem assignment_cases (tokens : List Token) :
    ((current stop tokens).isRegister ∧ (current stop tokens).startsPrimary = false) ∨
    (∃ digits id targetOffset signOffset rest, RegisterId.ofText? digits = some id ∧
      tokens = ⟨.register (some digits), targetOffset⟩ :: ⟨.symbol .assign, signOffset⟩ :: rest) ∨
    startsAssignment tokens = false ∧
      ((current stop tokens).isRegister → (current stop tokens).startsPrimary) := by
  by_cases unreadable : (current stop tokens).isRegister ∧
      (current stop tokens).startsPrimary = false
  · exact .inl unreadable
  have readable (register : (current stop tokens).isRegister) :
      (current stop tokens).startsPrimary := by
    by_contra unread
    exact unreadable ⟨register, Bool.eq_false_iff.2 unread⟩
  cases starts : startsAssignment tokens with
  | false => exact .inr (.inr ⟨rfl, readable⟩)
  | true =>
    match tokens with
    | target :: sign :: rest =>
      obtain ⟨register, isSign⟩ := Bool.and_eq_true_iff.1 starts
      obtain ⟨digits, id, named, is⟩ := Token.eq_of_isRegister register (readable register)
      have same := Token.eq_of_symbol? (beq_iff_eq.1 isSign)
      exact .inr (.inl ⟨digits, id, target.offset, sign.offset, rest, named, by rw [← is, ← same]⟩)

end

end Reader

end RegisterCalc
