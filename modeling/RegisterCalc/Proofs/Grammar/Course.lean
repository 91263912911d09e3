import RegisterCalc.Proofs.Grammar.Exactness

/-!
# The course of a statement

What reading tokens comes to if nothing is refused for its nesting, and the nested places that it
opens on the way, in that order, each with how many levels deep it is (`Course.ofTokens`). The
readers here (`Recorder`) go through the steps of those of a statement, one for one, but have no
budget: where they open a nested place they note it down. They end because a nested place has fewer
tokens than the place around it.

With any limit tokens are read as their course says if no place in it is deeper than that, and are
refused at the first such place otherwise (`Expr.ofTokensWithin_eq_limited`). This holds of a reader
if it holds of those of nested places (`InnerRecorders.Record`), and a step after another is limited
as the two of them are (`Course.limited_bind`).
-/

namespace RegisterCalc

/-! ## Courses -/

/-- A nested place that is opened: how many levels deep it is, the token that opens it and the
tokens behind that. -/
structure Opening where
  depth : Nat
  opener : Token
  inside : List Token
  deriving DecidableEq, Repr

/-- The nested places that were opened on the way to an outcome, the first one first. -/
structure Course (α : Type) where
  openings : List Opening
  outcome : Except SyntaxFault α

namespace Course

variable {α β : Type}

/-- Opens no nested place. -/
def direct (outcome : Except SyntaxFault α) : Course α := ⟨[], outcome⟩

/-- Goes on from what was made, if anything was. -/
def bind (course : Course α) (next : α → Course β) : Course β :=
  match course.outcome with
  | .error fault => ⟨course.openings, .error fault⟩
  | .ok made => ⟨course.openings ++ (next made).openings, (next made).outcome⟩

/-- The same with something else made of what was made. -/
def map (f : α → β) (course : Course α) : Course β := ⟨course.openings, course.outcome.map f⟩

/-- Opens a nested place for what stands in it. -/
def opening (opening : Opening) (course : Course α) : Course α :=
  ⟨opening :: course.openings, course.outcome⟩

/-- The first place that is more than `limit` levels deep. -/
def deeper? (limit : Nat) (course : Course α) : Option Opening :=
  course.openings.find? (limit < ·.depth)

/-- What is made where no place may be more than `limit` levels deep: the first such place is
refused at the token behind what opens it. -/
def limited (stop : Offset) (limit : Nat) (course : Course α) : Except SyntaxFault α :=
  match course.deeper? limit with
  | some place => .error (.nestingTooDeep limit (Reader.current stop place.inside).offset)
  | none => course.outcome

end Course

/-! ## Readers that record -/

section
variable {tokens after : List Token} {token : Token}

/-- Fewer tokens stand behind the first one. -/
theorem length_lt_length_cons (token : Token) (tokens : List Token) :
    tokens.length < (token :: tokens).length :=
  Nat.lt_succ_self _

/-- Fewer tokens stand behind the one that a reading stopped at. -/
theorem Reading.length_lt_of_rest (reading : Reading tokens) (h : reading.rest = token :: after) :
    after.length < tokens.length :=
  (h ▸ length_lt_length_cons token after).trans reading.shorter

/-- A second reading, behind the token that a first one stopped at, leaves fewer tokens. -/
theorem Reading.length_rest_lt (left : Reading tokens) (h : left.rest = token :: after)
    (right : Reading after) : right.rest.length < tokens.length :=
  right.shorter.trans (left.length_lt_of_rest h)

/-- Behind the token that a reading stopped at stand no more tokens than fit. -/
theorem Reading.length_le_of_rest {size : Nat} (reading : Reading tokens)
    (h : reading.rest = token :: after) (fits : tokens.length ≤ size) : after.length ≤ size :=
  ((reading.length_lt_of_rest h).trans_le fits).le

end

/-- Takes a tree off the front of a list of at most `size` tokens. -/
abbrev Recorder (size : Nat) :=
  (tokens : List Token) → tokens.length ≤ size → Course (Reading tokens)

/-- Takes a tree off the front of the tokens inside a nested place, which are less than `size`;
what opens the place is recorded. -/
abbrev InnerRecorder (size : Nat) :=
  (opener : Token) → (inside : List Token) → inside.length < size → Course (Reading inside)

/-- The recorders of nested places: what may stand in brackets, and what a prefix operator takes. -/
structure InnerRecorders (size : Nat) where
  expression : InnerRecorder size
  operand : InnerRecorder size

namespace Recorder

variable {size : Nat}

/-- Goes on from a left operand as long as an operator of the level follows. -/
def chain (level : List BinaryOp) (operand : Recorder size) {tokens : List Token}
    (fits : tokens.length ≤ size) (left : Reading tokens) : Course (Reading tokens) :=
  match h : left.rest with
  | [] => .direct (.ok left)
  | token :: after =>
    match token.operator? level with
    | none => .direct (.ok left)
    | some op =>
      (operand after (left.length_le_of_rest h fits)).bind fun right =>
        chain level operand fits
          ⟨.binary op left.tree right.tree token.offset, right.rest, left.length_rest_lt h right⟩
termination_by left.rest.length
decreasing_by
  rw [h]
  exact right.shorter.trans (length_lt_length_cons token after)

/-- A level of operators that group to the left. -/
def leftAssociative (level : List BinaryOp) (operand : Recorder size) : Recorder size :=
  fun tokens fits => (operand tokens fits).bind (chain level operand fits)

/-- The recorder of the loosest of the given levels, over the recorder of operands. -/
def ladder : (levels : List (List BinaryOp)) → (operand : Recorder size) → Recorder size
  | [], operand => operand
  | level :: tighter, operand => leftAssociative level (ladder tighter operand)

/-- Reads the closing bracket behind what stands inside the one opened at `opened`. -/
def closed (stop opened : Offset) {tokens : List Token} (inner : Reading tokens) :
    Except SyntaxFault (Reading tokens) :=
  match h : inner.rest with
  | [] => .error (.unbalancedParens opened (Reader.current stop []))
  | token :: after =>
    if token.symbol? = some .rightParen then
      .ok ⟨inner.tree, after, inner.length_lt_of_rest h⟩
    else
      .error (.unbalancedParens opened token)

/-- Reads what stands inside an opening bracket, and the closing bracket. -/
def enclosed (stop : Offset) (inner : InnerRecorder size) : InnerRecorder size :=
  fun opener inside fewer =>
    (inner opener inside fewer).bind fun reading => .direct (closed stop opener.offset reading)

/-- A number, a register or an expression in brackets. -/
def primary (stop : Offset) (inner : InnerRecorders size) : Recorder size
  | [], _ => .direct (.error (.unexpectedToken (Reader.current stop [])))
  | token :: rest, fits =>
    match token.lexeme with
    | .number _ (some value) =>
      .direct (.ok ⟨.number value token.offset, rest, length_lt_length_cons token rest⟩)
    | .register _ =>
      match token.lexeme.registerId? with
      | some id =>
        .direct (.ok ⟨.register id token.offset, rest, length_lt_length_cons token rest⟩)
      | none => .direct (.error (.unexpectedToken token))
    | .symbol .leftParen => (enclosed stop inner.expression token rest fits).map (.behind token)
    | _ => .direct (.error (.unexpectedToken token))

/-- A call, or a primary expression. -/
def call (stop : Offset) (inner : InnerRecorders size) : Recorder size
  | [], fits => primary stop inner [] fits
  | token :: rest, fits =>
    match token.lexeme with
    | .name letters =>
      let name := letters.getD ""
      if !Function.isCallable name then
        .direct (.error (.unexpectedIdentifier name token.offset))
      else
        match rest, fits with
        | [], _ => .direct (.error (.expectedOpening name (Reader.current stop [])))
        | opening :: inside, fits =>
          if opening.symbol? = some .leftParen then
            (enclosed stop inner.expression opening inside (Nat.le_of_succ_le fits)).map
              fun argument =>
                ((argument.under (.call name · token.offset)).behind opening).behind token
          else
            .direct (.error (.expectedOpening name opening))
    | _ => primary stop inner (token :: rest) fits

/-- Prefix operators before an operand. -/
def unary (stop : Offset) (inner : InnerRecorders size) : Recorder size
  | [], fits => call stop inner [] fits
  | token :: rest, fits =>
    match token.symbol?.bind PrefixOp.ofSymbol? with
    | some op => (inner.operand token rest fits).map fun operand =>
        (operand.under (.unary op · token.offset)).behind token
    | none => call stop inner (token :: rest) fits

/-- An assignment, which a register directly before an assignment sign starts, or an expression of
the loosest level. -/
def assignment (stop : Offset) (inner : InnerRecorders size) : Recorder size
  | target :: sign :: rest, fits =>
    if target.isRegister ∧ sign.symbol? = some .assign then
      match target.lexeme.registerId? with
      | some id => (inner.expression sign rest (Nat.le_of_succ_le fits)).map fun value =>
          ((value.under (.assign id · sign.offset)).behind sign).behind target
      | none => .direct (.error (.unexpectedToken target))
    else
      ladder BinaryOp.levels (unary stop inner) (target :: sign :: rest) fits
  | tokens, fits => ladder BinaryOp.levels (unary stop inner) tokens fits

end Recorder

/-! ## Nested places -/

/-- The places that are nested: those for any expression, and those for an operand only. -/
inductive Place where
  | expression | operand

/-- The recorder of a place, over those of the places nested in it. -/
def Place.recorder (stop : Offset) {size : Nat} (inner : InnerRecorders size) :
    Place → Recorder size
  | expression => Recorder.assignment stop inner
  | operand => Recorder.unary stop inner

/-- The course of a place that is `depth` levels deep; places nested in it are one level deeper. -/
def Place.course (stop : Offset) (place : Place) (depth : Nat) (tokens : List Token) :
    Course (Reading tokens) :=
  place.recorder stop
    { expression := fun opener inside fewer =>
        .opening ⟨depth + 1, opener, inside⟩ (course stop expression (depth + 1) inside)
      operand := fun opener inside fewer =>
        .opening ⟨depth + 1, opener, inside⟩ (course stop operand (depth + 1) inside) }
    tokens (Nat.le_refl _)
termination_by tokens.length

/-- The course of the tokens before the first end of the input, all of them read as one
expression. -/
def Course.ofTokens (tokens : List Token) : Course Expr :=
  let course := Place.expression.course (endOffset tokens) 0 (tokens.takeWhile (!·.isEnd))
  course.bind fun reading => .direct (Expr.complete reading.plain)

/-! ## Limits -/

namespace Course

variable {α β : Type} {stop : Offset} {limit : Nat}

/-- The first place beyond the limit is one of the first step where there is no second one. -/
theorem deeper?_bind_of_error {course : Course α} {fault : SyntaxFault}
    (h : course.outcome = .error fault) (next : α → Course β) :
    (course.bind next).deeper? limit = course.deeper? limit := by
  simp only [bind, h, deeper?]

/-- The first place beyond the limit is one of the first step or else of the second. -/
theorem deeper?_bind_of_ok {course : Course α} {made : α} (h : course.outcome = .ok made)
    (next : α → Course β) : (course.bind next).deeper? limit =
      (course.deeper? limit).or ((next made).deeper? limit) := by
  simp only [bind, h, deeper?, List.find?_append]

/-- Two steps are limited as the first one is and then the second. -/
theorem limited_bind (course : Course α) (next : α → Course β) :
    (course.bind next).limited stop limit =
      (course.limited stop limit).bind fun made => (next made).limited stop limit := by
  cases h : course.outcome with
  | error fault =>
    rw [limited, deeper?_bind_of_error h, limited, h]
    cases course.deeper? limit with
    | none =>
      simp only [bind, h]
      rfl
    | some place => rfl
  | ok made =>
    rw [limited, deeper?_bind_of_ok h, limited, h]
    cases course.deeper? limit with
    | none =>
      simp only [Option.none_or, bind, h]
      rfl
    | some place => rfl

/-- What is made in the end has no part in the limit. -/
theorem limited_map (f : α → β) (course : Course α) :
    (course.map f).limited stop limit = (course.limited stop limit).map f := by
  simp only [limited, map, deeper?]
  cases course.openings.find? _ <;> rfl

/-- A place that is not beyond the limit is not the first one that is. -/
theorem deeper?_opening_of_le {place : Opening} (allowed : place.depth ≤ limit)
    (course : Course α) : (opening place course).deeper? limit = course.deeper? limit :=
  List.find?_cons_of_neg (by simpa using allowed)

/-- A place that is beyond the limit is the first one. -/
theorem deeper?_opening_of_lt {place : Opening} (deeper : limit < place.depth)
    (course : Course α) : (opening place course).deeper? limit = some place :=
  List.find?_cons_of_pos (decide_eq_true deeper)

/-- A place that is not beyond the limit may be opened. -/
theorem limited_opening_of_le {place : Opening} (allowed : place.depth ≤ limit)
    (course : Course α) :
    (opening place course).limited stop limit = course.limited stop limit := by
  rw [limited, deeper?_opening_of_le allowed, limited]
  rfl

/-- A place that is beyond the limit is refused at its first token. -/
theorem limited_opening_of_lt {place : Opening} (deeper : limit < place.depth)
    (course : Course α) : (opening place course).limited stop limit =
      .error (.nestingTooDeep limit (Reader.current stop place.inside).offset) := by
  rw [limited, deeper?_opening_of_lt deeper]

end Course

/-- The recorder of a reader: limited, its courses are what the reader makes. -/
def Recorder.Records (stop : Offset) (limit : Nat) {size : Nat} (recorder : Recorder size)
    (reader : Reader) : Prop :=
  ∀ tokens fits, (recorder tokens fits).limited stop limit = reader tokens

/-- The recorders of the readers of nested places. -/
structure InnerRecorders.Record (stop : Offset) (limit : Nat) {size : Nat}
    (inner : InnerRecorders size) (nested : Scope) : Prop where
  expression : ∀ opener inside fewer,
    (inner.expression opener inside fewer).limited stop limit = nested.expression inside
  operand : ∀ opener inside fewer,
    (inner.operand opener inside fewer).limited stop limit = nested.operand inside

namespace Recorder

open Course

variable {stop : Offset} {limit size : Nat}

section
variable {level : List BinaryOp} {operand : Recorder size} {operand' : Reader}

/-- A chain is limited as its operands are, one after the other. -/
theorem limited_chain (ih : operand.Records stop limit operand') {tokens : List Token}
    (fits : tokens.length ≤ size) (left : Reading tokens) :
    (chain level operand fits left).limited stop limit = Reader.chain level operand' left := by
  induction length : left.rest.length using Nat.strongRecOn generalizing left with
  | ind n further =>
    rw [chain, Reader.chain]
    obtain ⟨tree, rest, shorter⟩ := left
    dsimp only
    cases rest with
    | nil => rfl
    | cons token after =>
      dsimp only
      cases token.operator? level with
      | none => rfl
      | some op =>
        dsimp only
        rw [limited_bind, ih]
        cases operand' after with
        | error fault => rfl
        | ok right =>
          have fewer : right.rest.length < n := by
            have := right.shorter
            rw [List.length_cons] at length
            omega
          exact further _ fewer _ rfl

/-- A level is limited as its operands are. -/
theorem records_leftAssociative (ih : operand.Records stop limit operand') :
    (leftAssociative level operand).Records stop limit (Reader.leftAssociative level operand') := by
  intro tokens fits
  rw [leftAssociative, limited_bind, ih, funext (limited_chain ih fits), Reader.leftAssociative]
  cases operand' tokens <;> rfl

/-- A ladder is limited as its operands are. -/
theorem records_ladder (ih : operand.Records stop limit operand') (levels : List (List BinaryOp)) :
    (ladder levels operand).Records stop limit (Reader.ladder levels operand') := by
  induction levels with
  | nil => exact ih
  | cons level levels ihLevels => exact records_leftAssociative ihLevels

end

variable {inner : InnerRecorders size} {nested : Scope}

/-- Brackets are limited as what stands inside. -/
theorem limited_enclosed (ih : inner.Record stop limit nested) (opener : Token)
    (inside : List Token) (fewer : inside.length < size) :
    (enclosed stop inner.expression opener inside fewer).limited stop limit =
      Reader.enclosed stop opener.offset nested.expression inside := by
  rw [enclosed, limited_bind, ih.expression, Reader.enclosed]
  cases nested.expression inside with
  | error fault => rfl
  | ok reading =>
    obtain ⟨tree, rest, shorter⟩ := reading
    cases rest <;> rfl

/-- Primary expressions are limited as what stands in brackets. -/
theorem records_primary (ih : inner.Record stop limit nested) :
    (primary stop inner).Records stop limit (Reader.primary stop nested) := by
  intro tokens fits
  match tokens with
  | ⟨.symbol symbol, offset⟩ :: rest =>
    by_cases paren : symbol = .leftParen
    · subst paren
      show (map _ _).limited stop limit = _
      rw [limited_map, limited_enclosed ih]
      rfl
    · cases symbol <;> first | exact absurd rfl paren | rfl
  | ⟨.register written, offset⟩ :: rest =>
    simp only [primary, Reader.primary]
    cases Lexeme.registerId? (.register written) <;> rfl
  | [] | ⟨.number _ none, _⟩ :: _ | ⟨.number _ (some _), _⟩ :: _ | ⟨.name _, _⟩ :: _
  | ⟨.endOfInput, _⟩ :: _ => rfl

/-- Calls are limited as their arguments are. -/
theorem records_call (ih : inner.Record stop limit nested) :
    (call stop inner).Records stop limit (Reader.call stop nested) := by
  intro tokens fits
  match tokens with
  | ⟨.name letters, offset⟩ :: rest =>
    simp only [call, Reader.call]
    split
    case isTrue => rfl
    case isFalse =>
      cases rest with
      | nil => rfl
      | cons opening inside =>
        simp only
        split
        case isTrue =>
          rw [limited_map, limited_enclosed ih]
        case isFalse => rfl
  | [] | ⟨.number _ _, _⟩ :: _ | ⟨.register _, _⟩ :: _ | ⟨.symbol _, _⟩ :: _
  | ⟨.endOfInput, _⟩ :: _ => exact records_primary ih _ fits

/-- Prefix operators are limited as their operands are. -/
theorem records_unary (ih : inner.Record stop limit nested) :
    (unary stop inner).Records stop limit (Reader.unary stop nested) := by
  intro tokens fits
  cases tokens with
  | nil => exact records_call ih [] fits
  | cons token rest =>
    simp only [unary, Reader.unary]
    cases token.symbol?.bind PrefixOp.ofSymbol? with
    | none => exact records_call ih _ fits
    | some op =>
      simp only
      rw [limited_map, ih.operand]

/-- Assignments are limited as their values are. -/
theorem records_assignment (ih : inner.Record stop limit nested) :
    (assignment stop inner).Records stop limit (Reader.assignment stop nested) := by
  intro tokens fits
  have expression := records_ladder (records_unary ih) BinaryOp.levels
  match tokens with
  | [] | [_] => exact expression _ fits
  | target :: sign :: rest =>
    unfold assignment Reader.assignment
    dsimp only
    split
    case isFalse => exact expression _ fits
    case isTrue =>
      cases target.lexeme.registerId? with
      | none => rfl
      | some id =>
        simp only
        rw [limited_map, ih.expression]

end Recorder

namespace Place

variable {stop : Offset} {limit : Nat}

/-- The reader of a place in a scope. -/
def reader (scope : Scope) : Place → Reader
  | expression => scope.expression
  | operand => scope.operand

/-- The recorder of a place records its reader. -/
theorem records_reader {size : Nat} {inner : InnerRecorders size} {nested : Scope}
    (ih : inner.Record stop limit nested) (place : Place) :
    (place.recorder stop inner).Records stop limit (place.reader (.around stop nested)) := by
  cases place with
  | expression => exact Recorder.records_assignment ih
  | operand => exact Recorder.records_unary ih

/-- The recorders of the places that are nested in one that is `depth` levels deep. -/
def inner (stop : Offset) (depth size : Nat) : InnerRecorders size where
  expression opener inside _ :=
    .opening ⟨depth + 1, opener, inside⟩ (expression.course stop (depth + 1) inside)
  operand opener inside _ :=
    .opening ⟨depth + 1, opener, inside⟩ (operand.course stop (depth + 1) inside)

/-- The course of a place goes through the places that are nested in it. -/
theorem course_eq (place : Place) (depth : Nat) (tokens : List Token) :
    place.course stop depth tokens =
      place.recorder stop (inner stop depth tokens.length) tokens (Nat.le_refl _) := by
  rw [course]
  rfl

/-- A place is limited as the places that are nested in it. -/
theorem limited_course_of_inner {depth budget : Nat} {tokens : List Token}
    (ih : (inner stop depth tokens.length).Record stop limit (.nested stop limit budget))
    (place : Place) : (place.course stop depth tokens).limited stop limit =
      place.reader (.within stop limit budget) tokens := by
  rw [course_eq, Scope.within_eq_around]
  exact records_reader ih place tokens _

/-- The places that are nested in others are limited to the levels that are left. -/
theorem record_inner {depth budget : Nat} (spent : depth + budget = limit) (size : Nat) :
    (inner stop depth size).Record stop limit (.nested stop limit budget) := by
  induction budget generalizing depth size with
  | zero =>
    have deeper : limit < depth + 1 := by omega
    exact ⟨fun _ _ _ => Course.limited_opening_of_lt deeper _,
      fun _ _ _ => Course.limited_opening_of_lt deeper _⟩
  | succ budget ih =>
    have allowed : depth + 1 ≤ limit := by omega
    have further : depth + 1 + budget = limit := by omega
    refine ⟨fun opener inside fewer => ?_, fun opener inside fewer => ?_⟩
    · exact (Course.limited_opening_of_le allowed _).trans
        (limited_course_of_inner (ih further _) .expression)
    · exact (Course.limited_opening_of_le allowed _).trans
        (limited_course_of_inner (ih further _) .operand)

/-- With a limit, the course of a place is what its reader makes with the levels that are left. -/
theorem limited_course (place : Place) {depth budget : Nat} (spent : depth + budget = limit)
    (tokens : List Token) : (place.course stop depth tokens).limited stop limit =
      place.reader (.within stop limit budget) tokens :=
  limited_course_of_inner (record_inner spent _) place

end Place

/-- With any limit, tokens are read as their course says up to the first place that is too deep. -/
theorem Expr.ofTokensWithin_eq_limited (limit : Nat) (tokens : List Token) :
    ofTokensWithin limit tokens =
      (Course.ofTokens tokens).limited (endOffset tokens) limit := by
  rw [Course.ofTokens, Course.limited_bind, Place.limited_course _ (Nat.zero_add limit),
    ofTokensWithin_eq, Scope.within_eq_around, Reader.run]
  show (Except.map Reading.plain (Reader.assignment _ _ _)).bind complete =
    Except.bind (Reader.assignment _ _ _) _
  cases Reader.assignment (endOffset tokens) _ (tokens.takeWhile (!·.isEnd)) <;> rfl

end RegisterCalc
