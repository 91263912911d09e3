import RegisterCalc.Proofs.Descent.Safety

/-!
# The descent does what the readers do

A call of a rule, wherever it is made before the first end of the input and whatever calls wait
below it, returns what the reader of its category makes of the tokens from there on, with the
cursor behind those that the reader takes (`performs`). So a machine from the start ends,
with what is made of the statement (`Machine.finishes`).

A rule performs a reader (`Performs`) if the rules that it calls perform the readers that its own is
built from. For a call that waits the outcome is that of a first step and a second one
(`Yields.calls`, `Yields.nests`); so each rule needs one lemma, with a case for each thing that its
reader tells apart. Nested places follow by induction on the levels that may still be opened.
-/

namespace RegisterCalc.Descent

open Reader

/-- The category of the expressions that a rule reads. -/
def Rule.category : Rule → Category
  | expression | assignment => .assignment
  | level index => .ladder (BinaryOp.levels.drop index)
  | unary => .unary
  | call => .call
  | primary => .primary

/-! ## Outcomes -/

/-- No node over the tree leaves an outcome as it is. -/
theorem under_id (outcome : Outcome) : under id outcome = outcome := by
  cases outcome <;> rfl

/-- A node over the tree of two steps is one over that of the second step. -/
theorem under_bind (node : Expr → Expr) (outcome : Outcome)
    (next : Expr × List Token → Outcome) :
    under node (outcome.bind next) = outcome.bind fun reading => under node (next reading) := by
  cases outcome <;> rfl

/-! ## Returning -/

namespace Machine

variable {input : List Token} {frames : List Frame} {machine machine' : Machine}

/-- What is above a call is above those below it. -/
theorem IsAbove.of_cons {frame : Frame} (h : IsAbove (frame :: frames) machine) :
    IsAbove frames machine := by
  obtain ⟨suffix, -⟩ := h
  refine ⟨(List.suffix_cons frame frames).trans suffix, fun same => ?_⟩
  have := suffix.length_le
  rw [same, List.length_cons] at this
  omega

/-- The steps of a call are steps of the call that waits for it. -/
theorem Carries.of_cons {frame : Frame} (h : Carries input (frame :: frames) machine machine') :
    Carries input frames machine machine' :=
  Relation.ReflTransGen.mono (fun _ _ ⟨stepped, above⟩ => ⟨stepped, above.of_cons⟩) _ _ h

/-- The steps of a call are steps. -/
theorem Carries.reaches (h : Carries input frames machine machine') :
    Reaches input machine machine' :=
  Relation.ReflTransGen.mono (fun _ _ ⟨stepped, _⟩ => stepped) _ _ h

end Machine

open Machine

section
variable (input body : List Token)

/-- A call of a rule goes on from a machine until it returns the tree or the fault of an outcome,
in the level of nesting `depth`, and leaves the tokens that the outcome leaves. -/
def Returns (rule : Rule) (depth : Nat) (frames : List Frame) (machine : Machine)
    (outcome : Outcome) : Prop :=
  ∃ position, position ≤ body.length ∧
    Carries input frames machine
      ⟨⟨position, depth⟩, .returning rule (outcome.map Prod.fst), frames⟩ ∧
    ∀ tree rest, outcome = .ok (tree, rest) → body.drop position = rest

/-- After what it does next, a call goes on until it returns an outcome. -/
def Yields (rule : Rule) (depth : Nat) (frames : List Frame) (next : Option (Next × Cursor))
    (outcome : Outcome) : Prop :=
  ∃ machine, after rule frames next = .running machine ∧
    Returns input body rule depth frames machine outcome

/-- Wherever a rule is called in a level of nesting, and above whatever calls, it returns what a
reader makes of the tokens from there on. -/
def Performs (rule : Rule) (depth : Nat) (reader : Reader) : Prop :=
  ∀ position frames, position ≤ body.length →
    Returns input body rule depth frames ⟨⟨position, depth⟩, .entering rule, frames⟩
      (reader.run (body.drop position))

end

section
variable {input body : List Token} {rule : Rule} {depth position : Nat} {frames : List Frame}

/-- A call that first does what yields an outcome returns it. -/
theorem Performs.of_begin {reader : Reader}
    (h : ∀ position frames, position ≤ body.length →
      Yields input body rule depth frames (begin input rule ⟨position, depth⟩)
        (reader.run (body.drop position))) : Performs input body rule depth reader := by
  intro position frames within
  obtain ⟨machine, stepped, position', within', carried, left⟩ := h position frames within
  refine ⟨position', within', .head ⟨?_, List.suffix_rfl, fun _ => ⟨rule, rfl⟩⟩ carried, left⟩
  exact stepped

namespace Yields

/-- A tree is returned with the cursor before the tokens that are left. -/
theorem ok (tree : Expr) (within : position ≤ body.length) :
    Yields input body rule depth frames (some (.returns (.ok tree), ⟨position, depth⟩))
      (.ok (tree, body.drop position)) := by
  refine ⟨_, rfl, position, within, .refl, ?_⟩
  rintro _ _ ⟨⟩
  rfl

/-- A fault is returned. -/
theorem error (fault : SyntaxFault) (within : position ≤ body.length) :
    Yields input body rule depth frames (some (.returns (.error fault), ⟨position, depth⟩))
      (.error fault) :=
  ⟨_, rfl, position, within, .refl, nofun⟩

end Yields

/-- A part that stands in no deeper level than `depth'` is waited for, and what is made of it then
yields the outcome. -/
theorem Returns.of_callee {depth' : Nat} {frame : Frame} {reader : Reader}
    {next : Expr × List Token → Outcome} (callee : Performs input body frame.callee depth' reader)
    (resumed : ∀ position result, resume input frame result ⟨position, depth'⟩ =
      proceed input frame result ⟨position, depth⟩)
    (within : position ≤ body.length)
    (further : ∀ tree position', position' ≤ body.length →
      reader.run (body.drop position) = .ok (tree, body.drop position') →
      Yields input body frame.rule depth frames (proceed input frame (.ok tree) ⟨position', depth⟩)
        (next (tree, body.drop position'))) :
    Returns input body frame.rule depth frames
      ⟨⟨position, depth'⟩, .entering frame.callee, frame :: frames⟩
      ((reader.run (body.drop position)).bind next) := by
  obtain ⟨position', within', carried, left⟩ := callee position (frame :: frames) within
  have above (result : Result) :
      IsAbove frames ⟨⟨position', depth'⟩, .returning frame.callee result, frame :: frames⟩ :=
    ⟨List.suffix_cons frame frames, fun same => absurd same (List.cons_ne_self frame frames)⟩
  have steps (result : Result) :
      Machine.step input ⟨⟨position', depth'⟩, .returning frame.callee result, frame :: frames⟩ =
        after frame.rule frames (proceed input frame result ⟨position', depth⟩) := by
    rw [Machine.step, resumed]
  have yields : Yields input body frame.rule depth frames
      (proceed input frame ((reader.run (body.drop position)).map Prod.fst) ⟨position', depth⟩)
      ((reader.run (body.drop position)).bind next) := by
    cases made : reader.run (body.drop position) with
    | error fault =>
      have passes : proceed input frame (.error fault) ⟨position', depth⟩ =
          some (.returns (.error fault), ⟨position', depth⟩) := by cases frame <;> rfl
      rw [Except.map, passes]
      exact .error fault within'
    | ok reading =>
      obtain ⟨tree, rest⟩ := reading
      obtain rfl := left tree rest made
      exact further tree position' within' made
  obtain ⟨machine, stepped, position'', within'', carried', left'⟩ := yields
  refine ⟨position'', within'', carried.of_cons.trans (.head ⟨?_, above _⟩ carried'), left'⟩
  rw [Steps, steps, stepped]

/-- A part at the same level of nesting is waited for. -/
theorem Yields.calls (frame : Frame) {reader : Reader} {next : Expr × List Token → Outcome}
    (direct : frame.isNested = false) (callee : Performs input body frame.callee depth reader)
    (within : position ≤ body.length)
    (further : ∀ tree position', position' ≤ body.length →
      reader.run (body.drop position) = .ok (tree, body.drop position') →
      Yields input body frame.rule depth frames (proceed input frame (.ok tree) ⟨position', depth⟩)
        (next (tree, body.drop position'))) :
    Yields input body frame.rule depth frames (some (.waits frame, ⟨position, depth⟩))
      ((reader.run (body.drop position)).bind next) :=
  ⟨_, rfl, .of_callee callee (fun _ _ => by rw [resume, direct]; rfl) within further⟩

/-- What a part at the same level of nesting is read as is handed on. -/
theorem Yields.passes (frame : Frame) {reader : Reader} (direct : frame.isNested = false)
    (hands : ∀ tree, proceed input frame (.ok tree) = pure (.returns (.ok tree)))
    (callee : Performs input body frame.callee depth reader) (within : position ≤ body.length) :
    Yields input body frame.rule depth frames (some (.waits frame, ⟨position, depth⟩))
      (reader.run (body.drop position)) := by
  have same : reader.run (body.drop position) =
      (reader.run (body.drop position)).bind .ok := by
    cases reader.run (body.drop position) <;> rfl
  rw [same]
  refine .calls frame direct callee within fun tree position' within' _ => ?_
  rw [hands]
  exact .ok tree within'

end

/-! ## Nested places -/

/-- Where one more level of nesting is allowed a rule performs a reader in it, and where it is not
the reader refuses whatever it is given. -/
structure Inside (input body : List Token) (stop : Offset) (rule : Rule) (depth : Nat)
    (reader : Reader) : Prop where
  allowed : depth < maxNesting → Performs input body rule (depth + 1) reader
  spent : maxNesting ≤ depth → reader = tooDeep stop maxNesting

section
variable {input body : List Token} {stop : Offset} (h : EndsAfter input body stop) {depth : Nat}
include h

/-- A part in a nested place is waited for, or refused. -/
theorem Yields.nests (frame : Frame) {frames : List Frame} {position : Nat} {reader : Reader}
    {next : Expr × List Token → Outcome} (opens : frame.isNested)
    (inner : Inside input body stop frame.callee depth reader) (within : position ≤ body.length)
    (further : ∀ tree position', position' ≤ body.length →
      reader.run (body.drop position) = .ok (tree, body.drop position') →
      Yields input body frame.rule depth frames (proceed input frame (.ok tree) ⟨position', depth⟩)
        (next (tree, body.drop position'))) :
    Yields input body frame.rule depth frames (nested input frame ⟨position, depth⟩)
      ((reader.run (body.drop position)).bind next) := by
  rcases Nat.lt_or_ge depth maxNesting with allowed | spent
  · rw [nested_of_lt input frame ⟨position, depth⟩ allowed]
    exact ⟨_, rfl, .of_callee (inner.allowed allowed) (fun _ _ => by rw [resume, opens]; rfl)
      within further⟩
  · rw [nested_of_le h frame ⟨position, depth⟩ spent within, inner.spent spent]
    exact .error _ within

/-! ## Rules -/

/-- What stands behind an opening bracket is closed. -/
theorem yields_closing {rule : Rule} {frames : List Frame} {position : Nat} (opened : Offset)
    (node : Expr → Expr) (tree : Expr) (within : position ≤ body.length) :
    Yields input body rule depth frames (closing input opened (node tree) ⟨position, depth⟩)
      (under node (Reader.closing stop opened (tree, body.drop position))) := by
  rcases closing_cases stop (body.drop position) with unclosed | ⟨closeOffset, more, front⟩
  · rw [closing_of_current unclosed, closing, Scan.bind_eq (acceptSymbol_of_ne h within unclosed)]
    simp only
    rw [Scan.bind_eq (peek_eq h within)]
    exact .error _ within
  · rw [closing, Scan.bind_eq (acceptSymbol_eq h front), front,
      ← drop_succ_of_drop_eq_cons front]
    exact .ok (node tree) (lt_of_drop_eq_cons front)

variable {nested : Scope}

/-- A token that no primary expression starts with is refused, if it is stepped over or not. -/
theorem primary_of_refused (depth : Nat) {position : Nat} (within : position ≤ body.length)
    (refused : (current stop (body.drop position)).startsPrimary = false) :
    ∃ position' ≤ body.length, primary input ⟨position, depth⟩ =
      some (.returns (.error (.unexpectedToken (current stop (body.drop position)))),
        ⟨position', depth⟩) := by
  rw [primary, Scan.bind_eq (peek_eq h within)]
  match front : body.drop position with
  | ⟨.register (some digits), offset⟩ :: rest =>
    rw [front] at refused
    have unreadable : RegisterId.ofText? digits = none :=
      Option.not_isSome_iff_eq_none.1 (Bool.eq_false_iff.1 refused)
    refine ⟨position + 1, lt_of_drop_eq_cons front, ?_⟩
    simp only [current]
    rw [Scan.bind_eq (advance_eq h front)]
    simp only [Lexeme.registerId?, unreadable]
    rfl
  | ⟨.number _ none, _⟩ :: _ | ⟨.register none, _⟩ :: _ =>
    refine ⟨position + 1, lt_of_drop_eq_cons front, ?_⟩
    simp only [current]
    rw [Scan.bind_eq (advance_eq h front)]
    rfl
  | ⟨.number _ (some _), _⟩ :: _ =>
    rw [front] at refused
    cases refused
  | ⟨.symbol symbol, _⟩ :: _ =>
    rw [front] at refused
    refine ⟨position, within, ?_⟩
    cases symbol <;> first | rfl | cases refused
  | [] | ⟨.name _, _⟩ :: _ | ⟨.endOfInput, _⟩ :: _ => exact ⟨position, within, rfl⟩

/-- Primary expressions. -/
theorem performs_primary (inner : Inside input body stop .expression depth nested.expression) :
    Performs input body .primary depth (Reader.primary stop nested) := by
  refine .of_begin fun position frames within => ?_
  show Yields input body .primary depth frames (primary input ⟨position, depth⟩) _
  rcases primary_cases stop (body.drop position) with refused | ⟨text, value, offset, rest, front⟩ |
    ⟨digits, id, offset, rest, named, front⟩ | ⟨openOffset, rest, front⟩
  · obtain ⟨position', within', scanned⟩ := primary_of_refused h depth within refused
    rw [scanned, run_primary_of_current refused]
    exact .error _ within'
  · rw [primary, Scan.bind_eq (peek_eq h within), front]
    simp only [current]
    rw [Scan.bind_eq (advance_eq h front), run_primary_number, ← drop_succ_of_drop_eq_cons front]
    exact .ok _ (lt_of_drop_eq_cons front)
  · rw [primary, Scan.bind_eq (peek_eq h within), front]
    simp only [current]
    rw [Scan.bind_eq (advance_eq h front), run_primary_register named,
      ← drop_succ_of_drop_eq_cons front]
    simp only [Lexeme.registerId?, named]
    exact .ok _ (lt_of_drop_eq_cons front)
  · rw [primary, Scan.bind_eq (peek_eq h within), front]
    simp only [current]
    rw [Scan.bind_eq (advance_eq h front), run_primary_group, run_enclosed,
      ← drop_succ_of_drop_eq_cons front]
    refine .nests h (.group openOffset) rfl inner (lt_of_drop_eq_cons front)
      fun tree position' within' _ => ?_
    rw [← under_id (Reader.closing _ _ _)]
    exact yields_closing h openOffset id tree within'

/-- Where no name is current, a primary expression is waited for. -/
theorem call_of_not_name (depth : Nat) {position : Nat} (within : position ≤ body.length)
    (notName : ∀ letters, (current stop (body.drop position)).lexeme ≠ .name letters) :
    call input ⟨position, depth⟩ = some (.waits .uncalled, ⟨position, depth⟩) := by
  rw [call, Scan.bind_eq (peek_eq h within)]
  generalize current stop (body.drop position) = token at notName ⊢
  obtain ⟨lexeme, offset⟩ := token
  cases lexeme with
  | name letters => exact absurd rfl (notName letters)
  | number _ _ | register _ | symbol _ | endOfInput => rfl

/-- Calls of functions. -/
theorem performs_call (inner : Inside input body stop .expression depth nested.expression) :
    Performs input body .call depth (Reader.call stop nested) := by
  refine .of_begin fun position frames within => ?_
  show Yields input body .call depth frames (call input ⟨position, depth⟩) _
  rcases call_cases stop (body.drop position) with notName |
    ⟨letters, nameOffset, rest, unknown, front⟩ | ⟨function, nameOffset, rest, front, opening⟩
  · rw [run_call_of_current notName]
    rw [call_of_not_name h depth within notName]
    exact .passes .uncalled rfl (fun _ => rfl) (performs_primary h inner) within
  · rw [call, Scan.bind_eq (peek_eq h within), front, run_call_unknown unknown]
    simp only [current]
    rw [Scan.bind_eq (advance_eq h front)]
    simp only [Function.isCallable_eq, unknown, Option.isSome_none, Bool.not_false, if_true]
    exact .error _ (lt_of_drop_eq_cons front)
  · rw [call, Scan.bind_eq (peek_eq h within), front]
    simp only [current]
    rw [Scan.bind_eq (advance_eq h front)]
    have behind := drop_succ_of_drop_eq_cons front
    have within' : position + 1 ≤ body.length := lt_of_drop_eq_cons front
    simp only [Option.getD_some, Function.isCallable_name, Bool.not_true, Bool.false_eq_true,
      if_false]
    rcases opening with unopened | ⟨openOffset, inside, rfl⟩
    · rw [run_call_unopened unopened]
      rw [← behind] at unopened ⊢
      rw [Scan.bind_eq (acceptSymbol_of_ne h within' unopened)]
      simp only
      rw [Scan.bind_eq (peek_eq h within')]
      exact .error _ within'
    · rw [run_call_name, Scan.bind_eq (acceptSymbol_eq h behind), run_enclosed, under_bind,
        ← drop_succ_of_drop_eq_cons behind]
      exact .nests h (.argument function.name nameOffset openOffset) rfl inner
        (lt_of_drop_eq_cons behind) fun tree position' within' _ =>
          yields_closing h openOffset (.call function.name · nameOffset) tree within'

/-- Operands with their prefix operators. -/
theorem performs_unary (inner : Inside input body stop .expression depth nested.expression)
    (innerOperand : Inside input body stop .unary depth nested.operand) :
    Performs input body .unary depth (Reader.unary stop nested) := by
  refine .of_begin fun position frames within => ?_
  show Yields input body .unary depth frames (unary input ⟨position, depth⟩) _
  rw [unary]
  rcases unary_cases stop (body.drop position) with notPrefix | ⟨op, offset, rest, front⟩
  · rw [Scan.bind_eq (accept_of_none h within notPrefix), run_unary_of_current notPrefix]
    exact .passes .unprefixed rfl (fun _ => rfl) (performs_call h inner) within
  · rw [Scan.bind_eq (accept_of_some h front op.ofSymbol?_symbol), front, run_unary_prefixed,
      ← drop_succ_of_drop_eq_cons front]
    exact .nests h (.prefixed op offset) rfl innerOperand (lt_of_drop_eq_cons front)
      fun tree position' within' _ => .ok (.unary op tree offset) within'

/-- A level of binary operators goes on from a left operand. -/
theorem yields_chain {index : Fin BinaryOp.levels.length} {operand : Reader}
    (callee : Performs input body (.fromLevel (index + 1)) depth operand) {frames : List Frame}
    (left : Expr) {position : Nat} (within : position ≤ body.length) :
    Yields input body (.level index) depth frames (chain input index left ⟨position, depth⟩)
      (goOn (BinaryOp.levels.get index) operand left (body.drop position)) := by
  -- The induction is on the tokens that are left, which each operand makes fewer.
  induction length : (body.drop position).length using Nat.strongRecOn
    generalizing left position with
  | ind n further =>
    rw [chain]
    rcases goOn_cases stop (BinaryOp.levels.get index) (body.drop position) with ends |
      ⟨op, ofLevel, offset, after, front⟩
    · rw [Scan.bind_eq (accept_of_none h within ends), goOn_of_current ends]
      exact .ok left within
    · have isOp := Token.operator?_of_mem ofLevel offset
      rw [Scan.bind_eq (accept_of_some h front isOp), front, goOn_of_some isOp,
        ← drop_succ_of_drop_eq_cons front]
      refine .calls (.right index op left offset) rfl callee (lt_of_drop_eq_cons front)
        fun right position' within' made => ?_
      have fewer := length_lt_of_run made
      rw [drop_succ_of_drop_eq_cons front] at fewer
      rw [front, List.length_cons] at length
      exact further _ (by omega) _ within' rfl

/-- The levels of binary operators, from one of them on. -/
theorem performs_fromLevel {operand : Reader} (callee : Performs input body .unary depth operand)
    {index : Nat} (isLevel : index ≤ BinaryOp.levels.length) :
    Performs input body (.fromLevel index) depth
      (ladder (BinaryOp.levels.drop index) operand) := by
  induction isLevel using Nat.decreasingInduction with
  | self => exact callee
  | of_succ index inside ih =>
    rw [Rule.fromLevel, dif_pos inside, List.drop_eq_getElem_cons inside]
    refine .of_begin fun position frames within => ?_
    rw [ladder, run_leftAssociative]
    exact .calls (.left ⟨index, inside⟩) rfl ih within
      fun left position' within' _ => yields_chain h ih left within'

/-- Where no assignment starts, an expression of the loosest level is waited for. -/
theorem assignment_of_not (depth : Nat) {position : Nat} (within : position ≤ body.length)
    (starts : startsAssignment (body.drop position) = false) :
    assignment input ⟨position, depth⟩ = some (.waits .loosest, ⟨position, depth⟩) := by
  rw [assignment, Scan.bind_eq (peek_eq h within)]
  cases front : body.drop position with
  | nil =>
    rw [Scan.bind_eq (show peekAhead input ⟨position, depth⟩ = _ from rfl),
      if_neg (fun both => nomatch both.1)]
    rfl
  | cons token rest =>
    have notBoth : ¬(token.isRegister ∧
        (some (current stop rest)).bind Token.symbol? = some .assign) := by
      rintro ⟨register, isSign⟩
      obtain ⟨offset, more, rfl⟩ := eq_cons_of_symbol? isSign
      rw [front, startsAssignment, register] at starts
      cases starts
    rw [Scan.bind_eq (peekAhead_eq h front), current, if_neg notBoth]
    rfl

/-- Assignments and expressions of the loosest level. -/
theorem performs_assignment (inner : Inside input body stop .expression depth nested.expression)
    (innerValue : Inside input body stop .assignment depth nested.expression)
    (innerOperand : Inside input body stop .unary depth nested.operand) :
    Performs input body .assignment depth (Reader.assignment stop nested) := by
  refine .of_begin fun position frames within => ?_
  show Yields input body .assignment depth frames (assignment input ⟨position, depth⟩) _
  cases starts : startsAssignment (body.drop position) with
  | false =>
    rw [assignment_of_not h depth within starts, run_assignment_of_not starts]
    exact .passes .loosest rfl (fun _ => rfl)
      (performs_fromLevel h (performs_unary h inner innerOperand) (Nat.zero_le _)) within
  | true =>
    match front : body.drop position with
    | [] | [_] =>
      rw [front] at starts
      cases starts
    | target :: sign :: rest =>
      rw [front] at starts
      obtain ⟨register, isSign⟩ := Bool.and_eq_true_iff.1 starts
      have both : target.isRegister ∧
          (some (current stop (sign :: rest))).bind Token.symbol? = some .assign :=
        ⟨register, beq_iff_eq.1 isSign⟩
      rw [assignment, Scan.bind_eq (peek_eq h within), front,
        Scan.bind_eq (peekAhead_eq h front), current, if_pos both,
        Scan.bind_eq (advance_eq h front)]
      have behind := drop_succ_of_drop_eq_cons front
      have within' : position + 1 ≤ body.length := lt_of_drop_eq_cons front
      cases readable : target.lexeme.registerId? with
      | none =>
        have unread : target.startsPrimary = false := by
          rw [Token.startsPrimary_of_isRegister register, readable]
          rfl
        have refused : (Reader.assignment stop nested).run (target :: sign :: rest) =
            .error (.unexpectedToken target) := run_assignment_of_current register unread
        rw [refused]
        exact .error _ within'
      | some id =>
        obtain ⟨digits, named, is⟩ := Token.eq_of_registerId? readable
        rw [is, Token.eq_of_symbol? (beq_iff_eq.1 isSign), run_assignment_assign named]
        simp only
        rw [Scan.bind_eq (peek_eq h within'), behind, Scan.bind_eq (advance_eq h behind),
          ← drop_succ_of_drop_eq_cons behind]
        exact .nests h (.assigned id sign.offset) rfl innerValue (lt_of_drop_eq_cons behind)
          fun tree position' within' _ => .ok (.assign id tree sign.offset) within'

omit h in
/-- An expression is an assignment or one of the loosest level. -/
theorem performs_expression {reader : Reader}
    (callee : Performs input body .assignment depth reader) :
    Performs input body .expression depth reader :=
  .of_begin fun _ _ within => .passes .expression rfl (fun _ => rfl) callee within

/-! ## All levels of nesting -/

/-- In nested places the rules perform the readers that `budget` further levels leave, and refuse
where there are none. -/
theorem inside_nested {budget : Nat} (left : depth + budget = maxNesting) :
    Inside input body stop .expression depth (Scope.nested stop maxNesting budget).expression ∧
      Inside input body stop .assignment depth (Scope.nested stop maxNesting budget).expression ∧
      Inside input body stop .unary depth (Scope.nested stop maxNesting budget).operand := by
  induction budget generalizing depth with
  | zero =>
    have spent {rule : Rule} :
        Inside input body stop rule depth (tooDeep stop maxNesting) :=
      ⟨fun allowed => by omega, fun _ => rfl⟩
    exact ⟨spent, spent, spent⟩
  | succ budget ih =>
    have allowed {rule : Rule} {reader : Reader}
        (performs : Performs input body rule (depth + 1) reader) :
        Inside input body stop rule depth reader :=
      ⟨fun _ => performs, fun spent => by omega⟩
    obtain ⟨inner, innerValue, innerOperand⟩ := @ih (depth + 1) (by omega)
    rw [Scope.nested, Scope.within_eq_around]
    have assignment := performs_assignment h inner innerValue innerOperand
    exact ⟨allowed (performs_expression assignment), allowed assignment,
      allowed (performs_unary h inner innerOperand)⟩

/-- Every rule performs the reader of its category, where as many levels may be opened as are left
at its depth. -/
theorem performs (rule : Rule) (allowed : depth ≤ maxNesting) :
    Performs input body rule depth
      (rule.category.reader stop (.nested stop maxNesting (maxNesting - depth))) := by
  obtain ⟨inner, innerValue, innerOperand⟩ :=
    inside_nested h (Nat.add_sub_of_le allowed)
  have assignment := performs_assignment h inner innerValue innerOperand
  have unary := performs_unary h inner innerOperand
  cases rule with
  | expression => exact performs_expression assignment
  | assignment => exact assignment
  | level index =>
    have fromLevel := performs_fromLevel h unary index.isLt.le
    rw [Rule.fromLevel, dif_pos index.isLt] at fromLevel
    exact fromLevel
  | unary => exact unary
  | call => exact performs_call h inner
  | primary => exact performs_primary h inner

end

/-! ## Statements -/

namespace Machine

/-- What is concluded from what was read and the tokens that are left: all must have been read. -/
theorem conclude_eq {input body : List Token} {stop : Offset} (h : EndsAfter input body stop)
    {cursor : Cursor} (within : cursor.position ≤ body.length) {outcome : Outcome}
    (left : ∀ tree rest, outcome = .ok (tree, rest) → body.drop cursor.position = rest) :
    conclude input (outcome.map Prod.fst) cursor = some (outcome.bind Expr.complete, cursor) := by
  cases outcome with
  | error fault => rfl
  | ok reading =>
    obtain ⟨tree, rest⟩ := reading
    have front := left tree rest rfl
    rw [Except.map, conclude, Scan.bind_eq (peek_eq h within), front]
    cases rest with
    | nil => rfl
    | cons token more =>
      have notEnd := Bool.eq_false_iff.1
        (h.noEnd token (List.mem_of_mem_drop (front ▸ List.mem_cons_self)))
      rw [current, if_neg notEnd]
      rfl

/-- Whatever the tokens are, a machine from the start ends, and with what is made of them. -/
theorem finishes (tokens : List Token) : ∃ machine, Reaches (withEnd tokens) start machine ∧
    machine.step (withEnd tokens) = .finished (Expr.ofTokens tokens) := by
  have h := endsAfter_withEnd tokens
  obtain ⟨position, within, carried, left⟩ :=
    performs h .expression (Nat.zero_le maxNesting) 0 [] (Nat.zero_le _)
  refine ⟨_, carried.reaches, ?_⟩
  have concluded := @conclude_eq _ _ _ h ⟨position, 0⟩ within _ left
  rw [Machine.step, concluded, Expr.ofTokens, Expr.ofTokensWithin_eq]
  rfl

end Machine

end RegisterCalc.Descent
