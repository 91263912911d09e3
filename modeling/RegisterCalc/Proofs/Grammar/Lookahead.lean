import RegisterCalc.Proofs.Grammar.Beginning
import RegisterCalc.Proofs.Grammar.Refusing
import RegisterCalc.Proofs.Grammar.Soundness

/-!
# One token of lookahead

What a reader makes of tokens is settled when it has taken some of them and sees the current one:
whatever stands behind, it takes the same tree or fails for the same fault (`Outcome.Settled`). If
it fails, the fault is at the current token, and the tokens before it begin an expression of the
category of the reader. This holds even where more levels of nesting may be spent than in the first
place, unless the first fault was one of nesting (`Reader.settles_statement`).

The relation composes as readers do: a step behind tokens (`Outcome.Settled.after`), a second step
after a first one (`Outcome.Settled.bind`). Assignments alone look at two tokens, a register and the
sign after it, but a register is the beginning of an expression whatever follows it.
-/

namespace RegisterCalc

open Reader

/-! ## The current token -/

section
variable {stop stop' : Offset} {before rest rest' : List Token}

/-- The same token is current in front of which the same tokens stand. -/
theorem Reader.current_append (same : current stop' rest' = current stop rest) :
    current stop' (before ++ rest') = current stop (before ++ rest) := by
  cases before with
  | nil => exact same
  | cons token before => rfl

/-- The current token is the first one, or the end of the input where there is none. -/
theorem Reader.eq_cons_of_current {token : Token} (same : current stop rest = token)
    (notEnd : token.isEnd = false) : ∃ more, rest = token :: more := by
  cases rest with
  | nil =>
    rw [← same] at notEnd
    cases notEnd
  | cons first more => exact ⟨more, congrArg (· :: more) same⟩

end

/-! ## Settled outcomes -/

/-- The outcome for `tokens` is settled at the current token, if it is no fault of nesting:
`elsewhere` has the same one for all tokens that are the same up to there. -/
inductive Outcome.Settled (stop stop' : Offset) (begins : List Token → Prop)
    (elsewhere : List Token → Outcome) (tokens : List Token) (outcome : Outcome) : Prop where
  /-- Nested too deep, which says nothing about other tokens. -/
  | nesting (limit : Nat) (offset : Offset) (made : outcome = .error (.nestingTooDeep limit offset))
  /-- A tree is read. -/
  | reads (before rest : List Token) (tree : Expr) (cut : before ++ rest = tokens)
      (made : outcome = .ok (tree, rest))
      (same : ∀ rest', current stop' rest' = current stop rest →
        elsewhere (before ++ rest') = .ok (tree, rest'))
  /-- The current token is refused. -/
  | refuses (before rest : List Token) (fault : SyntaxFault) (cut : before ++ rest = tokens)
      (made : outcome = .error fault) (place : fault.offset = (current stop rest).offset)
      (viable : begins before)
      (same : ∀ rest', current stop' rest' = current stop rest →
        elsewhere (before ++ rest') = .error fault)

namespace Outcome.Settled

variable {stop stop' : Offset} {begins begins' : List Token → Prop}
  {elsewhere elsewhere' : List Token → Outcome} {tokens : List Token} {outcome : Outcome}

/-- A reading without tokens is settled. -/
theorem done {tree : Expr} (made : outcome = .ok (tree, tokens))
    (same : ∀ tokens', current stop' tokens' = current stop tokens →
      elsewhere tokens' = .ok (tree, tokens')) :
    Settled stop stop' begins elsewhere tokens outcome :=
  .reads [] tokens tree rfl made same

/-- A refusal of the first token is settled. -/
theorem refused {fault : SyntaxFault} (made : outcome = .error fault)
    (place : fault.offset = (current stop tokens).offset) (viable : begins [])
    (same : ∀ tokens', current stop' tokens' = current stop tokens →
      elsewhere tokens' = .error fault) :
    Settled stop stop' begins elsewhere tokens outcome :=
  .refuses [] tokens fault rfl made place viable same

/-- An outcome stays settled where more is a beginning. -/
theorem mono (h : Settled stop stop' begins elsewhere tokens outcome)
    (more : ∀ before, begins before → begins' before) :
    Settled stop stop' begins' elsewhere tokens outcome := by
  cases h with
  | nesting limit offset made => exact .nesting limit offset made
  | reads before rest tree cut made same => exact .reads before rest tree cut made same
  | refuses before rest fault cut made place viable same =>
    exact .refuses before rest fault cut made place (more before viable) same

/-- An outcome for what stands behind some tokens is settled for them and what stands behind. -/
theorem after (before : List Token) {rest : List Token}
    (h : Settled stop stop' (fun more => begins (before ++ more)) elsewhere rest outcome)
    (step : ∀ rest', current stop' rest' = current stop rest →
      elsewhere' (before ++ rest') = elsewhere rest') :
    Settled stop stop' begins elsewhere' (before ++ rest) outcome := by
  cases h with
  | nesting limit offset made => exact .nesting limit offset made
  | reads taken last tree cut made same =>
    refine .reads (before ++ taken) last tree ?_ made fun rest' current => ?_
    · rw [List.append_assoc, cut]
    · rw [List.append_assoc, step _ (cut ▸ current_append current)]
      exact same rest' current
  | refuses taken last fault cut made place viable same =>
    refine .refuses (before ++ taken) last fault ?_ made place viable fun rest' current => ?_
    · rw [List.append_assoc, cut]
    · rw [List.append_assoc, step _ (cut ▸ current_append current)]
      exact same rest' current

/-- An outcome stays settled where the current token decides for another reader. -/
theorem congr (h : Settled stop stop' begins elsewhere tokens outcome)
    (equal : ∀ tokens', current stop' tokens' = current stop tokens →
      elsewhere' tokens' = elsewhere tokens') :
    Settled stop stop' begins elsewhere' tokens outcome :=
  h.after [] equal

/-- A second step is settled behind the tokens that the first one took. -/
theorem bind {next next' : Expr × List Token → Outcome}
    (first : Settled stop stop' begins elsewhere tokens outcome)
    (second : ∀ before tree rest, before ++ rest = tokens → outcome = .ok (tree, rest) →
      Settled stop stop' (fun more => begins (before ++ more)) (fun rest => next' (tree, rest)) rest
        (next (tree, rest))) :
    Settled stop stop' begins (fun tokens => (elsewhere tokens).bind next') tokens
      (outcome.bind next) := by
  cases first with
  | nesting limit offset made =>
    rw [made]
    exact .nesting limit offset rfl
  | refuses before rest fault cut made place viable same =>
    rw [made]
    refine .refuses before rest fault cut rfl place viable fun rest' current => ?_
    rw [same rest' current]
    rfl
  | reads before rest tree cut made same =>
    have further := second before tree rest cut made
    rw [made, ← cut]
    refine further.after before fun rest' current => ?_
    rw [same rest' current]
    rfl

/-- A node over the tree leaves an outcome settled. -/
theorem under (h : Settled stop stop' begins elsewhere tokens outcome) (node : Expr → Expr) :
    Settled stop stop' begins (fun tokens => Reader.under node (elsewhere tokens)) tokens
      (Reader.under node outcome) :=
  h.bind fun _ _ _ _ _ => done rfl fun _ _ => rfl

end Outcome.Settled

/-! ## Readers with one token of lookahead -/

namespace Reader

open Outcome (Settled)

/-- Whatever `reader` makes of tokens is settled at the current token, for `reader'` as well. -/
def Settles (stop stop' : Offset) (c : Category) (reader reader' : Reader) : Prop :=
  ∀ tokens, Settled stop stop' c.Begins reader'.run tokens (reader.run tokens)

/-- What a reader with one token of lookahead reads does not change with what stands behind. -/
theorem Settles.reads {stop stop' : Offset} {c : Category} {reader reader' : Reader}
    (h : Settles stop stop' c reader reader') {tokens rest : List Token} {tree : Expr}
    (read : reader.run tokens = .ok (tree, rest)) : ∃ before, before ++ rest = tokens ∧
      ∀ rest', current stop' rest' = current stop rest →
        reader'.run (before ++ rest') = .ok (tree, rest') := by
  have settled := h tokens
  rw [read] at settled
  cases settled with
  | reads before rest tree cut made same =>
    cases made
    exact ⟨before, cut, same⟩
  | nesting limit offset made | refuses before rest fault cut made => cases made

section
variable {stop stop' : Offset} {bound : Nat} {nested nested' : Scope}

/-- What a reader took off the front is spelled by a derivation. -/
theorem ReadsOnly.eq_tokens {c : Category} {reader : Reader} (sound : ReadsOnly c bound reader)
    {tokens before rest : List Token} {tree : Expr} (cut : before ++ rest = tokens)
    (h : reader.run tokens = .ok (tree, rest)) :
    ∃ d : Derivation c, d.tokens = before ∧ d.tree = tree := by
  obtain ⟨d, spelled, denoted, -⟩ := sound _ _ _ h
  exact ⟨d, List.append_cancel_right (spelled.trans cut.symm), denoted⟩

/-! ### Operands -/

/-- What stands behind an opening bracket is settled: the closing one is what must be current. -/
theorem settles_enclosed {inside inside' : Reader} (sound : ReadsOnly .assignment bound inside)
    (ih : Settles stop stop' .assignment inside inside') (opened : Offset) :
    Settles stop stop' .assignment (enclosed stop opened inside)
      (enclosed stop' opened inside') := by
  intro tokens
  rw [run_enclosed, funext (run_enclosed opened inside')]
  refine (ih tokens).bind fun before tree rest cut made => ?_
  obtain ⟨d, rfl, -⟩ := sound.eq_tokens cut made
  rcases closing_cases stop rest with unclosed | ⟨closeOffset, more, rfl⟩
  · refine .refused (closing_of_current unclosed opened tree) rfl ?_ fun rest' same => ?_
    · rw [List.append_nil]
      exact .whole d
    · rw [← same] at unclosed ⊢
      exact closing_of_current unclosed opened tree
  · exact .reads [_] more tree rfl rfl fun rest' _ => rfl

/-- Primary expressions are settled by their first token, groups behind their bracket. -/
theorem settles_primary (sound : ReadsOnly .assignment bound nested.expression)
    (ih : Settles stop stop' .assignment nested.expression nested'.expression) :
    Settles stop stop' .primary (primary stop nested) (primary stop' nested') := by
  intro tokens
  rcases primary_cases stop tokens with refused | ⟨text, value, offset, rest, rfl⟩ |
    ⟨digits, id, offset, rest, named, rfl⟩ | ⟨openOffset, rest, rfl⟩
  · refine .refused (run_primary_of_current refused) rfl (.nil _) fun tokens' same => ?_
    rw [← same] at refused ⊢
    exact run_primary_of_current refused
  · exact .reads [_] rest _ rfl (run_primary_number text value offset)
      fun rest' _ => run_primary_number text value offset
  · exact .reads [_] rest _ rfl (run_primary_register named offset)
      fun rest' _ => run_primary_register named offset
  · rw [run_primary_group]
    refine .after [_] ?_ fun rest' _ => run_primary_group openOffset
    exact (settles_enclosed sound ih openOffset rest).mono
      fun before viable => viable.group openOffset

/-- Calls are settled: a name must be a function's, and an opening bracket must follow it. -/
theorem settles_call (sound : ReadsOnly .assignment bound nested.expression)
    (ih : Settles stop stop' .assignment nested.expression nested'.expression) :
    Settles stop stop' .call (call stop nested) (call stop' nested') := by
  intro tokens
  rcases call_cases stop tokens with notName | ⟨letters, nameOffset, rest, unknown, rfl⟩ |
    ⟨function, nameOffset, rest, rfl, unopened | ⟨openOffset, inside, rfl⟩⟩
  · rw [run_call_of_current notName]
    refine Settled.congr ((settles_primary sound ih tokens).mono fun _ viable => viable.uncalled)
      fun tokens' same => ?_
    rw [← same] at notName
    exact run_call_of_current notName
  · refine .refused (run_call_unknown unknown) rfl (.nil _) fun tokens' same => ?_
    obtain ⟨rest', rfl⟩ := eq_cons_of_current same rfl
    exact run_call_unknown unknown
  · refine .refuses [_] rest _ rfl (run_call_unopened unopened function nameOffset) rfl
      (.name function nameOffset) fun rest' same => ?_
    rw [← same] at unopened ⊢
    exact run_call_unopened unopened function nameOffset
  · rw [run_call_name]
    refine .after [_, _] ?_ fun rest' _ => run_call_name function nameOffset openOffset
    exact ((settles_enclosed sound ih openOffset inside).mono
      fun before viable => viable.argument function nameOffset openOffset).under _

/-- Operands are settled, behind a prefix operator as nested ones are. -/
theorem settles_unary (sound : ReadsOnly .assignment bound nested.expression)
    (ih : Settles stop stop' .assignment nested.expression nested'.expression)
    (ihOperand : Settles stop stop' .unary nested.operand nested'.operand) :
    Settles stop stop' .unary (unary stop nested) (unary stop' nested') := by
  intro tokens
  rcases unary_cases stop tokens with notPrefix | ⟨op, offset, inside, rfl⟩
  · rw [run_unary_of_current notPrefix]
    refine Settled.congr ((settles_call sound ih tokens).mono fun _ viable => viable.unprefixed)
      fun tokens' same => ?_
    rw [← same] at notPrefix
    exact run_unary_of_current notPrefix
  · rw [run_unary_prefixed]
    refine .after [_] ?_ fun rest' _ => run_unary_prefixed op offset
    exact ((ihOperand inside).mono fun before viable => viable.prefixed op offset).under _

/-! ### Levels of binary operators -/

section
variable {level : List BinaryOp} {levels : List (List BinaryOp)} {operand operand' : Reader}

/-- A chain that goes on from a derivation as its left operand is settled. -/
theorem settled_goOn (sound : ReadsOnly (.ladder levels) bound operand)
    (ih : Settles stop stop' (.ladder levels) operand operand')
    (left : Derivation (.ladder (level :: levels))) (rest : List Token) :
    Settled stop stop'
      (fun more => (Category.ladder (level :: levels)).Begins (left.tokens ++ more))
      (goOn level operand' left.tree) rest (goOn level operand left.tree rest) := by
  -- `left` spells all that was read so far: it grows as the tokens that are left get fewer.
  induction length : rest.length using Nat.strongRecOn generalizing left rest with
  | ind n further =>
    rcases goOn_cases stop level rest with ends | ⟨op, ofLevel, offset, after, rfl⟩
    · refine .done (goOn_of_current ends left.tree) fun rest' same => ?_
      rw [← same] at ends
      exact goOn_of_current ends left.tree
    · have isOp := Token.operator?_of_mem ofLevel offset
      rw [goOn_of_some isOp]
      refine .after [_] ?_ fun rest' _ => goOn_of_some isOp left.tree
      refine ((ih after).mono fun before viable => viable.right left ofLevel offset).bind
        fun before tree rest' cut made => ?_
      obtain ⟨right, rfl, rfl⟩ := sound.eq_tokens cut made
      have fewer : rest'.length < n := by
        have := length_lt_of_run made
        rw [List.length_cons] at length
        omega
      refine (further _ fewer (.operation left op ofLevel offset right) rest' rfl).mono
        fun more viable => ?_
      simpa [Derivation.tokens] using viable

/-- A level with settled operands is settled. -/
theorem settles_leftAssociative (sound : ReadsOnly (.ladder levels) bound operand)
    (ih : Settles stop stop' (.ladder levels) operand operand') :
    Settles stop stop' (.ladder (level :: levels)) (leftAssociative level operand)
      (leftAssociative level operand') := by
  intro tokens
  rw [run_leftAssociative, funext run_leftAssociative]
  refine ((ih tokens).mono fun before viable => viable.tighter).bind
    fun before tree rest cut made => ?_
  obtain ⟨left, rfl, rfl⟩ := sound.eq_tokens cut made
  exact settled_goOn sound ih (.tighter left) rest

/-- A ladder over settled operands is settled. -/
theorem settles_ladder (sound : ReadsOnly .unary bound operand)
    (ih : Settles stop stop' .unary operand operand') (levels : List (List BinaryOp)) :
    Settles stop stop' (.ladder levels) (ladder levels operand) (ladder levels operand') := by
  induction levels with
  | nil => exact fun tokens => (ih tokens).mono fun before viable => viable.operand []
  | cons level levels ih => exact settles_leftAssociative (readsOnly_ladder sound levels) ih

end

/-! ### Assignments -/

/-- Whether an assignment starts with some tokens is known from the current one behind them. -/
theorem startsAssignment_append_congr {before rest rest' : List Token} (notEmpty : before ≠ [])
    (same : current stop' rest' = current stop rest) :
    startsAssignment (before ++ rest') = startsAssignment (before ++ rest) := by
  match before with
  | [] => exact absurd rfl notEmpty
  | [target] =>
    have sign : ∀ stop rest, startsAssignment (target :: rest) =
        (target.isRegister && (current stop rest).symbol? == some .assign) := by
      intro stop rest
      cases rest with
      | nil => exact (Bool.and_false _).symm
      | cons sign rest => rfl
    rw [List.singleton_append, List.singleton_append, sign stop', sign stop, same]
  | target :: sign :: before => rfl

/-- A register by itself is read at every level. -/
theorem run_ladder_register {digits : String} {id : RegisterId}
    (named : RegisterId.ofText? digits = some id) (offset : Offset)
    (levels : List (List BinaryOp)) :
    (ladder levels (unary stop nested)).run [⟨.register (some digits), offset⟩] =
      .ok (.register id offset, []) := by
  induction levels with
  | nil =>
    show (primary stop nested).run [_] = _
    exact run_primary_register named offset
  | cons level levels ih =>
    rw [ladder, run_leftAssociative, ih]
    exact goOn_nil _

/-- A token that every level refuses by itself is no register that can be read. -/
theorem not_isRegister_of_refused {token : Token} {fault : SyntaxFault}
    (readable : token.isRegister → token.startsPrimary)
    (refused : (ladder BinaryOp.levels (unary stop nested)).run [token] = .error fault) :
    token.isRegister = false := by
  refine Bool.eq_false_iff.2 fun register => ?_
  obtain ⟨digits, id, named, is⟩ := Token.eq_of_isRegister register (readable register)
  rw [is, run_ladder_register named] at refused
  cases refused

/-- Assignments are settled, though they are told apart by two tokens: a register is taken by either
reading, unless it cannot be read. -/
theorem settles_assignment (sound : ReadsOnly .assignment bound nested.expression)
    (soundOperand : ReadsOnly .unary bound nested.operand)
    (ih : Settles stop stop' .assignment nested.expression nested'.expression)
    (ihOperand : Settles stop stop' .unary nested.operand nested'.operand) :
    Settles stop stop' .assignment (assignment stop nested) (assignment stop' nested') := by
  intro tokens
  rcases assignment_cases stop tokens with ⟨register, unreadable⟩ |
    ⟨digits, id, targetOffset, signOffset, rest, named, rfl⟩ | ⟨starts, readable⟩
  · refine .refused (run_assignment_of_current register unreadable) rfl (.nil _)
      fun tokens' same => ?_
    rw [← same] at register unreadable ⊢
    exact run_assignment_of_current register unreadable
  · rw [run_assignment_assign named]
    refine .after [_, _] ?_ fun rest' _ => run_assignment_assign named targetOffset signOffset
    exact ((ih rest).mono
      fun before viable => viable.value named targetOffset signOffset).under _
  · have inner := (settles_ladder (readsOnly_unary sound soundOperand)
      (settles_unary sound ih ihOperand) BinaryOp.levels tokens).mono
      fun before viable => viable.loosest
    rw [run_assignment_of_not starts]
    cases inner with
    | nesting limit offset made => exact .nesting limit offset made
    | reads before rest tree cut made same =>
      refine .reads before rest tree cut made fun rest' current => ?_
      have notEmpty : before ≠ [] := by
        rintro rfl
        exact absurd (length_lt_of_run made) (cut ▸ Nat.lt_irrefl _)
      have noAssignment := (startsAssignment_append_congr notEmpty current).trans (cut ▸ starts)
      rw [run_assignment_of_not noAssignment]
      exact same rest' current
    | refuses before rest fault cut made place viable same =>
      refine .refuses before rest fault cut made place viable fun rest' current => ?_
      have noAssignment : startsAssignment (before ++ rest') = false := by
        rcases eq_or_ne before [] with rfl | notEmpty
        · -- A register that were assigned here would have been read.
          obtain rfl : rest = tokens := cut
          cases rest' with
          | nil => rfl
          | cons token more =>
            have first : token = Reader.current stop rest := current
            exact startsAssignment_of_not_register
              (not_isRegister_of_refused (first ▸ readable) (same [token] current)) more
        · exact (startsAssignment_append_congr notEmpty current).trans (cut ▸ starts)
      rw [run_assignment_of_not noAssignment]
      exact same rest' current

/-! ### Nested places -/

/-- Nested places are settled where as many levels of nesting may be spent, or more. -/
theorem settles_nested (stop stop' : Offset) (limit limit' : Nat) {budget budget' : Nat}
    (enough : budget ≤ budget') :
    Settles stop stop' .assignment (Scope.nested stop limit budget).expression
        (Scope.nested stop' limit' budget').expression ∧
      Settles stop stop' .unary (Scope.nested stop limit budget).operand
        (Scope.nested stop' limit' budget').operand := by
  induction budget generalizing budget' with
  | zero => exact ⟨fun _ => .nesting limit _ rfl, fun _ => .nesting limit _ rfl⟩
  | succ budget ih =>
    cases budget' with
    | zero => exact absurd enough (Nat.not_succ_le_zero _)
    | succ budget' =>
      obtain ⟨ihExpression, ihOperand⟩ := ih (Nat.le_of_succ_le_succ enough)
      obtain ⟨expression, operand⟩ := readsOnly_nested stop limit budget
      rw [Scope.nested, Scope.nested, Scope.within_eq_around, Scope.within_eq_around]
      exact ⟨settles_assignment expression operand ihExpression ihOperand,
        settles_unary expression ihExpression ihOperand⟩

/-- Statements are settled where as many levels of nesting may be spent, or more. -/
theorem settles_statement (stop stop' : Offset) {limit limit' : Nat} (enough : limit ≤ limit') :
    Settles stop stop' .assignment (Category.reader stop (.nested stop limit limit) .assignment)
      (Category.reader stop' (.nested stop' limit' limit') .assignment) := by
  obtain ⟨ihExpression, ihOperand⟩ := settles_nested stop stop' limit limit' enough
  obtain ⟨expression, operand⟩ := readsOnly_nested stop limit limit
  exact settles_assignment expression operand ihExpression ihOperand

end

end Reader

end RegisterCalc
