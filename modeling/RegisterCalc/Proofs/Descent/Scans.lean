import RegisterCalc.Proofs.Descent.Machine
import RegisterCalc.Proofs.Grammar.EarliestFault

/-!
# What scans make of tokens

Whatever a list of tokens is, it has a first end of the input once it is given one
(`endsAfter_withEnd`), and up to there every place has a current token. Here is what each scan makes
of it, as an equation for each thing it tells apart; so no other proof opens the scans.
-/

namespace RegisterCalc.Descent

open Reader (current)

/-! ## Tokens with an end -/

/-- The tokens `input` are those of `body`, which do not end the input, then an end of the input at
`stop`, and any others. -/
structure EndsAfter (input body : List Token) (stop : Offset) : Prop where
  split : ∃ behind, input = body ++ ⟨.endOfInput, stop⟩ :: behind
  noEnd : ∀ token ∈ body, token.isEnd = false

section
variable (tokens : List Token)

/-- Nothing but an end may be put behind tokens. -/
theorem exists_withEnd_eq : ∃ behind, withEnd tokens = tokens ++ behind := by
  rw [withEnd]
  split
  · exact ⟨[], (List.append_nil _).symm⟩
  · exact ⟨_, rfl⟩

/-- Tokens that have no end are given one directly behind the last of them. -/
theorem withEnd_of_noEnd (noEnd : ∀ token ∈ tokens, token.isEnd = false) :
    withEnd tokens = tokens ++ [⟨.endOfInput, endOffset tokens⟩] := by
  have last : tokens.getLast?.any Token.isEnd = false := by
    cases h : tokens.getLast? with
    | none => rfl
    | some token => exact noEnd token (List.mem_of_getLast? h)
  rw [withEnd, last, if_neg Bool.false_ne_true, endOffset, find?_isEnd_eq_none noEnd]
  cases tokens.getLast? <;> rfl

/-- Tokens that are given an end have their first one behind those that do not end the input. -/
theorem endsAfter_withEnd :
    EndsAfter (withEnd tokens) (tokens.takeWhile (!·.isEnd)) (endOffset tokens) := by
  have noEnd : ∀ token ∈ tokens.takeWhile (!·.isEnd), token.isEnd = false := fun token mem => by
    simpa using List.mem_takeWhile_imp mem
  refine ⟨?_, noEnd⟩
  have all := List.takeWhile_append_dropWhile (p := fun token : Token => !token.isEnd) (l := tokens)
  cases rest : tokens.dropWhile (!·.isEnd) with
  | nil =>
    rw [rest, List.append_nil] at all
    rw [all] at noEnd ⊢
    exact ⟨[], withEnd_of_noEnd tokens noEnd⟩
  | cons token more =>
    have isEnd : token.isEnd := by
      have := List.head?_dropWhile_not (!·.isEnd) tokens
      simpa [rest] using this
    rw [rest] at all
    have stop := endOffset_append_of_isEnd noEnd isEnd more
    obtain ⟨behind, given⟩ := exists_withEnd_eq tokens
    rw [all] at stop
    refine ⟨more ++ behind, ?_⟩
    rw [given, stop, ← Token.eq_of_isEnd isEnd, ← List.cons_append, ← List.append_assoc, all]

end

namespace EndsAfter

variable {input body : List Token} {stop : Offset} (h : EndsAfter input body stop)
include h

/-- The first end of the input is a token. -/
theorem length_lt : body.length < input.length := by
  obtain ⟨behind, rfl⟩ := h.split
  simp

/-- The first end of the input is the first token behind the body. -/
theorem findIdx_isEnd : input.findIdx Token.isEnd = body.length := by
  obtain ⟨behind, rfl⟩ := h.split
  have none : body.findIdx Token.isEnd = body.length :=
    List.findIdx_eq_length.2 fun token mem => h.noEnd token mem
  rw [List.findIdx_append, none, if_neg (Nat.lt_irrefl _), List.findIdx_cons]
  exact Nat.zero_add _

/-- Up to the first end of the input each place has a token: the current one. -/
theorem getElem?_eq {position : Nat} (within : position ≤ body.length) :
    input[position]? = some (current stop (body.drop position)) := by
  obtain ⟨behind, rfl⟩ := h.split
  rcases within.lt_or_eq with inside | rfl
  · rw [List.getElem?_append_left inside, List.drop_eq_getElem_cons inside,
      List.getElem?_eq_getElem inside]
    rfl
  · rw [List.getElem?_append_right le_rfl, Nat.sub_self, List.drop_length]
    rfl

end EndsAfter

/-! ## Places -/

section
variable {body : List Token} {position : Nat} {token : Token} {rest : List Token}

/-- Where a token of the body is left, the body is not behind. -/
theorem lt_of_drop_eq_cons (front : body.drop position = token :: rest) :
    position < body.length := by
  have := congrArg List.length front
  rw [List.length_drop, List.length_cons] at this
  omega

/-- One place further, the first of the tokens that are left is behind. -/
theorem drop_succ_of_drop_eq_cons (front : body.drop position = token :: rest) :
    body.drop (position + 1) = rest := by
  rw [← List.drop_drop, front]
  rfl

end

/-! ## Scans -/

section
variable {α β : Type}

/-- A scan that goes on from another is the second one from where the first one ends. -/
theorem Scan.bind_eq {first : Scan α} {next : α → Scan β} {cursor cursor' : Cursor} {made : α}
    (h : first cursor = some (made, cursor')) : (first >>= next) cursor = next made cursor' := by
  simp only [Bind.bind, StateT.bind, h]
  rfl

/-- The cursor can be asked for. -/
theorem Scan.get_eq (cursor : Cursor) : (get : Scan Cursor) cursor = some (cursor, cursor) := rfl

end

section
variable {α : Type} {input body rest : List Token} {stop : Offset} (h : EndsAfter input body stop)
  {cursor : Cursor}
include h

/-- The current token is looked at. -/
theorem peek_eq (within : cursor.position ≤ body.length) :
    peek input cursor = some (current stop (body.drop cursor.position), cursor) := by
  have last : cursor.position ≤ input.length - 1 := by
    have := h.length_lt
    omega
  rw [peek, min_eq_left last, h.getElem?_eq within]
  rfl

/-- A token of the body is stepped over. -/
theorem advance_eq {token : Token} (front : body.drop cursor.position = token :: rest) :
    advance input cursor = some (token, { cursor with position := cursor.position + 1 }) := by
  have inside := lt_of_drop_eq_cons front
  have notEnd : token.isEnd = false :=
    h.noEnd token (List.mem_of_mem_drop (front ▸ List.mem_cons_self))
  have before : input[cursor.position]? = some token := by
    rw [h.getElem?_eq inside.le, front]
    rfl
  rw [advance, Scan.bind_eq (peek_eq h inside.le), front]
  simp only [current, notEnd, Bool.false_eq_true, if_false]
  show previous input { cursor with position := cursor.position + 1 } = _
  rw [previous, Nat.add_sub_cancel, before]
  rfl

/-- At the end of the input there is no step. -/
theorem advance_of_end (within : cursor.position ≤ body.length)
    (atEnd : body.drop cursor.position = []) : advance input cursor = previous input cursor := by
  rw [advance, Scan.bind_eq (peek_eq h within), atEnd]
  rfl

/-- The token behind a token of the body is the one that will be current. -/
theorem peekAhead_eq {token : Token} (front : body.drop cursor.position = token :: rest) :
    peekAhead input cursor = some (some (current stop rest), cursor) := by
  rw [peekAhead, h.getElem?_eq (lt_of_drop_eq_cons front), drop_succ_of_drop_eq_cons front]

/-- A token that is not wanted stays current. -/
theorem accept_of_none {wanted : Token → Option α} (within : cursor.position ≤ body.length)
    (unwanted : wanted (current stop (body.drop cursor.position)) = none) :
    accept input wanted cursor = some (none, cursor) := by
  rw [accept, Scan.bind_eq (peek_eq h within)]
  simp only [unwanted]
  rfl

/-- A token that is wanted is stepped over. -/
theorem accept_of_some {wanted : Token → Option α} {token : Token} {what : α}
    (front : body.drop cursor.position = token :: rest) (isWanted : wanted token = some what) :
    accept input wanted cursor =
      some (some (what, token.offset), { cursor with position := cursor.position + 1 }) := by
  rw [accept, Scan.bind_eq (peek_eq h (lt_of_drop_eq_cons front).le), front]
  simp only [current, isWanted]
  rw [Scan.bind_eq (advance_eq h front)]
  rfl

/-- Where another token than a symbol is current, it stays so. -/
theorem acceptSymbol_of_ne {symbol : Symbol} (within : cursor.position ≤ body.length)
    (other : (current stop (body.drop cursor.position)).symbol? ≠ some symbol) :
    acceptSymbol input symbol cursor = some (none, cursor) := by
  have unwanted :
      (current stop (body.drop cursor.position)).symbol?.filter (· = symbol) = none := by
    refine Option.filter_eq_none_iff.2 fun found is same => other ?_
    rw [is, of_decide_eq_true same]
  rw [acceptSymbol, Scan.bind_eq (accept_of_none h within unwanted)]
  rfl

/-- A symbol that is current is stepped over. -/
theorem acceptSymbol_eq {symbol : Symbol} {offset : Offset}
    (front : body.drop cursor.position = ⟨.symbol symbol, offset⟩ :: rest) :
    acceptSymbol input symbol cursor =
      some (some offset, { cursor with position := cursor.position + 1 }) := by
  have wanted : (Token.symbol? ⟨.symbol symbol, offset⟩).filter (· = symbol) = some symbol :=
    Option.filter_some_pos (decide_eq_true rfl)
  rw [acceptSymbol, Scan.bind_eq (accept_of_some h front wanted)]
  rfl

omit h in
/-- A nested place is waited for where one more level is allowed. -/
theorem nested_of_lt (input : List Token) (frame : Frame) (cursor : Cursor)
    (allowed : cursor.depth < maxNesting) :
    nested input frame cursor = some (.waits frame, { cursor with depth := cursor.depth + 1 }) := by
  rw [nested, Scan.bind_eq (Scan.get_eq cursor), if_neg (Nat.not_le.2 allowed)]
  rfl

/-- A nested place is refused where no further level is allowed. -/
theorem nested_of_le (frame : Frame) (cursor : Cursor) (spent : maxNesting ≤ cursor.depth)
    (within : cursor.position ≤ body.length) :
    nested input frame cursor = some (.returns (.error (.nestingTooDeep maxNesting
      (current stop (body.drop cursor.position)).offset)), cursor) := by
  rw [nested, Scan.bind_eq (Scan.get_eq cursor), if_pos spent, Scan.bind_eq (peek_eq h within)]
  rfl

end

end RegisterCalc.Descent
