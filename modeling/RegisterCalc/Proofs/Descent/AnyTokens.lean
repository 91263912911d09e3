import RegisterCalc.Proofs.Descent.Simulation

/-!
# Any tokens at all

A list of tokens need not come from a text: it may be empty, have no end of the input or several,
and hold numbers without a value and registers that cannot be read. Reading it is safe and stops at
its first end (`ofTokens_safe`): the descent looks at no place that is not in the list and passes no
end, so nothing behind the first end has a part in what is made of the list. Tokens without a value
are refused wherever they stand before it, since none is a token of a derivation.
-/

namespace RegisterCalc

/-- A number without a value, or a register that cannot be read. -/
def Token.IsUnreadable (token : Token) : Prop :=
  (∃ text, token.lexeme = .number text none) ∨
    token.isRegister ∧ token.lexeme.registerId? = none

/-- The tokens of a derivation can be read. -/
theorem Derivation.not_isUnreadable_tokens {c : Category} (d : Derivation c) :
    ∀ token ∈ d.tokens, ¬token.IsUnreadable := by
  have symbol (symbol : Symbol) (offset : Offset) :
      ¬Token.IsUnreadable ⟨.symbol symbol, offset⟩ := by
    rintro (⟨text, ⟨⟩⟩ | ⟨⟨⟩, -⟩)
  have register {digits : String} {id : RegisterId} (named : RegisterId.ofText? digits = some id)
      (offset : Offset) : ¬Token.IsUnreadable ⟨.register (some digits), offset⟩ := by
    rintro (⟨text, ⟨⟩⟩ | ⟨-, unread⟩)
    exact Option.some_ne_none id (named.symm.trans unread)
  have name (letters : Option String) (offset : Offset) :
      ¬Token.IsUnreadable ⟨.name letters, offset⟩ := by
    rintro (⟨text, ⟨⟩⟩ | ⟨⟨⟩, -⟩)
  induction d with
  | assign digits target named targetOffset signOffset value ih =>
    exact List.forall_mem_cons.2 ⟨register named _, List.forall_mem_cons.2 ⟨symbol _ _, ih⟩⟩
  | operation left op ofLevel offset right ihl ihr =>
    exact List.forall_mem_append.2 ⟨ihl, List.forall_mem_cons.2 ⟨symbol _ _, ihr⟩⟩
  | prefixed op offset inner ih => exact List.forall_mem_cons.2 ⟨symbol _ _, ih⟩
  | call function nameOffset openOffset argument closeOffset ih =>
    exact List.forall_mem_cons.2 ⟨name _ _, List.forall_mem_cons.2 ⟨symbol _ _,
      List.forall_mem_append.2 ⟨ih, List.forall_mem_singleton.2 (symbol _ _)⟩⟩⟩
  | group openOffset inner closeOffset ih =>
    exact List.forall_mem_cons.2 ⟨symbol _ _,
      List.forall_mem_append.2 ⟨ih, List.forall_mem_singleton.2 (symbol _ _)⟩⟩
  | number text value offset =>
    refine List.forall_mem_singleton.2 ?_
    rintro (⟨text, ⟨⟩⟩ | ⟨⟨⟩, -⟩)
  | register digits id named offset => exact List.forall_mem_singleton.2 (register named _)
  | loosest inner ih | tighter inner ih | operand inner ih | unprefixed inner ih
  | uncalled inner ih => exact ih

namespace Descent

open Machine

/-- The tokens up to their first end of the input, that one included. -/
def upToEnd (tokens : List Token) : List Token := (withEnd tokens).take (firstEnd tokens + 1)

variable (tokens : List Token)

/-- The first end of the input stands behind the tokens that do not end it. -/
theorem firstEnd_eq : firstEnd tokens = (tokens.takeWhile (!·.isEnd)).length :=
  (endsAfter_withEnd tokens).findIdx_isEnd

/-- Up to their first end stand the tokens that do not end the input, and an end of it. -/
theorem upToEnd_eq :
    upToEnd tokens = tokens.takeWhile (!·.isEnd) ++ [⟨.endOfInput, endOffset tokens⟩] := by
  obtain ⟨behind, split⟩ := (endsAfter_withEnd tokens).split
  rw [upToEnd, firstEnd_eq, split, List.take_length_add_append]
  rfl

/-- Tokens are read as those up to their first end are. -/
theorem ofTokens_upToEnd : Expr.ofTokens (upToEnd tokens) = Expr.ofTokens tokens := by
  rw [upToEnd_eq, Expr.ofTokens, Expr.ofTokensWithin_append_end (endsAfter_withEnd tokens).noEnd,
    Expr.ofTokens, Expr.ofTokensWithin_eq]

/-- Tokens that cannot be read are refused. -/
theorem exists_fault_of_isUnreadable {token : Token} (mem : token ∈ tokens.takeWhile (!·.isEnd))
    (unreadable : token.IsUnreadable) : ∃ fault, Expr.ofTokens tokens = .error fault := by
  cases read : Expr.ofTokens tokens with
  | error fault => exact ⟨fault, rfl⟩
  | ok tree =>
    rw [← ofTokens_upToEnd, upToEnd_eq] at read
    obtain ⟨d, spelled, -⟩ :=
      Expr.ofTokensWithin_derived (endsAfter_withEnd tokens).noEnd read
    exact absurd unreadable (d.not_isUnreadable_tokens token (spelled ▸ mem))

/-- Whatever the tokens are, the descent ends with what is made of them. On the way it never looks
at a place that the list has not, and never passes the first end of the input, which is put behind
the tokens if they have none. What is made of tokens is made of all that are the same up to their
first end and with it. Where a number has no value or a register cannot be read, before that end,
the tokens are refused. -/
theorem ofTokens_safe :
    (∃ machine, Reaches (withEnd tokens) start machine ∧
      machine.step (withEnd tokens) = .finished (Expr.ofTokens tokens)) ∧
    (∀ machine, Reaches (withEnd tokens) start machine →
      machine.step (withEnd tokens) ≠ .crashed ∧ machine.cursor.position ≤ firstEnd tokens) ∧
    firstEnd tokens < (withEnd tokens).length ∧
    (∀ tokens', upToEnd tokens' = upToEnd tokens →
      Expr.ofTokens tokens' = Expr.ofTokens tokens) ∧
    ∀ token ∈ tokens.takeWhile (!·.isEnd), token.IsUnreadable →
      ∃ fault, Expr.ofTokens tokens = .error fault := by
  have h := endsAfter_withEnd tokens
  refine ⟨finishes tokens, fun machine reached => ?_, ?_, fun tokens' same => ?_,
    fun token mem unreadable => exists_fault_of_isUnreadable tokens mem unreadable⟩
  · have sound := sound_of_reaches h reached
    rw [firstEnd_eq]
    exact ⟨sound.step_ne_crashed h, sound.within⟩
  · rw [firstEnd_eq]
    exact h.length_lt
  · rw [← ofTokens_upToEnd tokens', same, ofTokens_upToEnd]

/-- A number without a value, before an end of the input with a bracket behind it, and the same
without what is behind the number. -/
theorem ofTokens_safe_valueless : ∃ (tokens tokens' : List Token) (machine : Machine)
    (token : Token),
    tokens = [⟨.register (some "1"), 0⟩, ⟨.symbol .assign, 2⟩, ⟨.number (some "5") none, 3⟩,
      ⟨.endOfInput, 4⟩, ⟨.symbol .rightParen, 5⟩] ∧
    tokens' = [⟨.register (some "1"), 0⟩, ⟨.symbol .assign, 2⟩, ⟨.number (some "5") none, 3⟩] ∧
    machine = ⟨⟨2, 1⟩, .entering .assignment, [.assigned 1 2, .expression]⟩ ∧
    token = ⟨.number (some "5") none, 3⟩ ∧
    Reaches (withEnd tokens) start machine ∧ machine.step (withEnd tokens) ≠ .crashed ∧
    machine.cursor.position ≤ firstEnd tokens ∧
    upToEnd tokens' = upToEnd tokens ∧ Expr.ofTokens tokens' = Expr.ofTokens tokens ∧
    token ∈ tokens.takeWhile (!·.isEnd) ∧ token.IsUnreadable ∧
    ∃ fault, Expr.ofTokens tokens = .error fault := by
  have reached : Reaches (withEnd [⟨.register (some "1"), 0⟩, ⟨.symbol .assign, 2⟩,
      ⟨.number (some "5") none, 3⟩, ⟨.endOfInput, 4⟩, ⟨.symbol .rightParen, 5⟩]) start
      ⟨⟨2, 1⟩, .entering .assignment, [.assigned 1 2, .expression]⟩ :=
    .head rfl (.head rfl .refl)
  have same : upToEnd [⟨.register (some "1"), 0⟩, ⟨.symbol .assign, 2⟩,
      ⟨.number (some "5") none, 3⟩] = upToEnd [⟨.register (some "1"), 0⟩, ⟨.symbol .assign, 2⟩,
      ⟨.number (some "5") none, 3⟩, ⟨.endOfInput, 4⟩, ⟨.symbol .rightParen, 5⟩] := by
    decide +kernel
  have mem : (⟨.number (some "5") none, 3⟩ : Token) ∈ [⟨.register (some "1"), 0⟩,
      ⟨.symbol .assign, 2⟩, ⟨.number (some "5") none, 3⟩, ⟨.endOfInput, 4⟩,
      ⟨.symbol .rightParen, 5⟩].takeWhile (!Token.isEnd ·) := by decide +kernel
  have unreadable : Token.IsUnreadable ⟨.number (some "5") none, 3⟩ := .inl ⟨some "5", rfl⟩
  obtain ⟨-, safe, -, congr, refused⟩ := ofTokens_safe [⟨.register (some "1"), 0⟩,
    ⟨.symbol .assign, 2⟩, ⟨.number (some "5") none, 3⟩, ⟨.endOfInput, 4⟩,
    ⟨.symbol .rightParen, 5⟩]
  obtain ⟨running, within⟩ := safe _ reached
  exact ⟨_, _, _, _, rfl, rfl, rfl, rfl, reached, running, within, same, congr _ same, mem,
    unreadable, refused _ mem unreadable⟩

end Descent

end RegisterCalc
