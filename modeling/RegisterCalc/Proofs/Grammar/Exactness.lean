import RegisterCalc.Proofs.Grammar.Completeness
import RegisterCalc.Proofs.Grammar.Soundness
import RegisterCalc.Proofs.Grammar.Unambiguous
import RegisterCalc.Proofs.Token.Lexing

/-!
# Statements are what the grammar derives

The tokens before the end of the input are read as a statement if and only if the grammar derives
them, not deeper than allowed; there is one derivation only, and what is read is its tree
(`Expr.ofTokens_exact`). Tokens that are derived deeper than allowed are refused for their nesting
and for nothing else (`Derivation.ofTokens_tooDeep`).
-/

namespace RegisterCalc

/-! ## All tokens at once -/

section
variable {limit : Nat} {body : List Token}

/-- What is made of a statement that was read and the tokens after it: there must be none. -/
def Expr.complete : Expr × List Token → Except SyntaxFault Expr
  | (tree, []) => .ok tree
  | (_, token :: _) => .error (.unexpectedToken token)

/-- All tokens before the first end of the input are read as one assignment. -/
theorem Expr.ofTokensWithin_eq (limit : Nat) (tokens : List Token) :
    Expr.ofTokensWithin limit tokens =
      ((Category.reader (endOffset tokens) (.nested (endOffset tokens) limit limit) .assignment).run
        (tokens.takeWhile (!·.isEnd))).bind Expr.complete := by
  unfold Expr.ofTokensWithin
  rw [Scope.within_eq_around]
  show _ = ((Reader.assignment _ _).run _).bind Expr.complete
  rw [Reader.run, Scope.around]
  dsimp only
  cases Reader.assignment (endOffset tokens) (.nested (endOffset tokens) limit limit)
      (tokens.takeWhile (!·.isEnd)) with
  | error fault => rfl
  | ok reading =>
    obtain ⟨tree, rest, shorter⟩ := reading
    cases rest <;> rfl

/-- Tokens that do not end the input are all before its end. -/
theorem takeWhile_append_of_noEnd (noEnd : ∀ token ∈ body, token.isEnd = false)
    (rest : List Token) :
    (body ++ rest).takeWhile (!·.isEnd) = body ++ rest.takeWhile (!·.isEnd) := by
  refine List.takeWhile_append_of_pos fun token mem => ?_
  rw [noEnd token mem]
  rfl

/-- Among tokens that do not end the input no end of it is found. -/
theorem find?_isEnd_eq_none (noEnd : ∀ token ∈ body, token.isEnd = false) :
    body.find? Token.isEnd = none :=
  List.find?_eq_none.2 fun token mem => by simp [noEnd token mem]

/-- The input ends at the first token that ends it. -/
theorem endOffset_append_of_isEnd (noEnd : ∀ token ∈ body, token.isEnd = false) {token : Token}
    (isEnd : token.isEnd) (more : List Token) :
    endOffset (body ++ token :: more) = token.offset := by
  rw [endOffset, List.find?_append, find?_isEnd_eq_none noEnd, Option.none_or,
    List.find?_cons_of_pos isEnd]

/-- Tokens without an end of the input end after the last one. -/
theorem endOffset_append_singleton {token : Token}
    (noEnd : ∀ other ∈ body ++ [token], other.isEnd = false) :
    endOffset (body ++ [token]) = token.offset + 1 := by
  rw [endOffset, find?_isEnd_eq_none noEnd, List.getLast?_concat]

/-- The tokens before the end of the input are read as one assignment. -/
theorem Expr.ofTokensWithin_append_end (noEnd : ∀ token ∈ body, token.isEnd = false)
    (last : Offset) :
    Expr.ofTokensWithin limit (body ++ [⟨.endOfInput, last⟩]) =
      ((Category.reader last (.nested last limit limit) .assignment).run body).bind
        Expr.complete := by
  rw [Expr.ofTokensWithin_eq, takeWhile_append_of_noEnd noEnd,
    endOffset_append_of_isEnd noEnd (by rfl)]
  congr 2
  exact List.append_nil body

end

namespace Derivation

variable {limit : Nat}

/-- The tokens of a derivation that is not deeper than allowed are read as its tree. -/
theorem ofTokensWithin_covered (d : Derivation .assignment) (covered : d.depth ≤ limit)
    (last : Offset) :
    Expr.ofTokensWithin limit (d.tokens ++ [⟨.endOfInput, last⟩]) = .ok d.tree := by
  have read := (d.run_tokens last limit Category.distinct_assignment limit [] .nil).1 covered
  rw [List.append_nil] at read
  rw [Expr.ofTokensWithin_append_end d.isEnd_tokens, read]
  rfl

/-- The tokens of a derivation that is deeper than allowed are refused for their nesting. -/
theorem ofTokensWithin_tooDeep (d : Derivation .assignment) (deeper : limit < d.depth)
    (last : Offset) : ∃ offset,
      Expr.ofTokensWithin limit (d.tokens ++ [⟨.endOfInput, last⟩]) =
        .error (.nestingTooDeep limit offset) := by
  obtain ⟨offset, fault⟩ :=
    (d.run_tokens last limit Category.distinct_assignment limit [] .nil).2 deeper
  rw [List.append_nil] at fault
  refine ⟨offset, ?_⟩
  rw [Expr.ofTokensWithin_append_end d.isEnd_tokens, fault]
  rfl

end Derivation

/-! ## Exactness -/

/-- Whatever is read as a statement is derived, not deeper than allowed. -/
theorem Expr.ofTokensWithin_derived {limit : Nat} {body : List Token} {last : Offset} {tree : Expr}
    (noEnd : ∀ token ∈ body, token.isEnd = false)
    (h : Expr.ofTokensWithin limit (body ++ [⟨.endOfInput, last⟩]) = .ok tree) :
    ∃ d : Derivation .assignment, d.tokens = body ∧ d.tree = tree ∧ d.depth ≤ limit := by
  rw [Expr.ofTokensWithin_append_end noEnd] at h
  cases read : (Category.reader last (.nested last limit limit) .assignment).run body with
  | error fault =>
    rw [read] at h
    cases h
  | ok reading =>
    rw [read] at h
    obtain ⟨tree', rest⟩ := reading
    cases rest with
    | cons token rest => cases h
    | nil =>
      obtain rfl : tree' = tree := Except.ok.inj h
      have sound := Reader.readsOnly_within last limit limit
      rw [Scope.within_eq_around] at sound
      obtain ⟨d, spelled, denoted, depth⟩ := sound body _ [] read
      exact ⟨d, (List.append_nil _).symm.trans spelled, denoted, Nat.le_of_lt_succ depth⟩

/-- The tokens of a text are read as a statement if and only if the tokens before the end of the
input derive from the grammar, nested at most as deep as allowed. They have no other derivation, and
the statement is the tree of their derivation. -/
theorem Expr.ofTokens_exact {text : String} {tokens : List Token}
    (h : tokenize text = .ok tokens) : ∃ body last, tokens = body ++ [⟨.endOfInput, last⟩] ∧
      ((∃ tree, Expr.ofTokens tokens = .ok tree) ↔
        ∃ d : Derivation .assignment, d.tokens = body ∧ d.depth ≤ maxNesting) ∧
      ∀ d : Derivation .assignment, d.tokens = body →
        (∀ d' : Derivation .assignment, d'.tokens = body → d' = d) ∧
        ∀ tree, Expr.ofTokens tokens = .ok tree → tree = d.tree := by
  obtain ⟨body, last, rfl, ofText⟩ := tokenize_eq_ok h
  have noEnd : ∀ token ∈ body, token.isEnd = false := fun token mem =>
    Token.isEnd_of_isOfText (ofText token mem)
  refine ⟨body, last, rfl, ⟨?_, ?_⟩, ?_⟩
  · rintro ⟨tree, read⟩
    obtain ⟨d, spelled, -, depth⟩ := Expr.ofTokensWithin_derived noEnd read
    exact ⟨d, spelled, depth⟩
  · rintro ⟨d, rfl, depth⟩
    exact ⟨d.tree, d.ofTokensWithin_covered depth last⟩
  · rintro d rfl
    refine ⟨fun d' same => Derivation.eq_of_tokens same, fun tree read => ?_⟩
    obtain ⟨d', spelled, rfl, -⟩ := Expr.ofTokensWithin_derived noEnd read
    rw [Derivation.eq_of_tokens spelled]

/-- A statement with three levels of operators, of which the subtractions group to the left, with
brackets, a call and a prefix operator; and its only derivation. -/
theorem Expr.ofTokens_exact_assignment : ∃ tokens tree,
    tokenize "#1=8-(2+#2)*sin(-3)-1<<2" = .ok tokens ∧ Expr.ofTokens tokens = .ok tree ∧
    tree = .assign 1 (.binary .shiftLeft (.binary .sub (.binary .sub (.number 8 3)
      (.binary .mul (.binary .add (.number 2 6) (.register 2 8) 7)
        (.call "sin" (.unary .negate (.number 3 17) 16) 12) 11) 4) (.number 1 20) 19)
      (.number 2 23) 21) 2 ∧
    ∃ body last, tokens = body ++ [⟨.endOfInput, last⟩] ∧
      ∃ d : Derivation .assignment, d.tokens = body ∧ d.depth ≤ maxNesting ∧ d.tree = tree ∧
        ∀ d' : Derivation .assignment, d'.tokens = body → d' = d := by
  have made : ((tokenize "#1=8-(2+#2)*sin(-3)-1<<2").toOption.bind fun tokens =>
      (Expr.ofTokens tokens).toOption) =
      some (.assign 1 (.binary .shiftLeft (.binary .sub (.binary .sub (.number 8 3)
        (.binary .mul (.binary .add (.number 2 6) (.register 2 8) 7)
          (.call "sin" (.unary .negate (.number 3 17) 16) 12) 11) 4) (.number 1 20) 19)
        (.number 2 23) 21) 2) := by decide +kernel
  obtain ⟨tokens, lexed, read⟩ := Option.bind_eq_some_iff.1 made
  obtain ⟨body, last, same, derived, unique⟩ := Expr.ofTokens_exact (eq_ok_of_toOption lexed)
  obtain ⟨d, spelled, depth⟩ := derived.1 ⟨_, eq_ok_of_toOption read⟩
  obtain ⟨only, denoted⟩ := unique d spelled
  exact ⟨tokens, _, eq_ok_of_toOption lexed, eq_ok_of_toOption read, rfl, body, last, same, d,
    spelled, depth, (denoted _ (eq_ok_of_toOption read)).symm, only⟩

end RegisterCalc
