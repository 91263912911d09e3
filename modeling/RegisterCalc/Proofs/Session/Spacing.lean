import RegisterCalc.Proofs.Grammar.Relocation
import RegisterCalc.Proofs.Tree.Literals
import RegisterCalc.Session.Basic

/-!
# Statements however they are spaced

Positions are labels in all that comes of a statement. Moving them commutes with reading tokens,
with folding and with evaluation, so moving those of the tokens moves those of what a session makes
of the tokens, and nothing else (`Session.executeTokens_relocate`): neither a value nor a register
nor a record of the log. Texts with the same lexemes have the same tokens once all positions are
forgotten, so they come to the same in every session, up to positions, whatever stands between the
lexemes (`Session.relocate_commutes`).
-/

namespace RegisterCalc

/-! ## Moving the positions of what comes of a statement -/

/-- A rejection with its positions moved. -/
def Rejection.relocate (f : Offset → Offset) : Rejection → Rejection
  | lexical fault => lexical (fault.relocate f)
  | syntactic fault => syntactic (fault.relocate f)
  | runtime fault => runtime (fault.relocate f)

/-- A rejection with its positions forgotten. -/
def Rejection.bare (rejection : Rejection) : Rejection := rejection.relocate fun _ => 0

/-- A statement that was evaluated, with the positions of its trees moved. -/
def Accepted.relocate (f : Offset → Offset) (accepted : Accepted) : Accepted :=
  ⟨accepted.tree.relocate f, accepted.folded.map (Expr.relocate f), accepted.value⟩

/-- What comes of a statement, with the positions of its trees or of its rejection moved. -/
def Execution.relocate (f : Offset → Offset) (execution : Execution) : Execution :=
  { execution with
    outcome := (execution.outcome.map (Accepted.relocate f)).mapError (Rejection.relocate f) }

/-- What comes of a statement, with all positions forgotten. -/
def Execution.bare (execution : Execution) : Execution := execution.relocate fun _ => 0

namespace Session

/-! ## Executing tokens -/

/-- Executes the statement that tokens make, if they make one. -/
def executeTokens (session : Session) (tokens : List Token) : Execution :=
  match Expr.ofTokens tokens with
  | .error fault => ⟨.error (.syntactic fault), session, [tokensRecord tokens]⟩
  | .ok tree =>
    let execution := session.executeTree tree
    { execution with log := tokensRecord tokens :: execution.log }

/-- A text is executed as its tokens. -/
theorem execute_of_tokenize (session : Session) {text : String} {tokens : List Token}
    (cut : tokenize text = .ok tokens) : session.execute text = session.executeTokens tokens := by
  rw [execute, cut]
  rfl

section
variable (f : Offset → Offset) (session : Session)

/-- A tree with its positions moved is executed as the tree, with the positions moved. -/
theorem executeTree_relocate (tree : Expr) :
    session.executeTree (tree.relocate f) = (session.executeTree tree).relocate f := by
  obtain ⟨⟨showTree, showFolded, coloured, prompt⟩, registers⟩ := session
  unfold executeTree
  cases showFolded with
  | false =>
    simp only [Bool.false_eq_true, if_false, Option.getD_none, Expr.evaluate_relocate,
      Expr.text_relocate]
    cases outcome : (tree.evaluate registers).outcome <;>
      simp [Evaluation.relocate, Execution.relocate, outcome, Except.mapError, Except.map,
        Rejection.relocate, Accepted.relocate]
  | true =>
    simp only [if_true, Option.getD_some, Expr.fold_relocate, Expr.evaluate_relocate,
      Expr.text_relocate]
    cases outcome : (tree.fold.evaluate registers).outcome <;>
      simp [Evaluation.relocate, Execution.relocate, outcome, Except.mapError, Except.map,
        Rejection.relocate, Accepted.relocate, Expr.text_relocate]

/-- The record of tokens does not tell their positions. -/
theorem tokensRecord_relocate (tokens : List Token) :
    tokensRecord (tokens.map (Token.relocate f)) = tokensRecord tokens := by
  rw [tokensRecord, List.map_map]
  rfl

/-- Tokens with their positions moved are executed as the tokens, with the positions moved. -/
theorem executeTokens_relocate {tokens : List Token} (ended : ∃ token ∈ tokens, token.isEnd) :
    session.executeTokens (tokens.map (Token.relocate f)) =
      (session.executeTokens tokens).relocate f := by
  unfold executeTokens
  rw [Expr.ofTokens_relocate f ended, tokensRecord_relocate]
  cases Expr.ofTokens tokens with
  | error fault => rfl
  | ok tree =>
    show ({ session.executeTree (tree.relocate f) with log := _ } : Execution) = _
    rw [executeTree_relocate]
    rfl

end

/-! ## Texts of the same lexemes -/

/-- Tokens of the same lexemes are the same once their positions are forgotten. -/
theorem map_relocate_congr {tokens tokens' : List Token}
    (same : tokens.map (·.lexeme) = tokens'.map (·.lexeme)) :
    tokens.map (Token.relocate fun _ => 0) = tokens'.map (Token.relocate fun _ => 0) := by
  have atZero : (Token.relocate fun _ => 0) = (Token.mk · 0) ∘ Token.lexeme := rfl
  rw [atZero, ← List.map_map, ← List.map_map, same]

/-- The end of the input is among the tokens of a text. -/
theorem exists_isEnd_of_tokenize {text : String} {tokens : List Token}
    (cut : tokenize text = .ok tokens) : ∃ token ∈ tokens, token.isEnd := by
  obtain ⟨body, last, rfl, -⟩ := tokenize_eq_ok cut
  exact ⟨_, List.mem_append_right body (List.mem_singleton_self _), rfl⟩

/-- A text has the tree of its tokens without their positions, up to positions. -/
theorem ofText_bare {text : String} {tokens : List Token} (cut : tokenize text = .ok tokens) :
    ((Expr.ofText text).map Expr.bare).mapError Rejection.bare =
      (Expr.ofTokens (tokens.map (Token.relocate fun _ => 0))).mapError .syntactic := by
  rw [Expr.ofTokens_relocate _ (exists_isEnd_of_tokenize cut), Expr.ofText, cut]
  dsimp only
  cases Expr.ofTokens tokens <;> rfl

/-- Moving positions, one to another place or many to one, commutes with all that is made of them.
Tokens with the end of the input among them make the same statement with its positions moved, or are
refused for the same fault with its positions moved; so they make a statement if and only if the
tokens do. A tree is folded as before and has the same value, the same writes and the same
registers, and its fault is moved. Hence two texts of the same lexemes have the same tree and come
to the same in every session, up to positions. -/
theorem relocate_commutes (f : Offset → Offset) :
    (∀ tokens : List Token, (∃ token ∈ tokens, token.isEnd) →
      Expr.ofTokens (tokens.map (Token.relocate f)) =
        ((Expr.ofTokens tokens).map (Expr.relocate f)).mapError (SyntaxFault.relocate f) ∧
      ((∃ t, Expr.ofTokens (tokens.map (Token.relocate f)) = .ok t) ↔
        ∃ t, Expr.ofTokens tokens = .ok t)) ∧
    (∀ t : Expr, (t.relocate f).fold = t.fold.relocate f) ∧
    (∀ (t : Expr) (registers : Registers),
      (t.relocate f).evaluate registers = (t.evaluate registers).relocate f) ∧
    ∀ (s s' : String) (tokens tokens' : List Token),
      tokenize s = .ok tokens → tokenize s' = .ok tokens' →
      tokens.map (·.lexeme) = tokens'.map (·.lexeme) →
      ((Expr.ofText s).map Expr.bare).mapError Rejection.bare =
        ((Expr.ofText s').map Expr.bare).mapError Rejection.bare ∧
      ∀ session : Session, (session.execute s).bare = (session.execute s').bare := by
  refine ⟨fun tokens ended => ?_, Expr.fold_relocate f, Expr.evaluate_relocate f,
    fun s s' tokens tokens' cut cut' same => ⟨?_, fun session => ?_⟩⟩
  · have moved := Expr.ofTokens_relocate f ended
    refine ⟨moved, ?_⟩
    rw [moved]
    cases Expr.ofTokens tokens with
    | error fault => exact ⟨nofun, nofun⟩
    | ok t => exact ⟨fun _ => ⟨t, rfl⟩, fun _ => ⟨t.relocate f, rfl⟩⟩
  · rw [ofText_bare cut, ofText_bare cut', map_relocate_congr same]
  · have ended := exists_isEnd_of_tokenize cut
    have ended' := exists_isEnd_of_tokenize cut'
    calc (session.execute s).bare
      _ = (session.executeTokens tokens).bare := by rw [session.execute_of_tokenize cut]
      _ = session.executeTokens (tokens.map (Token.relocate fun _ => 0)) :=
        (session.executeTokens_relocate _ ended).symm
      _ = session.executeTokens (tokens'.map (Token.relocate fun _ => 0)) := by
        rw [map_relocate_congr same]
      _ = (session.executeTokens tokens').bare := session.executeTokens_relocate _ ended'
      _ = (session.execute s').bare := by rw [session.execute_of_tokenize cut']

/-- The statement `#1=2/ 0`, also with all its positions moved to the fourth, and with its spacing
put elsewhere. -/
theorem relocate_commutes_division : ∃ tokens tokens',
    tokenize "#1=2/ 0" = .ok tokens ∧ tokenize " #1 =2/0" = .ok tokens' ∧
    (∃ token ∈ tokens, token.isEnd) ∧ tokens.map (·.lexeme) = tokens'.map (·.lexeme) ∧
    Expr.ofTokens (tokens.map (Token.relocate fun _ => 3)) =
      ((Expr.ofTokens tokens).map (Expr.relocate fun _ => 3)).mapError
        (SyntaxFault.relocate fun _ => 3) ∧
    ∀ session : Session, (session.execute "#1=2/ 0").bare = (session.execute " #1 =2/0").bare := by
  have cut : tokenize "#1=2/ 0" = .ok [⟨.register (some "1"), 0⟩, ⟨.symbol .assign, 2⟩,
      ⟨.number (some "2") (some 2), 3⟩, ⟨.symbol .slash, 4⟩, ⟨.number (some "0") (some 0), 6⟩,
      ⟨.endOfInput, 7⟩] := eq_ok_of_toOption (by decide +kernel)
  have cut' : tokenize " #1 =2/0" = .ok [⟨.register (some "1"), 1⟩, ⟨.symbol .assign, 4⟩,
      ⟨.number (some "2") (some 2), 5⟩, ⟨.symbol .slash, 6⟩, ⟨.number (some "0") (some 0), 7⟩,
      ⟨.endOfInput, 8⟩] := eq_ok_of_toOption (by decide +kernel)
  have ended := exists_isEnd_of_tokenize cut
  obtain ⟨readings, -, -, respaced⟩ := relocate_commutes fun _ => 3
  exact ⟨_, _, cut, cut', ended, rfl, (readings _ ended).1, (respaced _ _ _ _ cut cut' rfl).2⟩

end Session

end RegisterCalc
