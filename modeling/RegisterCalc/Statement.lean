import RegisterCalc.Evaluation.Basic
import RegisterCalc.Token.Lexer
import RegisterCalc.Tree.Nesting

/-!
# Statements

A statement is taken from its text to a value in three stages, and each can reject it. A rejection
says which stage it was, why and where.
-/

namespace RegisterCalc

/-- Why a statement is rejected, by the stage that rejects it. -/
inductive Rejection where
  | lexical (fault : LexicalFault)
  | syntactic (fault : SyntaxFault)
  | runtime (fault : RuntimeFault)
  deriving DecidableEq, Repr

namespace Rejection

/-- The position that is at fault. -/
def offset : Rejection → Offset
  | lexical fault => fault.offset
  | syntactic fault => fault.offset
  | runtime fault => fault.offset

/-- The stage that rejects. -/
def stage : Rejection → String
  | lexical _ => "Lexical"
  | syntactic _ => "Syntax"
  | runtime _ => "Runtime"

/-- The fault in words, without the stage. -/
def cause : Rejection → String
  | lexical fault => fault.message
  | syntactic fault => fault.message
  | runtime fault => fault.message

/-- The rejection in words. -/
def message (rejection : Rejection) : String :=
  rejection.stage ++ " error: " ++ rejection.cause

end Rejection

/-- The tree of a text. -/
def Expr.ofText (text : String) : Except Rejection Expr :=
  match tokenize text with
  | .error fault => .error (.lexical fault)
  | .ok tokens => (Expr.ofTokens tokens).mapError .syntactic

/-- The tree of a text is that of its tokens. -/
theorem Expr.ofText_eq_ok {text : String} {tree : Expr} (h : ofText text = .ok tree) :
    ∃ tokens, tokenize text = .ok tokens ∧ ofTokens tokens = .ok tree := by
  unfold ofText at h
  cases cut : tokenize text with
  | error fault =>
    rw [cut] at h
    cases h
  | ok tokens =>
    simp only [cut] at h
    cases read : ofTokens tokens with
    | error fault =>
      rw [read] at h
      cases h
    | ok tree' =>
      rw [read] at h
      cases h
      exact ⟨tokens, rfl, read⟩

/-- The tree of the tokens of a text is that of the text. -/
theorem Expr.ofText_of_ofTokens {text : String} {tokens : List Token} {tree : Expr}
    (cut : tokenize text = .ok tokens) (read : ofTokens tokens = .ok tree) :
    ofText text = .ok tree := by
  simp only [ofText, cut, read]
  rfl

/-- A text that has no tree is rejected for a lexeme or for its tokens. -/
theorem Expr.ofText_eq_error {text : String} {rejection : Rejection}
    (h : ofText text = .error rejection) :
    (∃ fault, tokenize text = .error fault ∧ rejection = .lexical fault) ∨
      ∃ tokens fault, tokenize text = .ok tokens ∧ ofTokens tokens = .error fault ∧
        rejection = .syntactic fault := by
  unfold ofText at h
  cases cut : tokenize text with
  | error fault =>
    rw [cut] at h
    cases h
    exact .inl ⟨fault, rfl, rfl⟩
  | ok tokens =>
    simp only [cut] at h
    cases read : ofTokens tokens with
    | error fault =>
      rw [read] at h
      cases h
      exact .inr ⟨tokens, fault, rfl, read, rfl⟩
    | ok tree =>
      rw [read] at h
      cases h

/-- The value of a text on registers, with the registers afterwards. -/
def evaluateText (text : String) (registers : Registers) : Except Rejection Float × Registers :=
  match Expr.ofText text with
  | .error rejection => (.error rejection, registers)
  | .ok tree =>
    let evaluation := tree.evaluate registers
    (evaluation.outcome.mapError .runtime, evaluation.registers)

/-- A text is rejected where it has no tree or where the evaluation of its tree fails. -/
theorem evaluateText_eq_error {text : String} {registers : Registers} {rejection : Rejection}
    (h : (evaluateText text registers).1 = .error rejection) :
    Expr.ofText text = .error rejection ∨
      ∃ tree fault, Expr.ofText text = .ok tree ∧
        (tree.evaluate registers).outcome = .error fault ∧ rejection = .runtime fault := by
  unfold evaluateText at h
  cases read : Expr.ofText text with
  | error rejection' =>
    rw [read] at h
    cases h
    exact .inl rfl
  | ok tree =>
    simp only [read] at h
    cases outcome : (tree.evaluate registers).outcome with
    | error fault =>
      rw [outcome] at h
      cases h
      exact .inr ⟨tree, fault, rfl, outcome, rfl⟩
    | ok value =>
      rw [outcome] at h
      cases h

end RegisterCalc
