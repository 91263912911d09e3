import RegisterCalc.Proofs.Evaluation.Folding
import RegisterCalc.Session.Basic
import RegisterCalc.Statement

/-!
# What a session shows does not change what it does

A session with any settings takes a statement to the same tree, the same register that is assigned,
the same value or the same rejection, and the same registers (`Session.entry_execute`), although
with folding it evaluates another tree. So sessions that start alike stay alike, statement after
statement, and each agrees with evaluating the texts on one set of registers
(`Session.transcript_new`).
-/

namespace RegisterCalc

/-! ## What a statement comes to -/

/-- What an accepted statement comes to, apart from what is shown of it. -/
structure Verdict where
  tree : Expr
  /-- The register that is reported as assigned. -/
  assigned : Option RegisterId
  /-- The register that the root of the evaluated tree assigns. -/
  written : Option RegisterId
  value : Float

/-- The tree of an accepted statement that was evaluated. -/
def Accepted.evaluated (accepted : Accepted) : Expr := accepted.folded.getD accepted.tree

/-- What an accepted statement comes to. -/
def Accepted.verdict (accepted : Accepted) : Verdict :=
  ⟨accepted.tree, accepted.assigned, accepted.evaluated.target?, accepted.value⟩

/-- The outcome of a statement and the registers after it. -/
abbrev Entry (α : Type) := Except Rejection α × Registers

/-- What comes of a statement in a session, apart from what is shown and logged of it. -/
def Execution.entry (execution : Execution) : Entry Verdict :=
  (execution.outcome.map Accepted.verdict, execution.session.registers)

/-- The value in place of what a statement comes to. -/
def Entry.value (entry : Entry Verdict) : Entry Float := (entry.1.map Verdict.value, entry.2)

/-- What a tree comes to on registers, evaluated as it stands. -/
def judgeTree (tree : Expr) (registers : Registers) : Entry Verdict :=
  let evaluation := tree.evaluate registers
  ((evaluation.outcome.mapError .runtime).map (⟨tree, tree.target?, tree.target?, ·⟩),
    evaluation.registers)

/-- What a statement comes to on registers, evaluated as it stands. -/
def judge (statement : String) (registers : Registers) : Entry Verdict :=
  match Expr.ofText statement with
  | .error rejection => (.error rejection, registers)
  | .ok tree => judgeTree tree registers

/-- The value of a statement is that of its text. -/
theorem judge_value (statement : String) (registers : Registers) :
    Entry.value (judge statement registers) = evaluateText statement registers := by
  unfold judge evaluateText
  cases Expr.ofText statement with
  | error rejection => rfl
  | ok tree =>
    dsimp only [judgeTree]
    cases (tree.evaluate registers).outcome <;> rfl

/-! ## One statement -/

namespace Expr

/-- The number that a result leaves assigns no register. -/
theorem target?_foldedOr {kept : Expr} (h : kept.target? = none) (offset : Offset)
    (result : Except RuntimeFault Float) : (foldedOr kept offset result).target? = none := by
  unfold foldedOr
  split
  · split
    · rfl
    · exact h
  · exact h

/-- A folded tree assigns the register that the tree it comes from does. -/
theorem target?_fold (t : Expr) : t.fold.target? = t.target? := by
  cases t with
  | number value offset | register id offset | assign target value offset => rfl
  | unary op operand offset | call name argument offset =>
    simp only [fold]
    split
    · exact target?_foldedOr rfl offset _
    · rfl
  | binary op left right offset =>
    simp only [fold]
    split
    · exact target?_foldedOr rfl offset _
    · rfl

end Expr

namespace Session

/-- A tree comes to the same whether it or its folded form is evaluated. -/
theorem entry_executeTree (session : Session) (tree : Expr) :
    (session.executeTree tree).entry = judgeTree tree session.registers := by
  obtain ⟨⟨showTree, showFolded, coloured, prompt⟩, registers⟩ := session
  have same : ((if showFolded then some tree.fold else none).getD tree).evaluate registers =
      tree.evaluate registers := by
    cases showFolded with
    | false => rfl
    | true => exact tree.evaluate_fold registers
  have target : ((if showFolded then some tree.fold else none).getD tree).target? =
      tree.target? := by
    cases showFolded with
    | false => rfl
    | true => exact tree.target?_fold
  unfold executeTree judgeTree Execution.entry
  simp only [same]
  cases (tree.evaluate registers).outcome with
  | error fault => rfl
  | ok value =>
    show (Except.ok (Accepted.verdict _), _) = (Except.ok _, _)
    simp only [Accepted.verdict, Accepted.assigned, Accepted.evaluated, target]

/-- What a statement comes to in a session depends on the registers of the session alone. -/
theorem entry_execute (session : Session) (statement : String) :
    (session.execute statement).entry = judge statement session.registers := by
  unfold execute judge Expr.ofText
  cases tokenize statement with
  | error fault => rfl
  | ok tokens =>
    dsimp only
    cases Expr.ofTokens tokens with
    | error fault => rfl
    | ok tree => exact session.entry_executeTree tree

/-- A session rejects a statement for what its evaluation as a text is rejected for. -/
theorem execute_eq_error_iff (session : Session) (statement : String) (rejection : Rejection) :
    (session.execute statement).outcome = .error rejection ↔
      (evaluateText statement session.registers).1 = .error rejection := by
  rw [← judge_value, ← entry_execute, Entry.value, Execution.entry]
  cases (session.execute statement).outcome with
  | error rejection' => simp [Except.map]
  | ok accepted => simp [Except.map]

/-- A statement that is accepted has the reported tree, whose value is the reported one. -/
theorem evaluated_of_execute {session : Session} {statement : String} {accepted : Accepted}
    (ok : (session.execute statement).outcome = .ok accepted) :
    Expr.ofText statement = .ok accepted.tree ∧
      (accepted.tree.evaluate session.registers).outcome = .ok accepted.value ∧
      (session.execute statement).session.registers =
        (accepted.tree.evaluate session.registers).registers := by
  have comesTo := session.entry_execute statement
  rw [Execution.entry, ok, judge] at comesTo
  cases read : Expr.ofText statement with
  | error rejection =>
    rw [read] at comesTo
    cases comesTo
  | ok tree =>
    rw [read] at comesTo
    dsimp only [judgeTree] at comesTo
    cases outcome : (tree.evaluate session.registers).outcome with
    | error fault =>
      rw [outcome] at comesTo
      cases comesTo
    | ok value =>
      rw [outcome] at comesTo
      obtain ⟨verdict, registers⟩ := Prod.mk.inj comesTo
      have verdict := Except.ok.inj verdict
      obtain rfl : accepted.tree = tree := congrArg Verdict.tree verdict
      exact ⟨rfl, outcome.trans (congrArg _ (congrArg Verdict.value verdict).symm), registers⟩

/-- A statement with a tree that has a value is accepted, with that tree and that value. -/
theorem execute_of_evaluated (session : Session) {statement : String} {t : Expr} {x : Float}
    (read : Expr.ofText statement = .ok t)
    (ok : (t.evaluate session.registers).outcome = .ok x) :
    ∃ accepted, (session.execute statement).outcome = .ok accepted ∧ accepted.tree = t ∧
      accepted.value = x := by
  have comesTo := session.entry_execute statement
  rw [Execution.entry, judge, read] at comesTo
  dsimp only [judgeTree] at comesTo
  rw [ok] at comesTo
  cases outcome : (session.execute statement).outcome with
  | error rejection =>
    rw [outcome] at comesTo
    cases comesTo
  | ok accepted =>
    rw [outcome] at comesTo
    have verdict := Except.ok.inj (Prod.mk.inj comesTo).1
    exact ⟨accepted, rfl, congrArg Verdict.tree verdict, congrArg Verdict.value verdict⟩

/-- The tree that is evaluated in place of the tree of a statement is the folded one. -/
theorem folded_of_execute {session : Session} {statement : String} {accepted : Accepted}
    (ok : (session.execute statement).outcome = .ok accepted) {t : Expr}
    (folded : accepted.folded = some t) : t = accepted.tree.fold := by
  unfold execute at ok
  split at ok
  · cases ok
  · split at ok
    · cases ok
    · dsimp only [executeTree] at ok
      split at ok
      · cases ok
      · obtain rfl := Except.ok.inj ok
        dsimp only at folded
        split at folded
        · exact (Option.some.inj folded).symm
        · cases folded

/-! ## Sequences of statements -/

/-- What each of some statements comes to, with the registers after it. -/
def transcript (session : Session) : (statements : List String) → List (Entry Verdict)
  | [] => []
  | statement :: statements =>
    let execution := session.execute statement
    execution.entry :: execution.session.transcript statements

/-- Sessions with the same registers stay alike whatever their settings. -/
theorem transcript_congr {session session' : Session}
    (same : session.registers = session'.registers) (statements : List String) :
    session.transcript statements = session'.transcript statements := by
  induction statements generalizing session session' with
  | nil => rfl
  | cons statement statements ih =>
    have step : (session.execute statement).entry = (session'.execute statement).entry := by
      rw [entry_execute, entry_execute, same]
    have after : (session.execute statement).session.registers =
        (session'.execute statement).session.registers := congrArg Prod.snd step
    rw [transcript, transcript, step, ih after]

end Session

/-- The values of some texts, evaluated one after another on the same registers, each with the
registers after it. -/
def evaluateTexts : (texts : List String) → (registers : Registers) → List (Entry Float)
  | [], _ => []
  | text :: texts, registers =>
    let entry := evaluateText text registers
    entry :: evaluateTexts texts entry.2

namespace Session

/-- The values of a session are those of the texts on its registers. -/
theorem transcript_value (session : Session) (statements : List String) :
    (session.transcript statements).map Entry.value =
      evaluateTexts statements session.registers := by
  induction statements generalizing session with
  | nil => rfl
  | cons statement statements ih =>
    have step := judge_value statement session.registers
    rw [← entry_execute] at step
    rw [transcript, List.map_cons, ih, evaluateTexts, ← step]
    rfl

/-- New sessions with any two settings take statements to the same verdicts and the same registers,
one after another, and their values and registers are those of the texts evaluated one after another
from no register written. -/
theorem transcript_new (config config' : Config) (statements : List String) :
    (Session.new config).transcript statements = (Session.new config').transcript statements ∧
      ((Session.new config).transcript statements).map Entry.value =
        evaluateTexts statements .empty :=
  ⟨transcript_congr (by rfl) statements, (Session.new config).transcript_value statements⟩

end Session

end RegisterCalc
