import RegisterCalc.Evaluation.Folding
import RegisterCalc.Session.Config
import RegisterCalc.Session.Log
import RegisterCalc.Terminal.Caret
import RegisterCalc.Terminal.Outline
import RegisterCalc.Text.Lines
import RegisterCalc.Text.Quoted
import RegisterCalc.Tree.SourceText

/-!
# Sessions

A session answers statements one after another on the same registers. `Session.execute` takes a
statement to its value, `Session.respond` a line to what is shown for it. A rejected statement
leaves the session ready for the next; a blank line ends it.
-/

namespace RegisterCalc

/-- Settings and registers. -/
structure Session where
  config : Config
  registers : Registers

/-- A session in which nothing was written. -/
def Session.new (config : Config) : Session := ⟨config, .empty⟩

/-- A statement that was evaluated. -/
structure Accepted where
  /-- The tree of the statement. -/
  tree : Expr
  /-- The folded tree, which was evaluated in place of the other, where constants are folded. -/
  folded : Option Expr
  value : Float

/-- The register that a statement assigns, if it is an assignment. -/
def Accepted.assigned (accepted : Accepted) : Option RegisterId := accepted.tree.target?

/-- What comes of a statement. -/
structure Execution where
  outcome : Except Rejection Accepted
  session : Session
  log : List LogRecord

namespace Session

/-- The record of the tokens of a statement. -/
def tokensRecord (tokens : List Token) : LogRecord :=
  ⟨.debug, "tokens: " ++ " ".intercalate (tokens.map Token.describe)⟩

/-- The record of a write. -/
def writeRecord (write : Write) : LogRecord :=
  ⟨.trace, write.1.text ++ " <- " ++ numberText write.2⟩

/-- Evaluates the tree of a statement, folded first if constants are. -/
def executeTree (session : Session) (tree : Expr) : Execution :=
  let folded := if session.config.showFolded then some tree.fold else none
  let evaluation := (folded.getD tree).evaluate session.registers
  { outcome := match evaluation.outcome with
      | .error fault => .error (.runtime fault)
      | .ok value => .ok ⟨tree, folded, value⟩
    session := { session with registers := evaluation.registers }
    log := ⟨.debug, "parsed: " ++ tree.text⟩
      :: (folded.toList.map fun tree => ⟨.debug, "folded: " ++ tree.text⟩)
      ++ evaluation.writes.map writeRecord }

/-- Executes a statement. -/
def execute (session : Session) (statement : String) : Execution :=
  match tokenize statement with
  | .error fault => ⟨.error (.lexical fault), session, []⟩
  | .ok tokens =>
    match Expr.ofTokens tokens with
    | .error fault => ⟨.error (.syntactic fault), session, [tokensRecord tokens]⟩
    | .ok tree =>
      let execution := session.executeTree tree
      { execution with log := tokensRecord tokens :: execution.log }

end Session

/-- What is shown for an accepted statement: its trees, if they are to be, and its value. -/
def Accepted.text (config : Config) (accepted : Accepted) : String :=
  let heading (title : String) (tree : Expr) :=
    paint config.coloured .heading title ++ "\n" ++ tree.outline config.coloured
  let tree := if config.showTree then heading "AST:" accepted.tree else ""
  let folded := match accepted.folded with
    | some tree => heading "Optimized AST:" tree
    | none => ""
  let value := paint config.coloured .number (numberText accepted.value)
  let result := match accepted.assigned with
    | some id =>
      paint config.coloured .success "Assigned" ++ " " ++ paint config.coloured .register id.text
        ++ " = " ++ value
    | none => paint config.coloured .success "Result:" ++ " " ++ value
  tree ++ folded ++ result ++ "\n"

/-- Whether a session goes on after a line. -/
inductive Flow where
  | goOn
  | quit
  deriving DecidableEq, Repr

/-- What comes of a line. -/
structure Reply where
  flow : Flow
  text : String
  session : Session
  log : List LogRecord

namespace Session

/-- Answers a line, given without its end. -/
def respond (session : Session) (line : String) : Reply :=
  if line.toList.all Text.isBlank then ⟨.quit, "", session, []⟩
  else
    let execution := session.execute line
    match execution.outcome with
    | .ok accepted =>
      ⟨.goOn, accepted.text session.config, execution.session, execution.log⟩
    | .error rejection =>
      let record : LogRecord :=
        ⟨.warn, "rejected " ++ Text.quoted line ++ ": " ++ rejection.message⟩
      ⟨.goOn, rejection.report session.config.coloured line, execution.session,
        execution.log ++ [record]⟩

/-- Answers a line as it was read. -/
def processLine (session : Session) (line : String) : Reply :=
  session.respond (Text.withoutLineEnd line)

end Session

end RegisterCalc
