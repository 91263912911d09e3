import RegisterCalc.Proofs.Text.Lines
import RegisterCalc.Session.Run

/-!
# Runs, statement by statement

A run answers the statements of its input one after another, each behind a prompt, and ends behind
one more prompt: with the input, or at a line that is blank or not text
(`Session.answerLines_statements`). So a run on statements and what is behind them is a run on the
statements and then one on the rest (`Session.run_append_statements`), and lines behind a blank one
are not looked at (`Session.run_blank_line`).
-/

namespace RegisterCalc

namespace Run

/-- Without a limit a text is written and the run goes on. -/
theorem write_none (session : Session) (text : String) (next : Option Nat → Run) :
    write none session text next = (next none).after (Text.toBytes text) := rfl

/-- What is written before a run can be written in two parts. -/
theorem after_after (first second : List UInt8) (run : Run) :
    (run.after second).after first = run.after (first ++ second) := by
  simp only [after, List.append_assoc]

/-- What is logged before a run can be logged in two parts. -/
theorem logged_logged (first second : List LogRecord) (run : Run) :
    (run.logged second).logged first = run.logged (first ++ second) := by
  simp only [logged, List.append_assoc]

/-- What is written and what is logged are kept apart. -/
theorem after_logged (written : List UInt8) (records : List LogRecord) (run : Run) :
    (run.logged records).after written = (run.after written).logged records := rfl

end Run

namespace Session

section
variable {session : Session} {line : String}

/-! ## One line -/

/-- A blank line ends the session and is answered with nothing. -/
theorem respond_of_blank (blank : line.toList.all Text.isBlank) :
    session.respond line = ⟨.quit, "", session, []⟩ :=
  if_pos blank

/-- A statement is executed, and the session goes on. -/
theorem respond_of_statement (notBlank : line.toList.all Text.isBlank = false) :
    (session.respond line).flow = .goOn ∧
      (session.respond line).session = (session.execute line).session := by
  unfold respond
  rw [if_neg (Bool.eq_false_iff.1 notBlank)]
  dsimp only
  cases (session.execute line).outcome <;> exact ⟨rfl, rfl⟩

/-- A statement changes no settings. -/
theorem config_execute (session : Session) (statement : String) :
    (session.execute statement).session.config = session.config := by
  unfold execute
  split
  · rfl
  · split <;> rfl

variable (room : Option Nat) (lines : List (Option String))

/-- At the end of the input there is a prompt, and no more. -/
theorem answerLines_nil : session.answerLines room [] =
    Run.write room session session.config.prompt fun _ => .done session := by
  rw [answerLines]

/-- A line that is not text ends the run behind its prompt. -/
theorem answerLines_notText : session.answerLines room (none :: lines) =
    Run.write room session session.config.prompt fun _ => .failed .notText session := by
  rw [answerLines]

/-- A blank line is the end of the input. -/
theorem answerLines_blank (blank : line.toList.all Text.isBlank) :
    session.answerLines room (some line :: lines) = session.answerLines room [] := by
  rw [answerLines, answerLines]
  simp only [respond_of_blank blank]

/-- A statement is read behind a prompt, executed and then answered, before the lines behind it. -/
theorem answerLines_statement (notBlank : line.toList.all Text.isBlank = false) :
    session.answerLines room (some line :: lines) =
      Run.write room session session.config.prompt fun room =>
        (Run.write room (session.execute line).session (session.respond line).text fun room =>
          (session.execute line).session.answerLines room lines).logged
            (session.respond line).log := by
  obtain ⟨goesOn, after⟩ := session.respond_of_statement notBlank
  rw [answerLines]
  simp only [goesOn, after]

end

/-! ## Statements one after another -/

/-- The session after some statements, executed one after another. -/
def afterAll (session : Session) (statements : List String) : Session :=
  statements.foldl (fun session statement => (session.execute statement).session) session

/-- Statements can be executed in two parts. -/
theorem afterAll_append (session : Session) (before behind : List String) :
    session.afterAll (before ++ behind) = (session.afterAll before).afterAll behind :=
  List.foldl_append

/-- What is written for some statements: for each a prompt and the reply. -/
def answers (session : Session) : (statements : List String) → List UInt8
  | [] => []
  | statement :: statements =>
    Text.toBytes session.config.prompt ++ Text.toBytes (session.respond statement).text
      ++ (session.execute statement).session.answers statements

/-- Statements change no settings. -/
theorem config_afterAll (session : Session) (statements : List String) :
    (session.afterAll statements).config = session.config := by
  induction statements generalizing session with
  | nil => rfl
  | cons statement statements ih => exact (ih _).trans (session.config_execute statement)

/-- Statements are answered first, and then the lines behind them. -/
theorem answerLines_append (session : Session) {statements : List String}
    (notBlank : ∀ statement ∈ statements, statement.toList.all Text.isBlank = false)
    (lines : List (Option String)) : ∃ log,
      session.answerLines none (statements.map some ++ lines) =
        (((session.afterAll statements).answerLines none lines).after
          (session.answers statements)).logged log := by
  induction statements generalizing session with
  | nil => exact ⟨[], rfl⟩
  | cons statement statements ih =>
    obtain ⟨notBlank, others⟩ := List.forall_mem_cons.1 notBlank
    obtain ⟨log, further⟩ := ih (session.execute statement).session others
    refine ⟨(session.respond statement).log ++ log, ?_⟩
    rw [List.map_cons, List.cons_append, answerLines_statement _ _ notBlank]
    simp only [Run.write_none, further, Run.after_logged, Run.after_after, Run.logged_logged]
    rw [answers, List.append_assoc]
    rfl

end Session

/-! ## The statements of an input -/

namespace Text

/-- The statements among the lines of an input: those before the first line that is blank or not
text. -/
def statements : (lines : List (Option String)) → List String
  | [] => []
  | none :: _ => []
  | some line :: lines => if line.toList.all isBlank then [] else line :: statements lines

/-- Lines with which a run ends before any statement. -/
inductive EndRun : List (Option String) → Prop
  | endOfInput : EndRun []
  | notText (lines : List (Option String)) : EndRun (none :: lines)
  | blank {line : String} (isBlank : line.toList.all isBlank) (lines : List (Option String)) :
    EndRun (some line :: lines)

/-- The lines of an input are its statements and then lines that end a run. -/
theorem exists_ending (lines : List (Option String)) : ∃ ending,
    lines = (statements lines).map some ++ ending ∧ EndRun ending ∧
      ∀ statement ∈ statements lines, statement.toList.all isBlank = false := by
  induction lines with
  | nil => exact ⟨[], rfl, .endOfInput, nofun⟩
  | cons line lines ih =>
    match line with
    | none => exact ⟨_, rfl, .notText lines, nofun⟩
    | some text =>
      rw [statements]
      cases isBlank : text.toList.all Text.isBlank with
      | true => exact ⟨_, rfl, .blank isBlank lines, nofun⟩
      | false =>
        obtain ⟨ending, same, ends, notBlank⟩ := ih
        exact ⟨ending, congrArg _ same, ends, List.forall_mem_cons.2 ⟨isBlank, notBlank⟩⟩

/-- Lines that are statements are decoded to statements. -/
theorem exists_statements {lines : List (List UInt8)} (h : ∀ line ∈ lines, IsStatement line) :
    ∃ statements : List String, lines.map decodeLine = statements.map some ∧
      ∀ statement ∈ statements, statement.toList.all isBlank = false := by
  induction lines with
  | nil => exact ⟨[], rfl, nofun⟩
  | cons line lines ih =>
    obtain ⟨isStatement, others⟩ := List.forall_mem_cons.1 h
    obtain ⟨statement, decoded, notBlank⟩ := isStatement.decodeLine
    obtain ⟨statements, same, notBlanks⟩ := ih others
    refine ⟨statement :: statements, ?_, List.forall_mem_cons.2 ⟨notBlank, notBlanks⟩⟩
    rw [List.map_cons, List.map_cons, decoded, same]

end Text

namespace Session

/-- Lines that end a run do so behind one more prompt, whatever the room. -/
theorem answerLines_of_endRun (session : Session) {lines : List (Option String)}
    (h : Text.EndRun lines) : ∃ rest : Run, rest.output = [] ∧ rest.session = session ∧
      ∀ room, session.answerLines room lines =
        Run.write room session session.config.prompt fun _ => rest := by
  cases h with
  | endOfInput => exact ⟨.done session, rfl, rfl, fun room => session.answerLines_nil room⟩
  | notText lines =>
    exact ⟨.failed .notText session, rfl, rfl, fun room => session.answerLines_notText room lines⟩
  | blank isBlank lines =>
    refine ⟨.done session, rfl, rfl, fun room => ?_⟩
    rw [answerLines_blank room lines isBlank, answerLines_nil]

/-- What is written when the line behind some statements is read: for each a prompt and the reply,
and a last prompt. -/
def written (session : Session) (statements : List String) : List UInt8 :=
  session.answers statements ++ Text.toBytes session.config.prompt

/-- A run without a limit executes all statements of its input and writes their replies and
prompts. -/
theorem answerLines_statements (session : Session) (lines : List (Option String)) :
    (session.answerLines none lines).session = session.afterAll (Text.statements lines) ∧
      (session.answerLines none lines).output = session.written (Text.statements lines) := by
  obtain ⟨ending, split, ends, notBlank⟩ := Text.exists_ending lines
  obtain ⟨log, answered⟩ := session.answerLines_append notBlank ending
  obtain ⟨rest, silent, unchanged, prompted⟩ :=
    (session.afterAll (Text.statements lines)).answerLines_of_endRun ends
  rw [← split, prompted] at answered
  rw [answered]
  refine ⟨unchanged, ?_⟩
  simp [Run.write, Run.after, Run.logged, silent, written, config_afterAll]

/-! ## One input behind another -/

/-- A run on statements, a line feed and more is a run on the statements and then one on what is
behind them: it ends with the same registers and the same result, and its output is that of the
first run but for the last prompt, and then that of the second. -/
theorem run_append_statements (session : Session) {x : List UInt8} (notEmpty : x ≠ [])
    (noLineFeed : x.getLast? ≠ some 10)
    (statements : ∀ line ∈ Text.splitLines x, Text.IsStatement line) (y : List UInt8) :
    ∃ body, (session.run none x).output = body ++ Text.toBytes session.config.prompt ∧
      (session.run none x).fault = none ∧
      (session.run none (x ++ 10 :: y)).output =
        body ++ ((session.run none x).session.run none y).output ∧
      (session.run none (x ++ 10 :: y)).fault = ((session.run none x).session.run none y).fault ∧
      (session.run none (x ++ 10 :: y)).session =
        ((session.run none x).session.run none y).session := by
  have isOpen : ¬Text.IsEnded x := by
    intro ended
    have last := List.getLast?_eq_some_getLast notEmpty
    exact noLineFeed (last.trans (congrArg some (ended _ last)))
  obtain ⟨texts, decoded, notBlank⟩ := Text.exists_statements statements
  have ofFirst : Text.lines x = texts.map some ++ [] := by
    rw [Text.lines, decoded, List.append_nil]
  have ofBoth : Text.lines (x ++ 10 :: y) = texts.map some ++ Text.lines y := by
    rw [List.append_cons, Text.lines, Text.splitLines_append (Text.isEnded_lineFeed x),
      Text.splitLines_lineFeed_of_open isOpen, List.map_append, decoded]
    rfl
  obtain ⟨log, first⟩ := session.answerLines_append notBlank []
  obtain ⟨log', both⟩ := session.answerLines_append notBlank (Text.lines y)
  have after : (session.run none x).session = session.afterAll texts := by
    rw [run, ofFirst, first, answerLines_nil]
    rfl
  rw [after]
  refine ⟨session.answers texts, ?_, ?_, ?_, ?_, ?_⟩
  · rw [run, ofFirst, first, answerLines_nil, ← session.config_afterAll texts]
    simp [Run.write, Run.after, Run.logged, Run.done]
  · rw [run, ofFirst, first, answerLines_nil]
    rfl
  all_goals
    rw [run, ofBoth, both]
    rfl

/-- A run on an assignment and a statement that writes a register before it fails, and on a read of
that register and a line that is not text. -/
theorem run_append_statements_failing : ∃ (session : Session) (x y : List UInt8),
    session = .new .standard ∧ x = Text.toBytes "#1=2\n(#2=5)/0" ∧
    y = Text.toBytes "#2\n" ++ [255] ∧
    x ≠ [] ∧ x.getLast? ≠ some 10 ∧ (∀ line ∈ Text.splitLines x, Text.IsStatement line) ∧
    ∃ body, (session.run none x).output = body ++ Text.toBytes session.config.prompt ∧
      (session.run none x).fault = none ∧
      (session.run none (x ++ 10 :: y)).output =
        body ++ ((session.run none x).session.run none y).output ∧
      (session.run none (x ++ 10 :: y)).fault = ((session.run none x).session.run none y).fault ∧
      (session.run none (x ++ 10 :: y)).session =
        ((session.run none x).session.run none y).session := by
  have lines : Text.splitLines (Text.toBytes "#1=2\n(#2=5)/0") =
      [Text.toBytes "#1=2", Text.toBytes "(#2=5)/0"] := by decide +kernel
  have statements : ∀ line ∈ Text.splitLines (Text.toBytes "#1=2\n(#2=5)/0"),
      Text.IsStatement line := by
    rw [lines]
    refine List.forall_mem_cons.2 ⟨?_, List.forall_mem_singleton.2 ?_⟩
    · exact ⟨"#1=2", Text.ofBytes?_eq_some_iff.2 rfl, by decide +kernel⟩
    · exact ⟨"(#2=5)/0", Text.ofBytes?_eq_some_iff.2 rfl, by decide +kernel⟩
  have notEmpty : Text.toBytes "#1=2\n(#2=5)/0" ≠ [] := by decide +kernel
  have noLineFeed : (Text.toBytes "#1=2\n(#2=5)/0").getLast? ≠ some 10 := by decide +kernel
  exact ⟨_, _, _, rfl, rfl, rfl, notEmpty, noLineFeed, statements,
    run_append_statements _ notEmpty noLineFeed statements _⟩

/-! ## Blank lines -/

/-- Lines behind a blank one are not looked at, in any room. -/
theorem answerLines_append_blank {line : String} (blank : line.toList.all Text.isBlank)
    (session : Session) (room : Option Nat) (before behind : List (Option String)) :
    session.answerLines room (before ++ some line :: behind) = session.answerLines room before := by
  induction before generalizing session room with
  | nil => exact session.answerLines_blank room behind blank
  | cons first before ih =>
    rw [List.cons_append]
    match first with
    | none => rw [answerLines_notText, answerLines_notText]
    | some text =>
      cases isBlank : text.toList.all Text.isBlank with
      | true => rw [answerLines_blank _ _ isBlank, answerLines_blank _ _ isBlank]
      | false =>
        rw [answerLines_statement _ _ isBlank, answerLines_statement _ _ isBlank]
        simp only [ih]

/-- A run ends at the first blank line behind ended lines. -/
theorem run_append_blank (session : Session) (room : Option Nat) {x line : List UInt8}
    (ended : Text.IsEnded x) (noLineFeed : 10 ∉ line) (blank : Text.IsBlankLine line)
    (y : List UInt8) : session.run room (x ++ (line ++ 10 :: y)) = session.run room x := by
  obtain ⟨text, decoded, blank⟩ := blank.decodeLine
  rw [run, Text.lines, Text.splitLines_append ended, Text.splitLines_line noLineFeed,
    List.map_append, List.map_cons, decoded, answerLines_append_blank blank]
  rfl

/-- It does not matter whether the last line is ended: a line feed behind it or behind its own is
followed by the end of the input or by an empty line, which is the same. -/
theorem run_lineFeed (session : Session) (room : Option Nat) (x : List UInt8) :
    session.run room (x ++ [10]) = session.run room x := by
  by_cases ended : Text.IsEnded x
  · exact session.run_append_blank room ended List.not_mem_nil Text.isBlankLine_nil []
  · rw [run, run, Text.lines, Text.splitLines_lineFeed_of_open ended]
    rfl

/-- A blank line is the end of the input: a run with an empty line behind its input, and anything
behind that, comes to the same as without them, and so it does with any blank line behind ended
lines. Nor does it matter whether the last line is ended. -/
theorem run_blank_line (session : Session) (room : Option Nat) (x y : List UInt8) :
    session.run room (x ++ [10, 10] ++ y) = session.run room x ∧
    session.run room (x ++ [10]) = session.run room x ∧
    ∀ line, Text.IsEnded x → 10 ∉ line → Text.IsBlankLine line →
      session.run room (x ++ (line ++ 10 :: y)) = session.run room x := by
  refine ⟨?_, session.run_lineFeed room x, fun line ended noLineFeed blank => ?_⟩
  · calc session.run room (x ++ [10, 10] ++ y)
      _ = session.run room (x ++ [10] ++ ([] ++ 10 :: y)) := by simp
      _ = session.run room (x ++ [10]) :=
        session.run_append_blank room (Text.isEnded_lineFeed x) List.not_mem_nil
          Text.isBlankLine_nil y
      _ = session.run room x := session.run_lineFeed room x
  · exact session.run_append_blank room ended noLineFeed blank y

/-- A line of a single wide space ends the run on what stands before it, also where there is room
for ten bytes only and a byte that is no text stands behind it. -/
theorem run_blank_line_wide_space : ∃ (session : Session) (x line : List UInt8),
    session = .new .standard ∧ x = Text.toBytes "#1=2\n" ∧ line = Text.toBytes "\u3000" ∧
    Text.IsEnded x ∧ 10 ∉ line ∧ Text.IsBlankLine line ∧
    session.run (some 10) (x ++ (line ++ 10 :: [255])) = session.run (some 10) x := by
  have ended : Text.IsEnded (Text.toBytes "#1=2\n") := Text.isEnded_lineFeed (Text.toBytes "#1=2")
  have noLineFeed : 10 ∉ Text.toBytes "\u3000" := by decide +kernel
  have blank : Text.IsBlankLine (Text.toBytes "\u3000") :=
    ⟨"\u3000", Text.ofBytes?_eq_some_iff.2 rfl, by decide +kernel⟩
  exact ⟨_, _, _, rfl, rfl, rfl, ended, noLineFeed, blank,
    (run_blank_line _ _ _ [255]).2.2 _ ended noLineFeed blank⟩

end Session

end RegisterCalc
