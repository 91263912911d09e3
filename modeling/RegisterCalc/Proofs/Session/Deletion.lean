import RegisterCalc.Proofs.Evaluation.Postorder
import RegisterCalc.Proofs.Session.Runs
import RegisterCalc.Proofs.Text.Deletion

/-!
# Lines that can be deleted

A statement that is refused for its lexemes or its tokens leaves the session as it was, and is
refused in every other session too. So its line can be deleted from an input, and all that is
missing then is its prompt and its report. A statement that fails when it is evaluated leaves what
it assigned before, and nothing else of it has a part in what follows (`Session.run_deleteLines`).

What is left of an input is found by place: a run answers the lines of its input in their order, so
what it says loses the replies at the places where the input loses the lines.
-/

namespace RegisterCalc

namespace Text

/-! ## Statements among lines -/

/-- Why a run ends early on some lines, if it does: the first one that is blank or not text is not
text. -/
def endFault : (lines : List (Option String)) → Option RunFault
  | [] => none
  | none :: _ => some .notText
  | some line :: lines => if line.toList.all isBlank then none else endFault lines

/-- Without some statements, lines have the other statements and the same end. -/
theorem statements_without {lines : List (Option String)} {deleted : Nat → Bool}
    (h : ∀ i, deleted i → ∀ line, lines[i]? = some line →
      ∃ statement, line = some statement ∧ statement.toList.all isBlank = false) :
    statements (without deleted lines) = without deleted (statements lines) ∧
      endFault (without deleted lines) = endFault lines := by
  induction lines generalizing deleted with
  | nil => exact ⟨rfl, rfl⟩
  | cons line lines ih =>
    obtain ⟨same, sameFault⟩ := ih fun i deleted line found => h (i + 1) deleted line found
    cases first : deleted 0 with
    | true =>
      obtain ⟨statement, rfl, notBlank⟩ := h 0 first line rfl
      have notBlank := Bool.eq_false_iff.1 notBlank
      rw [without_cons_of_deleted first, same, sameFault, statements, if_neg notBlank,
        without_cons_of_deleted first, endFault, if_neg notBlank]
      exact ⟨rfl, rfl⟩
    | false =>
      rw [without_cons_of_kept first]
      cases line with
      | none => exact ⟨rfl, rfl⟩
      | some text =>
        rw [statements, statements, endFault, endFault]
        split
        · exact ⟨rfl, rfl⟩
        · rw [without_cons_of_kept first, same, sameFault]
          exact ⟨rfl, rfl⟩

end Text

namespace Session

/-! ## Replies -/

/-- The replies to some statements, answered one after another. -/
def replies (session : Session) : (statements : List String) → List String
  | [] => []
  | statement :: statements =>
    (session.respond statement).text :: (session.execute statement).session.replies statements

/-- What is written in a run with some replies: a prompt before each, and one behind them. -/
def dialogue (prompt : String) (replies : List String) : List UInt8 :=
  replies.flatMap (fun reply => Text.toBytes prompt ++ Text.toBytes reply) ++ Text.toBytes prompt

/-- A statement is replied to, and then the others in the session that it leaves. -/
theorem replies_append (session : Session) (before behind : List String) :
    session.replies (before ++ behind) =
      session.replies before ++ (session.afterAll before).replies behind := by
  induction before generalizing session with
  | nil => rfl
  | cons statement before ih => exact congrArg _ (ih _)

/-- What is written for some statements are their replies, each behind a prompt. -/
theorem answers_eq_flatMap (session : Session) (statements : List String) :
    session.answers statements = (session.replies statements).flatMap fun reply =>
      Text.toBytes session.config.prompt ++ Text.toBytes reply := by
  induction statements generalizing session with
  | nil => rfl
  | cons statement statements ih =>
    rw [answers, replies, List.flatMap_cons, ih, config_execute]

/-- The result of a run does not depend on the session. -/
theorem fault_answerLines (session : Session) (lines : List (Option String)) :
    (session.answerLines none lines).fault = Text.endFault lines := by
  induction lines generalizing session with
  | nil =>
    rw [answerLines_nil]
    rfl
  | cons line lines ih =>
    match line with
    | none =>
      rw [answerLines_notText]
      rfl
    | some text =>
      cases isBlank : text.toList.all Text.isBlank with
      | true =>
        rw [answerLines_blank _ _ isBlank, answerLines_nil, Text.endFault, if_pos isBlank]
        rfl
      | false =>
        rw [answerLines_statement _ _ isBlank, Text.endFault, if_neg (Bool.eq_false_iff.1 isBlank)]
        exact ih _

/-- What comes of a run without a limit. -/
theorem run_none (session : Session) (input : List UInt8) :
    (session.run none input).session = session.afterAll (Text.statements (Text.lines input)) ∧
    (session.run none input).fault = Text.endFault (Text.lines input) ∧
    (session.run none input).output = dialogue session.config.prompt
      (session.replies (Text.statements (Text.lines input))) := by
  obtain ⟨after, output⟩ := session.answerLines_statements (Text.lines input)
  refine ⟨after, session.fault_answerLines _, output.trans ?_⟩
  rw [written, answers_eq_flatMap, dialogue]

/-- A run answers some statements of its input, and the others in the session that they leave. -/
theorem run_of_append (session : Session) {input : List UInt8} {before behind : List String}
    (split : Text.statements (Text.lines input) = before ++ behind) :
    (session.run none input).session = (session.afterAll before).afterAll behind ∧
      (session.run none input).output = dialogue session.config.prompt
        (session.replies before ++ (session.afterAll before).replies behind) := by
  obtain ⟨after, -, output⟩ := session.run_none input
  rw [split] at after output
  exact ⟨after.trans (session.afterAll_append _ _), by rw [output, replies_append]⟩

/-! ## Refused statements -/

/-- A statement is refused, by some session, for its lexemes or its tokens. -/
def Refuses (statement : String) (rejection : Rejection) : Prop :=
  ∃ session, (execute session statement).outcome = .error rejection ∧
    (rejection.stage = "Lexical" ∨ rejection.stage = "Syntax")

/-- A statement that is refused is so in every session, and leaves the session as it was. -/
theorem Refuses.execute {statement : String} {rejection : Rejection}
    (h : Refuses statement rejection) (session : Session) :
    (session.execute statement).outcome = .error rejection ∧
      (session.execute statement).session = session := by
  obtain ⟨session', rejected, stage⟩ := h
  have unread : Expr.ofText statement = .error rejection := by
    rcases evaluateText_eq_error ((session'.execute_eq_error_iff _ _).1 rejected) with
      unread | ⟨_, _, -, -, rfl⟩
    · exact unread
    · exact absurd stage (by simp [Rejection.stage])
  unfold Session.execute
  rcases Expr.ofText_eq_error unread with ⟨fault, cut, rfl⟩ | ⟨tokens, fault, cut, read, rfl⟩
  · rw [cut]
    exact ⟨rfl, rfl⟩
  · rw [cut]
    dsimp only
    rw [read]
    exact ⟨rfl, rfl⟩

/-- The reply to a statement that is rejected is the report. -/
theorem respond_of_rejected {session : Session} {statement : String} {rejection : Rejection}
    (notBlank : statement.toList.all Text.isBlank = false)
    (h : (session.execute statement).outcome = .error rejection) :
    (session.respond statement).text = rejection.report session.config.coloured statement := by
  unfold respond
  rw [if_neg (Bool.eq_false_iff.1 notBlank)]
  simp only [h]

/-- Without statements that are refused, the session ends as it does with them, and the other
statements have the replies that they have with them. -/
theorem afterAll_without {deleted : Nat → Bool} (session : Session) {statements : List String}
    (refused : ∀ i, deleted i → ∀ statement, statements[i]? = some statement →
      ∃ rejection, Refuses statement rejection) :
    session.afterAll (without deleted statements) = session.afterAll statements ∧
      session.replies (without deleted statements) =
        without deleted (session.replies statements) := by
  induction statements generalizing session deleted with
  | nil => exact ⟨rfl, rfl⟩
  | cons statement statements ih =>
    obtain ⟨sameAfter, sameReplies⟩ := ih (session.execute statement).session
      fun i deleted statement found => refused (i + 1) deleted statement found
    cases first : deleted 0 with
    | true =>
      obtain ⟨rejection, refused⟩ := refused 0 first statement rfl
      have unchanged := (refused.execute session).2
      rw [unchanged] at sameAfter sameReplies
      rw [without_cons_of_deleted first, sameAfter, sameReplies, replies,
        without_cons_of_deleted first, unchanged]
      exact ⟨congrArg (fun session => session.afterAll statements) unchanged.symm, rfl⟩
    | false =>
      rw [without_cons_of_kept first]
      refine ⟨sameAfter, ?_⟩
      rw [replies, replies, sameReplies, without_cons_of_kept first]

/-- Each statement has a reply. -/
theorem length_replies (session : Session) (statements : List String) :
    (session.replies statements).length = statements.length := by
  induction statements generalizing session with
  | nil => rfl
  | cons statement statements ih => exact congrArg (· + 1) (ih _)

/-- The reply to a statement that is refused is the report, wherever it stands. -/
theorem replies_of_refuses {session : Session} {statements : List String} {i : Nat}
    {statement : String} {rejection : Rejection} (found : statements[i]? = some statement)
    (notBlank : statement.toList.all Text.isBlank = false) (h : Refuses statement rejection) :
    (session.replies statements)[i]? =
      some (rejection.report session.config.coloured statement) := by
  induction statements generalizing session i with
  | nil => cases found
  | cons first statements ih =>
    match i with
    | 0 =>
      obtain rfl : first = statement := Option.some.inj found
      exact congrArg some (respond_of_rejected notBlank (h.execute session).1)
    | i + 1 =>
      rw [← config_execute session first]
      exact ih found

end Session

/-! ## Deleted lines -/

namespace Text

/-- A line is refused: it is a statement, and refused for its lexemes or its tokens. -/
def IsRefused (line : List UInt8) : Prop :=
  ∃ text rejection, ofBytes? line = some text ∧ text.toList.all isBlank = false ∧
    Session.Refuses (withoutLineEnd text) rejection

/-- What is decoded of a line that is refused is refused. -/
theorem IsRefused.decodeLine {line : List UInt8} (h : IsRefused line) : ∃ text rejection,
    ofBytes? line = some text ∧ Text.decodeLine line = some (withoutLineEnd text) ∧
      (withoutLineEnd text).toList.all isBlank = false ∧
      Session.Refuses (withoutLineEnd text) rejection := by
  obtain ⟨text, rejection, read, notBlank, refused⟩ := h
  refine ⟨text, rejection, read, ?_, (all_isBlank_withoutLineEnd text).trans notBlank, refused⟩
  rw [decodeLine_eq, read]
  rfl

/-- The statements of some lines are the first of them. -/
theorem getElem?_of_statements {lines : List (Option String)} {i : Nat} {statement : String}
    (h : (statements lines)[i]? = some statement) : lines[i]? = some (some statement) := by
  obtain ⟨ending, split, -, -⟩ := exists_ending lines
  have within : i < ((statements lines).map some).length := by
    rw [List.length_map]
    exact (List.getElem?_eq_some_iff.1 h).1
  rw [split, List.getElem?_append_left within, List.getElem?_map, h]
  rfl

end Text

namespace Session

variable {session : Session} {input : List UInt8}

/-- Lines that are refused can be deleted. -/
theorem run_deleteLines_of_isRefused (session : Session) {deleted : Nat → Bool}
    (refused : ∀ i line, deleted i → (Text.linesWithEnds input)[i]? = some line →
      Text.IsRefused line) :
    (session.run none (Text.deleteLines deleted input)).session =
        (session.run none input).session ∧
      (session.run none (Text.deleteLines deleted input)).fault =
        (session.run none input).fault ∧
      (session.run none (Text.deleteLines deleted input)).output =
        dialogue session.config.prompt
          (without deleted (session.replies (Text.statements (Text.lines input)))) := by
  have decoded (i : Nat) (isDeleted : deleted i) (line : Option String)
      (found : (Text.lines input)[i]? = some line) : ∃ statement rejection,
        line = some statement ∧ statement.toList.all Text.isBlank = false ∧
          Refuses statement rejection := by
    rw [Text.getElem?_lines] at found
    obtain ⟨bytes, inPlace, rfl⟩ := Option.map_eq_some_iff.1 found
    obtain ⟨text, rejection, -, decoded, notBlank, refuses⟩ :=
      (refused i bytes isDeleted inPlace).decodeLine
    exact ⟨_, rejection, decoded, notBlank, refuses⟩
  obtain ⟨sameStatements, sameFault⟩ := Text.statements_without fun i isDeleted line found =>
    have ⟨statement, _, line, notBlank, _⟩ := decoded i isDeleted line found
    ⟨statement, line, notBlank⟩
  obtain ⟨sameAfter, sameReplies⟩ := session.afterAll_without fun i isDeleted statement found =>
    have ⟨_, rejection, same, _, refuses⟩ :=
      decoded i isDeleted _ (Text.getElem?_of_statements found)
    ⟨rejection, Option.some.inj same ▸ refuses⟩
  obtain ⟨after, fault, output⟩ := session.run_none (Text.deleteLines deleted input)
  obtain ⟨after', fault', -⟩ := session.run_none input
  rw [Text.lines_deleteLines] at after fault output
  rw [sameStatements] at after output
  refine ⟨?_, ?_, ?_⟩
  · rw [after, sameAfter, after']
  · rw [fault, sameFault, fault']
  · rw [output, sameReplies]

/-- The reply to a line that is refused is the report, if the run comes to the line. -/
theorem replies_of_isRefused {i : Nat} {line : List UInt8} {reply : String}
    (found : (Text.linesWithEnds input)[i]? = some line) (refused : Text.IsRefused line)
    (replied : (session.replies (Text.statements (Text.lines input)))[i]? = some reply) :
    ∃ text rejection, Text.ofBytes? line = some text ∧
      Refuses (Text.withoutLineEnd text) rejection ∧
      reply = rejection.report session.config.coloured (Text.withoutLineEnd text) := by
  obtain ⟨text, rejection, read, decoded, notBlank, refuses⟩ := refused.decodeLine
  have within : i < (Text.statements (Text.lines input)).length := by
    rw [← session.length_replies]
    exact (List.getElem?_eq_some_iff.1 replied).1
  obtain ⟨statement, inPlace⟩ : ∃ statement,
      (Text.statements (Text.lines input))[i]? = some statement :=
    ⟨_, List.getElem?_eq_getElem within⟩
  have same := Text.getElem?_of_statements inPlace
  rw [Text.getElem?_lines, found, Option.map_some, decoded] at same
  obtain rfl := Option.some.inj (Option.some.inj same)
  rw [replies_of_refuses inPlace notBlank refuses] at replied
  exact ⟨text, rejection, read, refuses, (Option.some.inj replied).symm⟩

/-! ## Statements that fail -/

/-- A statement that fails when it is evaluated leaves the registers that it has assigned before the
node that fails, and the session as it was otherwise. -/
theorem execute_of_fails {statement : String} {fault : RuntimeFault}
    (h : (session.execute statement).outcome = .error (.runtime fault)) :
    ∃ t done failing machine, Expr.ofText statement = .ok t ∧
      t.FailsBehind session.registers fault done failing machine ∧
      (session.execute statement).session = { session with registers := machine.registers } := by
  rcases evaluateText_eq_error ((session.execute_eq_error_iff _ _).1 h) with
    unread | ⟨t, fault', read, failed, same⟩
  · rcases Expr.ofText_eq_error unread with ⟨_, -, ⟨⟩⟩ | ⟨_, _, -, -, ⟨⟩⟩
  · obtain rfl := Rejection.runtime.inj same
    obtain ⟨done, failing, machine, -, registers, -, fails⟩ := Expr.run_postorder_of_error failed
    have after : (session.execute statement).session.registers = machine.registers := by
      have entry := congrArg Prod.snd (session.entry_execute statement)
      rw [judge, read] at entry
      exact entry.trans registers.symm
    refine ⟨t, done, failing, machine, read, fails, ?_⟩
    rw [← after, ← session.config_execute statement]

/-- A statement can be deleted with its line: the others are then executed without it, and the run
has the same result. -/
theorem run_deleteLines_at {before behind : List String} {statement : String}
    (split : Text.statements (Text.lines input) = before ++ statement :: behind) :
    (session.run none (Text.deleteLines (fun i => decide (i = before.length)) input)).session =
        (session.afterAll before).afterAll behind ∧
      (session.run none (Text.deleteLines (fun i => decide (i = before.length)) input)).fault =
        (session.run none input).fault ∧
      (session.run none (Text.deleteLines (fun i => decide (i = before.length)) input)).output =
        dialogue session.config.prompt
          (session.replies before ++ (session.afterAll before).replies behind) := by
  have isStatement : ∀ i, decide (i = before.length) → ∀ line, (Text.lines input)[i]? = some line →
      ∃ statement, line = some statement ∧ statement.toList.all Text.isBlank = false := by
    rintro i isDeleted line found
    obtain rfl := of_decide_eq_true isDeleted
    have inPlace : (Text.statements (Text.lines input))[before.length]? = some statement := by
      rw [split, List.getElem?_append_right (Nat.le_refl _), Nat.sub_self]
      rfl
    obtain ⟨_, -, -, notBlank⟩ := Text.exists_ending (Text.lines input)
    rw [Text.getElem?_of_statements inPlace] at found
    exact ⟨statement, (Option.some.inj found).symm, notBlank _ (List.mem_of_getElem? inPlace)⟩
  obtain ⟨rest, sameFault⟩ := Text.statements_without isStatement
  rw [split, without_at, ← Text.lines_deleteLines] at rest
  obtain ⟨after, output⟩ := session.run_of_append rest
  refine ⟨after, ?_, output⟩
  rw [(session.run_none _).2.1, Text.lines_deleteLines, sameFault, (session.run_none input).2.1]

/-- A run on an input with a statement that fails goes on in the session that it leaves. -/
theorem run_of_fails {before behind : List String} {statement : String} {fault : RuntimeFault}
    (split : Text.statements (Text.lines input) = before ++ statement :: behind)
    (failed : ((session.afterAll before).execute statement).outcome = .error (.runtime fault)) :
    ∃ t done failing machine after, Expr.ofText statement = .ok t ∧
      t.FailsBehind (session.afterAll before).registers fault done failing machine ∧
      after = { session.afterAll before with registers := machine.registers } ∧
      (session.run none input).session = after.afterAll behind ∧
      (session.run none input).output = dialogue session.config.prompt
        (session.replies before
          ++ (Rejection.runtime fault).report session.config.coloured statement
            :: after.replies behind) := by
  obtain ⟨t, done, failing, machine, read, fails, leaves⟩ := execute_of_fails failed
  refine ⟨t, done, failing, machine, _, read, fails, rfl, ?_⟩
  obtain ⟨_, -, -, notBlank⟩ := Text.exists_ending (Text.lines input)
  rw [split] at notBlank
  have report := respond_of_rejected
    (notBlank statement (List.mem_append_right _ List.mem_cons_self)) failed
  rw [config_afterAll] at report
  obtain ⟨after, output⟩ := session.run_of_append split
  rw [← leaves]
  refine ⟨after, ?_⟩
  rw [output, replies, report]

/-- Any lines that are refused for their lexemes or their tokens can be deleted from an input: the
run ends in the same session and with the same result, and its output loses the prompts before them
and their replies, which are reports. A statement that fails when it is evaluated cannot: what
follows is answered as it would be without it, but in registers with the assignments that were
completed before the node that fails; and these can make a difference. -/
theorem run_deleteLines :
    (∀ (session : Session) (input : List UInt8) (deleted : Nat → Bool),
      (∀ i line, deleted i → (Text.linesWithEnds input)[i]? = some line → Text.IsRefused line) →
      (session.run none (Text.deleteLines deleted input)).session =
        (session.run none input).session ∧
      (session.run none (Text.deleteLines deleted input)).fault =
        (session.run none input).fault ∧
      (session.run none input).output = dialogue session.config.prompt
        (session.replies (Text.statements (Text.lines input))) ∧
      (session.run none (Text.deleteLines deleted input)).output = dialogue session.config.prompt
        (without deleted (session.replies (Text.statements (Text.lines input)))) ∧
      ∀ i line reply, deleted i → (Text.linesWithEnds input)[i]? = some line →
        (session.replies (Text.statements (Text.lines input)))[i]? = some reply →
        ∃ text rejection, Text.ofBytes? line = some text ∧
          Refuses (Text.withoutLineEnd text) rejection ∧
          reply = rejection.report session.config.coloured (Text.withoutLineEnd text)) ∧
    (∀ (session : Session) (input : List UInt8) (before : List String) (statement : String)
      (behind : List String) (fault : RuntimeFault),
      Text.statements (Text.lines input) = before ++ statement :: behind →
      ((session.afterAll before).execute statement).outcome = .error (.runtime fault) →
      (∃ t done failing machine after, Expr.ofText statement = .ok t ∧
        t.FailsBehind (session.afterAll before).registers fault done failing machine ∧
        after = { session.afterAll before with registers := machine.registers } ∧
        (session.run none input).session = after.afterAll behind ∧
        (session.run none input).output = dialogue session.config.prompt
          (session.replies before
            ++ (Rejection.runtime fault).report session.config.coloured statement
              :: after.replies behind)) ∧
      (session.run none (Text.deleteLines (fun i => decide (i = before.length)) input)).session =
        (session.afterAll before).afterAll behind ∧
      (session.run none (Text.deleteLines (fun i => decide (i = before.length)) input)).fault =
        (session.run none input).fault ∧
      (session.run none (Text.deleteLines (fun i => decide (i = before.length)) input)).output =
        dialogue session.config.prompt
          (session.replies before ++ (session.afterAll before).replies behind)) ∧
    ∃ (session : Session) (input : List UInt8) (statement later : String) (fault : RuntimeFault),
      Text.statements (Text.lines input) = [statement, later] ∧
      (session.execute statement).outcome = .error (.runtime fault) ∧
      (session.run none (Text.deleteLines (fun i => decide (i = 0)) input)).session ≠
        (session.run none input).session ∧
      (session.run none (Text.deleteLines (fun i => decide (i = 0)) input)).output ≠
        dialogue session.config.prompt
          (without (fun i => decide (i = 0)) (session.replies [statement, later])) := by
  refine ⟨fun session input deleted refused => ?_, fun session input before statement behind fault
    split failed => ⟨run_of_fails split failed, run_deleteLines_at split⟩, ?_⟩
  · obtain ⟨after, fault, output⟩ := session.run_deleteLines_of_isRefused refused
    refine ⟨after, fault, (session.run_none input).2.2, output, ?_⟩
    intro i line reply isDeleted found replied
    exact replies_of_isRefused found (refused i line isDeleted found) replied
  · refine ⟨.new .standard, Text.toBytes "(#1=5)/0\n#1", "(#1=5)/0", "#1", .divisionByZero 6,
      by decide +kernel, (execute_eq_error_iff _ _ _).2 (by decide +kernel), fun same => ?_,
      by decide +kernel⟩
    have read := congrArg (fun session => session.registers.get 1) same
    revert read
    decide +kernel

/-- An input with two lines that are refused and one that assigns a register before it fails. -/
theorem run_deleteLines_three : ∃ (session : Session) (input : List UInt8) (deleted : Nat → Bool)
    (before behind : List String) (statement : String) (fault : RuntimeFault),
    session = .new ⟨false, true, false, "> "⟩ ∧
    input = Text.toBytes "#1=2\n)\r\n(#2=5)/0\n#2 $\n#2" ∧
    deleted = (fun i => i == 1 || i == 3) ∧
    (∀ i line, deleted i → (Text.linesWithEnds input)[i]? = some line → Text.IsRefused line) ∧
    Text.deleteLines deleted input = Text.toBytes "#1=2\n(#2=5)/0\n#2" ∧
    (session.run none (Text.deleteLines deleted input)).session =
      (session.run none input).session ∧
    Text.statements (Text.lines input) = before ++ statement :: behind ∧
    statement = "(#2=5)/0" ∧ fault = .divisionByZero 6 ∧
    ((session.afterAll before).execute statement).outcome = .error (.runtime fault) ∧
    (session.run none (Text.deleteLines (fun i => decide (i = before.length)) input)).session =
      (session.afterAll before).afterAll behind := by
  have refused : ∀ i line, (i == 1 || i == 3) →
      (Text.linesWithEnds (Text.toBytes "#1=2\n)\r\n(#2=5)/0\n#2 $\n#2"))[i]? = some line →
      Text.IsRefused line := by
    intro i line isDeleted found
    rcases Bool.or_eq_true_iff.1 isDeleted with second | fourth
    · obtain rfl := eq_of_beq second
      obtain rfl : Text.toBytes ")\r\n" = line := by
        rw [← Option.some.inj found]
        decide +kernel
      exact ⟨")\r\n", .syntactic (.unexpectedToken ⟨.symbol .rightParen, 0⟩),
        Text.ofBytes?_eq_some_iff.2 rfl, by decide +kernel, .new .standard,
        (execute_eq_error_iff _ _ _).2 (by decide +kernel), .inr rfl⟩
    · obtain rfl := eq_of_beq fourth
      obtain rfl : Text.toBytes "#2 $\n" = line := by
        rw [← Option.some.inj found]
        decide +kernel
      exact ⟨"#2 $\n", .lexical (.invalidCharacter '$' 3), Text.ofBytes?_eq_some_iff.2 rfl,
        by decide +kernel, .new .standard, (execute_eq_error_iff _ _ _).2 (by decide +kernel),
        .inl rfl⟩
  have split : Text.statements
      (Text.lines (Text.toBytes "#1=2\n)\r\n(#2=5)/0\n#2 $\n#2")) =
      ["#1=2", ")"] ++ "(#2=5)/0" :: ["#2 $", "#2"] := by decide +kernel
  have failed : (((Session.new ⟨false, true, false, "> "⟩).afterAll ["#1=2", ")"]).execute
      "(#2=5)/0").outcome = .error (.runtime (.divisionByZero 6)) :=
    (execute_eq_error_iff _ _ _).2 (by decide +kernel)
  exact ⟨_, _, _, _, _, _, _, rfl, rfl, rfl, refused, by decide +kernel,
    (run_deleteLines.1 _ _ _ refused).1, split, rfl, rfl, failed,
    (run_deleteLines.2.1 _ _ _ _ _ _ split failed).2.1⟩

end Session

end RegisterCalc
