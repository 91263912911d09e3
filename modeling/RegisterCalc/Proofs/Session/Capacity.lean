import RegisterCalc.Proofs.Session.Runs

/-!
# Runs into a full output

Where the output takes only so many bytes, it gets the first bytes of what a run writes without a
limit, and the run ends at the first text that does not fit. A statement is executed before its reply
is written, so it counts from the moment when the prompt before it fits: the statements that are
executed are those whose prompt does (`Session.run_limited`).

A run is compared with the one without a limit from its end: what holds of the rest of a run
(`Run.CutTo`) holds of the run with one more text before it (`Run.CutTo.write`).
-/

namespace RegisterCalc

/-! ## Cut runs -/

/-- What comes of a run in a room for `room` bytes, where `full` comes of it without a limit: the
same if it fits, or else a run that is cut off, in one of the sessions that can be reached then. -/
inductive Run.CutTo (room : Nat) (full : Run) (reached : Session → Prop) : Run → Prop
  | whole (fits : full.output.length ≤ room) : CutTo room full reached full
  | cut {run : Run} (exceeds : room < full.output.length)
    (output : run.output = full.output.take room) (fault : run.fault = some .outputFull)
    (session : reached run.session) : CutTo room full reached run

namespace Run.CutTo

variable {room : Nat} {full run : Run} {reached : Session → Prop}

/-- What is logged before has no part in it. -/
theorem logged (h : CutTo room full reached run) (records : List LogRecord) :
    CutTo room (full.logged records) reached (run.logged records) := by
  cases h with
  | whole fits => exact .whole fits
  | cut exceeds output fault session => exact .cut exceeds output fault session

/-- Sessions that can be reached for one reason can be for another. -/
theorem imp {reached' : Session → Prop} (h : CutTo room full reached run)
    (further : ∀ session, reached session → reached' session) : CutTo room full reached' run := by
  cases h with
  | whole fits => exact .whole fits
  | cut exceeds output fault session => exact .cut exceeds output fault (further _ session)

/-- A text is written before the rest of the run, or the run is cut off within the text. -/
theorem write {session : Session} {text : String} {next : Option Nat → Run}
    (rest : (Text.toBytes text).length ≤ room →
      CutTo (room - (Text.toBytes text).length) (next none) reached
        (next (some (room - (Text.toBytes text).length))))
    (cutOff : room < (Text.toBytes text).length → reached session) :
    CutTo room (Run.write none session text next) reached
      (Run.write (some room) session text next) := by
  have length : (Run.write none session text next).output.length =
      (Text.toBytes text).length + (next none).output.length := List.length_append
  rcases Nat.lt_or_ge room (Text.toBytes text).length with exceeds | fits
  · have write : Run.write (some room) session text next =
        (failed .outputFull session).after ((Text.toBytes text).take room) :=
      if_neg (Nat.not_le.2 exceeds)
    rw [write]
    refine .cut (by omega) ?_ rfl (cutOff exceeds)
    exact (List.append_nil _).trans (List.take_append_of_le_length exceeds.le).symm
  · have write : Run.write (some room) session text next =
        (next (some (room - (Text.toBytes text).length))).after (Text.toBytes text) :=
      if_pos fits
    rw [write]
    generalize next (some (room - (Text.toBytes text).length)) = run at rest
    cases rest fits with
    | whole fits' => exact .whole (by omega)
    | cut exceeds output fault session' =>
      refine .cut (by omega) ?_ fault session'
      show Text.toBytes text ++ run.output = (Text.toBytes text ++ (next none).output).take room
      rw [output, List.take_append, List.take_of_length_le fits]

end Run.CutTo

namespace Session

/-! ## What is written before a line -/

/-- What is written behind a first statement comes behind its prompt and its reply. -/
theorem written_cons (session : Session) (statement : String) (statements : List String) :
    session.written (statement :: statements) =
      Text.toBytes session.config.prompt ++ (Text.toBytes (session.respond statement).text
        ++ (session.execute statement).session.written statements) := by
  simp only [written, answers, config_execute, List.append_assoc]

/-- What is written before a line starts what is written before any later one. -/
theorem written_take_prefix (session : Session) (statements : List String) (j : Nat) :
    session.written (statements.take j) <+: session.written statements := by
  induction statements generalizing session j with
  | nil => simp only [List.take_nil, List.prefix_rfl]
  | cons statement statements ih =>
    match j with
    | 0 =>
      rw [written_cons]
      exact List.prefix_append _ _
    | j + 1 =>
      rw [List.take_succ_cons, written_cons, written_cons]
      exact (List.prefix_append_right_inj _).2 ((List.prefix_append_right_inj _).2 (ih _ j))

/-! ## Runs in a room -/

/-- Where a run is cut off in a room: behind the statements whose prompt fits into the room. -/
def IsCutAt (session : Session) (room : Nat) (statements : List String) (reached : Session) : Prop :=
  ∃ k ≤ statements.length, reached = session.afterAll (statements.take k) ∧
    ∀ j < statements.length, j < k ↔ (session.written (statements.take j)).length ≤ room

section
variable {session : Session} {room : Nat} {statement : String} {statements : List String}

/-- A prompt that does not fit cuts a run off before a statement. -/
theorem IsCutAt.here (exceeds : room < (Text.toBytes session.config.prompt).length) :
    session.IsCutAt room statements session := by
  refine ⟨0, Nat.zero_le _, by rw [List.take_zero]; rfl, fun j _ => ?_⟩
  have atLeast : (Text.toBytes session.config.prompt).length ≤
      (session.written (statements.take j)).length := by
    rw [written, List.length_append]
    exact Nat.le_add_left _ _
  omega

/-- A reply that does not fit behind its prompt cuts a run off after its statement. -/
theorem IsCutAt.reply (prompted : (Text.toBytes session.config.prompt).length ≤ room)
    (exceeds : room - (Text.toBytes session.config.prompt).length <
      (Text.toBytes (session.respond statement).text).length) :
    session.IsCutAt room (statement :: statements) (session.execute statement).session := by
  refine ⟨1, by simp, rfl, fun j _ => ?_⟩
  match j with
  | 0 => exact iff_of_true Nat.one_pos prompted
  | j + 1 =>
    rw [List.take_succ_cons, written_cons, List.length_append, List.length_append]
    omega

/-- Where the rest of a run is cut off, the run is. -/
theorem IsCutAt.later {reached : Session}
    (prompted : (Text.toBytes session.config.prompt).length ≤ room)
    (replied : (Text.toBytes (session.respond statement).text).length ≤
      room - (Text.toBytes session.config.prompt).length)
    (h : (session.execute statement).session.IsCutAt
      (room - (Text.toBytes session.config.prompt).length
        - (Text.toBytes (session.respond statement).text).length) statements reached) :
    session.IsCutAt room (statement :: statements) reached := by
  obtain ⟨k, within, same, executed⟩ := h
  refine ⟨k + 1, Nat.succ_le_succ within, same, fun j bound => ?_⟩
  match j with
  | 0 => exact iff_of_true (Nat.succ_pos k) prompted
  | j + 1 =>
    have executed := executed j (Nat.lt_of_succ_lt_succ bound)
    rw [List.take_succ_cons, written_cons, List.length_append, List.length_append]
    omega

/-- A run on statements in a room is cut off behind those whose prompt fits. -/
theorem cutTo_answerLines {ending : List (Option String)} (ends : Text.EndRun ending)
    (notBlank : ∀ statement ∈ statements, statement.toList.all Text.isBlank = false) :
    Run.CutTo room (session.answerLines none (statements.map some ++ ending))
      (session.IsCutAt room statements)
      (session.answerLines (some room) (statements.map some ++ ending)) := by
  induction statements generalizing session room with
  | nil =>
    obtain ⟨rest, silent, -, prompted⟩ := session.answerLines_of_endRun ends
    rw [List.map_nil, List.nil_append, prompted, prompted]
    refine .write (fun _ => .whole ?_) .here
    rw [silent]
    exact Nat.zero_le _
  | cons statement statements ih =>
    obtain ⟨notBlank, others⟩ := List.forall_mem_cons.1 notBlank
    rw [List.map_cons, List.cons_append, answerLines_statement _ _ notBlank,
      answerLines_statement _ _ notBlank]
    refine .write (fun prompted => .logged (.write (fun replied => ?_) ?_) _) .here
    · exact (ih others).imp fun reached => .later prompted replied
    · exact .reply prompted

end

/-- In a room for `room` bytes a run writes the first bytes of what it writes without a limit. If
all of it fits, nothing is different; if not, the run ends since the output is full. It has then
executed, from the first one on, the statements before which the output up to their prompt fits,
whereas without a limit it executes all of them. -/
theorem run_limited (session : Session) (room : Nat) (input : List UInt8) :
    ∃ statements, statements = Text.statements (Text.lines input) ∧
      (session.run none input).session = session.afterAll statements ∧
      (session.run none input).output = session.written statements ∧
      (∀ j, session.written (statements.take j) <+: session.written statements) ∧
      (session.run (some room) input).output = (session.run none input).output.take room ∧
      ((session.run none input).output.length ≤ room ∧
          session.run (some room) input = session.run none input ∨
        room < (session.run none input).output.length ∧
          (session.run (some room) input).fault = some .outputFull ∧
          ∃ k ≤ statements.length,
            (session.run (some room) input).session = session.afterAll (statements.take k) ∧
            ∀ j < statements.length,
              j < k ↔ (session.written (statements.take j)).length ≤ room) := by
  obtain ⟨after, output⟩ := session.answerLines_statements (Text.lines input)
  obtain ⟨ending, split, ends, notBlank⟩ := Text.exists_ending (Text.lines input)
  have cut : Run.CutTo room _ _ _ := session.cutTo_answerLines ends notBlank
  rw [← split] at cut
  have cut : Run.CutTo room (session.run none input)
      (session.IsCutAt room (Text.statements (Text.lines input)))
      (session.run (some room) input) := cut.logged _
  refine ⟨_, rfl, after, output, session.written_take_prefix _, ?_⟩
  generalize session.run (some room) input = run at cut
  cases cut with
  | whole fits => exact ⟨(List.take_of_length_le fits).symm, .inl ⟨fits, rfl⟩⟩
  | cut exceeds output fault reached => exact ⟨output, .inr ⟨exceeds, fault, reached⟩⟩

end Session

end RegisterCalc
