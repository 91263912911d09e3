import RegisterCalc.Proofs.Session.Deletion
import RegisterCalc.Proofs.Session.Diagnostics
import RegisterCalc.Proofs.Terminal.Decoration
import RegisterCalc.Proofs.Tree.Refolding

/-!
# Runs with and without colours

A run with colours does what the run without them does, and shows the same with control sequences
for colours in it: where neither the prompt nor the input has an escape character, deleting the
control sequences gives what the run without colours shows, and they alternate
(`Session.run_withColours`).

What is shown is decorated piece by piece. A piece has no escape character if it is a word, a number
or a spelling of the language, and a message or an echo of a line has none if the line has none,
since a fault tells of nothing but the characters of its line.
-/

namespace RegisterCalc

open Text (EscapeFree)

/-! ## Messages -/

/-- A column is named without escape characters. -/
@[simp] theorem escapeFree_columnText (offset : Offset) : EscapeFree (columnText offset) :=
  EscapeFree.append_iff.2 ⟨by decide, .of_isClean (isClean_repr _)⟩

/-- A lexeme is described without escape characters if it is spelled without. -/
theorem Lexeme.escapeFree_describe {lexeme : Lexeme} (free : '\x1b' ∉ lexeme.spelling) :
    EscapeFree lexeme.describe := by
  match lexeme with
  | number none _ | register none | name none | endOfInput => simp [EscapeFree, describe]
  | register (some digits) =>
    have free : EscapeFree digits := fun mem => free (List.mem_cons_of_mem _ mem)
    simp [EscapeFree, describe, free]
  | number (some text) _ | name (some text) =>
    have free : EscapeFree text := free
    simp [EscapeFree, describe, free]
  | symbol s =>
    have free : EscapeFree s.spelling := free
    simp [EscapeFree, describe, free]

/-- What spells a token of a text are characters of the text. -/
theorem Token.mem_of_mem_spelling {text : String} {tokens : List Token}
    (cut : tokenize text = .ok tokens) {token : Token} (mem : token ∈ tokens) {c : Char}
    (spells : c ∈ token.lexeme.spelling) : c ∈ text.toList := by
  obtain ⟨body, rfl, -, scan⟩ := Scans.of_tokenize cut
  rcases List.mem_append.1 mem with ofBody | isEnd
  · obtain ⟨before, first, more, behind, spelled, -, spelling, -⟩ := scan.exists_of_mem_body ofBody
    rw [spelling] at spells
    rw [spelled, ← List.cons_append]
    exact List.mem_append_right _ (List.mem_append_left _ spells)
  · rw [List.mem_singleton.1 isEnd] at spells
    cases spells

section
variable {text : String}

/-- The fault of a lexeme is told without escape characters if the text has none. -/
theorem LexicalFault.escapeFree_message {fault : LexicalFault} (h : tokenize text = .error fault)
    (free : EscapeFree text) : EscapeFree fault.message := by
  obtain ⟨before, piece, behind, body, scan, -, faulty⟩ := exists_scans_of_tokenize_error h
  obtain ⟨front, c, more, rest, spelled, rfl, -⟩ :=
    scan.exists_of_mem (List.mem_append_right before List.mem_cons_self)
  have inside : '\x1b' ∉ c :: more := fun mem => free <| by
    rw [spelled, ← List.cons_append]
    exact List.mem_append_right _ (List.mem_append_left _ mem)
  unfold LexicalFault.message
  cases faulty with
  | character | number | register => simpa [EscapeFree] using inside
  | marker => simp [EscapeFree]

/-- The name of a function has no escape characters. -/
theorem Function.escapeFree_name (function : Function) : EscapeFree function.name := by
  cases function <;> decide

/-- The fault of tokens is told without escape characters if the text has none. -/
theorem SyntaxFault.escapeFree_message {tokens : List Token} (cut : tokenize text = .ok tokens)
    {fault : SyntaxFault} (h : Expr.ofTokens tokens = .error fault) (free : EscapeFree text) :
    EscapeFree fault.message := by
  obtain ⟨body, rfl, noEnd, -⟩ := Scans.of_tokenize cut
  have concerns := Expr.concerns_of_ofTokens noEnd h
  obtain ⟨token, mem, isAt⟩ : ∃ token ∈ body ++ [⟨.endOfInput, text.length⟩], fault.IsAt token := by
    rcases concerns.found with ⟨token, mem, isAt⟩ | isAt
    · exact ⟨token, List.mem_append_left _ mem, isAt⟩
    · exact ⟨_, List.mem_append_right _ List.mem_cons_self, isAt⟩
  have spelled : '\x1b' ∉ token.lexeme.spelling := fun spells =>
    free (Token.mem_of_mem_spelling cut mem spells)
  have described : EscapeFree token.describe := Lexeme.escapeFree_describe spelled
  unfold SyntaxFault.message
  cases isAt with
  | unexpectedToken | unbalancedParens => simp [EscapeFree, described]
  | unexpectedIdentifier letters offset =>
    have name : EscapeFree (letters.getD "") := spelled
    simp [EscapeFree, name]
  | expectedOpening name =>
    obtain ⟨function, rfl⟩ := concerns.function _ _ rfl
    simp [EscapeFree, described, function.escapeFree_name]
  | nestingTooDeep limit =>
    simpa [EscapeFree] using EscapeFree.of_isClean (isClean_repr limit)

/-- A rejection is told without escape characters if the text has none. -/
theorem Rejection.escapeFree_message {registers : Registers} {rejection : Rejection}
    (h : (evaluateText text registers).1 = .error rejection) (free : EscapeFree text) :
    EscapeFree rejection.message := by
  have stage : EscapeFree rejection.stage := by
    cases rejection <;> simp [EscapeFree, Rejection.stage]
  suffices cause : EscapeFree rejection.cause by simp [EscapeFree, message, stage, cause]
  rcases evaluateText_eq_error h with unread | ⟨tree, fault, -, -, rfl⟩
  · rcases Expr.ofText_eq_error unread with ⟨fault, cut, rfl⟩ | ⟨tokens, fault, cut, read, rfl⟩
    · exact LexicalFault.escapeFree_message cut free
    · exact SyntaxFault.escapeFree_message cut read free
  · cases fault with
    | divisionByZero offset =>
      unfold cause RuntimeFault.message
      simp [EscapeFree]
    | unknownFunction name offset =>
      exact absurd h (Expr.evaluateText_ne_unknownFunction text registers name offset)

end

/-- A report is decorated if the message and the line have no escape characters. -/
theorem Rejection.decorated_report {rejection : Rejection} {line : String}
    (message : EscapeFree rejection.message) (free : EscapeFree line) :
    Decorated fun coloured => rejection.report coloured line := by
  have caret : EscapeFree (caretLine line rejection.offset) := by
    refine EscapeFree.append_iff.2 ⟨fun mem => ?_, by decide⟩
    rw [String.toList_ofList] at mem
    obtain ⟨c, -, same⟩ := List.mem_map.1 mem
    split at same <;> exact absurd same (by decide)
  have feed : Decorated fun _ => "\n" := .plain (by decide)
  have opening := (Decorated.paint .error (by decide : EscapeFree "Error:")).append
    (.plain (by decide : EscapeFree " "))
  have told := (opening.append (.plain message)).append feed
  have echoed := (told.append (.plain free)).append feed
  exact (echoed.append (.paint .error caret)).append feed

/-! ## Values -/

/-- What is shown for an accepted statement is decorated if the calls in its trees have names of
letters. -/
theorem Accepted.decorated_text (config : Config) {accepted : Accepted}
    (named : accepted.tree.hasLetterNames)
    (namedFolded : ∀ t, accepted.folded = some t → t.hasLetterNames) :
    Decorated fun coloured => accepted.text { config with coloured } := by
  have heading {title : String} (free : EscapeFree title) {t : Expr} (named : t.hasLetterNames) :
      Decorated fun coloured => paint coloured .heading title ++ "\n" ++ t.outline coloured :=
    ((Decorated.paint .heading free).append (.plain (by decide))).append
      (Expr.decorated_outline named)
  have value := Decorated.paint .number (EscapeFree.of_isClean (isClean_numberText accepted.value))
  dsimp only [Accepted.text]
  refine ((Decorated.append ?_ ?_).append ?_).append (.plain (by decide))
  · cases config.showTree with
    | true => exact heading (by decide) named
    | false => exact .plain (by decide)
  · cases folded : accepted.folded with
    | some t => exact heading (by decide) (namedFolded t folded)
    | none => exact .plain (by decide)
  · cases accepted.assigned with
    | some id =>
      have register := Decorated.paint .register (EscapeFree.of_isClean id.isClean_text)
      exact ((((Decorated.paint .success (by decide)).append (.plain (by decide))).append
        register).append (.plain (by decide))).append value
    | none =>
      exact ((Decorated.paint .success (by decide)).append (.plain (by decide))).append value

/-! ## Replies -/

namespace Session

/-- A session that shows colours, or none. -/
def withColours (session : Session) (coloured : Bool) : Session :=
  { session with config := { session.config with coloured } }

section
variable (session : Session)

/-- Colours have no part in what comes of a statement. -/
theorem execute_withColours (coloured : Bool) (statement : String) :
    (session.withColours coloured).execute statement =
      { session.execute statement with
        session := (session.execute statement).session.withColours coloured } := by
  unfold execute
  cases tokenize statement with
  | error fault => rfl
  | ok tokens =>
    dsimp only
    cases Expr.ofTokens tokens <;> rfl

/-- Colours have no part in what comes of statements. -/
theorem afterAll_withColours (coloured : Bool) (statements : List String) :
    (session.withColours coloured).afterAll statements =
      (session.afterAll statements).withColours coloured := by
  induction statements generalizing session with
  | nil => rfl
  | cons statement statements ih =>
    rw [afterAll, List.foldl_cons, execute_withColours]
    exact ih _

/-- The tree of a statement that is accepted and the tree that was evaluated have calls under names
of letters. -/
theorem hasLetterNames_of_execute {statement : String} {accepted : Accepted}
    (ok : (session.execute statement).outcome = .ok accepted) :
    accepted.tree.hasLetterNames ∧ ∀ t, accepted.folded = some t → t.hasLetterNames := by
  obtain ⟨read, -, -⟩ := evaluated_of_execute ok
  have known := Expr.callsFunctions_of_isPlain (Expr.isPlain_of_ofText read)
  refine ⟨Expr.hasLetterNames_of_callsFunctions known, fun t folded => ?_⟩
  rw [folded_of_execute ok folded]
  exact Expr.hasLetterNames_of_callsFunctions (Expr.callsFunctions_fold known)

/-- The answer to a line without escape characters is decorated. -/
theorem decorated_respond {line : String} (free : EscapeFree line) :
    Decorated fun coloured => ((session.withColours coloured).respond line).text := by
  unfold respond
  simp only [execute_withColours]
  by_cases blank : line.toList.all Text.isBlank
  · simp only [if_pos blank]
    exact .plain (by decide)
  · simp only [if_neg blank]
    cases outcome : (session.execute line).outcome with
    | error rejection =>
      have rejected := (session.execute_eq_error_iff line rejection).1 outcome
      exact Rejection.decorated_report (Rejection.escapeFree_message rejected free) free
    | ok accepted =>
      obtain ⟨named, namedFolded⟩ := session.hasLetterNames_of_execute outcome
      exact Accepted.decorated_text session.config named namedFolded

/-- What is written for statements without escape characters is decorated. -/
theorem decorated_replies {prompt : String} (freePrompt : EscapeFree prompt)
    {statements : List String} (free : ∀ statement ∈ statements, EscapeFree statement) :
    Decorated fun coloured =>
      String.join (((session.withColours coloured).replies statements).map (prompt ++ ·)) := by
  induction statements generalizing session with
  | nil => exact .plain (by decide)
  | cons statement statements ih =>
    obtain ⟨free, freeOthers⟩ := List.forall_mem_cons.1 free
    simp only [replies, List.map_cons, String.join_cons, execute_withColours]
    exact ((Decorated.plain freePrompt).append (session.decorated_respond free)).append
      (ih _ freeOthers)

end

/-! ## Runs -/

/-- What is written in a run with some replies, as a text. -/
theorem dialogue_eq_toBytes (prompt : String) (replies : List String) :
    dialogue prompt replies =
      Text.toBytes (String.join (replies.map (prompt ++ ·)) ++ prompt) := by
  rw [dialogue, Text.toBytes_append]
  congr 1
  induction replies with
  | nil => rfl
  | cons reply replies ih =>
    rw [List.flatMap_cons, ih, List.map_cons, String.join_cons, Text.toBytes_append,
      Text.toBytes_append]

end Session

/-- The statements of an input have no escape characters if the input has none. -/
theorem Text.escapeFree_of_mem_statements {input : List UInt8} (noEscape : 27 ∉ input)
    {statement : String} (mem : statement ∈ statements (lines input)) : EscapeFree statement := by
  obtain ⟨ending, whole, -⟩ := exists_ending (lines input)
  have isLine : some statement ∈ lines input := by
    rw [whole]
    exact List.mem_append_left _ (List.mem_map_of_mem mem)
  rw [lines_eq_map] at isLine
  obtain ⟨line, mem, decoded⟩ := List.mem_map.1 isLine
  have bytes : trimEnd isLineEndByte line = toBytes statement := ofBytes?_eq_some_iff.1 decoded
  intro escape
  refine noEscape ?_
  have encoded : 27 ∈ toBytes statement := by
    rw [← String.ofList_toList (s := statement), toBytes_ofList]
    exact List.mem_flatMap.2 ⟨_, escape, List.mem_singleton_self _⟩
  have ofLine : 27 ∈ line := by
    rw [← bytes, trimEnd, List.mem_reverse] at encoded
    exact List.mem_reverse.1 ((List.dropWhile_sublist _).subset encoded)
  rw [← flatten_linesWithEnds input]
  exact List.mem_flatten.2 ⟨line, mem, ofLine⟩

namespace Session

/-- A run with colours on an input without escape characters, which are single bytes, and with a
prompt without them comes to the same as the run without colours: the same result, the same
registers, and for each statement the same verdict and the same registers after it. Without its
control sequences what it writes is what the other run writes, and the control sequences
alternate. -/
theorem run_withColours (session : Session) (input : List UInt8) (noEscape : 27 ∉ input)
    (freePrompt : '\x1b' ∉ session.config.prompt.toList) :
    ∃ shown plain : String,
      ((session.withColours true).run none input).output = Text.toBytes shown ∧
      ((session.withColours false).run none input).output = Text.toBytes plain ∧
      withoutMarks shown.toList = plain.toList ∧ Alternate (marks shown.toList) ∧
      ((session.withColours true).run none input).fault =
        ((session.withColours false).run none input).fault ∧
      ((session.withColours true).run none input).session.registers =
        ((session.withColours false).run none input).session.registers ∧
      ∀ statements, (session.withColours true).transcript statements =
        (session.withColours false).transcript statements := by
  have runs (coloured : Bool) := (session.withColours coloured).run_none input
  have decorated := (session.decorated_replies freePrompt fun statement =>
    Text.escapeFree_of_mem_statements noEscape).append (.plain freePrompt)
  refine ⟨_, _, (runs true).2.2.trans (dialogue_eq_toBytes _ _),
    (runs false).2.2.trans (dialogue_eq_toBytes _ _), decorated.withoutMarks_eq.1,
    decorated.withoutMarks_eq.2, ?_, ?_, fun statements => transcript_congr (by rfl) statements⟩
  · rw [(runs true).2.1, (runs false).2.1]
  · rw [(runs true).1, (runs false).1, afterAll_withColours, afterAll_withColours]
    rfl

/-- A run on two statements, the second of which is rejected behind a tab, that shows trees. -/
theorem run_withColours_rejected : ∃ (session : Session) (input : List UInt8),
    session.config.showTree ∧ session.config.showFolded ∧ input = Text.toBytes "#1=2\n\t#1/ 0\n" ∧
    27 ∉ input ∧ '\x1b' ∉ session.config.prompt.toList ∧
    ∃ shown plain : String,
      ((session.withColours true).run none input).output = Text.toBytes shown ∧
      ((session.withColours false).run none input).output = Text.toBytes plain ∧
      withoutMarks shown.toList = plain.toList ∧ Alternate (marks shown.toList) := by
  have noEscape : 27 ∉ Text.toBytes "#1=2\n\t#1/ 0\n" := by decide +kernel
  have freePrompt : '\x1b' ∉ (Config.mk true true false "expr> ").prompt.toList := by
    decide +kernel
  obtain ⟨shown, plain, coloured, uncoloured, same, alternate, -⟩ :=
    run_withColours (.new ⟨true, true, false, "expr> "⟩) _ noEscape freePrompt
  exact ⟨_, _, rfl, rfl, rfl, noEscape, freePrompt, shown, plain, coloured, uncoloured, same,
    alternate⟩

end Session

end RegisterCalc
