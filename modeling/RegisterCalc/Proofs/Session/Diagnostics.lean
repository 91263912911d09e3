import RegisterCalc.Proofs.Evaluation.Faults
import RegisterCalc.Proofs.Grammar.Provenance
import RegisterCalc.Proofs.Token.Tiling

/-!
# Reports point into their line

The position at which a line is rejected is that of a lexeme of the line, or the end of the line
where that is what should not have come (`Rejection.PointsInto`), and the caret of the report stands
under it (`MarksUpTo`). This holds in every session, whatever its settings and its registers
(`Session.report_pointsInto`).

Each stage has its part in it. A fault of the lexemes is that of a piece of the text, a fault of the
tokens is one of them or of the end of the input (`Expr.concerns_of_ofTokens`), and an evaluation
fails at a node of the tree (`Expr.exists_fails_of_evaluate`), which has an anchor among the tokens.
A folded tree fails where the tree that it comes from does, so nothing more is to be said of it.
-/

namespace RegisterCalc

/-! ## Positions in a text -/

/-- A lexeme of a text, well formed or not, starts at an offset with a character. -/
structure StartsLexeme (text : String) (offset : Offset) (c : Char) : Prop where
  found : text.toList[offset]? = some c
  notSpacing : Text.isSpacing c = false
  piece : ∃ pieces more, Scans 0 text.toList pieces ∧ (⟨offset, c :: more⟩ : Piece) ∈ pieces

/-- A rejection tells of what stands in a text: its position is that of a lexeme, or the end of the
text where that is the token at fault. An invalid character, a name that is no function's, the sign
of a division by zero and a bracket left open stand where it says. -/
structure Rejection.PointsInto (rejection : Rejection) (text : String) : Prop where
  place : (∃ c, StartsLexeme text rejection.offset c) ∨
    rejection.offset = text.length ∧
      ∃ fault, rejection = .syntactic fault ∧ fault.IsAt ⟨.endOfInput, text.length⟩
  invalidCharacter : ∀ c offset, rejection = .lexical (.invalidCharacter c offset) →
    StartsLexeme text offset c
  unexpectedIdentifier : ∀ name offset,
    rejection = .syntactic (.unexpectedIdentifier name offset) →
      ∃ c more, name = String.ofList (c :: more) ∧ c.isAlpha ∧ StartsLexeme text offset c
  divisionByZero : ∀ offset, rejection = .runtime (.divisionByZero offset) →
    StartsLexeme text offset '/'
  unbalancedParens : ∀ opened found, rejection = .syntactic (.unbalancedParens opened found) →
    StartsLexeme text opened '('

section
variable {text : String} {tokens : List Token}

/-- A lexeme of a text starts before the end of the text. -/
theorem StartsLexeme.lt_length {offset : Offset} {c : Char} (h : StartsLexeme text offset c) :
    offset < text.length := by
  obtain ⟨within, -⟩ := List.getElem?_eq_some_iff.1 h.found
  rwa [String.length_toList] at within

/-- A rejection that tells of what stands in a text is at a position of the text. -/
theorem Rejection.PointsInto.offset_le {rejection : Rejection} (h : rejection.PointsInto text) :
    rejection.offset ≤ text.length := by
  rcases h.place with ⟨c, starts⟩ | ⟨atEnd, -⟩
  · exact Nat.le_of_lt starts.lt_length
  · exact Nat.le_of_eq atEnd

/-- A piece of a text starts with a character at its offset. -/
theorem Scans.startsLexeme {pieces : List Piece} (scan : Scans 0 text.toList pieces) {piece : Piece}
    (mem : piece ∈ pieces) :
    ∃ c more, piece.chars = c :: more ∧ StartsLexeme text piece.offset c := by
  obtain ⟨before, c, more, behind, spelled, rfl, notSpacing⟩ := scan.exists_of_mem mem
  refine ⟨c, more, rfl, ?_, notSpacing, pieces, more, scan, mem⟩
  dsimp only
  rw [spelled, Nat.zero_add, List.getElem?_append_right (Nat.le_refl _), Nat.sub_self]
  rfl

/-- A token of a text is spelled by a lexeme that starts at its offset. -/
theorem Token.startsLexeme (cut : tokenize text = .ok tokens) {token : Token} (mem : token ∈ tokens)
    (notEnd : token.isEnd = false) :
    ∃ c more, token.lexeme.spelling = c :: more ∧ StartsLexeme text token.offset c := by
  obtain ⟨body, rfl, -, scan⟩ := Scans.of_tokenize cut
  rcases List.mem_append.1 mem with ofBody | isEnd
  · exact scan.startsLexeme (List.mem_map_of_mem ofBody)
  · rw [List.mem_singleton.1 isEnd] at notEnd
    cases notEnd

/-- A name of a text is spelled in letters. -/
theorem Token.letters_of_name (cut : tokenize text = .ok tokens) {letters : Option String}
    {offset : Offset} (mem : (⟨.name letters, offset⟩ : Token) ∈ tokens) :
    ∃ c more, letters = some (String.ofList (c :: more)) ∧ c.isAlpha := by
  obtain ⟨pieces, body, scan, denoted, rfl⟩ := exists_scans_of_tokenize cut
  rcases List.mem_append.1 mem with ofBody | isEnd
  · obtain ⟨piece, -, denotes⟩ := exists_of_forall₂ denoted.flip ofBody
    cases denotes with
    | @name offset c more letters => exact ⟨c, more, rfl, letters c List.mem_cons_self⟩
  · cases List.mem_singleton.1 isEnd

end

/-! ## Rejections by stage -/

namespace Rejection

variable {text : String}

/-- The fault of the lexemes of a text tells of one of them. -/
theorem pointsInto_of_tokenize {fault : LexicalFault} (h : tokenize text = .error fault) :
    (lexical fault).PointsInto text := by
  obtain ⟨before, piece, behind, body, scan, -, faulty⟩ := exists_scans_of_tokenize_error h
  obtain ⟨c, more, chars, starts⟩ :=
    scan.startsLexeme (List.mem_append_right before List.mem_cons_self)
  refine ⟨.inl ⟨c, ?_⟩, ?_, nofun, nofun, nofun⟩
  · cases faulty <;> exact starts
  · rintro c' offset ⟨⟩
    cases faulty with
    | character noLexeme =>
      obtain ⟨rfl, -⟩ := List.cons.inj chars
      exact starts

/-- The fault for which the tokens of a text are no statement tells of one of them. -/
theorem pointsInto_of_ofTokens {tokens : List Token} (cut : tokenize text = .ok tokens)
    {fault : SyntaxFault} (h : Expr.ofTokens tokens = .error fault) :
    (syntactic fault).PointsInto text := by
  obtain ⟨body, rfl, noEnd, -⟩ := Scans.of_tokenize cut
  have concerns := Expr.concerns_of_ofTokens noEnd h
  have starts {token : Token} (mem : token ∈ body) :=
    Token.startsLexeme cut (List.mem_append_left _ mem) (noEnd token mem)
  refine ⟨?_, nofun, ?_, nofun, ?_⟩
  · rcases concerns.found with ⟨token, mem, isAt⟩ | isAt
    · obtain ⟨c, more, -, startsHere⟩ := starts mem
      rw [← isAt.offset_eq] at startsHere
      exact .inl ⟨c, startsHere⟩
    · exact .inr ⟨isAt.offset_eq, fault, rfl, isAt⟩
  · rintro name offset ⟨⟩
    rcases concerns.found with ⟨token, mem, isAt⟩ | isAt
    · cases isAt with
      | unexpectedIdentifier letters offset =>
        obtain ⟨c, more, rfl, isLetter⟩ := Token.letters_of_name cut (List.mem_append_left _ mem)
        obtain ⟨c', more', spelling, startsHere⟩ := starts mem
        rw [Lexeme.spelling, Option.getD_some, String.toList_ofList] at spelling
        obtain ⟨rfl, -⟩ := List.cons.inj spelling
        exact ⟨c, more, rfl, isLetter, startsHere⟩
    · cases isAt
  · rintro opened found ⟨⟩
    obtain ⟨c, more, spelling, startsHere⟩ := starts (concerns.opening opened found rfl)
    obtain ⟨rfl, -⟩ := List.cons.inj spelling
    exact startsHere

/-- The fault of the evaluation of a statement tells of a token of the statement. -/
theorem pointsInto_of_evaluate {t : Expr} (read : Expr.ofText text = .ok t) {registers : Registers}
    {fault : RuntimeFault} (h : (t.evaluate registers).outcome = .error fault) :
    (runtime fault).PointsInto text := by
  obtain ⟨node, memNodes, fails⟩ := Expr.exists_fails_of_evaluate h
  obtain ⟨tokens, anchor, cut, mem, isAnchor⟩ := Expr.exists_anchor_of_ofText read memNodes
  obtain ⟨c, more, spelling, starts⟩ := Token.startsLexeme cut mem isAnchor.isEnd_eq_false
  rw [isAnchor.offset_eq, fails.offset_eq] at starts
  refine ⟨.inl ⟨c, starts⟩, nofun, nofun, ?_, nofun⟩
  rintro offset ⟨⟩
  cases fails
  have isSlash : anchor.2 = ⟨.symbol .slash, offset⟩ := isAnchor.eq_of_binary
  rw [isSlash] at spelling
  obtain ⟨rfl, -⟩ := List.cons.inj spelling
  exact starts

/-- A text that is no statement is rejected for what stands in it. -/
theorem pointsInto_of_ofText {rejection : Rejection} (h : Expr.ofText text = .error rejection) :
    rejection.PointsInto text := by
  rcases Expr.ofText_eq_error h with ⟨fault, cut, rfl⟩ | ⟨tokens, fault, cut, read, rfl⟩
  · exact pointsInto_of_tokenize cut
  · exact pointsInto_of_ofTokens cut read

/-- A text is rejected for what stands in it. -/
theorem pointsInto_of_evaluateText {registers : Registers} {rejection : Rejection}
    (h : (evaluateText text registers).1 = .error rejection) : rejection.PointsInto text := by
  rcases evaluateText_eq_error h with unread | ⟨tree, fault, read, failed, rfl⟩
  · exact pointsInto_of_ofText unread
  · exact pointsInto_of_evaluate read failed

end Rejection

/-! ## Reports -/

/-- Marks as they stand before a caret under a position of a line: one for each character before it,
a tab where the line has a tab and a space elsewhere. -/
structure MarksUpTo (line : String) (offset : Offset) (marks : List Char) : Prop where
  length : marks.length = offset
  mark : ∀ i c, i < offset → line.toList[i]? = some c →
    marks[i]? = some (if c = '\t' then '\t' else ' ')

/-- A caret stands behind the marks up to its position. -/
theorem caretLine_eq {line : String} {offset : Offset} (within : offset ≤ line.length) :
    ∃ marks, MarksUpTo line offset marks ∧
      caretLine line offset = String.ofList (marks ++ ['^']) := by
  refine ⟨(line.toList.take offset).map fun c => if c = '\t' then '\t' else ' ', ⟨?_, ?_⟩, ?_⟩
  · rw [List.length_map, List.length_take, String.length_toList]
    exact Nat.min_eq_left within
  · intro i c before found
    rw [List.getElem?_map, List.getElem?_take_of_lt before, found]
    rfl
  · rw [caretLine, String.ofList_append]

namespace Session

/-- In every session, whatever its settings and registers, a line that is not blank and is rejected
is rejected for what stands in it, at a position of the line. The report is the message, the line
and a caret under that position, with a tab before it where the line has one and spaces else. -/
theorem report_pointsInto (session : Session) {line : String} {rejection : Rejection}
    (goesOn : (session.processLine line).flow = .goOn)
    (rejected : (session.execute (Text.withoutLineEnd line)).outcome = .error rejection) :
    rejection.offset ≤ (Text.withoutLineEnd line).length ∧
    rejection.PointsInto (Text.withoutLineEnd line) ∧
    ∃ marks, MarksUpTo (Text.withoutLineEnd line) rejection.offset marks ∧
      (session.processLine line).text =
        paint session.config.coloured .error "Error:" ++ " " ++ rejection.message ++ "\n"
          ++ Text.withoutLineEnd line ++ "\n"
          ++ paint session.config.coloured .error (String.ofList (marks ++ ['^'])) ++ "\n" := by
  have points := Rejection.pointsInto_of_evaluateText
    ((session.execute_eq_error_iff _ rejection).1 rejected)
  obtain ⟨marks, upTo, caret⟩ := caretLine_eq points.offset_le
  refine ⟨points.offset_le, points, marks, upTo, ?_⟩
  rw [← caret]
  unfold processLine respond at goesOn ⊢
  split at goesOn
  case isTrue => cases goesOn
  case isFalse notBlank =>
    rw [if_neg notBlank]
    simp only [rejected, Rejection.report]

/-- The report of the line `2+1/ 0`, behind a tab, with folded constants. -/
theorem report_pointsInto_division : ∃ (session : Session) (rejection : Rejection),
    session.config.showFolded ∧ rejection = .runtime (.divisionByZero 4) ∧
    (session.processLine "\t2+1/ 0\n").flow = .goOn ∧
    (session.execute (Text.withoutLineEnd "\t2+1/ 0\n")).outcome = .error rejection ∧
    rejection.offset ≤ (Text.withoutLineEnd "\t2+1/ 0\n").length ∧
    rejection.PointsInto (Text.withoutLineEnd "\t2+1/ 0\n") ∧
    ∃ marks, MarksUpTo (Text.withoutLineEnd "\t2+1/ 0\n") rejection.offset marks ∧
      (session.processLine "\t2+1/ 0\n").text =
        paint session.config.coloured .error "Error:" ++ " " ++ rejection.message ++ "\n"
          ++ Text.withoutLineEnd "\t2+1/ 0\n" ++ "\n"
          ++ paint session.config.coloured .error (String.ofList (marks ++ ['^'])) ++ "\n" := by
  have rejected := ((Session.new ⟨false, true, true, ""⟩).execute_eq_error_iff
    (Text.withoutLineEnd "\t2+1/ 0\n") (.runtime (.divisionByZero 4))).2 (by decide +kernel)
  have goesOn : ((Session.new ⟨false, true, true, ""⟩).processLine "\t2+1/ 0\n").flow = .goOn := by
    decide +kernel
  exact ⟨_, _, rfl, rfl, goesOn, rejected, report_pointsInto _ goesOn rejected⟩

end Session

end RegisterCalc
