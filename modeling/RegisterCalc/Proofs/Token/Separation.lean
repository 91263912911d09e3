import RegisterCalc.Proofs.Token.Tiling

/-!
# Texts with spacing between them

No lexeme holds a spacing character, so a text starts with the same lexemes whether a spacing
character and more text follow it or nothing does (`FirstPiece.append`). What stands behind the
spacing character is cut as if it stood alone, only further on (`Scans.relocate`): positions are
handed on and never looked at. So two texts with a spacing character between them have the tokens of
both, and the first fault of the two (`tokenize_separated`), and the spellings of tokens with
spacing between them are read as these tokens again (`exists_scans_intercalate`).
-/

namespace RegisterCalc

/-! ## Moving positions -/

/-- A token with its position moved. -/
def Token.relocate (f : Offset → Offset) (token : Token) : Token := ⟨token.lexeme, f token.offset⟩

/-- A fault of a lexeme with its position moved. -/
def LexicalFault.relocate (f : Offset → Offset) : LexicalFault → LexicalFault
  | invalidCharacter char offset => invalidCharacter char (f offset)
  | invalidNumber text offset => invalidNumber text (f offset)
  | invalidRegisterMarker offset => invalidRegisterMarker (f offset)
  | registerOutOfRange digits offset => registerOutOfRange digits (f offset)

/-- A piece with its position moved. -/
def Piece.relocate (f : Offset → Offset) (piece : Piece) : Piece := ⟨f piece.offset, piece.chars⟩

namespace Piece

variable {piece : Piece} (f : Offset → Offset)

/-- A piece denotes its token wherever it stands. -/
theorem Denotes.relocate {token : Token} (h : piece.Denotes token) :
    (piece.relocate f).Denotes (token.relocate f) := by
  cases h with
  | number written finite => exact .number written finite
  | register notEmpty areDigits inRange => exact .register notEmpty areDigits inRange
  | name letters => exact .name letters
  | symbol symbol spelled => exact .symbol symbol spelled

/-- A piece has its fault wherever it stands. -/
theorem HasFault.relocate {fault : LexicalFault} (h : piece.HasFault fault) :
    (piece.relocate f).HasFault (fault.relocate f) := by
  cases h with
  | character noLexeme => exact .character noLexeme
  | number numeric noNumber => exact .number numeric noNumber
  | marker => exact .marker
  | register areDigits outOfRange => exact .register areDigits outOfRange

/-- Pieces denote their tokens wherever they stand. -/
theorem forall₂_denotes_relocate {pieces : List Piece} {body : List Token}
    (h : List.Forall₂ Denotes pieces body) :
    List.Forall₂ Denotes (pieces.map (Piece.relocate f)) (body.map (Token.relocate f)) :=
  List.forall₂_map_left_iff.2 (List.forall₂_map_right_iff.2 (h.imp fun _ _ => Denotes.relocate f))

end Piece

/-- A text further on falls into the same pieces further on. -/
theorem Scans.relocate {offset : Offset} {text : List Char} {pieces : List Piece}
    (h : Scans offset text pieces) (k : Nat) :
    Scans (offset + k) text (pieces.map (Piece.relocate (· + k))) := by
  induction h with
  | finish offset => exact .finish _
  | @skip offset c rest pieces spacing others ih =>
    rw [Nat.add_right_comm] at ih
    exact .skip spacing ih
  | @piece offset text cs pieces first others ih =>
    rw [Nat.add_right_comm] at ih
    exact .piece first ih

/-! ## Lexemes and spacing -/

/-- No lexeme holds a spacing character. -/
theorem LexicalForm.isSpacing_of_mem {cs : List Char} (h : LexicalForm cs) {c : Char}
    (mem : c ∈ cs) : Text.isSpacing c = false := by
  cases h with
  | numeral numeric => exact isSpacing_of_isNumeric (numeric c mem)
  | register areDigits =>
    rcases List.mem_cons.1 mem with rfl | digit
    · rfl
    · exact RegisterCalc.isSpacing_eq_false (p := Char.isDigit) rfl (areDigits c digit)
  | name letters => exact (apart_of_isAlpha (letters c mem)).1
  | symbol symbol spelled =>
    subst spelled
    obtain ⟨first, more, spelled, starts, length⟩ := symbol.toList_spelling
    rw [spelled] at mem
    rcases List.mem_cons.1 mem with rfl | second
    · exact (apart_of_symbol spelled).1
    · rcases length with rfl | ⟨d, rfl, joined, -⟩
      · cases second
      · rw [List.mem_singleton.1 second]
        exact RegisterCalc.isSpacing_eq_false (p := joins) rfl joined

/-- What a text starts with before a member that it does not have is within the text. -/
theorem prefix_of_prefix_append_cons {α : Type} {cs text rest : List α} {c : α}
    (h : cs <+: text ++ c :: rest) (notMem : c ∉ cs) : cs <+: text := by
  rcases List.prefix_or_prefix_of_prefix h (List.prefix_append text (c :: rest)) with
    within | ⟨more, rfl⟩
  · exact within
  · rcases List.prefix_cons_iff.1 ((List.prefix_append_right_inj text).1 h) with rfl | ⟨_, rfl, -⟩
    · rw [List.append_nil]
    · simp at notMem

section
variable {c : Char} (spacing : Text.isSpacing c)
include spacing

/-- A lexeme that a text starts with before a spacing character is one that the text starts with. -/
theorem LexicalForm.prefix_of_prefix {cs text rest : List Char} (form : LexicalForm cs)
    (starts : cs <+: text ++ c :: rest) : cs <+: text := by
  refine prefix_of_prefix_append_cons starts fun mem => ?_
  rw [form.isSpacing_of_mem mem] at spacing
  cases spacing

/-- A text starts with the same piece if a spacing character and any text follow it. -/
theorem FirstPiece.append {text cs : List Char} (h : FirstPiece text cs) (rest : List Char) :
    FirstPiece (text ++ c :: rest) cs := by
  cases h with
  | lexeme form starts longest =>
    exact .lexeme form (starts.trans (List.prefix_append _ _)) fun cs' form' starts' =>
      longest cs' form' (form'.prefix_of_prefix spacing starts')
  | stray starts notSpacing noLexeme =>
    exact .stray (starts.trans (List.prefix_append _ _)) notSpacing fun cs' form' starts' =>
      noLexeme cs' form' (form'.prefix_of_prefix spacing starts')

/-- Two texts with a spacing character between them fall into the pieces of the first and those of
the second. -/
theorem Scans.append {offset : Offset} {text rest : List Char} {pieces pieces' : List Piece}
    (h : Scans offset text pieces) (h' : Scans (offset + text.length + 1) rest pieces') :
    Scans offset (text ++ c :: rest) (pieces ++ pieces') := by
  induction h with
  | finish offset => exact .skip spacing h'
  | @skip offset d text pieces spacing' others ih =>
    refine .skip spacing' (ih ?_)
    rwa [List.length_cons, Nat.add_comm text.length, ← Nat.add_assoc] at h'
  | @piece offset text cs pieces first others ih =>
    obtain ⟨d, more, behind, rfl, rfl, -⟩ := first.eq_cons
    refine .piece (first.append spacing rest) ?_
    simp only [List.length_cons, List.cons_append, List.append_assoc, List.drop_succ_cons,
      List.drop_left] at ih h' ⊢
    refine ih ?_
    rwa [Nat.add_assoc offset, Nat.add_right_comm more.length, ← List.length_append]

/-- A spacing character between two texts puts the pieces of the second behind those of the
first. -/
theorem scans_separated {a b : String} {pieces pieces' : List Piece}
    (h : Scans 0 a.toList pieces) (h' : Scans 0 b.toList pieces') :
    Scans 0 (a ++ String.singleton c ++ b).toList
      (pieces ++ pieces'.map (Piece.relocate (· + (a.length + 1)))) := by
  have whole : (a ++ String.singleton c ++ b).toList = a.toList ++ c :: b.toList := by
    simp [String.toList_append]
  rw [whole]
  refine h.append spacing ?_
  rw [String.length_toList, Nat.add_assoc]
  exact h'.relocate _

end

/-! ## The spellings of tokens -/

/-- What denotes a token is a lexeme. -/
theorem Piece.Denotes.lexicalForm {piece : Piece} {token : Token} (h : piece.Denotes token) :
    LexicalForm piece.chars := by
  cases h with
  | @number offset cs d written finite =>
    cases cs with
    | nil =>
      obtain ⟨whole, fraction, spelled, some, -⟩ := written
      rcases spelled with ⟨rfl, rfl⟩ | spelled
      · exact absurd rfl some
      · simp at spelled
    | cons c more => exact .numeral written.isNumeric
  | register notEmpty areDigits inRange => exact .register areDigits
  | name letters => exact .name letters
  | symbol symbol spelled => exact .symbol symbol spelled

/-- What denotes a token is the only piece of itself. -/
theorem Piece.Denotes.scans {piece : Piece} {token : Token} (h : piece.Denotes token) :
    Scans piece.offset piece.chars [piece] := by
  refine .piece (.lexeme h.lexicalForm List.prefix_rfl fun cs' _ starts => starts.length_le) ?_
  rw [List.drop_length]
  exact .finish _

/-- The spellings of tokens with a spacing character between them fall into one piece for each, and
these denote the lexemes of the tokens. -/
theorem exists_scans_intercalate {c : Char} (spacing : Text.isSpacing c) {pieces : List Piece}
    {body : List Token} (denoted : List.Forall₂ Piece.Denotes pieces body) (offset : Offset) :
    ∃ pieces' body', Scans offset ([c].intercalate (body.map (·.lexeme.spelling))) pieces' ∧
      List.Forall₂ Piece.Denotes pieces' body' ∧
      body'.map (·.lexeme) = body.map (·.lexeme) := by
  induction denoted generalizing offset with
  | nil => exact ⟨[], [], .finish offset, .nil, rfl⟩
  | @cons piece token pieces body denotes others ih =>
    have moved := denotes.relocate fun _ => offset
    have spelled : piece.chars = token.lexeme.spelling := congrArg Piece.chars denotes.piece_eq.symm
    have first : Scans offset token.lexeme.spelling [piece.relocate fun _ => offset] := by
      rw [← spelled]
      exact moved.scans
    cases body with
    | nil =>
      refine ⟨_, _, ?_, .cons moved .nil, rfl⟩
      rw [List.map_singleton, List.intercalate_singleton]
      exact first
    | cons next body =>
      obtain ⟨pieces', body', scan, denoted', same⟩ :=
        ih (offset + token.lexeme.spelling.length + 1)
      refine ⟨_, _, ?_, .cons moved denoted', ?_⟩
      · rw [List.map_cons, List.map_cons, List.intercalate_cons_cons, List.append_assoc]
        exact first.append spacing scan
      · rw [List.map_cons, List.map_cons, same]
        rfl

/-! ## Texts apart -/

/-- The tokens of a text but for the end of the input are those that are denoted. -/
theorem filter_isEnd_of_denoted {pieces : List Piece} {body : List Token}
    (denoted : List.Forall₂ Piece.Denotes pieces body) (last : Offset) :
    (body ++ [(⟨.endOfInput, last⟩ : Token)]).filter (!·.isEnd) = body := by
  have notEnd : ∀ token ∈ body, token.isEnd = false := by
    intro token mem
    obtain ⟨piece, -, denotes⟩ := exists_of_forall₂ denoted.flip mem
    cases denotes <;> rfl
  rw [List.filter_append, List.filter_eq_self.2 (by simpa using notEnd)]
  simp [Token.isEnd]

/-- A spacing character between two texts keeps them apart. If the first has a fault, the whole has
that fault. Otherwise a fault of the second is that of the whole, as far further on as the second
text stands; and if there is none, the tokens of the whole are those of the first without the end of
the input and those of the second, further on. So the spellings of the tokens of a text, with spacing
between them, have the same lexemes. -/
theorem tokenize_separated (a b : String) {c : Char} (spacing : Text.isSpacing c) :
    (∀ fault, tokenize a = .error fault →
      tokenize (a ++ String.singleton c ++ b) = .error fault) ∧
    ∀ tokens, tokenize a = .ok tokens →
      (∀ fault, tokenize b = .error fault → tokenize (a ++ String.singleton c ++ b) =
        .error (fault.relocate (· + (a.length + 1)))) ∧
      (∀ tokens', tokenize b = .ok tokens' → tokenize (a ++ String.singleton c ++ b) =
        .ok (tokens.filter (!·.isEnd) ++ tokens'.map (Token.relocate (· + (a.length + 1))))) ∧
      ∃ again, tokenize (String.ofList ([c].intercalate
          ((tokens.filter (!·.isEnd)).map (·.lexeme.spelling)))) = .ok again ∧
        again.map (·.lexeme) = tokens.map (·.lexeme) := by
  obtain ⟨pieces', scan'⟩ := exists_scans 0 b.toList
  refine ⟨fun fault refused => ?_, fun tokens cut => ?_⟩
  · obtain ⟨before, piece, behind, body, scan, denoted, faulty⟩ :=
      exists_scans_of_tokenize_error refused
    have whole := scans_separated spacing scan scan'
    rw [List.append_assoc, List.cons_append] at whole
    exact whole.tokenizeFrom_eq_error denoted faulty
  · obtain ⟨pieces, body, scan, denoted, rfl⟩ := exists_scans_of_tokenize cut
    rw [filter_isEnd_of_denoted denoted]
    refine ⟨fun fault refused => ?_, fun tokens' cut' => ?_, ?_⟩
    · obtain ⟨before, piece, behind, body', scan', denoted', faulty⟩ :=
        exists_scans_of_tokenize_error refused
      have whole := scans_separated spacing scan scan'
      rw [List.map_append, List.map_cons, ← List.append_assoc] at whole
      exact whole.tokenizeFrom_eq_error
        (List.rel_append denoted (Piece.forall₂_denotes_relocate _ denoted')) (faulty.relocate _)
    · obtain ⟨pieces', body', scan', denoted', rfl⟩ := exists_scans_of_tokenize cut'
      have whole := scans_separated spacing scan scan'
      have cut := whole.tokenizeFrom_eq_ok
        (List.rel_append denoted (Piece.forall₂_denotes_relocate _ denoted'))
      have length : (a ++ String.singleton c ++ b).length = b.length + (a.length + 1) := by
        rw [String.length_append, String.length_append, String.length_singleton]
        omega
      rw [Nat.zero_add, String.length_toList, length] at cut
      rw [tokenize, cut, List.map_append, List.append_assoc]
      rfl
    · obtain ⟨pieces', body', scan', denoted', same⟩ :=
        exists_scans_intercalate spacing denoted 0
      refine ⟨_, (congrArg _ String.toList_ofList).trans (scan'.tokenizeFrom_eq_ok denoted'), ?_⟩
      rw [List.map_append, List.map_append, same]
      rfl

/-- The texts `#1 <` and `= .5`, which a tab keeps from making `<=`, and the spellings of the tokens
of `2<<.5` with tabs between them. -/
theorem tokenize_separated_tab : Text.isSpacing '\t' ∧
    tokenize ("#1 <" ++ String.singleton '\t' ++ "= .5") =
      .ok [⟨.register (some "1"), 0⟩, ⟨.symbol .less, 3⟩, ⟨.symbol .assign, 5⟩,
        ⟨.number (some ".5") (some 0.5), 7⟩, ⟨.endOfInput, 9⟩] ∧
    tokenize ("#1 <" ++ String.singleton '\t' ++ "= #") = .error (.invalidRegisterMarker 7) ∧
    tokenize ("1. #" ++ String.singleton '\t' ++ "7") = .error (.invalidRegisterMarker 3) ∧
    ∃ again, tokenize (String.ofList (['\t'].intercalate [['2'], ['<', '<'], ['.', '5']])) =
        .ok again ∧ again.map (·.lexeme) = [.number (some "2") (some 2), .symbol .shiftLeft,
          .number (some ".5") (some 0.5), .endOfInput] := by
  have spacing : Text.isSpacing '\t' := rfl
  have first : tokenize "#1 <" =
      .ok [⟨.register (some "1"), 0⟩, ⟨.symbol .less, 3⟩, ⟨.endOfInput, 4⟩] := by decide +kernel
  have second : tokenize "= .5" = .ok [⟨.symbol .assign, 0⟩, ⟨.number (some ".5") (some 0.5), 2⟩,
      ⟨.endOfInput, 4⟩] := eq_ok_of_toOption (by decide +kernel)
  have third : tokenize "2<<.5" = .ok [⟨.number (some "2") (some 2), 0⟩, ⟨.symbol .shiftLeft, 1⟩,
      ⟨.number (some ".5") (some 0.5), 3⟩, ⟨.endOfInput, 5⟩] := eq_ok_of_toOption (by decide +kernel)
  obtain ⟨faulty, -, -⟩ := (tokenize_separated "#1 <" "= #" spacing).2 _ first
  obtain ⟨-, both, -⟩ := (tokenize_separated "#1 <" "= .5" spacing).2 _ first
  obtain ⟨-, -, again⟩ := (tokenize_separated "2<<.5" "" spacing).2 _ third
  exact ⟨spacing, both _ second, faulty (.invalidRegisterMarker 2) (by decide +kernel),
    (tokenize_separated "1. #" "7" spacing).1 _ (by decide +kernel), again⟩

end RegisterCalc
