import RegisterCalc.Proofs.Token.Scanning

/-!
# Tokens tile their text

The tokens of a text are its pieces (`Scans.of_tokenize`), so nothing of the text is lost: each
token is spelled where it stands, none reaches into the next one, and what stands between them is
spacing (`tokenize_tiles`). The text is put together again from the spellings of its tokens and the
spacing between them.

What is said of tokens is read off the pieces of the text, each by an induction over how the text
falls into them.
-/

namespace RegisterCalc

/-! ## Tokens as pieces -/

/-- A lexeme as it is written; the end of the input is written as nothing. -/
def Lexeme.spelling : Lexeme → List Char
  | number text _ => (text.getD "").toList
  | register digits => '#' :: (digits.getD "").toList
  | name letters => (letters.getD "").toList
  | symbol s => s.spelling.toList
  | endOfInput => []

/-- The offset behind a piece. -/
def Piece.stop (piece : Piece) : Offset := piece.offset + piece.chars.length

/-- The characters that spell a token, where it stands. -/
def Token.piece (token : Token) : Piece := ⟨token.offset, token.lexeme.spelling⟩

/-- The offset behind the characters of a token. -/
def Token.stop (token : Token) : Offset := token.piece.stop

/-- A token that is denoted is spelled as it was denoted. -/
theorem Piece.Denotes.piece_eq {piece : Piece} {token : Token} (h : piece.Denotes token) :
    token.piece = piece := by
  cases h with
  | number | register | name => simp [Token.piece, Lexeme.spelling]
  | symbol symbol spelled => rw [Token.piece, Lexeme.spelling, spelled]

/-- The tokens of a text are its pieces and, behind them, the end of the input. -/
theorem Scans.of_tokenize {text : String} {tokens : List Token} (h : tokenize text = .ok tokens) :
    ∃ body, tokens = body ++ [⟨.endOfInput, text.length⟩] ∧
      (∀ token ∈ body, token.isEnd = false) ∧ Scans 0 text.toList (body.map Token.piece) := by
  obtain ⟨pieces, body, scan, denoted, rfl⟩ := exists_scans_of_tokenize h
  have same : body.map Token.piece = pieces := by
    clear scan h
    induction denoted with
    | nil => rfl
    | cons denotes _ ih => rw [List.map_cons, denotes.piece_eq, ih]
  refine ⟨body, rfl, fun token mem => ?_, same ▸ scan⟩
  obtain ⟨piece, -, denotes⟩ := exists_of_forall₂ denoted.flip mem
  cases denotes <;> rfl

namespace Scans

variable {offset : Offset} {text : List Char} {pieces : List Piece}

/-! ## Where pieces stand -/

/-- A piece stands at its offset in the text, and its first character is not spacing. -/
theorem exists_of_mem (h : Scans offset text pieces) {piece : Piece} (mem : piece ∈ pieces) :
    ∃ before c more behind, text = before ++ (c :: (more ++ behind)) ∧
      piece = ⟨offset + before.length, c :: more⟩ ∧ Text.isSpacing c = false := by
  induction h with
  | finish offset => cases mem
  | @skip offset c rest pieces spacing others ih =>
    obtain ⟨before, d, more, behind, rfl, rfl, notSpacing⟩ := ih mem
    refine ⟨c :: before, d, more, behind, rfl, ?_, notSpacing⟩
    rw [List.length_cons, Nat.add_right_comm, Nat.add_assoc]
  | @piece offset text cs pieces first others ih =>
    obtain ⟨c, more, rest, rfl, rfl, notSpacing, -⟩ := first.eq_cons
    rcases List.mem_cons.1 mem with rfl | mem
    · exact ⟨[], c, more, rest, rfl, rfl, notSpacing⟩
    · obtain ⟨before, d, more', behind, spelled, rfl, notSpacing'⟩ := ih mem
      refine ⟨c :: (more ++ before), d, more', behind, ?_, ?_, notSpacing'⟩
      · rw [List.length_cons, List.drop_succ_cons, List.drop_left] at spelled
        rw [spelled]
        simp
      · simp [Nat.add_assoc, Nat.add_comm, Nat.add_left_comm]

/-- Pieces stand at the offset of the text or behind it. -/
theorem le_offset (h : Scans offset text pieces) {piece : Piece} (mem : piece ∈ pieces) :
    offset ≤ piece.offset := by
  obtain ⟨before, c, more, behind, -, rfl, -⟩ := h.exists_of_mem mem
  exact Nat.le_add_right _ _

/-- Pieces stop where the text does or before. -/
theorem stop_le (h : Scans offset text pieces) {piece : Piece} (mem : piece ∈ pieces) :
    piece.stop ≤ offset + text.length := by
  obtain ⟨before, c, more, behind, rfl, rfl, -⟩ := h.exists_of_mem mem
  have within : before.length + (c :: more).length ≤
      (before ++ (c :: (more ++ behind))).length := by
    simp
  rw [Piece.stop, Nat.add_assoc]
  exact Nat.add_le_add_left within offset

/-- Each piece stops before those behind it start. -/
theorem pairwise_stop (h : Scans offset text pieces) :
    pieces.Pairwise (·.stop ≤ ·.offset) := by
  induction h with
  | finish offset => exact .nil
  | skip spacing others ih => exact ih
  | piece first others ih => exact ih.cons fun piece mem => others.le_offset mem

/-! ## What stands between pieces -/

/-- Between pieces, before and behind them is spacing. -/
theorem exists_gaps (h : Scans offset text pieces) : ∃ gap gaps,
    gaps.length = pieces.length ∧ (∀ c ∈ gap, Text.isSpacing c) ∧
      (∀ gap ∈ gaps, ∀ c ∈ gap, Text.isSpacing c) ∧
      text = gap ++ (List.zipWith (fun piece gap => piece.chars ++ gap) pieces gaps).flatten := by
  induction h with
  | finish offset => exact ⟨[], [], rfl, nofun, nofun, rfl⟩
  | @skip offset c rest pieces spacing others ih =>
    obtain ⟨gap, gaps, length, inGap, inGaps, rfl⟩ := ih
    exact ⟨c :: gap, gaps, length, List.forall_mem_cons.2 ⟨spacing, inGap⟩, inGaps, rfl⟩
  | @piece offset text cs pieces first others ih =>
    obtain ⟨gap, gaps, length, inGap, inGaps, rest⟩ := ih
    refine ⟨[], gap :: gaps, by simp [length], nofun, List.forall_mem_cons.2 ⟨inGap, inGaps⟩, ?_⟩
    obtain ⟨c, more, rest', rfl, rfl, -⟩ := first.eq_cons
    rw [List.length_cons, List.drop_succ_cons, List.drop_left] at rest
    simp [rest]

/-- A character that is not spacing is one of a piece. -/
theorem exists_piece (h : Scans offset text pieces) {i : Nat} {c : Char}
    (found : text[i]? = some c) (notSpacing : Text.isSpacing c = false) :
    ∃ piece ∈ pieces, piece.offset ≤ offset + i ∧ offset + i < piece.stop := by
  induction h generalizing i with
  | finish offset => cases found
  | @skip offset d rest pieces spacing others ih =>
    cases i with
    | zero =>
      obtain rfl := Option.some.inj found
      rw [spacing] at notSpacing
      cases notSpacing
    | succ i =>
      obtain ⟨piece, mem, start, stop⟩ := ih found
      rw [Nat.add_right_comm] at start stop
      exact ⟨piece, mem, start, stop⟩
  | @piece offset text cs pieces first others ih =>
    rcases Nat.lt_or_ge i cs.length with inside | behind
    · exact ⟨_, List.mem_cons_self, Nat.le_add_right _ _, Nat.add_lt_add_left inside _⟩
    · obtain ⟨j, rfl⟩ := Nat.exists_eq_add_of_le behind
      obtain ⟨piece, mem, start, stop⟩ := ih (List.getElem?_drop.trans found)
      rw [Nat.add_assoc] at start stop
      exact ⟨piece, List.mem_cons_of_mem _ mem, start, stop⟩

/-- A token stands at its offset in the text, and its first character is not spacing. -/
theorem exists_of_mem_body {body : List Token} (h : Scans 0 text (body.map Token.piece))
    {token : Token} (mem : token ∈ body) : ∃ before c more behind,
      text = before ++ (c :: (more ++ behind)) ∧ token.offset = before.length ∧
        token.lexeme.spelling = c :: more ∧ Text.isSpacing c = false := by
  obtain ⟨before, c, more, behind, spelled, same, notSpacing⟩ :=
    h.exists_of_mem (List.mem_map_of_mem mem)
  obtain ⟨place, spelling⟩ := Piece.mk.inj same
  exact ⟨before, c, more, behind, spelled, place.trans (Nat.zero_add _), spelling, notSpacing⟩

end Scans

/-! ## The tokens of a text -/

/-- The tokens of a text end with the end of the input, at the number of its characters, and none of
the others is one. They stand one behind the other, each spelled in the text at its offset and none
reaching into the next, and a character of no token is spacing. So the text is the spellings of the
tokens, with spacing before, between and behind them. -/
theorem tokenize_tiles {text : String} {tokens : List Token} (h : tokenize text = .ok tokens) :
    ∃ body, tokens = body ++ [⟨.endOfInput, text.length⟩] ∧
      (∀ token ∈ body, token.lexeme ≠ .endOfInput ∧ token.lexeme.spelling ≠ []) ∧
      tokens.Pairwise (·.offset < ·.offset) ∧
      (∀ token ∈ tokens, token.lexeme.spelling <+: text.toList.drop token.offset) ∧
      tokens.Pairwise (·.stop ≤ ·.offset) ∧
      (∀ i c, text.toList[i]? = some c →
        (∀ token ∈ tokens, ¬(token.offset ≤ i ∧ i < token.stop)) → Text.isSpacing c) ∧
      ∃ before gaps, gaps.length = body.length ∧
        (∀ gap ∈ before :: gaps, ∀ c ∈ gap, Text.isSpacing c) ∧
        text.toList = before ++
          (List.zipWith (fun token gap => token.lexeme.spelling ++ gap) body gaps).flatten := by
  have ordered := (pairwise_offset_tokenizeFrom h).2
  obtain ⟨body, rfl, -, scan⟩ := Scans.of_tokenize h
  obtain ⟨gap, gaps, length, inGap, inGaps, whole⟩ := scan.exists_gaps
  refine ⟨body, rfl, fun token mem => ?_, ordered, fun token mem => ?_, ?_,
    fun i c found outside => ?_, gap, gaps, by simpa using length,
    List.forall_mem_cons.2 ⟨inGap, inGaps⟩, ?_⟩
  · obtain ⟨before, c, more, behind, -, -, spelling, -⟩ := scan.exists_of_mem_body mem
    refine ⟨fun isEnd => ?_, by rw [spelling]; nofun⟩
    rw [isEnd] at spelling
    cases spelling
  · rcases List.mem_append.1 mem with mem | isEnd
    · obtain ⟨before, c, more, behind, spelled, place, spelling, -⟩ := scan.exists_of_mem_body mem
      rw [spelled, place, List.drop_left, spelling]
      exact ⟨behind, rfl⟩
    · rw [List.mem_singleton.1 isEnd]
      exact List.nil_prefix
  · refine List.pairwise_append.2 ⟨List.pairwise_map.1 scan.pairwise_stop,
      List.pairwise_singleton _ _, fun token mem last isEnd => ?_⟩
    have within := scan.stop_le (List.mem_map_of_mem mem)
    rw [Nat.zero_add, String.length_toList] at within
    rw [List.mem_singleton.1 isEnd]
    exact within
  · refine Bool.of_not_eq_false fun notSpacing => ?_
    obtain ⟨piece, mem, start, stop⟩ := scan.exists_piece found notSpacing
    obtain ⟨token, ofBody, rfl⟩ := List.mem_map.1 mem
    rw [Nat.zero_add] at start stop
    exact outside token (List.mem_append_left _ ofBody) ⟨start, stop⟩
  · rw [List.zipWith_map_left] at whole
    exact whole

/-- The tokens of ` a<=#07`. -/
theorem tokenize_tiles_comparison : ∃ tokens, tokenize " a<=#07" = .ok tokens ∧
    ∃ body, tokens = body ++ [⟨.endOfInput, " a<=#07".length⟩] ∧
      (∀ token ∈ body, token.lexeme ≠ .endOfInput ∧ token.lexeme.spelling ≠ []) ∧
      tokens.Pairwise (·.offset < ·.offset) ∧
      (∀ token ∈ tokens, token.lexeme.spelling <+: " a<=#07".toList.drop token.offset) ∧
      tokens.Pairwise (·.stop ≤ ·.offset) ∧
      (∀ i c, " a<=#07".toList[i]? = some c →
        (∀ token ∈ tokens, ¬(token.offset ≤ i ∧ i < token.stop)) → Text.isSpacing c) ∧
      ∃ before gaps, gaps.length = body.length ∧
        (∀ gap ∈ before :: gaps, ∀ c ∈ gap, Text.isSpacing c) ∧
        " a<=#07".toList = before ++
          (List.zipWith (fun token gap => token.lexeme.spelling ++ gap) body gaps).flatten := by
  have cut : tokenize " a<=#07" = .ok [⟨.name (some "a"), 1⟩, ⟨.symbol .lessEqual, 2⟩,
      ⟨.register (some "07"), 4⟩, ⟨.endOfInput, 7⟩] := by decide +kernel
  exact ⟨_, cut, tokenize_tiles cut⟩

end RegisterCalc
