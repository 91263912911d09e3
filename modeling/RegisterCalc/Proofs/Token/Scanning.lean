import RegisterCalc.Proofs.Token.Lexing
import Mathlib.Data.List.Forall2

/-!
# The lexical grammar

The lexemes of a text, said without the functions that cut it. There are four forms of lexemes
(`LexicalForm`); a text starts with the longest of them that matches, and a character with which
none starts stands by itself (`FirstPiece`). So every text falls into pieces with spacing between
them, and in one way only (`Scans`). A piece is well formed and denotes a token (`Piece.Denotes`) or
has a fault (`Piece.HasFault`).

The tokens of a text are those that its pieces denote, and the fault of a text is that of the first
piece that denotes none (`tokenize_longest_match`). The step that the two descriptions have in
common is that as many characters are reached as the longest lexeme has (`firstPiece_iff`).
-/

namespace RegisterCalc

/-! ## Forms of lexemes -/

/-- The forms of lexemes, well formed or not: a run of digits and points, a marker before a run of
digits or none, a run of letters, a symbol. -/
inductive LexicalForm : List Char → Prop where
  | numeral {c : Char} {more : List Char} (numeric : ∀ d ∈ c :: more, isNumeric d) :
      LexicalForm (c :: more)
  | register {digits : List Char} (areDigits : ∀ d ∈ digits, d.isDigit) :
      LexicalForm ('#' :: digits)
  | name {c : Char} {more : List Char} (letters : ∀ d ∈ c :: more, d.isAlpha) :
      LexicalForm (c :: more)
  | symbol {cs : List Char} (symbol : Symbol) (spelled : symbol.spelling.toList = cs) :
      LexicalForm cs

/-- What a text starts with: the longest lexeme that matches there, and where none does, a single
character that is not spacing. -/
inductive FirstPiece (text : List Char) : List Char → Prop where
  | lexeme {cs : List Char} (form : LexicalForm cs) (starts : cs <+: text)
      (longest : ∀ cs', LexicalForm cs' → cs' <+: text → cs'.length ≤ cs.length) :
      FirstPiece text cs
  | stray {c : Char} (starts : [c] <+: text) (notSpacing : Text.isSpacing c = false)
      (noLexeme : ∀ cs, LexicalForm cs → ¬cs <+: text) : FirstPiece text [c]

/-- Some characters of a text, and the offset of the first one. -/
structure Piece where
  offset : Offset
  chars : List Char

/-- The characters `text` from `offset` on fall into these pieces, from left to right. -/
inductive Scans : Offset → List Char → List Piece → Prop where
  | finish (offset : Offset) : Scans offset [] []
  | skip {offset : Offset} {c : Char} {rest : List Char} {pieces : List Piece}
      (spacing : Text.isSpacing c) (others : Scans (offset + 1) rest pieces) :
      Scans offset (c :: rest) pieces
  | piece {offset : Offset} {text cs : List Char} {pieces : List Piece}
      (first : FirstPiece text cs)
      (others : Scans (offset + cs.length) (text.drop cs.length) pieces) :
      Scans offset text (⟨offset, cs⟩ :: pieces)

namespace Piece

/-- The token that a well-formed piece denotes. A number must be a decimal whose nearest double is
finite, and a register have a number that fits. -/
inductive Denotes : Piece → Token → Prop where
  | number {offset : Offset} {cs : List Char} {d : Decimal} (written : d.IsWrittenAs cs)
      (finite : Binary64.isFinite d.nearest) :
      Denotes ⟨offset, cs⟩ ⟨.number (some (String.ofList cs)) (some d.nearest), offset⟩
  | register {offset : Offset} {digits : List Char} (notEmpty : digits ≠ [])
      (areDigits : ∀ d ∈ digits, d.isDigit)
      (inRange : Nat.ofDigitChars 10 digits 0 < UInt32.size) :
      Denotes ⟨offset, '#' :: digits⟩ ⟨.register (some (String.ofList digits)), offset⟩
  | name {offset : Offset} {c : Char} {more : List Char} (letters : ∀ d ∈ c :: more, d.isAlpha) :
      Denotes ⟨offset, c :: more⟩ ⟨.name (some (String.ofList (c :: more))), offset⟩
  | symbol {offset : Offset} {cs : List Char} (symbol : Symbol)
      (spelled : symbol.spelling.toList = cs) : Denotes ⟨offset, cs⟩ ⟨.symbol symbol, offset⟩

/-- The fault of a piece that is not well formed. -/
inductive HasFault : Piece → LexicalFault → Prop where
  | character {offset : Offset} {c : Char} (noLexeme : ∀ more, ¬LexicalForm (c :: more)) :
      HasFault ⟨offset, [c]⟩ (.invalidCharacter c offset)
  | number {offset : Offset} {c : Char} {more : List Char} (numeric : ∀ d ∈ c :: more, isNumeric d)
      (noNumber : ∀ d : Decimal, d.IsWrittenAs (c :: more) →
        Binary64.isFinite d.nearest = false) :
      HasFault ⟨offset, c :: more⟩ (.invalidNumber (String.ofList (c :: more)) offset)
  | marker {offset : Offset} : HasFault ⟨offset, ['#']⟩ (.invalidRegisterMarker offset)
  | register {offset : Offset} {digits : List Char} (areDigits : ∀ d ∈ digits, d.isDigit)
      (outOfRange : UInt32.size ≤ Nat.ofDigitChars 10 digits 0) :
      HasFault ⟨offset, '#' :: digits⟩ (.registerOutOfRange (String.ofList digits) offset)

end Piece

/-! ## Characters apart -/

section
variable {c : Char} {more rest cs : List Char}

/-- A letter is neither spacing nor numeric nor a marker. -/
theorem apart_of_isAlpha (h : c.isAlpha) :
    Text.isSpacing c = false ∧ isNumeric c = false ∧ c ≠ '#' := by
  refine ⟨isSpacing_eq_false (p := Char.isAlpha) rfl h, ?_, ?_⟩
  · refine Bool.eq_false_iff.2 fun numeric => ?_
    simp only [isNumeric, Bool.or_eq_true, decide_eq_true_eq] at numeric
    rcases numeric with digit | rfl
    · grind [Char.isAlpha, Char.isUpper, Char.isLower, Char.isDigit]
    · exact absurd h (by decide)
  · rintro rfl
    exact absurd h (by decide)

/-- A symbol is found under its spelling only. -/
theorem Symbol.eq_of_ofSpelling? {symbol : Symbol} (h : Symbol.ofSpelling? cs = some symbol) :
    symbol.spelling.toList = cs := by
  simpa using List.find?_some
    (p := fun symbol : Symbol => decide (symbol.spelling.toList = cs)) h

/-- The first character of a symbol is a symbol by itself. -/
theorem Symbol.isSome_ofSpelling?_take (symbol : Symbol) :
    (Symbol.ofSpelling? (symbol.spelling.toList.take 1)).isSome := by
  cases symbol <;> decide +kernel

/-- What starts a symbol is neither spacing nor numeric nor a marker nor a letter. -/
theorem apart_of_symbol {symbol : Symbol} (h : symbol.spelling.toList = c :: more) :
    Text.isSpacing c = false ∧ isNumeric c = false ∧ c ≠ '#' ∧ c.isAlpha = false := by
  obtain ⟨c', more', spelled, starts, -⟩ := symbol.toList_spelling
  obtain ⟨rfl, -⟩ := List.cons.inj (spelled.symm.trans h)
  simp only [startsSymbol, Bool.and_eq_true, Bool.not_eq_true', decide_eq_true_eq] at starts
  obtain ⟨⟨⟨notSpacing, notNumeric⟩, notMarker⟩, notAlpha⟩ := starts
  exact ⟨notSpacing, notNumeric, notMarker, notAlpha⟩

namespace LexicalForm

/-- No lexeme is empty. -/
theorem ne_nil (h : LexicalForm cs) : cs ≠ [] := by
  cases h with
  | numeral | register | name => nofun
  | symbol symbol spelled =>
    obtain ⟨c, more, spelled', -⟩ := symbol.toList_spelling
    simp [← spelled, spelled']

/-- No lexeme starts with spacing. -/
theorem isSpacing_eq_false (h : LexicalForm (c :: more)) : Text.isSpacing c = false := by
  cases h with
  | numeral numeric => exact isSpacing_of_isNumeric (numeric c List.mem_cons_self)
  | register areDigits => rfl
  | name letters => exact (apart_of_isAlpha (letters c List.mem_cons_self)).1
  | symbol symbol spelled => exact (apart_of_symbol spelled).1

/-- What starts a lexeme is one by itself. -/
theorem first (h : LexicalForm (c :: more)) : LexicalForm [c] := by
  cases h with
  | numeral numeric => exact .numeral (List.forall_mem_singleton.2 (numeric c List.mem_cons_self))
  | register areDigits => exact .register nofun
  | name letters => exact .name (List.forall_mem_singleton.2 (letters c List.mem_cons_self))
  | symbol symbol spelled =>
    have starts := symbol.isSome_ofSpelling?_take
    rw [spelled] at starts
    obtain ⟨first, found⟩ := Option.isSome_iff_exists.1 starts
    exact .symbol first (Symbol.eq_of_ofSpelling? found)

/-- A lexeme does not go on for longer than is reached. -/
theorem length_le_reach (h : LexicalForm (c :: more)) (starts : more <+: rest) :
    more.length ≤ reach c rest := by
  obtain ⟨behind, rfl⟩ := starts
  unfold reach
  cases h with
  | numeral numeric =>
    obtain ⟨first, others⟩ := List.forall_mem_cons.1 numeric
    rw [if_pos first, List.takeWhile_append_of_pos others]
    simp
  | register areDigits =>
    have notNumeric : isNumeric '#' = false := rfl
    rw [notNumeric, if_neg Bool.false_ne_true, if_pos rfl, List.takeWhile_append_of_pos areDigits]
    simp
  | name letters =>
    obtain ⟨first, others⟩ := List.forall_mem_cons.1 letters
    obtain ⟨-, notNumeric, notMarker⟩ := apart_of_isAlpha first
    rw [notNumeric, if_neg Bool.false_ne_true, if_neg notMarker, if_pos first,
      List.takeWhile_append_of_pos others]
    simp
  | symbol symbol spelled =>
    obtain ⟨-, notNumeric, notMarker, notAlpha⟩ := apart_of_symbol spelled
    obtain ⟨c', more', spelled', -, length⟩ := symbol.toList_spelling
    obtain ⟨rfl, rfl⟩ := List.cons.inj (spelled'.symm.trans spelled)
    have read := symbol.ofSpelling?_spelling
    rw [notNumeric, if_neg Bool.false_ne_true, if_neg notMarker, notAlpha,
      if_neg Bool.false_ne_true]
    rcases length with rfl | ⟨d, rfl, -⟩
    · exact Nat.zero_le _
    · rw [spelled] at read
      simp [read]

/-- As far as is reached, what starts a lexeme goes on with it. -/
theorem take_reach (h : LexicalForm [c]) (rest : List Char) :
    LexicalForm (c :: rest.take (reach c rest)) := by
  have run {p : Char → Bool} (first : p c) :
      ∀ d ∈ c :: rest.take (rest.takeWhile p).length, p d := by
    rw [← List.prefix_iff_eq_take.1 (List.takeWhile_prefix p)]
    exact List.forall_mem_cons.2 ⟨first, fun d mem => List.mem_takeWhile_imp mem⟩
  unfold reach
  split
  case isTrue numeric => exact .numeral (run numeric)
  split
  case isTrue marker =>
    subst marker
    rw [← List.prefix_iff_eq_take.1 (List.takeWhile_prefix _)]
    exact .register fun d mem => List.mem_takeWhile_imp mem
  split
  case isTrue alpha => exact .name (run alpha)
  cases rest with
  | nil => exact h
  | cons d rest =>
    dsimp only
    split
    case isTrue pair =>
      obtain ⟨symbol, found⟩ := Option.isSome_iff_exists.1 pair
      exact .symbol symbol (Symbol.eq_of_ofSpelling? found)
    case isFalse => exact h

/-- Nothing is reached from what starts no lexeme. -/
theorem reach_eq_zero (h : ¬LexicalForm [c]) (rest : List Char) : reach c rest = 0 := by
  unfold reach
  split
  case isTrue numeric => exact absurd (.numeral (List.forall_mem_singleton.2 numeric)) h
  split
  case isTrue marker => exact absurd (marker ▸ .register nofun) h
  split
  case isTrue alpha => exact absurd (.name (List.forall_mem_singleton.2 alpha)) h
  split
  case h_1 => rfl
  case h_2 d rest =>
    refine if_neg fun pair => h ?_
    obtain ⟨symbol, found⟩ := Option.isSome_iff_exists.1 pair
    exact first (.symbol symbol (Symbol.eq_of_ofSpelling? found))

end LexicalForm

/-- No further is reached than there are characters. -/
theorem reach_le_length (c : Char) (rest : List Char) : reach c rest ≤ rest.length := by
  have run (p : Char → Bool) : (rest.takeWhile p).length ≤ rest.length :=
    (List.takeWhile_prefix p).length_le
  unfold reach
  split
  · exact run _
  split
  · exact run _
  split
  · exact run _
  cases rest with
  | nil => exact le_rfl
  | cons d rest =>
    dsimp only
    split <;> simp

/-- A text that does not start with spacing starts with its first character and those that are
reached from it. -/
theorem firstPiece_iff : FirstPiece (c :: rest) cs ↔
    Text.isSpacing c = false ∧ cs = c :: rest.take (reach c rest) := by
  constructor
  · rintro (⟨form, starts, longest⟩ | ⟨starts, notSpacing, noLexeme⟩)
    · rcases List.prefix_cons_iff.1 starts with rfl | ⟨more, rfl, others⟩
      · exact absurd rfl form.ne_nil
      have atMost := form.length_le_reach others
      have atLeast := longest _ (form.first.take_reach rest)
        (List.cons_prefix_cons.2 ⟨rfl, List.take_prefix _ _⟩)
      rw [List.length_cons, List.length_cons, List.length_take] at atLeast
      have shorter := others.length_le
      refine ⟨form.isSpacing_eq_false, ?_⟩
      rw [List.prefix_iff_eq_take.1 others, List.cons.injEq, List.take_eq_take_iff]
      exact ⟨rfl, by omega⟩
    · obtain ⟨rfl, -⟩ := List.cons_prefix_cons.1 starts
      have none := LexicalForm.reach_eq_zero (fun form => noLexeme _ form starts) rest
      exact ⟨notSpacing, by rw [none, List.take_zero]⟩
  · rintro ⟨notSpacing, rfl⟩
    by_cases form : LexicalForm [c]
    · refine .lexeme (form.take_reach rest)
        (List.cons_prefix_cons.2 ⟨rfl, List.take_prefix _ _⟩) fun cs form' starts => ?_
      rcases List.prefix_cons_iff.1 starts with rfl | ⟨more, rfl, others⟩
      · exact Nat.zero_le _
      have atMost := form'.length_le_reach others
      have shorter := others.length_le
      simp only [List.length_cons, List.length_take]
      omega
    · rw [LexicalForm.reach_eq_zero form, List.take_zero]
      refine .stray (List.cons_prefix_cons.2 ⟨rfl, List.nil_prefix⟩) notSpacing
        fun cs form' starts => ?_
      rcases List.prefix_cons_iff.1 starts with rfl | ⟨more, rfl, -⟩
      · exact form'.ne_nil rfl
      · exact form form'.first

/-- A text that starts with a piece is not empty, and the piece is what is reached. -/
theorem FirstPiece.eq_cons {text : List Char} (h : FirstPiece text cs) :
    ∃ c more rest, cs = c :: more ∧ text = c :: (more ++ rest) ∧ Text.isSpacing c = false ∧
      reach c (more ++ rest) = more.length := by
  cases text with
  | nil =>
    rcases h with ⟨form, starts, -⟩ | ⟨starts, -, -⟩
    · exact absurd (List.prefix_nil.1 starts) form.ne_nil
    · cases List.prefix_nil.1 starts
  | cons c rest =>
    obtain ⟨notSpacing, rfl⟩ := firstPiece_iff.1 h
    have length := List.length_take_of_le (reach_le_length c rest)
    exact ⟨c, _, rest.drop (reach c rest), rfl, by rw [List.take_append_drop], notSpacing,
      by rw [List.take_append_drop, length]⟩

end

/-! ## Pieces are well formed or have a fault -/

section
variable {offset : Offset} {c : Char} {more cs text : List Char}

namespace Piece

/-- What a well-formed piece denotes is what is spelled by its characters, where it stands. -/
theorem Denotes.ofSpelling {token : Token} (h : Denotes ⟨offset, c :: more⟩ token) :
    token.offset = offset ∧ Lexeme.ofSpelling c more offset = .ok token.lexeme := by
  unfold Lexeme.ofSpelling
  cases h with
  | @number _ _ d written finite =>
    have read := readNumeral?_eq_some_iff.2 ⟨d, written, finite, rfl⟩
    have numeric : isNumeric c := written.isNumeric c List.mem_cons_self
    simp [numeric, read]
  | register notEmpty areDigits inRange =>
    have notNumeric : isNumeric '#' = false := rfl
    simp [notNumeric, RegisterId.ofText?_ofList areDigits, notEmpty, inRange]
  | name letters =>
    have alpha := letters c List.mem_cons_self
    obtain ⟨-, notNumeric, notMarker⟩ := apart_of_isAlpha alpha
    simp [notNumeric, notMarker, alpha]
  | symbol symbol spelled =>
    obtain ⟨-, notNumeric, notMarker, notAlpha⟩ := apart_of_symbol spelled
    have read := symbol.ofSpelling?_spelling
    rw [spelled] at read
    simp [notNumeric, notMarker, notAlpha, read]

/-- The fault of a piece is the fault of what is spelled by its characters. -/
theorem HasFault.ofSpelling {fault : LexicalFault} (h : HasFault ⟨offset, c :: more⟩ fault) :
    Lexeme.ofSpelling c more offset = .error fault := by
  unfold Lexeme.ofSpelling
  cases h with
  | character noLexeme =>
    have notNumeric : isNumeric c = false := Bool.eq_false_iff.2 fun numeric =>
      noLexeme [] (.numeral (List.forall_mem_singleton.2 numeric))
    have notMarker : c ≠ '#' := fun marker => noLexeme [] (marker ▸ .register nofun)
    have notAlpha : c.isAlpha = false := Bool.eq_false_iff.2 fun alpha =>
      noLexeme [] (.name (List.forall_mem_singleton.2 alpha))
    have noSymbol : Symbol.ofSpelling? [c] = none := Option.eq_none_iff_forall_ne_some.2
      fun symbol found => noLexeme [] (.symbol symbol (Symbol.eq_of_ofSpelling? found))
    simp [notNumeric, notMarker, notAlpha, noSymbol]
  | number numeric noNumber =>
    have unread : readNumeral? (c :: more) = none :=
      Option.eq_none_iff_forall_ne_some.2 fun x read => by
        obtain ⟨d, written, finite, -⟩ := readNumeral?_eq_some_iff.1 read
        rw [noNumber d written] at finite
        cases finite
    simp [numeric c List.mem_cons_self, unread]
  | marker =>
    have notNumeric : isNumeric '#' = false := rfl
    simp [notNumeric]
  | register areDigits outOfRange =>
    have notNumeric : isNumeric '#' = false := rfl
    have notEmpty : more ≠ [] := by
      rintro rfl
      exact absurd outOfRange (by decide)
    simp [notNumeric, notEmpty, RegisterId.ofText?_ofList areDigits, Nat.not_lt.2 outOfRange]

/-- Whatever a text starts with is well formed or has a fault. -/
theorem denotes_or_hasFault (first : FirstPiece text cs) (offset : Offset) :
    (∃ token, Denotes ⟨offset, cs⟩ token) ∨ ∃ fault, HasFault ⟨offset, cs⟩ fault := by
  rcases first with ⟨form, -, -⟩ | ⟨starts, -, noLexeme⟩
  · cases form with
    | @numeral c more numeric =>
      by_cases denoted : ∃ d : Decimal, d.IsWrittenAs (c :: more) ∧ Binary64.isFinite d.nearest
      · obtain ⟨d, written, finite⟩ := denoted
        exact .inl ⟨_, .number written finite⟩
      · refine .inr ⟨_, .number numeric fun d written => Bool.eq_false_iff.2 fun finite => ?_⟩
        exact denoted ⟨d, written, finite⟩
    | @register digits areDigits =>
      rcases eq_or_ne digits [] with rfl | notEmpty
      · exact .inr ⟨_, .marker⟩
      rcases Nat.lt_or_ge (Nat.ofDigitChars 10 digits 0) UInt32.size with inRange | outOfRange
      · exact .inl ⟨_, .register notEmpty areDigits inRange⟩
      · exact .inr ⟨_, .register areDigits outOfRange⟩
    | name letters => exact .inl ⟨_, .name letters⟩
    | symbol symbol spelled => exact .inl ⟨_, .symbol symbol spelled⟩
  · exact .inr ⟨_, .character fun more form => noLexeme _ form.first starts⟩

end Piece

end

/-! ## The pieces of a text -/

section
variable {offset : Offset} {text cs : List Char} {pieces : List Piece}

/-- A text starts with one piece only. -/
theorem FirstPiece.eq {cs' : List Char} (h : FirstPiece text cs) (h' : FirstPiece text cs') :
    cs = cs' := by
  obtain ⟨c, more, rest, -, rfl, -⟩ := h.eq_cons
  rw [(firstPiece_iff.1 h).2, (firstPiece_iff.1 h').2]

/-- Every text falls into pieces. -/
theorem exists_scans (offset : Offset) (text : List Char) : ∃ pieces, Scans offset text pieces := by
  -- A piece has at least one character, so fewer and fewer are left.
  induction length : text.length using Nat.strongRecOn generalizing offset text with
  | ind n ih =>
    cases text with
    | nil => exact ⟨[], .finish offset⟩
    | cons c rest =>
      rw [List.length_cons] at length
      cases spacing : Text.isSpacing c with
      | true =>
        obtain ⟨pieces, others⟩ := ih rest.length (by omega) (offset + 1) rest rfl
        exact ⟨pieces, .skip spacing others⟩
      | false =>
        have first : FirstPiece (c :: rest) (c :: rest.take (reach c rest)) :=
          firstPiece_iff.2 ⟨spacing, rfl⟩
        obtain ⟨pieces, others⟩ :=
          ih ((c :: rest).drop (c :: rest.take (reach c rest)).length).length
            (by simp; omega) (offset + (c :: rest.take (reach c rest)).length) _ rfl
        exact ⟨_, .piece first others⟩

namespace Scans

/-- A text falls into pieces in one way only. -/
theorem eq {pieces' : List Piece} (h : Scans offset text pieces) (h' : Scans offset text pieces') :
    pieces' = pieces := by
  induction h generalizing pieces' with
  | finish offset =>
    cases h' with
    | finish => rfl
    | piece first others =>
      obtain ⟨c, more, rest, -, text, -⟩ := first.eq_cons
      cases text
  | skip spacing others ih =>
    cases h' with
    | skip _ others' => exact ih others'
    | piece first others' =>
      rw [(firstPiece_iff.1 first).1] at spacing
      cases spacing
  | piece first others ih =>
    cases h' with
    | finish =>
      obtain ⟨c, more, rest, -, text, -⟩ := first.eq_cons
      cases text
    | skip spacing others' =>
      rw [(firstPiece_iff.1 first).1] at spacing
      cases spacing
    | piece first' others' =>
      obtain rfl := first.eq first'
      rw [ih others']

end Scans

/-! ## Tokens and faults -/

variable {body : List Token} {fault : LexicalFault}

/-- The token of the first piece is the first one. -/
theorem FirstPiece.tokenizeFrom_of_denotes {token : Token} (first : FirstPiece text cs)
    (denotes : Piece.Denotes ⟨offset, cs⟩ token) :
    tokenizeFrom offset text =
      (tokenizeFrom (offset + cs.length) (text.drop cs.length)).map (token :: ·) := by
  obtain ⟨c, more, rest, rfl, rfl, notSpacing, reached⟩ := first.eq_cons
  obtain ⟨rfl, spelled⟩ := denotes.ofSpelling
  have cut := Lexes.lexeme notSpacing reached spelled
  rw [Lexes] at cut
  rw [cut, List.length_cons, List.drop_succ_cons, List.drop_left, Nat.add_right_comm]
  rfl

/-- The fault of the first piece is that of the text. -/
theorem FirstPiece.tokenizeFrom_of_hasFault (first : FirstPiece text cs)
    (faulty : Piece.HasFault ⟨offset, cs⟩ fault) : tokenizeFrom offset text = .error fault := by
  obtain ⟨c, more, rest, rfl, rfl, notSpacing, reached⟩ := first.eq_cons
  exact tokenizeFrom_of_fault notSpacing reached faulty.ofSpelling

namespace Scans

/-- Where all pieces are well formed, the tokens are those that they denote. -/
theorem tokenizeFrom_eq_ok (h : Scans offset text pieces)
    (denoted : List.Forall₂ Piece.Denotes pieces body) :
    tokenizeFrom offset text = .ok (body ++ [⟨.endOfInput, offset + text.length⟩]) := by
  induction h generalizing body with
  | finish offset =>
    cases denoted
    rw [tokenizeFrom]
    rfl
  | skip spacing others ih =>
    rw [tokenizeFrom, if_pos spacing, ih denoted, List.length_cons, Nat.add_right_comm,
      Nat.add_assoc]
  | @piece offset text cs pieces first others ih =>
    cases denoted with
    | cons denotes denoted =>
      have length : cs.length + (text.drop cs.length).length = text.length := by
        obtain ⟨c, more, rest, rfl, rfl, -⟩ := first.eq_cons
        simp only [List.length_cons, List.drop_succ_cons, List.drop_left, List.length_append]
        omega
      rw [first.tokenizeFrom_of_denotes denotes, ih denoted, Nat.add_assoc, length]
      rfl

/-- Where the pieces before a faulty one are well formed, its fault is that of the text. -/
theorem tokenizeFrom_eq_error {before behind : List Piece} {piece : Piece}
    (h : Scans offset text (before ++ piece :: behind))
    (denoted : List.Forall₂ Piece.Denotes before body) (faulty : piece.HasFault fault) :
    tokenizeFrom offset text = .error fault := by
  generalize all : before ++ piece :: behind = pieces at h
  induction h generalizing before body with
  | finish offset => simp at all
  | skip spacing others ih =>
    rw [tokenizeFrom, if_pos spacing]
    exact ih denoted all
  | piece first others ih =>
    cases denoted with
    | nil =>
      obtain ⟨rfl, -⟩ := List.cons.inj all
      exact first.tokenizeFrom_of_hasFault faulty
    | cons denotes denoted =>
      obtain ⟨rfl, others'⟩ := List.cons.inj all
      rw [first.tokenizeFrom_of_denotes denotes, ih denoted others']
      rfl

/-- The pieces of a text are all well formed, or a first one has a fault. -/
theorem denoted_or_hasFault (h : Scans offset text pieces) :
    (∃ body, List.Forall₂ Piece.Denotes pieces body) ∨
      ∃ before piece behind body fault, pieces = before ++ piece :: behind ∧
        List.Forall₂ Piece.Denotes before body ∧ piece.HasFault fault := by
  induction h with
  | finish offset => exact .inl ⟨[], .nil⟩
  | skip spacing others ih => exact ih
  | @piece offset text cs pieces first others ih =>
    rcases Piece.denotes_or_hasFault first offset with ⟨token, denotes⟩ | ⟨fault, faulty⟩
    · rcases ih with ⟨body, denoted⟩ | ⟨before, piece, behind, body, fault, rfl, denoted, faulty⟩
      · exact .inl ⟨token :: body, .cons denotes denoted⟩
      · exact .inr ⟨⟨offset, cs⟩ :: before, piece, behind, token :: body, fault, rfl,
          .cons denotes denoted, faulty⟩
    · exact .inr ⟨[], ⟨offset, cs⟩, pieces, [], fault, rfl, .nil, faulty⟩

end Scans

end

/-- Lists that are related member by member relate each member of the one to one of the other. -/
theorem exists_of_forall₂ {α β : Type} {R : α → β → Prop} {as : List α} {bs : List β}
    (h : List.Forall₂ R as bs) {a : α} (mem : a ∈ as) : ∃ b ∈ bs, R a b := by
  induction h with
  | nil => cases mem
  | @cons a' b as bs related others ih =>
    rcases List.mem_cons.1 mem with rfl | mem
    · exact ⟨b, List.mem_cons_self, related⟩
    · obtain ⟨b', mem', related'⟩ := ih mem
      exact ⟨b', List.mem_cons_of_mem _ mem', related'⟩

/-- Pieces that denote tokens one by one denote a list of tokens. -/
theorem Piece.exists_forall₂_denotes {pieces : List Piece}
    (h : ∀ piece ∈ pieces, ∃ token, piece.Denotes token) :
    ∃ body, List.Forall₂ Piece.Denotes pieces body := by
  induction pieces with
  | nil => exact ⟨[], .nil⟩
  | cons piece pieces ih =>
    obtain ⟨⟨token, denotes⟩, others⟩ := List.forall_mem_cons.1 h
    obtain ⟨body, denoted⟩ := ih others
    exact ⟨token :: body, .cons denotes denoted⟩

/-- The tokens of a text are those that its pieces denote, with the end of the input behind them. -/
theorem exists_scans_of_tokenize {text : String} {tokens : List Token}
    (h : tokenize text = .ok tokens) : ∃ pieces body, Scans 0 text.toList pieces ∧
      List.Forall₂ Piece.Denotes pieces body ∧
      tokens = body ++ [⟨.endOfInput, text.length⟩] := by
  obtain ⟨pieces, scan⟩ := exists_scans 0 text.toList
  rcases scan.denoted_or_hasFault with ⟨body, denoted⟩ |
    ⟨before, piece, behind, body, fault, rfl, denoted, faulty⟩
  · have cut := scan.tokenizeFrom_eq_ok denoted
    rw [Nat.zero_add, String.length_toList] at cut
    exact ⟨pieces, body, scan, denoted, Except.ok.inj (h.symm.trans cut)⟩
  · have refused := scan.tokenizeFrom_eq_error denoted faulty
    cases h.symm.trans refused

/-- The fault of a text is that of the first of its pieces that is not well formed. -/
theorem exists_scans_of_tokenize_error {text : String} {fault : LexicalFault}
    (h : tokenize text = .error fault) : ∃ before piece behind body,
      Scans 0 text.toList (before ++ piece :: behind) ∧
      List.Forall₂ Piece.Denotes before body ∧ piece.HasFault fault := by
  obtain ⟨pieces, scan⟩ := exists_scans 0 text.toList
  rcases scan.denoted_or_hasFault with ⟨body, denoted⟩ |
    ⟨before, piece, behind, body, fault', rfl, denoted, faulty⟩
  · have cut := scan.tokenizeFrom_eq_ok denoted
    cases h.symm.trans cut
  · have refused := scan.tokenizeFrom_eq_error denoted faulty
    obtain rfl := Except.error.inj (h.symm.trans refused)
    exact ⟨before, piece, behind, body, scan, denoted, faulty⟩

/-- Every text falls into pieces, each the longest lexeme that matches or a character with which no
lexeme starts, and in one way only. It has tokens if and only if all pieces are well formed, and
these are the tokens that the pieces denote. Otherwise its fault is that of the first piece that is
not well formed, whatever stands behind it. -/
theorem tokenize_longest_match (text : String) : ∃ pieces,
    Scans 0 text.toList pieces ∧ (∀ pieces', Scans 0 text.toList pieces' → pieces' = pieces) ∧
      ((∃ tokens, tokenize text = .ok tokens) ↔
        ∀ piece ∈ pieces, ∃ token, piece.Denotes token) ∧
      (∀ tokens, tokenize text = .ok tokens ↔ ∃ body, List.Forall₂ Piece.Denotes pieces body ∧
        tokens = body ++ [⟨.endOfInput, text.length⟩]) ∧
      ∀ fault, tokenize text = .error fault ↔ ∃ before piece behind,
        pieces = before ++ piece :: behind ∧ (∀ piece ∈ before, ∃ token, piece.Denotes token) ∧
          piece.HasFault fault := by
  obtain ⟨pieces, scan⟩ := exists_scans 0 text.toList
  have ok {body : List Token} (denoted : List.Forall₂ Piece.Denotes pieces body) :
      tokenize text = .ok (body ++ [⟨.endOfInput, text.length⟩]) := by
    have cut := scan.tokenizeFrom_eq_ok denoted
    rwa [Nat.zero_add, String.length_toList] at cut
  refine ⟨pieces, scan, fun pieces' scan' => scan.eq scan', ⟨?_, fun wellFormed => ?_⟩,
    fun tokens => ⟨fun cut => ?_, ?_⟩, fun fault => ⟨fun refused => ?_, ?_⟩⟩
  · rintro ⟨tokens, cut⟩ piece mem
    obtain ⟨pieces', body, scan', denoted, -⟩ := exists_scans_of_tokenize cut
    obtain rfl := scan.eq scan'
    obtain ⟨token, -, denotes⟩ := exists_of_forall₂ denoted mem
    exact ⟨token, denotes⟩
  · obtain ⟨body, denoted⟩ := Piece.exists_forall₂_denotes wellFormed
    exact ⟨_, ok denoted⟩
  · obtain ⟨pieces', body, scan', denoted, same⟩ := exists_scans_of_tokenize cut
    obtain rfl := scan.eq scan'
    exact ⟨body, denoted, same⟩
  · rintro ⟨body, denoted, rfl⟩
    exact ok denoted
  · obtain ⟨before, piece, behind, body, scan', denoted, faulty⟩ :=
      exists_scans_of_tokenize_error refused
    refine ⟨before, piece, behind, (scan.eq scan').symm, fun piece mem => ?_, faulty⟩
    obtain ⟨token, -, denotes⟩ := exists_of_forall₂ denoted mem
    exact ⟨token, denotes⟩
  · rintro ⟨before, piece, behind, rfl, wellFormed, faulty⟩
    obtain ⟨body, denoted⟩ := Piece.exists_forall₂_denotes wellFormed
    exact scan.tokenizeFrom_eq_error denoted faulty

end RegisterCalc
