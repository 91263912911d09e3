import RegisterCalc.Proofs.Number.Numeral
import RegisterCalc.Token.Lexer
import RegisterCalc.Tree.Function
import RegisterCalc.Tree.Operator

/-!
# Texts and their tokens

Where characters are cut into tokens, the tokens of what follows are appended (`Lexes`), so the
tokens of a text are found piece by piece. A piece is cut off where the character that follows
cannot belong to it: a number before what is not numeric, a symbol before what is no second
character of an operator.

Conversely the tokens of a text end with the only end of the input among them, and their numbers are
finite and not negative (`tokenize_eq_ok`). Each stands behind those before it, so a token is known
by its offset (`offset_inj_of_tokenize`).
-/

namespace RegisterCalc

/-! ## Cutting -/

/-- The characters `cs` from `offset` on start with these tokens, and `rest` from `offset'` on is
left. -/
def Lexes (offset : Offset) (cs : List Char) (tokens : List Token) (offset' : Offset)
    (rest : List Char) : Prop :=
  tokenizeFrom offset cs = (tokenizeFrom offset' rest).map (tokens ++ ·)

namespace Lexes

variable {offset offset' offset'' : Offset} {cs rest rest' more : List Char}
  {tokens tokens' : List Token}

/-- Nothing is cut into no tokens. -/
theorem refl (offset : Offset) (cs : List Char) : Lexes offset cs [] offset cs := by
  unfold Lexes
  cases tokenizeFrom offset cs <;> rfl

/-- Tokens of what is left follow those that were cut off. -/
theorem trans (first : Lexes offset cs tokens offset' rest)
    (second : Lexes offset' rest tokens' offset'' rest') :
    Lexes offset cs (tokens ++ tokens') offset'' rest' := by
  rw [Lexes, first, second]
  cases tokenizeFrom offset'' rest' with
  | error fault => rfl
  | ok last => simp [Except.map]

/-- Where nothing is left, the end of the input closes the tokens. -/
theorem tokenizeFrom_eq (h : Lexes offset cs tokens offset' []) :
    tokenizeFrom offset cs = .ok (tokens ++ [⟨.endOfInput, offset'⟩]) := by
  rw [h, tokenizeFrom]
  rfl

/-- A space is cut off without a token. -/
theorem space (offset : Offset) (cs : List Char) :
    Lexes offset (' ' :: cs) [] (offset + 1) cs := by
  have blank : Text.isSpacing ' ' = true := rfl
  rw [Lexes, tokenizeFrom, if_pos blank]
  exact refl _ _

/-- A lexeme is cut off at the character that it does not reach. -/
theorem lexeme {c : Char} {lexeme : Lexeme} (start : Text.isSpacing c = false)
    (ends : reach c (more ++ cs) = more.length)
    (spelled : Lexeme.ofSpelling c more offset = .ok lexeme) :
    Lexes offset (c :: (more ++ cs)) [⟨lexeme, offset⟩] (offset + 1 + more.length) cs := by
  rw [Lexes, tokenizeFrom, start, if_neg Bool.false_ne_true]
  simp only [ends, List.take_left, List.drop_left, spelled]
  cases tokenizeFrom (offset + 1 + more.length) cs <;> rfl

end Lexes

/-- A lexeme with a fault is the fault of what it starts. -/
theorem tokenizeFrom_of_fault {offset : Offset} {c : Char} {more cs : List Char}
    {fault : LexicalFault} (start : Text.isSpacing c = false)
    (ends : reach c (more ++ cs) = more.length)
    (faulty : Lexeme.ofSpelling c more offset = .error fault) :
    tokenizeFrom offset (c :: (more ++ cs)) = .error fault := by
  rw [tokenizeFrom, start, if_neg Bool.false_ne_true]
  simp only [ends, List.take_left, faulty]

/-! ## Symbols -/

/-- Whether a character is the second one of an operator. -/
def joins (c : Char) : Bool := c = '=' || c = '&' || c = '|' || c = '<' || c = '>'

/-- Whether a character starts no lexeme but a symbol. -/
def startsSymbol (c : Char) : Bool :=
  !Text.isSpacing c && !isNumeric c && c ≠ '#' && !c.isAlpha

/-- Whether a character starts a name. -/
def startsName (c : Char) : Bool := !Text.isSpacing c && !isNumeric c && c ≠ '#' && c.isAlpha

/-- Whether a character is a bracket. -/
def isParen (c : Char) : Bool := c = '(' || c = ')'

/-- A symbol is a character that starts no other lexeme, alone or with one that joins it; nothing
joins a bracket. -/
theorem Symbol.toList_spelling (symbol : Symbol) :
    ∃ c more, symbol.spelling.toList = c :: more ∧ startsSymbol c ∧
      (more = [] ∨ ∃ d, more = [d] ∧ joins d ∧ isParen c = false) := by
  cases symbol with
  | andAnd | orOr | notEqual | greaterEqual | lessEqual | equal | shiftLeft | shiftRight =>
    exact ⟨_, _, rfl, by decide, .inr ⟨_, rfl, by decide, by decide⟩⟩
  | _ => exact ⟨_, _, rfl, by decide, .inl rfl⟩

/-- Two characters are no symbol if the first is a bracket or the second joins none. -/
theorem Symbol.ofSpelling?_pair {c d : Char} (h : isParen c ∨ joins d = false) :
    Symbol.ofSpelling? [c, d] = none := by
  refine List.find?_eq_none.2 fun symbol _ same => ?_
  obtain ⟨c', more, spelled, -, one | ⟨d', two, joined, notParen⟩⟩ := symbol.toList_spelling
  · simp [spelled, one] at same
  · simp only [spelled, two, decide_eq_true_eq, List.cons.injEq, and_true] at same
    obtain ⟨rfl, rfl⟩ := same
    rcases h with paren | notJoined
    · rw [notParen] at paren
      cases paren
    · rw [joined] at notJoined
      cases notJoined

/-- A symbol is cut off where the next character makes no other symbol of it. -/
theorem Lexes.spelling (symbol : Symbol) (offset : Offset) {cs : List Char}
    (ends : ∀ c d, symbol.spelling.toList = [c] → cs.head? = some d → isParen c ∨ joins d = false) :
    Lexes offset (symbol.spelling.toList ++ cs) [⟨.symbol symbol, offset⟩]
      (offset + symbol.spelling.toList.length) cs := by
  obtain ⟨c, more, spelled, starts, length⟩ := symbol.toList_spelling
  have read := symbol.ofSpelling?_spelling
  rw [spelled] at read ends ⊢
  simp only [startsSymbol, Bool.and_eq_true, Bool.not_eq_true', decide_eq_true_eq] at starts
  obtain ⟨⟨⟨notSpacing, notNumeric⟩, notMarker⟩, notAlpha⟩ := starts
  rw [List.length_cons, Nat.add_comm more.length, ← Nat.add_assoc]
  refine .lexeme notSpacing ?_ ?_
  · unfold reach
    rw [notNumeric, if_neg Bool.false_ne_true, if_neg notMarker, notAlpha,
      if_neg Bool.false_ne_true]
    rcases length with rfl | ⟨d, rfl, -⟩
    · cases cs with
      | nil => rfl
      | cons d cs => simp [Symbol.ofSpelling?_pair (ends c d rfl rfl)]
    · simp [read]
  · unfold Lexeme.ofSpelling
    simp only [notNumeric, if_neg notMarker, notAlpha, read]
    rfl

/-- A symbol is cut off before what is no second character of an operator. -/
theorem Lexes.symbol (symbol : Symbol) (offset : Offset) {cs : List Char}
    (ends : ∀ c ∈ cs.head?, joins c = false) :
    Lexes offset (symbol.spelling.toList ++ cs) [⟨.symbol symbol, offset⟩]
      (offset + symbol.spelling.toList.length) cs :=
  .spelling symbol offset fun _ d _ next => .inr (ends d next)

/-- What stands in brackets is cut into tokens between those of the brackets. -/
theorem Lexes.enclosed {inside cs : List Char} {tokens : List Token} {opened closed : Offset}
    (cut : Lexes (opened + 1) (inside ++ ')' :: cs) tokens closed (')' :: cs)) :
    Lexes opened ('(' :: (inside ++ ')' :: cs))
      (⟨.symbol .leftParen, opened⟩ :: (tokens ++ [⟨.symbol .rightParen, closed⟩]))
      (closed + 1) cs := by
  have opening : Lexes opened ('(' :: (inside ++ ')' :: cs)) [⟨.symbol .leftParen, opened⟩]
      (opened + 1) (inside ++ ')' :: cs) :=
    .spelling .leftParen opened fun c d one _ => .inl (by cases one; rfl)
  have closing : Lexes closed (')' :: cs) [⟨.symbol .rightParen, closed⟩] (closed + 1) cs :=
    .spelling .rightParen closed fun c d one _ => .inl (by cases one; rfl)
  exact opening.trans (cut.trans closing)

/-! ## Numbers, registers and names -/

/-- What is of a class that has none of the spacing characters is not spacing. -/
theorem isSpacing_eq_false {p : Char → Bool} {c : Char}
    (apart : [' ', '\t', '\n', '\x0c', '\r'].all (!p ·)) (h : p c) : Text.isSpacing c = false := by
  refine Bool.eq_false_iff.2 fun spacing => ?_
  have one : c ∈ [' ', '\t', '\n', '\x0c', '\r'] := by
    simpa [Text.isSpacing, or_assoc] using spacing
  have not := List.all_eq_true.1 apart c one
  simp [h] at not

/-- What is numeric is not spacing. -/
theorem isSpacing_of_isNumeric {c : Char} (h : isNumeric c) : Text.isSpacing c = false :=
  isSpacing_eq_false (p := isNumeric) rfl h

/-- What is numeric is no second character of an operator. -/
theorem joins_of_isNumeric {c : Char} (h : isNumeric c) : joins c = false := by
  refine Bool.eq_false_iff.2 fun joined => ?_
  simp only [joins, Bool.or_eq_true, decide_eq_true_eq] at joined
  rcases joined with (((rfl | rfl) | rfl) | rfl) | rfl <;> exact absurd h (by decide)

/-- The text of a number is numeric and not empty. -/
theorem toList_numberText {x : Float} (finite : Binary64.isFinite x)
    (positive : Binary64.isNegative x = false) :
    ∃ c more, (numberText x).toList = c :: more ∧ isNumeric c ∧ ∀ c ∈ more, isNumeric c := by
  have numeric : ∀ c ∈ (numberText x).toList, isNumeric c := by
    rw [numberText_of_finite finite positive]
    exact fun c mem => Decimal.isNumeric_of_mem_text mem
  cases spelled : (numberText x).toList with
  | nil =>
    have read := readNumeral?_numberText finite positive
    rw [spelled] at read
    cases read
  | cons c more =>
    rw [spelled] at numeric
    obtain ⟨first, others⟩ := List.forall_mem_cons.1 numeric
    exact ⟨c, more, rfl, first, others⟩

/-- As many characters of a class are reached as there are before one that is not of the class. -/
theorem length_takeWhile_append {p : Char → Bool} {more cs : List Char} (all : ∀ c ∈ more, p c)
    (ends : ∀ c ∈ cs.head?, p c = false) : ((more ++ cs).takeWhile p).length = more.length := by
  rw [List.takeWhile_append_of_pos all]
  cases cs with
  | nil => simp
  | cons c cs => simp [ends c rfl]

/-- The text of a number is cut off before what is not numeric. -/
theorem Lexes.number {x : Float} (finite : Binary64.isFinite x)
    (positive : Binary64.isNegative x = false) (offset : Offset) {cs : List Char}
    (ends : ∀ c ∈ cs.head?, isNumeric c = false) :
    Lexes offset ((numberText x).toList ++ cs) [⟨.number (some (numberText x)) (some x), offset⟩]
      (offset + (numberText x).length) cs := by
  have read := readNumeral?_numberText finite positive
  have length : (numberText x).toList.length = (numberText x).length := String.length_toList
  obtain ⟨c, more, spelled, first, others⟩ := toList_numberText finite positive
  rw [spelled] at read length ⊢
  rw [← length, List.length_cons, Nat.add_comm more.length, ← Nat.add_assoc]
  refine .lexeme (isSpacing_of_isNumeric first) ?_ ?_
  · unfold reach
    rw [if_pos first]
    exact length_takeWhile_append others ends
  · unfold Lexeme.ofSpelling
    simp only [if_pos first, read]
    rw [← spelled, String.ofList_toList]

/-- Digits name a register if there are some and their value fits. -/
theorem RegisterId.ofText?_ofList {digits : List Char} (areDigits : ∀ d ∈ digits, d.isDigit) :
    RegisterId.ofText? (String.ofList digits) =
      if digits ≠ [] ∧ Nat.ofDigitChars 10 digits 0 < UInt32.size then
        some (UInt32.ofNat (Nat.ofDigitChars 10 digits 0))
      else none := by
  unfold RegisterId.ofText?
  rw [String.toList_ofList]
  dsimp only
  split
  case h_1 digits' => exact absurd (areDigits '+' List.mem_cons_self) (by decide)
  case h_2 => simp [List.all_eq_true.2 areDigits]

/-- A register is read back from its digits. -/
theorem RegisterId.ofText?_repr (id : RegisterId) :
    RegisterId.ofText? (Nat.repr id.toNat) = some id := by
  rw [← String.ofList_toList (s := Nat.repr id.toNat), Nat.toList_repr,
    ofText?_ofList fun _ => isDigit_of_mem_toDigits, Nat.ofDigitChars_ten_toDigits,
    if_pos ⟨Nat.toDigits_ne_nil, id.toNat_lt⟩, UInt32.ofNat_toNat]

/-- Digits whose number fits are cut off with the marker before them, where no digit follows. -/
theorem Lexes.digits {digits : List Char} (notEmpty : digits ≠ [])
    (areDigits : ∀ d ∈ digits, d.isDigit) (inRange : Nat.ofDigitChars 10 digits 0 < UInt32.size)
    (offset : Offset) {cs : List Char} (ends : ∀ c ∈ cs.head?, c.isDigit = false) :
    Lexes offset ('#' :: (digits ++ cs)) [⟨.register (some (String.ofList digits)), offset⟩]
      (offset + 1 + digits.length) cs := by
  refine .lexeme rfl ?_ ?_
  · exact length_takeWhile_append areDigits ends
  · have notNumeric : isNumeric '#' = false := rfl
    unfold Lexeme.ofSpelling
    simp [notNumeric, RegisterId.ofText?_ofList areDigits, notEmpty, inRange]

/-- The text of a register is cut off before what is no digit. -/
theorem Lexes.register (id : RegisterId) (offset : Offset) {cs : List Char}
    (ends : ∀ c ∈ cs.head?, c.isDigit = false) :
    ∃ offset', Lexes offset (id.text.toList ++ cs)
      [⟨.register (some (Nat.repr id.toNat)), offset⟩] offset' cs := by
  have spelled : id.text.toList = '#' :: Nat.toDigits 10 id.toNat := by
    rw [RegisterId.text, String.toList_append, Nat.toList_repr]
    rfl
  have text : String.ofList (Nat.toDigits 10 id.toNat) = Nat.repr id.toNat := by
    rw [← Nat.toList_repr, String.ofList_toList]
  have inRange : Nat.ofDigitChars 10 (Nat.toDigits 10 id.toNat) 0 < UInt32.size := by
    rw [Nat.ofDigitChars_ten_toDigits]
    exact id.toNat_lt
  rw [spelled, ← text]
  exact ⟨_, .digits Nat.toDigits_ne_nil (fun _ => isDigit_of_mem_toDigits) inRange offset ends⟩

/-- The name of a function is letters only. -/
theorem Function.toList_name (function : Function) :
    ∃ c more, function.name.toList = c :: more ∧ startsName c ∧ ∀ c ∈ more, c.isAlpha := by
  cases function <;> exact ⟨_, _, rfl, by decide, List.all_eq_true.1 rfl⟩

/-- The name of a function is cut off before what is no letter. -/
theorem Lexes.name (function : Function) (offset : Offset) {cs : List Char}
    (ends : ∀ c ∈ cs.head?, c.isAlpha = false) :
    ∃ offset', Lexes offset (function.name.toList ++ cs)
      [⟨.name (some function.name), offset⟩] offset' cs := by
  obtain ⟨c, more, spelled, starts, letters⟩ := function.toList_name
  simp only [startsName, Bool.and_eq_true, Bool.not_eq_true', decide_eq_true_eq] at starts
  obtain ⟨⟨⟨notSpacing, notNumeric⟩, notMarker⟩, alpha⟩ := starts
  rw [spelled]
  refine ⟨_, .lexeme notSpacing ?_ ?_⟩
  · unfold reach
    rw [notNumeric, if_neg Bool.false_ne_true, if_neg notMarker, if_pos alpha]
    exact length_takeWhile_append letters ends
  · unfold Lexeme.ofSpelling
    simp only [notNumeric, if_neg notMarker, alpha, ← spelled, String.ofList_toList]
    rfl

/-! ## The tokens of a text -/

/-- An outcome that has a value is that value. -/
theorem eq_ok_of_toOption {ε α : Type} {outcome : Except ε α} {value : α}
    (h : outcome.toOption = some value) : outcome = .ok value := by
  cases outcome with
  | error fault => cases h
  | ok value' => rw [Option.some.inj h]

/-- Whether a lexeme is one of a text: no end of the input, and a number only with a finite value
that is not negative. -/
def Lexeme.IsOfText : Lexeme → Prop
  | number _ value => ∃ x, value = some x ∧ Binary64.isFinite x ∧ Binary64.isNegative x = false
  | endOfInput => False
  | _ => True

/-- The end of the input is no lexeme of a text. -/
theorem Token.isEnd_of_isOfText {token : Token} (h : token.lexeme.IsOfText) :
    token.isEnd = false := by
  obtain ⟨lexeme, offset⟩ := token
  cases lexeme with
  | endOfInput => cases h
  | _ => rfl

/-- Whatever is spelled is a lexeme of a text. -/
theorem Lexeme.isOfText_of_spelling {c : Char} {more : List Char} {offset : Offset}
    {lexeme : Lexeme} (h : Lexeme.ofSpelling c more offset = .ok lexeme) : lexeme.IsOfText := by
  unfold Lexeme.ofSpelling at h
  dsimp only at h
  repeat' split at h
  all_goals cases h
  case h_1 value read =>
    obtain ⟨finite, positive⟩ := isFinite_of_readNumeral? read
    exact ⟨value, rfl, finite, positive⟩
  all_goals trivial

/-- What holds of the end of the input, and of tokens from an earlier offset on if they skip a
character or start with one more lexeme, holds of the tokens of characters. -/
@[elab_as_elim]
theorem tokenizeFrom_induction {motive : Offset → List Token → Prop}
    (finish : ∀ offset, motive offset [⟨.endOfInput, offset⟩])
    (skip : ∀ offset tokens, motive (offset + 1) tokens → motive offset tokens)
    (lexeme : ∀ offset n c more lexeme tokens, Lexeme.ofSpelling c more offset = .ok lexeme →
      motive (offset + 1 + n) tokens → motive offset (⟨lexeme, offset⟩ :: tokens))
    {offset : Offset} {cs : List Char} {tokens : List Token}
    (h : tokenizeFrom offset cs = .ok tokens) : motive offset tokens := by
  induction offset, cs using tokenizeFrom.induct generalizing tokens with
  | case1 offset =>
    rw [tokenizeFrom] at h
    cases h
    exact finish offset
  | case2 offset c rest spacing ih =>
    rw [tokenizeFrom, if_pos spacing] at h
    exact skip offset tokens (ih h)
  | case3 offset c rest notSpacing n fault =>
    rename_i unspelled
    rw [tokenizeFrom, if_neg notSpacing] at h
    simp only [unspelled, n] at h
    cases h
  | case4 offset c rest notSpacing n lexeme spelled fault failed =>
    rw [tokenizeFrom, if_neg notSpacing] at h
    simp only [spelled, failed, n] at h
    cases h
  | case5 offset c rest notSpacing n lexeme' spelled others read =>
    rename_i ih
    rw [tokenizeFrom, if_neg notSpacing] at h
    simp only [spelled, read, n] at h
    cases h
    exact lexeme offset n c _ lexeme' others spelled (ih read)

/-- The tokens of characters are lexemes of a text and, as the last one, the end of the input. -/
theorem tokenizeFrom_eq_ok {offset : Offset} {cs : List Char} {tokens : List Token}
    (h : tokenizeFrom offset cs = .ok tokens) : ∃ body last,
      tokens = body ++ [⟨.endOfInput, last⟩] ∧ ∀ token ∈ body, token.lexeme.IsOfText := by
  refine tokenizeFrom_induction (fun offset => ?_) (fun offset tokens ih => ih)
    (fun offset n c more lexeme tokens spelled ih => ?_) h
  · exact ⟨[], offset, rfl, nofun⟩
  · obtain ⟨body, last, rfl, ofText⟩ := ih
    exact ⟨⟨lexeme, offset⟩ :: body, last, rfl,
      List.forall_mem_cons.2 ⟨Lexeme.isOfText_of_spelling spelled, ofText⟩⟩

/-- The tokens of a text are lexemes of a text and, as the last one, the end of the input. -/
theorem tokenize_eq_ok {text : String} {tokens : List Token} (h : tokenize text = .ok tokens) :
    ∃ body last, tokens = body ++ [⟨.endOfInput, last⟩] ∧ ∀ token ∈ body, token.lexeme.IsOfText :=
  tokenizeFrom_eq_ok h

/-- The end of the input is the last token of a text and no other. -/
theorem exists_body_of_tokenize {text : String} {tokens : List Token}
    (h : tokenize text = .ok tokens) : ∃ body last,
      tokens = body ++ [⟨.endOfInput, last⟩] ∧ ∀ token ∈ body, token.isEnd = false := by
  obtain ⟨body, last, rfl, ofText⟩ := tokenize_eq_ok h
  exact ⟨body, last, rfl, fun token mem => Token.isEnd_of_isOfText (ofText token mem)⟩

/-- The tokens of characters stand at the offset of the characters or behind it, each behind those
before it. -/
theorem pairwise_offset_tokenizeFrom {offset : Offset} {cs : List Char} {tokens : List Token}
    (h : tokenizeFrom offset cs = .ok tokens) :
    (∀ token ∈ tokens, offset ≤ token.offset) ∧ tokens.Pairwise (·.offset < ·.offset) := by
  refine tokenizeFrom_induction (fun offset => ?_) (fun offset tokens ih => ?_)
    (fun offset n c more lexeme tokens _ ih => ?_) h
  · exact ⟨List.forall_mem_singleton.2 (Nat.le_refl _), List.pairwise_singleton _ _⟩
  · exact ⟨fun token mem => Nat.le_of_succ_le (ih.1 token mem), ih.2⟩
  · have behind : ∀ token ∈ tokens, offset < token.offset := fun token mem =>
      Nat.lt_of_lt_of_le (Nat.lt_add_right n (Nat.lt_succ_self offset)) (ih.1 token mem)
    exact ⟨List.forall_mem_cons.2 ⟨Nat.le_refl _, fun token mem => (behind token mem).le⟩,
      ih.2.cons behind⟩

/-- No two tokens of a text stand at the same offset. -/
theorem offset_inj_of_tokenize {text : String} {tokens : List Token}
    (h : tokenize text = .ok tokens) {i j : Nat} (hi : i < tokens.length) (hj : j < tokens.length)
    (same : tokens[i].offset = tokens[j].offset) : i = j := by
  have ordered := List.pairwise_iff_getElem.1 (pairwise_offset_tokenizeFrom h).2
  rcases Nat.lt_trichotomy i j with before | same' | behind
  · exact absurd same (ordered i j hi hj before).ne
  · exact same'
  · exact absurd same (ordered j i hj hi behind).ne'

end RegisterCalc
