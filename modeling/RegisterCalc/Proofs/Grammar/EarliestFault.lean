import RegisterCalc.Proofs.Grammar.Exactness
import RegisterCalc.Proofs.Grammar.Lookahead

/-!
# Where statements are refused

The tokens of a text that are no statement, other than for their nesting, are refused at the first
token that no statement can have there (`Expr.ofTokens_earliest_fault`): the tokens before it begin
a statement and with it they do not, whatever the depth of the statement. So the fault is the same
whatever stands behind that token.

That the fault is settled at one token is read off the readers (`Reader.settles_statement`). If a
statement did start with the tokens up to that one, its tokens would be refused as well, and with
enough levels of nesting they are read (`Derivation.ofTokensWithin_covered`).
-/

namespace RegisterCalc

open Reader

/-! ## The token at a fault -/

section
variable {before rest : List Token} {last : Offset}

/-- A token that ends the input is the end of the input at its position. -/
theorem Token.eq_of_isEnd {token : Token} (h : token.isEnd) :
    token = ⟨.endOfInput, token.offset⟩ := by
  obtain ⟨lexeme, offset⟩ := token
  cases lexeme <;> cases h
  rfl

/-- The token behind those that were taken is current, the end of the input included. -/
theorem getElem?_append_end (before rest : List Token) (last : Offset) :
    (before ++ rest ++ [(⟨.endOfInput, last⟩ : Token)])[before.length]? =
      some (current last rest) := by
  rw [List.append_assoc, List.getElem?_append_right le_rfl, Nat.sub_self]
  cases rest <;> rfl

/-- A token that no end of the input stands before is reached, with all before it. -/
theorem exists_current_eq (noEnd : ∀ token ∈ before, token.isEnd = false) (token : Token)
    (more : List Token) : ∃ rest,
      (before ++ token :: more).takeWhile (!·.isEnd) = before ++ rest ∧
        current (endOffset (before ++ token :: more)) rest = token := by
  rw [takeWhile_append_of_noEnd noEnd]
  refine ⟨_, rfl, ?_⟩
  cases isEnd : token.isEnd with
  | false =>
    rw [List.takeWhile_cons_of_pos (by rw [isEnd]; rfl)]
    rfl
  | true =>
    rw [List.takeWhile_cons_of_neg (by rw [isEnd]; nofun), endOffset_append_of_isEnd noEnd isEnd]
    exact (Token.eq_of_isEnd isEnd).symm

end

/-! ## Refusals -/

namespace Expr

variable {limit limit' : Nat} {tokens : List Token} {fault : SyntaxFault}

/-- A statement is refused, if not for its nesting, behind the beginning of one, and the reader of
statements that may nest as deep or deeper refuses all tokens that are the same up to there. -/
theorem ofTokensWithin_refused {body : List Token} {last : Offset}
    (noEnd : ∀ token ∈ body, token.isEnd = false)
    (refused : ofTokensWithin limit (body ++ [⟨.endOfInput, last⟩]) = .error fault)
    (other : ∀ limit offset, fault ≠ .nestingTooDeep limit offset) (stop' : Offset)
    (enough : limit ≤ limit') :
    ∃ before rest, before ++ rest = body ∧ fault.offset = (current last rest).offset ∧
      Category.assignment.Begins before ∧
      ∀ rest', current stop' rest' = current last rest →
        ((Category.reader stop' (.nested stop' limit' limit') .assignment).run
          (before ++ rest')).bind complete = .error fault := by
  rw [ofTokensWithin_append_end noEnd] at refused
  cases settles_statement last stop' enough body with
  | nesting limit offset made =>
    rw [made] at refused
    exact absurd (Except.error.inj refused).symm (other limit offset)
  | reads before rest tree cut made same =>
    rw [made] at refused
    cases rest with
    | nil => cases refused
    | cons token more =>
      obtain rfl : .unexpectedToken token = fault := Except.error.inj refused
      refine ⟨before, token :: more, cut, rfl, ?_, fun rest' current => ?_⟩
      · have sound := readsOnly_within last limit limit
        rw [Scope.within_eq_around] at sound
        obtain ⟨d, rfl, -⟩ := sound.eq_tokens cut made
        exact .whole d
      · have notEnd := noEnd token (cut ▸ List.mem_append_right _ List.mem_cons_self)
        obtain ⟨more', rfl⟩ := eq_cons_of_current current notEnd
        rw [same _ current]
        rfl
  | refuses before rest fault' cut made place viable same =>
    rw [made] at refused
    obtain rfl : fault' = fault := Except.error.inj refused
    refine ⟨before, rest, cut, place, viable, fun rest' current => ?_⟩
    rw [same rest' current]
    rfl

/-- Where a statement is refused, if not for its nesting, stands one of its tokens, and the tokens
before it begin a statement. -/
theorem exists_offset_eq_fault {text : String} (cut : tokenize text = .ok tokens)
    (refused : ofTokensWithin limit tokens = .error fault)
    (other : ∀ limit offset, fault ≠ .nestingTooDeep limit offset) :
    ∃ (k : Nat) (h : k < tokens.length), tokens[k].offset = fault.offset ∧
      Category.assignment.Begins (tokens.take k) := by
  obtain ⟨body, last, rfl, noEnd⟩ := exists_body_of_tokenize cut
  obtain ⟨before, rest, rfl, place, viable, -⟩ :=
    ofTokensWithin_refused noEnd refused other last le_rfl
  obtain ⟨h, found⟩ := List.getElem?_eq_some_iff.1 (getElem?_append_end before rest last)
  refine ⟨before.length, h, by rw [found, place], ?_⟩
  rwa [List.append_assoc, List.take_left]

/-- All tokens that are the same up to a fault, if it is none of nesting, are refused for it, with as
many levels of nesting or more. -/
theorem ofTokensWithin_of_take_eq {text : String} (cut : tokenize text = .ok tokens)
    (refused : ofTokensWithin limit tokens = .error fault)
    (other : ∀ limit offset, fault ≠ .nestingTooDeep limit offset) (enough : limit ≤ limit')
    {k : Nat} (h : k < tokens.length) (place : tokens[k].offset = fault.offset)
    {tokens' : List Token} (same : tokens'.take (k + 1) = tokens.take (k + 1)) :
    ofTokensWithin limit' tokens' = .error fault := by
  obtain ⟨body, last, rfl, noEnd⟩ := exists_body_of_tokenize cut
  obtain ⟨before, rest, rfl, place', -, elsewhere⟩ :=
    ofTokensWithin_refused noEnd refused other (endOffset tokens') enough
  obtain ⟨h', found⟩ := List.getElem?_eq_some_iff.1 (getElem?_append_end before rest last)
  -- No other token stands at the fault, so it is the one behind `before`.
  obtain rfl : k = before.length := offset_inj_of_tokenize cut h h' (by rw [place, found, place'])
  have upToFault := List.take_append_getElem h'
  rw [found, List.append_assoc, List.take_left, ← List.append_assoc, ← same] at upToFault
  have split : before ++ current last rest :: tokens'.drop (before.length + 1) = tokens' := by
    rw [← List.singleton_append, ← List.append_assoc, upToFault, List.take_append_drop]
  obtain ⟨rest', upTo, reached⟩ :=
    exists_current_eq (fun token mem => noEnd token (List.mem_append_left _ mem))
      (current last rest) (tokens'.drop (before.length + 1))
  rw [split] at upTo reached
  rw [ofTokensWithin_eq, upTo]
  exact elsewhere rest' reached

/-- The tokens of a text that are refused, other than for their nesting, are refused at one token.
The tokens before it begin a statement, nested however deep; with it no statement begins with them,
and if it is the end of the input they are none. All tokens that are the same up to it are refused
for the same. -/
theorem ofTokens_earliest_fault {text : String} (cut : tokenize text = .ok tokens)
    (refused : ofTokens tokens = .error fault)
    (other : ∀ limit offset, fault ≠ .nestingTooDeep limit offset) :
    ∃ (k : Nat) (h : k < tokens.length),
      (∀ (j : Nat) (hj : j < tokens.length), tokens[j].offset = fault.offset ↔ j = k) ∧
      Category.assignment.Begins (tokens.take k) ∧
      (tokens[k].isEnd = false → ¬Category.assignment.Begins (tokens.take (k + 1))) ∧
      (tokens[k].isEnd → ¬∃ d : Derivation .assignment, d.tokens = tokens.take k) ∧
      ∀ tokens' : List Token, tokens'.take (k + 1) = tokens.take (k + 1) →
        ofTokens tokens' = .error fault := by
  obtain ⟨k, h, place, viable⟩ := exists_offset_eq_fault cut refused other
  -- A statement that started with the token at the fault would be read with enough nesting.
  have notDerived (d : Derivation .assignment) (last : Offset) :
      (d.tokens ++ [(⟨.endOfInput, last⟩ : Token)]).take (k + 1) ≠ tokens.take (k + 1) := by
    intro same
    have again := ofTokensWithin_of_take_eq cut refused other
      (Nat.le_max_left maxNesting d.depth) h place same
    rw [d.ofTokensWithin_covered (Nat.le_max_right _ _) last] at again
    cases again
  refine ⟨k, h, fun j hj => ⟨fun atFault => ?_, ?_⟩, viable, ?_, ?_, fun tokens' same => ?_⟩
  · exact offset_inj_of_tokenize cut hj h (atFault.trans place.symm)
  · rintro rfl
    exact place
  · rintro - ⟨d, more, spelled⟩
    refine notDerived d 0 ?_
    rw [spelled, List.append_assoc, List.take_left' (List.length_take_of_le h)]
  · rintro isEnd ⟨d, spelled⟩
    refine notDerived d tokens[k].offset ?_
    rw [spelled, ← Token.eq_of_isEnd isEnd, List.take_append_getElem h]
    exact List.take_of_length_le (List.length_take_le _ _)
  · exact ofTokensWithin_of_take_eq cut refused other le_rfl h place same

/-- The text `#1+#2=#3` is refused at its assignment sign, which no statement has behind `#1+#2`. -/
theorem ofTokens_earliest_fault_sign : ∃ tokens fault, tokenize "#1+#2=#3" = .ok tokens ∧
    ofTokens tokens = .error fault ∧ (∀ limit offset, fault ≠ .nestingTooDeep limit offset) ∧
    ∃ (k : Nat) (h : k < tokens.length),
      (∀ (j : Nat) (hj : j < tokens.length), tokens[j].offset = fault.offset ↔ j = k) ∧
      Category.assignment.Begins (tokens.take k) ∧
      (tokens[k].isEnd = false → ¬Category.assignment.Begins (tokens.take (k + 1))) ∧
      (tokens[k].isEnd → ¬∃ d : Derivation .assignment, d.tokens = tokens.take k) ∧
      ∀ tokens' : List Token, tokens'.take (k + 1) = tokens.take (k + 1) →
        ofTokens tokens' = .error fault := by
  have cut : tokenize "#1+#2=#3" = .ok [⟨.register (some "1"), 0⟩, ⟨.symbol .plus, 2⟩,
      ⟨.register (some "2"), 3⟩, ⟨.symbol .assign, 5⟩, ⟨.register (some "3"), 6⟩,
      ⟨.endOfInput, 8⟩] := by decide +kernel
  have refused : ofTokens [⟨.register (some "1"), 0⟩, ⟨.symbol .plus, 2⟩,
      ⟨.register (some "2"), 3⟩, ⟨.symbol .assign, 5⟩, ⟨.register (some "3"), 6⟩,
      ⟨.endOfInput, 8⟩] = .error (.unexpectedToken ⟨.symbol .assign, 5⟩) := by decide +kernel
  exact ⟨_, _, cut, refused, nofun, ofTokens_earliest_fault cut refused nofun⟩

end Expr

end RegisterCalc
