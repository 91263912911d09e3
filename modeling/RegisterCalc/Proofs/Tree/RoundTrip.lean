import RegisterCalc.Proofs.Grammar.Exactness
import RegisterCalc.Proofs.Tree.Spelling
import RegisterCalc.Statement

/-!
# Trees from their text

The text of a plain tree is read as the tree it is the text of, up to positions, if it does not nest
deeper than allowed, and is refused for its nesting otherwise (`Expr.ofText_text_iff`). The tree of
every text is plain, so this says when the text of a statement is a statement with the same meaning
(`Expr.ofText_text_of_ofText`). It is not always one: the brackets around a prefix operator nest
once more than the operator did (`Expr.ofText_text_of_negations`).
-/

namespace RegisterCalc.Expr

/-! ## Plain trees -/

section
variable {t : Expr}

/-- The text of a plain tree is cut into the tokens of a derivation of the tree, and the end of the
input. -/
theorem tokenize_text (plain : t.isPlain) : ∃ (d : Derivation .assignment) (last : Offset),
    tokenize t.text = .ok (d.tokens ++ [⟨.endOfInput, last⟩]) ∧ d.tree.bare = t.bare ∧
      d.depth = t.renderedNesting := by
  obtain ⟨d, last, cut, denoted, depth⟩ := isSpelled_text plain 0 [] nofun
  rw [List.append_nil] at cut
  refine ⟨d.asAssignment, last, ?_, ?_, ?_⟩
  · rw [Derivation.tokens_asAssignment]
    exact cut.tokenizeFrom_eq
  · rw [Derivation.tree_asAssignment, denoted]
  · rw [Derivation.depth_asAssignment, depth]

/-- A text that is cut into the tokens of a derivation is read as its tree, if that nests as deep as
allowed. -/
theorem ofText_of_derivation {s : String} {d : Derivation .assignment} {last : Offset}
    (cut : tokenize s = .ok (d.tokens ++ [⟨.endOfInput, last⟩])) (covered : d.depth ≤ maxNesting) :
    ofText s = .ok d.tree := by
  simp only [ofText, cut, ofTokens, d.ofTokensWithin_covered covered]
  rfl

/-- A text that is cut into the tokens of a call is read as its tree, if that nests as deep as
allowed. -/
theorem ofText_of_call {s : String} {d : Derivation .call} {last : Offset}
    (cut : tokenize s = .ok (d.tokens ++ [⟨.endOfInput, last⟩])) (covered : d.depth ≤ maxNesting) :
    ofText s = .ok d.tree := by
  rw [← d.tokens_asAssignment] at cut
  rw [← d.depth_asAssignment] at covered
  rw [ofText_of_derivation cut covered, d.tree_asAssignment]

/-- The text of a plain tree that nests as deep as allowed is read as the tree. -/
theorem ofText_text_covered (plain : t.isPlain) (covered : t.renderedNesting ≤ maxNesting) :
    ∃ u, ofText t.text = .ok u ∧ u.bare = t.bare := by
  obtain ⟨d, last, cut, denoted, depth⟩ := tokenize_text plain
  exact ⟨d.tree, ofText_of_derivation cut (depth ▸ covered), denoted⟩

/-- The text of a plain tree that nests deeper than allowed is refused for its nesting. -/
theorem ofText_text_tooDeep (plain : t.isPlain) (deeper : maxNesting < t.renderedNesting) :
    ∃ offset, ofText t.text = .error (.syntactic (.nestingTooDeep maxNesting offset)) := by
  obtain ⟨d, last, cut, -, depth⟩ := tokenize_text plain
  obtain ⟨offset, fault⟩ := d.ofTokensWithin_tooDeep (depth ▸ deeper) last
  refine ⟨offset, ?_⟩
  simp only [ofText, cut, ofTokens, fault]
  rfl

/-- The text of a plain tree is a statement if and only if it nests at most as deep as allowed; the
statement is the tree then, up to positions, and else the nesting is the only fault. -/
theorem ofText_text_iff (plain : t.isPlain) :
    ((∃ u, ofText t.text = .ok u) ↔ t.renderedNesting ≤ maxNesting) ∧
      (∀ u, ofText t.text = .ok u → u.bare = t.bare) ∧
      (maxNesting < t.renderedNesting →
        ∃ offset, ofText t.text = .error (.syntactic (.nestingTooDeep maxNesting offset))) := by
  rcases Nat.lt_or_ge maxNesting t.renderedNesting with deeper | covered
  · obtain ⟨offset, fault⟩ := ofText_text_tooDeep plain deeper
    rw [fault]
    refine ⟨⟨nofun, fun covered => absurd covered (Nat.not_le.2 deeper)⟩, nofun, fun _ => ?_⟩
    exact ⟨offset, rfl⟩
  · obtain ⟨u, read, same⟩ := ofText_text_covered plain covered
    rw [read]
    refine ⟨⟨fun _ => covered, fun _ => ⟨u, rfl⟩⟩, fun u' same' => ?_, fun deeper => ?_⟩
    · obtain rfl := Except.ok.inj same'
      exact same
    · exact absurd covered (Nat.not_le.2 deeper)

/-- The tree of `(2 - (-#1))` is read from its text. -/
theorem ofText_text_difference :
    (binary .sub (number 2 0) (unary .negate (register 1 0) 0) 0).isPlain ∧
      ∃ u, ofText (binary .sub (number 2 0) (unary .negate (register 1 0) 0) 0).text = .ok u ∧
        u.bare = (binary .sub (number 2 0) (unary .negate (register 1 0) 0) 0).bare := by
  have plain : (binary .sub (number 2 0) (unary .negate (register 1 0) 0) 0).isPlain := by
    decide +kernel
  obtain ⟨accepted, same, -⟩ := ofText_text_iff plain
  obtain ⟨u, read⟩ := accepted.2 (by decide)
  exact ⟨plain, u, read, same u read⟩

end

/-! ## Trees of texts -/

/-- The tokens of a statement are those of a derivation of its tree, which nests at most as deep as
allowed, and the end of the input. -/
theorem derived_of_ofText {s : String} {t : Expr} (h : ofText s = .ok t) :
    ∃ (d : Derivation .assignment) (last : Offset),
      tokenize s = .ok (d.tokens ++ [⟨.endOfInput, last⟩]) ∧ d.tree = t ∧
        d.depth ≤ maxNesting := by
  obtain ⟨tokens, cut, read⟩ := ofText_eq_ok h
  obtain ⟨body, last, rfl, ofText⟩ := tokenize_eq_ok cut
  obtain ⟨d, rfl, denoted, covered⟩ := ofTokensWithin_derived
    (fun token mem => Token.isEnd_of_isOfText (ofText token mem)) read
  exact ⟨d, last, cut, denoted, covered⟩

/-- The tree of a text is plain. -/
theorem isPlain_of_ofText {s : String} {t : Expr} (h : ofText s = .ok t) : t.isPlain := by
  obtain ⟨d, last, cut, rfl, -⟩ := derived_of_ofText h
  obtain ⟨body, last', same, ofText⟩ := tokenize_eq_ok cut
  obtain ⟨rfl, -⟩ := List.append_inj' same rfl
  exact d.isPlain_tree ofText

/-- The text of the tree of a text is again a statement if and only if it nests at most as deep as
allowed. It then has the same tree up to positions, and on all registers the same value or the same
kind of fault, and leaves the same registers; else the nesting is the only fault. -/
theorem ofText_text_of_ofText {s : String} {t : Expr} (h : ofText s = .ok t) :
    ((∃ u, ofText t.text = .ok u ∧ u.bare = t.bare ∧
        ∀ registers, (u.evaluate registers).bare = (t.evaluate registers).bare) ↔
      t.renderedNesting ≤ maxNesting) ∧
    (maxNesting < t.renderedNesting →
      ∃ offset, ofText t.text = .error (.syntactic (.nestingTooDeep maxNesting offset))) := by
  have plain := isPlain_of_ofText h
  refine ⟨⟨?_, fun covered => ?_⟩, ofText_text_tooDeep plain⟩
  · rintro ⟨u, read, -, -⟩
    refine Nat.le_of_not_lt fun deeper => ?_
    obtain ⟨offset, fault⟩ := ofText_text_tooDeep plain deeper
    rw [read] at fault
    cases fault
  · obtain ⟨u, read, same⟩ := ofText_text_covered plain covered
    exact ⟨u, read, same, bare_evaluate_congr same⟩

/-- The tree of `#1=-#2` is read from its text, `(#1 = (-#2))`. -/
theorem ofText_text_of_assignment :
    ∃ t, ofText "#1=-#2" = .ok t ∧ t.text = "(#1 = (-#2))" ∧
      ∃ u, ofText t.text = .ok u ∧ u.bare = t.bare ∧
        ∀ registers, (u.evaluate registers).bare = (t.evaluate registers).bare := by
  have read : ofText "#1=-#2" = .ok (assign 1 (unary .negate (register 2 4) 3) 2) :=
    eq_ok_of_toOption (by decide +kernel)
  exact ⟨_, read, by decide +kernel, (ofText_text_of_ofText read).1.2 (by decide)⟩

/-- The register `#1` behind 65 minus signs is a statement, and the text of its tree is none: it
nests 130 levels deep. -/
theorem ofText_text_of_negations :
    ∃ t, ofText (String.ofList (List.replicate 65 '-' ++ ['#', '1'])) = .ok t ∧
      t.renderedNesting = 130 ∧ ¬∃ u, ofText t.text = .ok u := by
  have nesting : (ofText (String.ofList (List.replicate 65 '-' ++ ['#', '1']))).toOption.map
      renderedNesting = some 130 := by decide +kernel
  cases read : ofText (String.ofList (List.replicate 65 '-' ++ ['#', '1'])) with
  | error rejection =>
    rw [read] at nesting
    cases nesting
  | ok t =>
    rw [read] at nesting
    have nesting : t.renderedNesting = 130 := Option.some.inj nesting
    obtain ⟨offset, fault⟩ := ofText_text_tooDeep (isPlain_of_ofText read)
      (by rw [nesting]; decide)
    refine ⟨t, rfl, nesting, ?_⟩
    rintro ⟨u, accepted⟩
    rw [fault] at accepted
    cases accepted

end RegisterCalc.Expr
