import RegisterCalc.Proofs.Session.Runs
import RegisterCalc.Proofs.Session.Transcript
import RegisterCalc.Proofs.Tree.Literals

/-!
# Values typed back

The text of a finite number is a statement with that value. If the number is not negative, the text
is one token; otherwise it is a minus sign and the text of the opposite number
(`numberText_eq_minus`). Either way it is cut into the tokens of a derivation that is evaluated to
the number and writes nothing (`exists_derivation_numberText`). So what a session shows as a value
can be typed into any session, for the same value (`Session.execute_numberText`).
-/

namespace RegisterCalc

/-! ## The text of a finite number -/

section
variable {x : Float} (finite : Binary64.isFinite x)
include finite

/-- The opposite of a negative finite number is finite and not negative, and a minus sign before its
text makes the text of the number. -/
theorem numberText_eq_minus (negative : Binary64.isNegative x) : Binary64.isFinite (-x) ∧
    Binary64.isNegative (-x) = false ∧ - -x = x ∧ numberText x = "-" ++ numberText (-x) := by
  have below : Binary64.point x < Binary64.infinity := of_decide_eq_true finite
  have opposite := Binary64.neg_eq_ofPoint finite
  rw [negative, Bool.not_true] at opposite
  refine ⟨Binary64.isFinite_neg finite, ?_, Binary64.neg_neg_of_finite finite, ?_⟩
  · rw [Binary64.isNegative_neg finite, negative, Bool.not_true]
  · rw [opposite]
    exact Expr.numberText_of_negative below negative

/-- The text of a negative number is cut into a minus sign and the opposite number. -/
theorem Lexes.negative (negative : Binary64.isNegative x) (offset : Offset) {cs : List Char}
    (ends : ∀ c ∈ cs.head?, isNumeric c = false) :
    Lexes offset ((numberText x).toList ++ cs) [⟨.symbol .minus, offset⟩,
      ⟨.number (some (numberText (-x))) (some (-x)), offset + 1⟩]
      (offset + (numberText x).length) cs := by
  obtain ⟨finite', positive, -, spelled⟩ := numberText_eq_minus finite negative
  have number := Lexes.number finite' positive (offset + 1) ends
  have sign : Lexes offset ('-' :: ((numberText (-x)).toList ++ cs)) [⟨.symbol .minus, offset⟩]
      (offset + 1) ((numberText (-x)).toList ++ cs) := by
    refine .symbol .minus offset ?_
    obtain ⟨c, more, text, numeric, -⟩ := toList_numberText finite' positive
    rw [text]
    intro d mem
    cases mem
    exact joins_of_isNumeric numeric
  rw [Nat.add_assoc, Nat.add_comm 1] at number
  have cut := sign.trans number
  rw [spelled, String.toList_append, String.length_append, Nat.add_comm "-".length]
  exact cut

/-- The text of a finite number is cut into the tokens of a derivation that nests at most once, is no
assignment, and is evaluated to the number without a write. -/
theorem exists_derivation_numberText (offset : Offset) : ∃ d : Derivation .assignment,
    Lexes offset (numberText x).toList d.tokens (offset + (numberText x).length) [] ∧
    d.depth ≤ 1 ∧ d.tree.target? = none ∧
    ∀ registers, d.tree.evaluate registers = .pure (.ok x) registers := by
  rw [← List.append_nil (numberText x).toList]
  cases sign : Binary64.isNegative x with
  | false =>
    refine ⟨(Derivation.uncalled (.number (some (numberText x)) x offset)).asAssignment,
      ?_, ?_, ?_, ?_⟩
    · rw [Derivation.tokens_asAssignment]
      exact Lexes.number finite sign offset nofun
    · rw [Derivation.depth_asAssignment]
      exact Nat.zero_le _
    · rw [Derivation.tree_asAssignment]
      rfl
    · intro registers
      rw [Derivation.tree_asAssignment]
      rfl
  | true =>
    obtain ⟨-, -, twice, -⟩ := numberText_eq_minus finite sign
    refine ⟨.loosest (Derivation.climb BinaryOp.levels (.prefixed .negate offset (.unprefixed
      (.uncalled (.number (some (numberText (-x))) (-x) (offset + 1)))))), ?_, ?_, ?_, ?_⟩
    · rw [Derivation.tokens, Derivation.tokens_climb]
      exact Lexes.negative finite sign offset nofun
    · rw [Derivation.depth, Derivation.depth_climb]
      exact le_rfl
    · rw [Derivation.tree, Derivation.tree_climb]
      rfl
    · intro registers
      rw [Derivation.tree, Derivation.tree_climb]
      show Evaluation.pure (.ok (- -x)) registers = _
      rw [twice]

end

/-! ## Values in sessions -/

/-- What is shown for an accepted statement ends with the text of its value. -/
theorem Accepted.exists_text_eq (config : Config) (accepted : Accepted) :
    ∃ shown, accepted.text config =
      shown ++ paint config.coloured .number (numberText accepted.value) ++ "\n" := by
  unfold text
  dsimp only
  cases accepted.assigned with
  | some id => exact ⟨_, congrArg (· ++ "\n") String.append_assoc.symm⟩
  | none => exact ⟨_, congrArg (· ++ "\n") String.append_assoc.symm⟩

/-- The text of a finite number is one token, or two if the number is negative: a minus sign and the
opposite number. It is a statement with the number as its value, which writes nothing. So whatever
value a session shows, its text has the same value in any session and leaves that as it is. -/
theorem Session.execute_numberText {x : Float} (finite : Binary64.isFinite x) :
    (Binary64.isNegative x = false → tokenize (numberText x) =
      .ok [⟨.number (some (numberText x)) (some x), 0⟩, ⟨.endOfInput, (numberText x).length⟩]) ∧
    (Binary64.isNegative x → tokenize (numberText x) =
      .ok [⟨.symbol .minus, 0⟩, ⟨.number (some (numberText (-x))) (some (-x)), 1⟩,
        ⟨.endOfInput, (numberText x).length⟩]) ∧
    (∀ registers, evaluateText (numberText x) registers = (.ok x, registers)) ∧
    (∃ t, Expr.ofText (numberText x) = .ok t ∧ t.target? = none ∧
      ∀ registers, t.evaluate registers = .pure (.ok x) registers) ∧
    ∀ (session session' : Session) (statement : String) (accepted : Accepted),
      (session.execute statement).outcome = .ok accepted → accepted.value = x →
      (∃ shown, accepted.text session.config =
        shown ++ paint session.config.coloured .number (numberText x) ++ "\n") ∧
      ∃ again, (session'.execute (numberText x)).outcome = .ok again ∧ again.value = x ∧
        again.assigned = none ∧ (session'.execute (numberText x)).session = session' := by
  obtain ⟨d, cut, depth, target, value⟩ := exists_derivation_numberText finite 0
  have read : Expr.ofText (numberText x) = .ok d.tree :=
    Expr.ofText_of_derivation cut.tokenizeFrom_eq (depth.trans (by decide))
  refine ⟨fun positive => ?_, fun negative => ?_, fun registers => ?_, ⟨_, read, target, value⟩,
    fun session session' statement accepted outcome same => ⟨?_, ?_⟩⟩
  · have cut : Lexes 0 ((numberText x).toList ++ []) _ _ [] := .number finite positive 0 nofun
    rw [List.append_nil, Nat.zero_add] at cut
    exact cut.tokenizeFrom_eq
  · have cut : Lexes 0 ((numberText x).toList ++ []) _ _ [] := .negative finite negative 0 nofun
    rw [List.append_nil, Nat.zero_add, Nat.zero_add] at cut
    exact cut.tokenizeFrom_eq
  · rw [evaluateText, read]
    dsimp only
    rw [value]
    rfl
  · rw [← same]
    exact accepted.exists_text_eq session.config
  · have ok : (d.tree.evaluate session'.registers).outcome = .ok x := by
      rw [value]
      rfl
    obtain ⟨again, outcome', tree, same'⟩ := session'.execute_of_evaluated read ok
    obtain ⟨-, -, registers⟩ := evaluated_of_execute outcome'
    refine ⟨again, outcome', same', ?_, ?_⟩
    · rw [Accepted.assigned, tree, target]
    · have settings := session'.config_execute (numberText x)
      rw [tree, value] at registers
      generalize (session'.execute (numberText x)).session = after at settings registers
      obtain ⟨config, registers'⟩ := after
      obtain ⟨config', registers''⟩ := session'
      exact congrArg₂ Session.mk settings registers

/-- The value of `2-2.5` is shown as `-0.5`, which is a minus sign and a number and has that value. -/
theorem Session.execute_numberText_negative : Binary64.isFinite (-0.5) ∧
    tokenize "-0.5" = .ok [⟨.symbol .minus, 0⟩, ⟨.number (some "0.5") (some 0.5), 1⟩,
      ⟨.endOfInput, 4⟩] ∧
    (∀ registers, evaluateText "-0.5" registers = (.ok (-0.5), registers)) ∧
    ∀ (session session' : Session) (accepted : Accepted),
      (session.execute "2-2.5").outcome = .ok accepted → accepted.value = -0.5 →
      ∃ again, (session'.execute "-0.5").outcome = .ok again ∧ again.value = -0.5 ∧
        again.assigned = none ∧ (session'.execute "-0.5").session = session' := by
  have finite : Binary64.isFinite (-0.5) := by decide +kernel
  have negative : Binary64.isNegative (-0.5) := by decide +kernel
  have shown : numberText (-0.5) = "-0.5" := by decide +kernel
  have opposite : -(-0.5 : Float) = 0.5 := by decide +kernel
  have half : numberText 0.5 = "0.5" := by decide +kernel
  obtain ⟨-, cut, value, -, again⟩ := Session.execute_numberText finite
  rw [shown] at cut value again
  rw [opposite, half] at cut
  exact ⟨finite, cut negative, value, fun session session' accepted outcome same =>
    (again session session' "2-2.5" accepted outcome same).2⟩

end RegisterCalc
