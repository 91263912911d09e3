import RegisterCalc.Proofs.Tree.RoundTrip

/-!
# The text of trees with any numbers

A tree that was folded or built by hand may hold numbers that no numeral denotes. In its text an
expression stands for each of them. `Expr.spelledOut` puts these expressions into the tree: it has
the same text (`Expr.text_spelledOut`), it is plain if the calls are of functions, and it is
evaluated as the tree itself, wherever `exp(1000)` exceeds every double
(`Expr.evaluateWith_spelledOut`). So the text of every tree is a statement with the meaning of the
tree, if it does not nest deeper than allowed (`Expr.ofText_text_evaluated`).
-/

namespace RegisterCalc

namespace Expr

/-! ## Trees spelled out -/

/-- The call that stands for infinity in a text. -/
def overflow (offset : Offset) : Expr := call Function.exp.name (number 1000 offset) offset

/-- A number as an expression of plain numbers. -/
def ofLiteral (x : Float) (offset : Offset) : Expr :=
  if Binary64.infinity < Binary64.point x then
    binary .mul (number 0 offset) (overflow offset) offset
  else if Binary64.point x = Binary64.infinity then
    if Binary64.isNegative x then unary .negate (overflow offset) offset else overflow offset
  else if Binary64.isNegative x then
    unary .negate (number (Binary64.ofPoint false (Binary64.point x)) offset) offset
  else number x offset

/-- A tree with each number as an expression of plain numbers. -/
def spelledOut : Expr → Expr
  | number value offset => ofLiteral value offset
  | register id offset => register id offset
  | unary op operand offset => unary op operand.spelledOut offset
  | binary op left right offset => binary op left.spelledOut right.spelledOut offset
  | call name argument offset => call name argument.spelledOut offset
  | assign target value offset => assign target value.spelledOut offset

/-- A tree spelled out assigns the same register. -/
theorem target?_spelledOut (t : Expr) : t.spelledOut.target? = t.target? := by
  cases t with
  | number value offset =>
    rw [spelledOut, ofLiteral]
    repeat' split
    all_goals rfl
  | _ => rfl

/-! ## The text -/

/-- The number of a finite point is finite and not negative. -/
theorem isPlain_ofPoint {n : Nat} (finite : n < Binary64.infinity) :
    Binary64.isFinite (Binary64.ofPoint false n) ∧
      Binary64.isNegative (Binary64.ofPoint false n) = false := by
  refine ⟨?_, Binary64.isNegative_ofPoint false finite.le⟩
  rw [Binary64.isFinite, Binary64.point_ofPoint false finite.le]
  exact decide_eq_true finite

/-- A negative number is written as the negation of the positive one. -/
theorem numberText_of_negative {x : Float} (finite : Binary64.point x < Binary64.infinity)
    (negative : Binary64.isNegative x) :
    numberText x = "-" ++ numberText (Binary64.ofPoint false (Binary64.point x)) := by
  obtain ⟨finite', positive⟩ := isPlain_ofPoint finite
  rw [numberText_of_finite finite' positive, Binary64.point_ofPoint false finite.le]
  unfold numberText
  dsimp only
  rw [if_neg (by omega), if_neg finite.ne, if_pos negative]

/-- The text of the call that stands for infinity. -/
theorem text_overflow (offset : Offset) : (overflow offset).text = "exp(1000)" := by
  have thousand : literalText 1000 = "1000" := by decide +kernel
  rw [overflow, text, text, thousand]
  rfl

/-- A number spelled out has the text of the number. -/
theorem text_ofLiteral (x : Float) (offset : Offset) :
    (ofLiteral x offset).text = literalText x := by
  have zero : literalText 0 = "0" := by decide +kernel
  unfold ofLiteral
  split
  case isTrue notNumber =>
    rw [text, text, zero, text_overflow, literalText, if_pos notNumber]
    rfl
  case isFalse number =>
    split
    case isTrue infinite =>
      rw [literalText, if_neg number, if_pos infinite]
      split
      · rw [text, text_overflow]
        rfl
      · exact text_overflow offset
    case isFalse notInfinite =>
      have finite : Binary64.point x < Binary64.infinity := by omega
      split
      case isTrue negative =>
        obtain ⟨finite', positive⟩ := isPlain_ofPoint finite
        rw [text, text, literalText_of_finite finite' positive, literalText, if_neg number,
          if_neg notInfinite, if_pos negative, numberText_of_negative finite negative]
        rfl
      case isFalse positive => rfl

/-- A tree spelled out has the same text. -/
theorem text_spelledOut (t : Expr) : t.spelledOut.text = t.text := by
  induction t with
  | number value offset => exact text_ofLiteral value offset
  | register id offset => rfl
  | unary op operand offset ih => rw [spelledOut, text, text, ih]
  | binary op left right offset ihl ihr => rw [spelledOut, text, text, ihl, ihr]
  | call name argument offset ih => rw [spelledOut, text, text, ih]
  | assign target value offset ih => rw [spelledOut, text, text, ih]

/-! ## Nesting -/

/-- Whether all calls of a tree are of functions. -/
def callsFunctions : Expr → Bool
  | number _ _ | register _ _ => true
  | unary _ operand _ => operand.callsFunctions
  | binary _ left right _ => left.callsFunctions && right.callsFunctions
  | call name argument _ => (Function.ofName? name).isSome && argument.callsFunctions
  | assign _ value _ => value.callsFunctions

/-- The calls of a plain tree are of functions. -/
theorem callsFunctions_of_isPlain {t : Expr} (plain : t.isPlain) : t.callsFunctions := by
  induction t with
  | number | register => rfl
  | unary op operand offset ih | assign target operand offset ih => exact ih plain
  | binary op left right offset ihl ihr =>
    obtain ⟨plainLeft, plainRight⟩ := Bool.and_eq_true_iff.1 plain
    exact Bool.and_eq_true_iff.2 ⟨ihl plainLeft, ihr plainRight⟩
  | call name argument offset ih =>
    obtain ⟨isFunction, plain⟩ := Bool.and_eq_true_iff.1 plain
    exact Bool.and_eq_true_iff.2 ⟨isFunction, ih plain⟩

/-- How deep the text of a number nests: a negation twice, a call once. -/
def literalNesting (x : Float) : Nat :=
  if Binary64.infinity < Binary64.point x then 2
  else if Binary64.point x = Binary64.infinity then if Binary64.isNegative x then 3 else 1
  else if Binary64.isNegative x then 2 else 0

/-- How deep the text of a tree nests, with any numbers. -/
def textNesting : Expr → Nat
  | number value _ => literalNesting value
  | register _ _ => 0
  | unary _ operand _ => operand.textNesting + 2
  | binary _ left right _ => max left.textNesting right.textNesting + 1
  | call _ argument _ => argument.textNesting + 1
  | assign _ value _ => value.textNesting + 2

/-- A number spelled out is plain. -/
theorem isPlain_ofLiteral (x : Float) (offset : Offset) : (ofLiteral x offset).isPlain := by
  have infinite : (overflow 0).isPlain := by decide +kernel
  unfold ofLiteral
  split
  · exact infinite
  case isFalse number =>
    split
    · split <;> exact infinite
    case isFalse notInfinite =>
      have finite : Binary64.point x < Binary64.infinity := by omega
      split
      · exact (isPlain_number _ offset).2 (isPlain_ofPoint finite)
      case isFalse positive =>
        exact (isPlain_number x offset).2 ⟨decide_eq_true finite, Bool.eq_false_iff.2 positive⟩

/-- A tree spelled out is plain if its calls are of functions. -/
theorem isPlain_spelledOut {t : Expr} (known : t.callsFunctions) : t.spelledOut.isPlain := by
  induction t with
  | number value offset => exact isPlain_ofLiteral value offset
  | register id offset => rfl
  | unary op operand offset ih => exact ih known
  | binary op left right offset ihl ihr =>
    obtain ⟨knownLeft, knownRight⟩ := Bool.and_eq_true_iff.1 known
    exact Bool.and_eq_true_iff.2 ⟨ihl knownLeft, ihr knownRight⟩
  | call name argument offset ih =>
    obtain ⟨isFunction, knownArgument⟩ := Bool.and_eq_true_iff.1 known
    exact Bool.and_eq_true_iff.2 ⟨isFunction, ih knownArgument⟩
  | assign target value offset ih => exact ih known

/-- A tree spelled out nests as deep as the text of the tree. -/
theorem renderedNesting_spelledOut (t : Expr) : t.spelledOut.renderedNesting = t.textNesting := by
  induction t with
  | number value offset =>
    simp only [spelledOut, ofLiteral, textNesting, literalNesting]
    repeat' split
    all_goals rfl
  | register id offset => rfl
  | unary op operand offset ih => rw [spelledOut, renderedNesting, textNesting, ih]
  | binary op left right offset ihl ihr =>
    rw [spelledOut, renderedNesting, textNesting, ihl, ihr]
  | call name argument offset ih => rw [spelledOut, renderedNesting, textNesting, ih]
  | assign target value offset ih => rw [spelledOut, renderedNesting, textNesting, ih]

/-! ## Evaluation -/

section
variable {functions : FunctionValues}
  (beyond : functions .exp 1000 = Binary64.ofPoint false Binary64.infinity)
include beyond

/-- The call that stands for infinity has that value where it exceeds every double. -/
theorem evaluateWith_overflow (offset : Offset) (registers : Registers) :
    (overflow offset).evaluateWith functions registers =
      .pure (.ok (Binary64.ofPoint false Binary64.infinity)) registers := by
  have value : applyNamedWith functions Function.exp.name 1000 offset =
      .ok (Binary64.ofPoint false Binary64.infinity) := by
    rw [applyNamedWith, Function.ofName?_name]
    exact congrArg _ beyond
  rw [overflow, evaluateWith, evaluateWith, Evaluation.pure_andThen, value]

/-- A number spelled out is evaluated to the number. -/
theorem evaluateWith_ofLiteral (x : Float) (offset : Offset) (registers : Registers) :
    (ofLiteral x offset).evaluateWith functions registers = .pure (.ok x) registers := by
  have made := Binary64.ofPoint_point x
  unfold ofLiteral
  split
  case isTrue notNumber =>
    have product : Binary64.infinity <
        Binary64.point (0 * Binary64.ofPoint false Binary64.infinity) := by decide +kernel
    rw [evaluateWith, evaluateWith, Evaluation.pure_andThen, evaluateWith_overflow beyond,
      Evaluation.pure_andThen, BinaryOp.apply, Binary64.eq_of_infinity_lt notNumber product]
  case isFalse number =>
    have bounded : Binary64.point x ≤ Binary64.infinity := Nat.le_of_not_lt number
    split
    case isTrue infinite =>
      rw [infinite] at made
      split
      case isTrue negative =>
        rw [evaluateWith, evaluateWith_overflow beyond, Evaluation.pure_andThen, PrefixOp.apply,
          Binary64.neg_ofPoint false le_rfl, Bool.not_false, ← negative, made]
      case isFalse positive =>
        rw [evaluateWith_overflow beyond, ← Bool.eq_false_iff.2 positive, made]
    case isFalse notInfinite =>
      split
      case isTrue negative =>
        rw [evaluateWith, evaluateWith, Evaluation.pure_andThen, PrefixOp.apply,
          Binary64.neg_ofPoint_point bounded negative]
      case isFalse positive => rfl

/-- A tree spelled out is evaluated as the tree. -/
theorem evaluateWith_spelledOut (t : Expr) (registers : Registers) :
    t.spelledOut.evaluateWith functions registers = t.evaluateWith functions registers := by
  induction t generalizing registers with
  | number value offset => exact evaluateWith_ofLiteral beyond value offset registers
  | register id offset => rfl
  | unary op operand offset ih => simp only [spelledOut, evaluateWith, ih]
  | binary op left right offset ihl ihr => simp only [spelledOut, evaluateWith, ihl, ihr]
  | call name argument offset ih => simp only [spelledOut, evaluateWith, ih]
  | assign target value offset ih => simp only [spelledOut, evaluateWith, ih]

end

/-! ## Positions -/

section
variable (f : Offset → Offset)

/-- Positions are not written. -/
theorem text_relocate (t : Expr) : (t.relocate f).text = t.text := by
  induction t with
  | number value offset | register id offset => rfl
  | unary op operand offset ih => rw [relocate, text, text, ih]
  | binary op left right offset ihl ihr => rw [relocate, text, text, ihl, ihr]
  | call name argument offset ih => rw [relocate, text, text, ih]
  | assign target value offset ih => rw [relocate, text, text, ih]

/-- Moving positions keeps the register that is assigned. -/
theorem target?_relocate (t : Expr) : (t.relocate f).target? = t.target? := by
  cases t <;> rfl

end

/-- The text of a tree whose calls are of functions is a statement, if it nests at most as deep as
allowed. The statement has the same text, assigns the same register at its root and has, on all
registers, the same value or the same kind of fault and leaves the same registers, wherever
`exp(1000)` exceeds every double; so it does on a machine on which it does. -/
theorem ofText_text_evaluated {functions : FunctionValues}
    (beyond : functions .exp 1000 = Binary64.ofPoint false Binary64.infinity) {t : Expr}
    (known : t.callsFunctions) (covered : t.textNesting ≤ maxNesting) :
    ∃ u, ofText t.text = .ok u ∧ u.text = t.text ∧ u.target? = t.target? ∧
      (∀ registers, (u.evaluateWith functions registers).bare =
        (t.evaluateWith functions registers).bare) ∧
      (functions = Function.apply → ∀ registers,
        (u.evaluate registers).bare = (t.evaluate registers).bare) := by
  rw [← t.renderedNesting_spelledOut] at covered
  obtain ⟨u, read, same⟩ := ofText_text_covered (isPlain_spelledOut known) covered
  rw [text_spelledOut] at read
  have evaluated : ∀ registers, (u.evaluateWith functions registers).bare =
      (t.evaluateWith functions registers).bare := by
    intro registers
    rw [bare_evaluateWith_congr same, evaluateWith_spelledOut beyond]
  refine ⟨u, read, ?_, ?_, evaluated, ?_⟩
  · calc u.text = u.bare.text := (u.text_relocate _).symm
      _ = t.spelledOut.bare.text := by rw [same]
      _ = t.spelledOut.text := t.spelledOut.text_relocate _
      _ = t.text := t.text_spelledOut
  · calc u.target? = u.bare.target? := (u.target?_relocate _).symm
      _ = t.spelledOut.bare.target? := by rw [same]
      _ = t.spelledOut.target? := t.spelledOut.target?_relocate _
      _ = t.target? := t.target?_spelledOut
  · rintro rfl registers
    simpa only [evaluateWith_apply] using evaluated registers

/-- The functions of the machine, but for `exp`, which is infinite from 1000 on. -/
def saturated : FunctionValues := fun f x =>
  if f = .exp ∧ 1000 ≤ x then Binary64.ofPoint false Binary64.infinity else f.apply x

/-- `#1 = -2.5 + nan * -inf` as a tree of numbers that no numeral denotes. -/
def unwritten : Expr :=
  assign 1 (binary .add (number (-2.5) 0) (binary .mul (number (0 / 0) 0) (number (-1 / 0) 0) 0) 0)
    0

/-- The text of a tree with negative, infinite and undefined numbers is read as its meaning. -/
theorem ofText_text_evaluated_unwritten :
    saturated .exp 1000 = Binary64.ofPoint false Binary64.infinity ∧ unwritten.callsFunctions ∧
      unwritten.textNesting = 7 ∧
      unwritten.text = "(#1 = ((-2.5) + ((0 * exp(1000)) * (-exp(1000)))))" ∧
      ∃ u, ofText unwritten.text = .ok u ∧ u.text = unwritten.text ∧
        u.target? = unwritten.target? ∧
        (∀ registers, (u.evaluateWith saturated registers).bare =
          (unwritten.evaluateWith saturated registers).bare) ∧
        (saturated = Function.apply → ∀ registers,
          (u.evaluate registers).bare = (unwritten.evaluate registers).bare) := by
  have beyond : saturated .exp 1000 = Binary64.ofPoint false Binary64.infinity :=
    if_pos ⟨rfl, by decide +kernel⟩
  have known : unwritten.callsFunctions := by decide
  have nesting : unwritten.textNesting = 7 := by decide +kernel
  exact ⟨beyond, known, nesting, by decide +kernel,
    ofText_text_evaluated beyond known (by rw [nesting]; decide)⟩

end Expr

end RegisterCalc
