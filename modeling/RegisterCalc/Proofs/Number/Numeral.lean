import RegisterCalc.Proofs.Number.Points
import RegisterCalc.Proofs.Number.Rounding
import RegisterCalc.Token.Lexer
import Mathlib.Data.List.TakeWhile

/-!
# Numbers are read back from their text

A numeral denotes a decimal where the decimal is written so (`Decimal.ofNumeral?_eq_some_iff`). The
text of a decimal is a numeral of the same value (`Decimal.ofNumeral?_text`): only zeros that
end the fraction are left out. With the decimal of a point reading back, the text of a finite number
that is not negative is a numeral of that very number (`readNumeral?_numberText`). Conversely the
value of a numeral is finite and not negative (`isFinite_of_readNumeral?`).
-/

namespace RegisterCalc

/-- The digits of a number are digits. -/
theorem isDigit_of_mem_toDigits {n : Nat} {c : Char} (h : c ∈ Nat.toDigits 10 n) : c.isDigit :=
  Nat.isDigit_of_mem_toDigits (by decide) (by decide) h

/-- No digit is a point. -/
theorem ne_point_of_isDigit {c : Char} (h : c.isDigit) : c ≠ '.' := by
  rintro rfl
  exact absurd h (by decide)

/-! ## The parts of a numeral -/

/-- What stands before the first point. -/
def wholePart (run : List Char) : List Char := run.takeWhile (· ≠ '.')

/-- What stands behind the first point. -/
def fractionPart (run : List Char) : List Char := (run.dropWhile (· ≠ '.')).drop 1

section
variable {whole : List Char} (noPoint : '.' ∉ whole)
include noPoint

/-- A run without a point is a whole part. -/
theorem parts_of_no_point : wholePart whole = whole ∧ fractionPart whole = [] := by
  have all : ∀ c ∈ whole, decide (c ≠ '.') = true := fun c mem =>
    decide_eq_true fun point => noPoint (point ▸ mem)
  constructor
  · exact List.takeWhile_eq_self_iff.2 all
  · rw [fractionPart, List.dropWhile_eq_nil_iff.2 all, List.drop_nil]

/-- The first point divides a run. -/
theorem parts_of_point (fraction : List Char) :
    wholePart (whole ++ '.' :: fraction) = whole ∧
      fractionPart (whole ++ '.' :: fraction) = fraction := by
  have all : ∀ c ∈ whole, decide (c ≠ '.') = true := fun c mem =>
    decide_eq_true fun point => noPoint (point ▸ mem)
  constructor
  · rw [wholePart, List.takeWhile_append_of_pos all]
    simp
  · rw [fractionPart, List.dropWhile_append_of_pos all]
    simp

end

namespace Decimal

/-! ## The digits of the fraction -/

/-- Leaving out the zeros at the end of digits scales their value by a power of ten. -/
theorem ofDigitChars_dropTrailingZeros (digits : List Char) :
    let kept := (digits.reverse.dropWhile (· = '0')).reverse
    kept.length ≤ digits.length ∧
      Nat.ofDigitChars 10 digits 0 =
        Nat.ofDigitChars 10 kept 0 * 10 ^ (digits.length - kept.length) := by
  intro kept
  have split : digits = kept ++ (digits.reverse.takeWhile (· = '0')).reverse := by
    rw [← List.reverse_append, List.takeWhile_append_dropWhile, List.reverse_reverse]
  have zeros : (digits.reverse.takeWhile (· = '0')).reverse =
      List.replicate (digits.reverse.takeWhile (· = '0')).length '0' := by
    refine List.eq_replicate_iff.2 ⟨List.length_reverse, fun c mem => ?_⟩
    simpa using List.mem_takeWhile_imp (List.mem_reverse.1 mem)
  rw [zeros] at split
  generalize (digits.reverse.takeWhile (· = '0')).length = dropped at split
  have length : digits.length = kept.length + dropped := by
    rw [split, List.length_append, List.length_replicate]
  refine ⟨by omega, ?_⟩
  conv_lhs => rw [split]
  rw [Nat.ofDigitChars_append, Nat.ofDigitChars_replicate_zero, length, Nat.add_sub_cancel_left,
    Nat.mul_comm]

/-- The places of a decimal, with the zeros that end them, are as many digits as there are places,
and have the value of the fraction. -/
theorem ofDigitChars_padded (d : Decimal) :
    let digits := Nat.toDigits 10 (d.coefficient % 10 ^ d.places)
    let padded := (List.replicate (d.places - digits.length) '0' ++ digits).take d.places
    padded.length = d.places ∧ Nat.ofDigitChars 10 padded 0 = d.coefficient % 10 ^ d.places := by
  intro digits padded
  rcases Nat.eq_zero_or_pos d.places with none | some
  · have : padded = [] := by simp [padded, none]
    rw [this, none, Nat.pow_zero, Nat.mod_one]
    exact ⟨rfl, rfl⟩
  · have fits : digits.length ≤ d.places :=
      (Nat.length_toDigits_le_iff (by decide) some).2 (Nat.mod_lt _ (Nat.pow_pos (by decide)))
    have whole : padded = List.replicate (d.places - digits.length) '0' ++ digits :=
      List.take_of_length_le (by simp; omega)
    rw [whole, Nat.ofDigitChars_append, Nat.ofDigitChars_replicate_zero]
    exact ⟨by simp; omega, Nat.ofDigitChars_ten_toDigits⟩

/-- The digits of the fraction have its value once the zeros left out are put back. -/
theorem ofDigitChars_fractionDigits (d : Decimal) :
    d.fractionDigits.length ≤ d.places ∧
      Nat.ofDigitChars 10 d.fractionDigits 0 * 10 ^ (d.places - d.fractionDigits.length) =
        d.coefficient % 10 ^ d.places := by
  obtain ⟨length, value⟩ := ofDigitChars_padded d
  obtain ⟨shorter, scaled⟩ := ofDigitChars_dropTrailingZeros
    ((List.replicate (d.places - (Nat.toDigits 10 (d.coefficient % 10 ^ d.places)).length) '0' ++
      Nat.toDigits 10 (d.coefficient % 10 ^ d.places)).take d.places)
  rw [length] at shorter scaled
  exact ⟨shorter, scaled.symm.trans value⟩

/-- The digits of the fraction are digits. -/
theorem isDigit_of_mem_fractionDigits {d : Decimal} {c : Char} (h : c ∈ d.fractionDigits) :
    c.isDigit := by
  have padded := List.mem_of_mem_take
    (List.mem_reverse.1 ((List.dropWhile_sublist _).mem (List.mem_reverse.1 h)))
  rcases List.mem_append.1 padded with zero | digit
  · rw [List.eq_of_mem_replicate zero]
    rfl
  · exact isDigit_of_mem_toDigits digit

/-! ## Numerals -/

/-- The characters of a decimal: its whole part and, unless there is none, a point and the
fraction. -/
theorem toList_text (d : Decimal) :
    d.text.toList = Nat.toDigits 10 (d.coefficient / 10 ^ d.places) ++
      (if d.fractionDigits = [] then [] else '.' :: d.fractionDigits) := by
  unfold text
  dsimp only
  split
  case h_1 none => simp [none]
  case h_2 some => simp [String.toList_append, if_neg some]

/-- The numerals that a decimal is written as: the digits of its coefficient, at least one, with a
point before as many of them as there are places, or without a point if there are no places. -/
def IsWrittenAs (d : Decimal) (numeral : List Char) : Prop :=
  ∃ whole fraction : List Char,
    (numeral = whole ∧ fraction = [] ∨ numeral = whole ++ '.' :: fraction) ∧
      whole ++ fraction ≠ [] ∧ (∀ c ∈ whole ++ fraction, c.isDigit) ∧
      d = ⟨Nat.ofDigitChars 10 (whole ++ fraction) 0, fraction.length⟩

/-- A numeral falls into what stands before its first point and what stands behind it. -/
theorem eq_takeWhile_point (numeral : List Char) :
    numeral = numeral.takeWhile (· ≠ '.') ∧ (numeral.dropWhile (· ≠ '.')).drop 1 = [] ∨
      numeral = numeral.takeWhile (· ≠ '.') ++ '.' :: (numeral.dropWhile (· ≠ '.')).drop 1 := by
  have split := List.takeWhile_append_dropWhile (p := (· ≠ '.')) (l := numeral)
  cases behind : numeral.dropWhile (· ≠ '.') with
  | nil =>
    rw [behind, List.append_nil] at split
    exact .inl ⟨split.symm, rfl⟩
  | cons c fraction =>
    have some : numeral.dropWhile (· ≠ '.') ≠ [] := by
      rw [behind]
      nofun
    have point := List.head_dropWhile_not (· ≠ '.') some
    simp only [behind, List.head_cons, decide_eq_false_iff_not, not_not] at point
    subst point
    rw [behind] at split
    exact .inr split.symm

/-- A numeral denotes a decimal if and only if the decimal is written so. -/
theorem ofNumeral?_eq_some_iff {numeral : List Char} {d : Decimal} :
    ofNumeral? numeral = some d ↔ d.IsWrittenAs numeral := by
  constructor
  · intro h
    unfold ofNumeral? at h
    dsimp only at h
    split at h
    case isTrue digits =>
      obtain ⟨some, allDigits⟩ := digits
      obtain rfl := Option.some.inj h
      exact ⟨_, _, eq_takeWhile_point numeral, some, List.all_eq_true.1 allDigits, rfl⟩
    case isFalse => cases h
  · rintro ⟨whole, fraction, spelled, some, digits, rfl⟩
    have noPoint : '.' ∉ whole := by
      intro mem
      exact ne_point_of_isDigit (digits '.' (List.mem_append_left _ mem)) rfl
    have parts : wholePart numeral = whole ∧ fractionPart numeral = fraction := by
      rcases spelled with ⟨rfl, rfl⟩ | rfl
      · exact parts_of_no_point noPoint
      · exact parts_of_point noPoint fraction
    obtain ⟨before, behind⟩ := parts
    unfold wholePart at before
    unfold fractionPart at behind
    unfold ofNumeral?
    dsimp only
    rw [before, behind, if_pos ⟨some, List.all_eq_true.2 digits⟩]

/-- A numeral is made of digits and points. -/
theorem IsWrittenAs.isNumeric {d : Decimal} {numeral : List Char} (h : d.IsWrittenAs numeral) :
    ∀ c ∈ numeral, isNumeric c := by
  obtain ⟨whole, fraction, spelled, -, digits, -⟩ := h
  have numeric : ∀ c ∈ whole ++ fraction, RegisterCalc.isNumeric c := fun c mem => by
    simp [RegisterCalc.isNumeric, digits c mem]
  rcases spelled with ⟨rfl, rfl⟩ | rfl
  · simpa using numeric
  · obtain ⟨before, behind⟩ := List.forall_mem_append.1 numeric
    exact List.forall_mem_append.2 ⟨before, List.forall_mem_cons.2 ⟨rfl, behind⟩⟩

/-- A numeral of digits and, after a point, further digits denotes those digits as one number with
so many places. -/
theorem ofNumeral?_of_digits {whole fraction tail : List Char} (some : whole ≠ [])
    (wholeDigits : ∀ c ∈ whole, c.isDigit) (fractionDigits : ∀ c ∈ fraction, c.isDigit)
    (tails : tail = if fraction = [] then [] else '.' :: fraction) :
    ofNumeral? (whole ++ tail) =
      .some ⟨Nat.ofDigitChars 10 (whole ++ fraction) 0, fraction.length⟩ := by
  refine ofNumeral?_eq_some_iff.2 ⟨whole, fraction, ?_, by simp [some], ?_, rfl⟩
  · split at tails
    case isTrue none => simp [tails, none]
    case isFalse => simp [tails]
  · exact List.forall_mem_append.2 ⟨wholeDigits, fractionDigits⟩

/-- A whole part and the kept digits of a fraction have the value of the decimal they are from. -/
theorem mul_pow_of_kept {c places kept fraction : Nat} (shorter : kept ≤ places)
    (value : fraction * 10 ^ (places - kept) = c % 10 ^ places) :
    (10 ^ kept * (c / 10 ^ places) + fraction) * 10 ^ places = c * 10 ^ kept := by
  have power : 10 ^ places = 10 ^ kept * 10 ^ (places - kept) := by
    rw [← Nat.pow_add, Nat.add_sub_of_le shorter]
  calc (10 ^ kept * (c / 10 ^ places) + fraction) * 10 ^ places
      = 10 ^ kept * (10 ^ places * (c / 10 ^ places) + fraction * 10 ^ (places - kept)) := by
        rw [Nat.add_mul, Nat.mul_add, Nat.mul_right_comm, Nat.mul_assoc,
          Nat.mul_left_comm (10 ^ kept) fraction, ← power]
    _ = 10 ^ kept * c := by rw [value, Nat.div_add_mod]
    _ = c * 10 ^ kept := Nat.mul_comm ..

/-- The text of a decimal is a numeral of the same value. -/
theorem ofNumeral?_text (d : Decimal) : ∃ e, ofNumeral? d.text.toList = some e ∧
    e.coefficient * 10 ^ d.places = d.coefficient * 10 ^ e.places := by
  have whole : ∀ c ∈ Nat.toDigits 10 (d.coefficient / 10 ^ d.places), c.isDigit := fun _ =>
    isDigit_of_mem_toDigits
  have fraction : ∀ c ∈ d.fractionDigits, c.isDigit := fun _ => isDigit_of_mem_fractionDigits
  have read := ofNumeral?_of_digits Nat.toDigits_ne_nil whole fraction rfl
  refine ⟨_, (congrArg ofNumeral? d.toList_text).trans read, ?_⟩
  obtain ⟨shorter, value⟩ := ofDigitChars_fractionDigits d
  dsimp only
  rw [Nat.ofDigitChars_append, Nat.ofDigitChars_ten_toDigits,
    Nat.ofDigitChars_eq_ofDigitChars_zero]
  exact mul_pow_of_kept shorter value

/-- Each character of the text of a decimal is one of a numeral. -/
theorem isNumeric_of_mem_text {d : Decimal} {c : Char} (h : c ∈ d.text.toList) : isNumeric c := by
  have digit : ∀ c : Char, c.isDigit → isNumeric c := fun c h => by simp [isNumeric, h]
  rw [toList_text] at h
  rcases List.mem_append.1 h with whole | fraction
  · exact digit c (isDigit_of_mem_toDigits whole)
  · split at fraction
    · cases fraction
    · rcases List.mem_cons.1 fraction with rfl | fraction
      · rfl
      · exact digit c (isDigit_of_mem_fractionDigits fraction)

end Decimal

/-! ## Numbers -/

/-- The text of a finite number that is not negative is that of the decimal it is written as. -/
theorem numberText_of_finite {x : Float} (finite : Binary64.isFinite x)
    (positive : Binary64.isNegative x = false) :
    numberText x = (Binary64.shortest (Binary64.point x)).text := by
  have below : Binary64.point x < Binary64.infinity := of_decide_eq_true finite
  unfold numberText
  dsimp only
  rw [if_neg (by omega), if_neg below.ne, positive, if_neg (by decide)]
  rfl

/-- The text of a finite number that is not negative is a numeral of that number. -/
theorem readNumeral?_numberText {x : Float} (finite : Binary64.isFinite x)
    (positive : Binary64.isNegative x = false) :
    readNumeral? (numberText x).toList = some x := by
  have below : Binary64.point x < Binary64.infinity := of_decide_eq_true finite
  obtain ⟨e, read, value⟩ := Decimal.ofNumeral?_text (Binary64.shortest (Binary64.point x))
  have back : Binary64.nearestPoint e.coefficient (10 ^ e.places) = Binary64.point x := by
    rw [Binary64.nearestPoint_congr (Nat.pow_pos (by decide)) (Nat.pow_pos (by decide)) value]
    exact of_decide_eq_true (Binary64.readsBack_shortest below)
  have nearest : e.nearest = x := by
    rw [Decimal.nearest, Binary64.nearest, back, ← positive, Binary64.ofPoint_point]
  unfold readNumeral?
  rw [numberText_of_finite finite positive, read]
  dsimp only
  rw [nearest, if_pos finite]

/-- The value of a numeral is the double nearest to the decimal that is written so, which must be
finite. -/
theorem readNumeral?_eq_some_iff {numeral : List Char} {x : Float} :
    readNumeral? numeral = some x ↔
      ∃ d : Decimal, d.IsWrittenAs numeral ∧ Binary64.isFinite d.nearest ∧ d.nearest = x := by
  unfold readNumeral?
  constructor
  · intro h
    split at h
    case h_1 => cases h
    case h_2 d denoted =>
      split at h
      case isTrue finite =>
        exact ⟨d, Decimal.ofNumeral?_eq_some_iff.1 denoted, finite, Option.some.inj h⟩
      case isFalse => cases h
  · rintro ⟨d, written, finite, rfl⟩
    rw [Decimal.ofNumeral?_eq_some_iff.2 written]
    exact if_pos finite

/-- The value of a numeral is finite and not negative. -/
theorem isFinite_of_readNumeral? {numeral : List Char} {x : Float}
    (h : readNumeral? numeral = some x) :
    Binary64.isFinite x ∧ Binary64.isNegative x = false := by
  obtain ⟨d, -, finite, rfl⟩ := readNumeral?_eq_some_iff.1 h
  exact ⟨finite, Binary64.isNegative_ofPoint false (Nat.min_le_right _ _)⟩

end RegisterCalc
