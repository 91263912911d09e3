import RegisterCalc.Proofs.Number.NearestEven
import RegisterCalc.Proofs.Token.Lexing

/-!
# The numbers among the numerals

A run of digits and points is a number if it has a digit, one point at most, and a value that is not
too large (`IsNumber`). What is read is judged by the parts before and behind the first point: they
make up a decimal if they hold all of the run but for one point (`ofNumeral?_eq`), and the decimal
has the value of the run (`value_partsDecimal`). So a run is read if and only if it is a number, as
the double that its value is rounded to (`readNumeral?_iff_isNumber`), and numerals of one value are
read as one double (`readNumeral?_congr`), whatever zeros they are written with.

`tokenize_numeral` says this of every run of digits and points that a text is cut up to.
-/

namespace RegisterCalc

/-! ## The value of a numeral -/

/-- The exact value of a numeral. -/
def numeralValue (run : List Char) : ℚ :=
  Nat.ofDigitChars 10 (wholePart run) 0 +
    Nat.ofDigitChars 10 (fractionPart run) 0 / 10 ^ (fractionPart run).length

/-- Whether a run of digits and points is a number: there is a digit, there is one point at most,
and the value is nearer to a finite double than to what would follow the last one. -/
structure IsNumber (run : List Char) : Prop where
  digit : ∃ c ∈ run, c.isDigit
  point : run.count '.' ≤ 1
  small : numeralValue run < 2 ^ 1024 - 2 ^ 970

section
variable {run : List Char}

/-- No point stands before the first point. -/
theorem ne_point_of_mem_wholePart {c : Char} (h : c ∈ wholePart run) : c ≠ '.' := by
  simpa using List.mem_takeWhile_imp h

/-- A run has no point, or one that divides it. -/
theorem exists_parts (run : List Char) : '.' ∉ run ∨
    ∃ whole fraction, '.' ∉ whole ∧ run = whole ++ '.' :: fraction := by
  by_cases point : '.' ∈ run
  · obtain ⟨whole, fraction, rfl, noPoint⟩ := List.eq_append_cons_of_mem point
    exact .inr ⟨whole, fraction, noPoint, rfl⟩
  · exact .inl point

/-- A run has one point at most if and only if there is none behind the first. -/
theorem count_point_le_one_iff (run : List Char) :
    run.count '.' ≤ 1 ↔ '.' ∉ fractionPart run := by
  rcases exists_parts run with noPoint | ⟨whole, fraction, noPoint, rfl⟩
  · rw [(parts_of_no_point noPoint).2, List.count_eq_zero.2 noPoint]
    simp
  · rw [(parts_of_point noPoint fraction).2, List.count_append, List.count_cons_self,
      List.count_eq_zero.2 noPoint, ← List.count_eq_zero]
    omega

/-- The parts of a run have all its characters but for a point. -/
theorem mem_parts_iff {c : Char} (notPoint : c ≠ '.') :
    c ∈ wholePart run ++ fractionPart run ↔ c ∈ run := by
  rcases exists_parts run with noPoint | ⟨whole, fraction, noPoint, rfl⟩
  · obtain ⟨whole, fraction⟩ := parts_of_no_point noPoint
    rw [whole, fraction, List.append_nil]
  · obtain ⟨whole, fraction⟩ := parts_of_point noPoint fraction
    rw [whole, fraction]
    simp [notPoint]

end

/-! ## The nearest double to a decimal -/

namespace Decimal

/-- The number that a decimal is. -/
def value (d : Decimal) : ℚ := d.coefficient / (10 ^ d.places : Nat)

/-- The double nearest to a decimal is finite if and only if the decimal is below the middle between
the last finite double and what would follow it. -/
theorem isFinite_nearest_iff (d : Decimal) :
    Binary64.isFinite d.nearest ↔ d.value < 2 ^ 1024 - 2 ^ 970 := by
  have pos : 0 < 10 ^ d.places := Nat.pow_pos (by decide)
  have atMost : Binary64.nearestPoint d.coefficient (10 ^ d.places) ≤ Binary64.infinity :=
    Nat.min_le_right _ _
  rw [value, ← Binary64.nearestPoint_lt_infinity_iff d.coefficient pos, nearest,
    Binary64.nearest, Binary64.isFinite, Binary64.point_ofPoint false atMost, decide_eq_true_iff]

/-- A decimal whose nearest double is finite is rounded to that double and no other. -/
theorem roundsTo_value_iff {d : Decimal} (finite : Binary64.isFinite d.nearest) (x : Float) :
    Binary64.RoundsTo d.value x ↔ x = d.nearest := by
  have pos : 0 < 10 ^ d.places := Nat.pow_pos (by decide)
  have notNegative : 0 ≤ d.value := div_nonneg (Nat.cast_nonneg _) (Nat.cast_nonneg _)
  obtain ⟨n, same, nearestEven⟩ := Binary64.exists_isNearestEven_magnitude d.coefficient pos
  have below := (Binary64.nearestPoint_lt_infinity_iff d.coefficient pos).2
    (d.isFinite_nearest_iff.1 finite)
  rw [same, min_lt_iff, or_iff_left (lt_irrefl _)] at below
  -- The nearest point is a finite one, so infinity does not take its place.
  rw [nearest, Binary64.nearest, same, min_eq_left below.le]
  exact Binary64.roundsTo_iff notNegative below nearestEven x

end Decimal

/-! ## Numbers -/

section
variable {run run' : List Char}

/-- The decimal that the parts of a run make up. -/
def partsDecimal (run : List Char) : Decimal :=
  ⟨Nat.ofDigitChars 10 (wholePart run ++ fractionPart run) 0, (fractionPart run).length⟩

/-- The decimal of the parts has the value of the numeral. -/
theorem value_partsDecimal (run : List Char) : (partsDecimal run).value = numeralValue run := by
  have power : (10 ^ (fractionPart run).length : ℚ) ≠ 0 := pow_ne_zero _ (by norm_num)
  have digits : Nat.ofDigitChars 10 (wholePart run ++ fractionPart run) 0 =
      10 ^ (fractionPart run).length * Nat.ofDigitChars 10 (wholePart run) 0 +
        Nat.ofDigitChars 10 (fractionPart run) 0 := by
    rw [Nat.ofDigitChars_append]
    exact Nat.ofDigitChars_eq_ofDigitChars_zero
  unfold numeralValue partsDecimal Decimal.value
  rw [digits]
  push_cast
  rw [add_div, mul_div_cancel_left₀ _ power]

/-- The parts of a run of digits and points are digits, at least one, if and only if the run has a
digit and one point at most. -/
theorem areDigits_parts_iff (numeric : ∀ c ∈ run, isNumeric c) :
    (wholePart run ++ fractionPart run ≠ [] ∧
      ∀ c ∈ wholePart run ++ fractionPart run, c.isDigit) ↔
        (∃ c ∈ run, c.isDigit) ∧ run.count '.' ≤ 1 := by
  rw [count_point_le_one_iff]
  constructor
  · rintro ⟨some, digits⟩
    obtain ⟨c, mem⟩ := List.exists_mem_of_ne_nil _ some
    have digit := digits c mem
    refine ⟨⟨c, (mem_parts_iff (ne_point_of_isDigit digit)).1 mem, digit⟩, fun point => ?_⟩
    exact ne_point_of_isDigit (digits '.' (List.mem_append_right _ point)) rfl
  · rintro ⟨⟨c, mem, digit⟩, noPoint⟩
    refine ⟨List.ne_nil_of_mem ((mem_parts_iff (ne_point_of_isDigit digit)).2 mem), ?_⟩
    intro d mem
    -- The point that divides the run is in neither part.
    have notPoint : d ≠ '.' := by
      rintro rfl
      rcases List.mem_append.1 mem with before | behind
      · exact ne_point_of_mem_wholePart before rfl
      · exact noPoint behind
    have digitOrPoint := numeric d ((mem_parts_iff notPoint).1 mem)
    simpa [isNumeric, notPoint] using digitOrPoint

/-- A run of digits and points denotes a decimal if and only if there is a digit and one point at
most; then it is that of the parts. -/
theorem ofNumeral?_eq (numeric : ∀ c ∈ run, isNumeric c) : Decimal.ofNumeral? run =
    if (∃ c ∈ run, c.isDigit) ∧ run.count '.' ≤ 1 then some (partsDecimal run) else none := by
  refine if_congr ?_ rfl rfl
  rw [← areDigits_parts_iff numeric, List.all_eq_true]
  rfl

/-- A run of digits and points is read if and only if it is a number, as the double that its value
is rounded to. -/
theorem readNumeral?_iff_isNumber (numeric : ∀ c ∈ run, isNumeric c) :
    (IsNumber run → ∃ x, readNumeral? run = some x ∧
      ∀ y, Binary64.RoundsTo (numeralValue run) y ↔ y = x) ∧
    (¬IsNumber run → readNumeral? run = none) := by
  have finite := (partsDecimal run).isFinite_nearest_iff
  rw [value_partsDecimal] at finite
  unfold readNumeral?
  rw [ofNumeral?_eq numeric]
  constructor
  · rintro ⟨digit, point, small⟩
    rw [if_pos ⟨digit, point⟩, ← value_partsDecimal]
    dsimp only
    rw [if_pos (finite.2 small)]
    exact ⟨_, rfl, Decimal.roundsTo_value_iff (finite.2 small)⟩
  · intro noNumber
    by_cases wellFormed : (∃ c ∈ run, c.isDigit) ∧ run.count '.' ≤ 1
    · rw [if_pos wellFormed]
      exact if_neg fun isFinite => noNumber ⟨wellFormed.1, wellFormed.2, finite.1 isFinite⟩
    · rw [if_neg wellFormed]

/-- Numerals of the same value are read as the same double if both are numbers or none is. -/
theorem readNumeral?_congr (numeric : ∀ c ∈ run, isNumeric c) (numeric' : ∀ c ∈ run', isNumeric c)
    (digit : (∃ c ∈ run', c.isDigit) ↔ ∃ c ∈ run, c.isDigit)
    (point : run'.count '.' ≤ 1 ↔ run.count '.' ≤ 1)
    (value : numeralValue run' = numeralValue run) : readNumeral? run' = readNumeral? run := by
  obtain ⟨read, refused⟩ := readNumeral?_iff_isNumber numeric
  obtain ⟨read', refused'⟩ := readNumeral?_iff_isNumber numeric'
  by_cases number : IsNumber run
  · obtain ⟨x, value_x, rounded⟩ := read number
    obtain ⟨x', value_x', rounded'⟩ := read'
      ⟨digit.2 number.digit, point.2 number.point, value ▸ number.small⟩
    rw [value] at rounded'
    rw [value_x, value_x', (rounded x').1 ((rounded' x').2 rfl)]
  · rw [refused number, refused' fun number' => number
      ⟨digit.1 number'.digit, point.1 number'.point, value ▸ number'.small⟩]

end

/-! ## Zeros and points that do not count -/

/-- Zeros before a numeral do not change its value. -/
theorem numeralValue_leadingZeros (n : Nat) (run : List Char) :
    numeralValue (List.replicate n '0' ++ run) = numeralValue run := by
  have zeros : ∀ c ∈ List.replicate n '0', decide (c ≠ '.') = true := by
    intro c mem
    rw [List.eq_of_mem_replicate mem]
    rfl
  have whole : wholePart (List.replicate n '0' ++ run) = List.replicate n '0' ++ wholePart run :=
    List.takeWhile_append_of_pos zeros
  have fraction : fractionPart (List.replicate n '0' ++ run) = fractionPart run := by
    rw [fractionPart, List.dropWhile_append_of_pos zeros, fractionPart]
  unfold numeralValue
  rw [whole, fraction, Nat.ofDigitChars_append, Nat.ofDigitChars_replicate_zero, Nat.mul_zero]

/-- Zeros behind the fraction do not change the value of a numeral. -/
theorem numeralValue_fractionZeros (n : Nat) {run : List Char} (point : '.' ∈ run) :
    numeralValue (run ++ List.replicate n '0') = numeralValue run := by
  obtain ⟨whole, fraction, rfl, noPoint⟩ := List.eq_append_cons_of_mem point
  have power : (10 ^ n : ℚ) ≠ 0 := pow_ne_zero _ (by norm_num)
  obtain ⟨before, behind⟩ := parts_of_point noPoint fraction
  obtain ⟨before', behind'⟩ := parts_of_point noPoint (fraction ++ List.replicate n '0')
  unfold numeralValue
  rw [List.append_assoc, List.cons_append, before, behind, before', behind',
    Nat.ofDigitChars_append, Nat.ofDigitChars_replicate_zero, List.length_append,
    List.length_replicate, pow_add, Nat.cast_mul, Nat.cast_pow, Nat.cast_ofNat,
    mul_comm (10 ^ n : ℚ), mul_div_mul_right _ _ power]

/-- A point behind a whole number does not change its value. -/
theorem numeralValue_endingPoint {run : List Char} (noPoint : '.' ∉ run) :
    numeralValue (run ++ ['.']) = numeralValue run := by
  obtain ⟨before, behind⟩ := parts_of_no_point noPoint
  obtain ⟨before', behind'⟩ := parts_of_point noPoint []
  unfold numeralValue
  rw [before, behind, before', behind']

/-- Zeros before a numeral, zeros behind its fraction and a point behind a whole number do not
change what is read. -/
theorem readNumeral?_zeros {run : List Char} (numeric : ∀ c ∈ run, isNumeric c)
    (digit : ∃ c ∈ run, c.isDigit) (n : Nat) :
    readNumeral? (List.replicate n '0' ++ run) = readNumeral? run ∧
    ('.' ∈ run → readNumeral? (run ++ List.replicate n '0') = readNumeral? run) ∧
    ('.' ∉ run → readNumeral? (run ++ ['.']) = readNumeral? run) := by
  have zeros : ∀ c ∈ List.replicate n '0', isNumeric c := by
    intro c mem
    rw [List.eq_of_mem_replicate mem]
    rfl
  have noPoints : (List.replicate n '0').count '.' = 0 := by
    simp [List.count_replicate]
  obtain ⟨c, mem, isDigit⟩ := digit
  refine ⟨?_, fun point => ?_, fun noPoint => ?_⟩
  · refine readNumeral?_congr numeric (List.forall_mem_append.2 ⟨zeros, numeric⟩)
      (iff_of_true ⟨c, List.mem_append_right _ mem, isDigit⟩ ⟨c, mem, isDigit⟩) ?_
      (numeralValue_leadingZeros n run)
    rw [List.count_append, noPoints, Nat.zero_add]
  · refine readNumeral?_congr numeric (List.forall_mem_append.2 ⟨numeric, zeros⟩)
      (iff_of_true ⟨c, List.mem_append_left _ mem, isDigit⟩ ⟨c, mem, isDigit⟩) ?_
      (numeralValue_fractionZeros n point)
    rw [List.count_append, noPoints, Nat.add_zero]
  · refine readNumeral?_congr numeric
      (List.forall_mem_append.2 ⟨numeric, List.forall_mem_singleton.2 rfl⟩)
      (iff_of_true ⟨c, List.mem_append_left _ mem, isDigit⟩ ⟨c, mem, isDigit⟩) ?_
      (numeralValue_endingPoint noPoint)
    rw [List.count_append, List.count_eq_zero.2 noPoint, List.count_singleton_self]
    simp

/-! ## Numerals in a text -/

/-- Where a text has been cut up to a run of digits and points that goes on no further, the run is
cut off as one number if there is a digit, one point at most, and a value that is not too large;
the number is the only double that the value is rounded to. Otherwise the whole run is the fault of
the text. Zeros before the run, zeros behind its fraction and a point behind a whole number do not
change what is read. -/
theorem tokenize_numeral {text : String} {tokens : List Token} {offset : Offset}
    {run after : List Char} (reached : Lexes 0 text.toList tokens offset (run ++ after))
    (notEmpty : run ≠ []) (numeric : ∀ c ∈ run, isNumeric c)
    (ends : ∀ c ∈ after.head?, isNumeric c = false) :
    (IsNumber run → ∃ x, readNumeral? run = some x ∧
      (∀ y, Binary64.RoundsTo (numeralValue run) y ↔ y = x) ∧
      Lexes 0 text.toList (tokens ++ [⟨.number (some (String.ofList run)) (some x), offset⟩])
        (offset + run.length) after) ∧
    (¬IsNumber run → readNumeral? run = none ∧
      tokenize text = .error (.invalidNumber (String.ofList run) offset)) ∧
    ((∃ c ∈ run, c.isDigit) → ∀ n,
      readNumeral? (List.replicate n '0' ++ run) = readNumeral? run ∧
      ('.' ∈ run → readNumeral? (run ++ List.replicate n '0') = readNumeral? run) ∧
      ('.' ∉ run → readNumeral? (run ++ ['.']) = readNumeral? run)) := by
  obtain ⟨read, refused⟩ := readNumeral?_iff_isNumber numeric
  obtain ⟨c, more, rfl⟩ := List.exists_cons_of_ne_nil notEmpty
  obtain ⟨first, others⟩ := List.forall_mem_cons.1 numeric
  have whole : reach c (more ++ after) = more.length := by
    unfold reach
    rw [if_pos first]
    exact length_takeWhile_append others ends
  refine ⟨fun number => ?_, fun noNumber => ?_, readNumeral?_zeros numeric⟩
  · obtain ⟨x, value, rounded⟩ := read number
    have spelled : Lexeme.ofSpelling c more offset =
        .ok (.number (some (String.ofList (c :: more))) (some x)) := by
      unfold Lexeme.ofSpelling
      simp only [if_pos first, value]
    have cut := reached.trans (.lexeme (isSpacing_of_isNumeric first) whole spelled)
    rw [Nat.add_assoc, Nat.add_comm 1] at cut
    exact ⟨x, value, rounded, cut⟩
  · have spelled : Lexeme.ofSpelling c more offset =
        .error (.invalidNumber (String.ofList (c :: more)) offset) := by
      unfold Lexeme.ofSpelling
      simp only [if_pos first, refused noNumber]
    refine ⟨refused noNumber, ?_⟩
    rw [tokenize, reached, List.cons_append,
      tokenizeFrom_of_fault (isSpacing_of_isNumeric first) whole spelled]
    rfl

/-- The numeral `.50` of `#1.50`, which is half, and the run `..5` of `#1..5`, which is none. -/
theorem tokenize_numeral_half :
    (∀ y, Binary64.RoundsTo (1 / 2) y ↔ y = 0.5) ∧
    tokenize "#1.50" = .ok [⟨.register (some "1"), 0⟩,
      ⟨.number (some ".50") (some 0.5), 2⟩, ⟨.endOfInput, 5⟩] ∧
    ¬IsNumber ['.', '.', '5'] ∧ tokenize "#1..5" = .error (.invalidNumber "..5" 2) := by
  have one {after : List Char} (ends : reach '#' (['1'] ++ after) = 1) :
      Lexes 0 ('#' :: (['1'] ++ after)) [⟨.register (some "1"), 0⟩] 2 after :=
    .lexeme rfl ends rfl
  have half : Lexes 0 "#1.50".toList [⟨.register (some "1"), 0⟩] 2 (['.', '5', '0'] ++ []) :=
    one rfl
  have pointed : Lexes 0 "#1..5".toList [⟨.register (some "1"), 0⟩] 2 (['.', '.', '5'] ++ []) :=
    one rfl
  have value : numeralValue ['.', '5', '0'] = 1 / 2 := by
    have whole : wholePart ['.', '5', '0'] = [] := rfl
    have fraction : fractionPart ['.', '5', '0'] = ['5', '0'] := rfl
    have none : Nat.ofDigitChars 10 [] 0 = 0 := rfl
    have fifty : Nat.ofDigitChars 10 ['5', '0'] 0 = 50 := rfl
    rw [numeralValue, whole, fraction, none, fifty]
    norm_num
  have number : IsNumber ['.', '5', '0'] := by
    refine ⟨⟨'5', by simp, rfl⟩, by simp, ?_⟩
    have least : (1 : ℚ) ≤ 2 ^ 970 := one_le_pow₀ (by norm_num)
    have power : (2 : ℚ) ^ 1024 = 2 ^ 54 * 2 ^ 970 := pow_add 2 54 970
    rw [value, power]
    generalize (2 : ℚ) ^ 970 = unit at least
    linarith
  have noNumber : ¬IsNumber ['.', '.', '5'] := by
    intro number
    have point := number.point
    simp at point
  have read : tokenize "#1.50" = .ok [⟨.register (some "1"), 0⟩,
      ⟨.number (some ".50") (some 0.5), 2⟩, ⟨.endOfInput, 5⟩] :=
    eq_ok_of_toOption (by decide +kernel)
  obtain ⟨x, -, rounded, cut⟩ :=
    (tokenize_numeral half (by simp) (List.all_eq_true.1 rfl) nofun).1 number
  have same := read.symm.trans cut.tokenizeFrom_eq
  obtain rfl : x = 0.5 := by
    simpa using same.symm
  rw [value] at rounded
  exact ⟨rounded, read, noNumber,
    ((tokenize_numeral pointed (by simp) (List.all_eq_true.1 rfl) nofun).2.1 noNumber).2⟩

end RegisterCalc
