import RegisterCalc.Proofs.Token.Lexing
import RegisterCalc.Proofs.Tree.Literals
import RegisterCalc.Terminal.Outline

/-!
# Labels tell nodes apart

A number is read back from its text (`numberOfText?_numberText`), so different numbers have
different texts, also zero and negative zero. The label of a node tells its kind by the first
character, and the rest names its operator, register, function or number: nodes with the same label
differ in their parts and their positions only (`Expr.sameNode_of_label`). A label has no control
characters if the function in it is named by letters (`Expr.isClean_label`).
-/

namespace RegisterCalc

/-! ## Numbers from their texts -/

/-- The number without a sign that is shown by a text. -/
def magnitudeOfText? (text : List Char) : Option Float :=
  if text = ['i', 'n', 'f'] then some (Binary64.ofPoint false Binary64.infinity)
  else readNumeral? text

/-- The number that is shown by a text. -/
def numberOfText? (text : List Char) : Option Float :=
  if text = ['N', 'a', 'N'] then some (Binary64.ofPoint false (Binary64.infinity + 1))
  else if text.head? = some '-' then (magnitudeOfText? text.tail).map (-·)
  else magnitudeOfText? text

/-- The text of a number is that of what is not a number, or the sign that a negative number has
before the text of its magnitude: a word for infinity, else a numeral. -/
theorem numberText_cases (x : Float) :
    (x.isNaN ∧ (numberText x).toList = ['N', 'a', 'N']) ∨
    Binary64.point x ≤ Binary64.infinity ∧ ∃ magnitude, (numberText x).toList =
        (if Binary64.isNegative x then ['-'] else []) ++ magnitude ∧
      magnitudeOfText? magnitude = some (Binary64.ofPoint false (Binary64.point x)) ∧
      (magnitude = ['i', 'n', 'f'] ∨
        ∃ c more, magnitude = c :: more ∧ isNumeric c ∧ ∀ c ∈ more, isNumeric c) := by
  rcases Nat.lt_trichotomy (Binary64.point x) Binary64.infinity with finite | infinite | past
  · right
    obtain ⟨finite', positive⟩ := Expr.isPlain_ofPoint finite
    obtain ⟨c, more, spelled, first, others⟩ := toList_numberText finite' positive
    refine ⟨finite.le, (numberText (Binary64.ofPoint false (Binary64.point x))).toList, ?_, ?_,
      .inr ⟨c, more, spelled, first, others⟩⟩
    · cases negative : Binary64.isNegative x with
      | true =>
        rw [Expr.numberText_of_negative finite negative, String.toList_append]
        rfl
      | false =>
        rw [← negative, Binary64.ofPoint_point, negative]
        rfl
    · have notWord : c :: more ≠ ['i', 'n', 'f'] := by
        rintro ⟨rfl, -⟩
        exact absurd first (by decide)
      rw [magnitudeOfText?, spelled, if_neg notWord, ← spelled,
        readNumeral?_numberText finite' positive]
  · right
    refine ⟨infinite.le, ['i', 'n', 'f'], ?_, ?_, .inl rfl⟩
    · unfold numberText
      dsimp only
      rw [if_neg (by omega), if_pos infinite, String.toList_append]
      cases Binary64.isNegative x <;> rfl
    · rw [infinite]
      rfl
  · left
    refine ⟨(Binary64.isNaN_iff x).2 past, ?_⟩
    unfold numberText
    dsimp only
    rw [if_pos past]
    rfl

/-- A number is read back from its text. -/
theorem numberOfText?_numberText (x : Float) : numberOfText? (numberText x).toList = some x := by
  rcases numberText_cases x with ⟨notANumber, text⟩ | ⟨within, magnitude, text, read, shape⟩
  · have past : Binary64.infinity <
        Binary64.point (Binary64.ofPoint false (Binary64.infinity + 1)) := by decide +kernel
    rw [text, Binary64.eq_of_infinity_lt ((Binary64.isNaN_iff x).1 notANumber) past]
    rfl
  · have unsigned : magnitude ≠ ['N', 'a', 'N'] ∧ magnitude.head? ≠ some '-' := by
      rcases shape with rfl | ⟨c, more, rfl, numeric, -⟩
      · decide
      · constructor <;> rintro ⟨rfl, -⟩ <;> exact absurd numeric (by decide)
    have signed := Binary64.ofPoint_point x
    rw [text, numberOfText?]
    cases negative : Binary64.isNegative x with
    | true =>
      rw [negative] at signed
      simp only [if_true, List.singleton_append]
      rw [if_neg (by nofun), if_pos List.head?_cons, List.tail_cons, read, Option.map_some,
        Binary64.neg_ofPoint false within, Bool.not_false, signed]
    | false =>
      rw [negative] at signed
      simp only [Bool.false_eq_true, if_false, List.nil_append]
      rw [if_neg unsigned.1, if_neg unsigned.2, read, signed]

/-- Numbers with the same text are the same. -/
theorem numberText_inj {x y : Float} (same : numberText x = numberText y) : x = y := by
  have read := numberOfText?_numberText x
  rw [same, numberOfText?_numberText] at read
  exact (Option.some.inj read).symm

/-- The text of a number has the characters of numerals, the sign and the letters of two words. -/
theorem isNumeric_of_mem_numberText {x : Float} {c : Char} (mem : c ∈ (numberText x).toList) :
    isNumeric c ∨ c ∈ ['-', 'N', 'a', 'i', 'n', 'f'] := by
  rcases numberText_cases x with ⟨-, text⟩ | ⟨-, magnitude, text, -, shape⟩
  · have letters : ['N', 'a', 'N'] ⊆ ['-', 'N', 'a', 'i', 'n', 'f'] := by decide +kernel
    exact .inr (letters (text ▸ mem))
  · rw [text] at mem
    rcases List.mem_append.1 mem with sign | mem
    · split at sign
      · exact .inr (List.mem_cons.2 (.inl (List.mem_singleton.1 sign)))
      · cases sign
    · rcases shape with rfl | ⟨first, more, rfl, numeric, others⟩
      · have letters : ['i', 'n', 'f'] ⊆ ['-', 'N', 'a', 'i', 'n', 'f'] := by decide +kernel
        exact .inr (letters mem)
      · have all : ∀ c ∈ first :: more, isNumeric c := List.forall_mem_cons.2 ⟨numeric, others⟩
        exact .inl (all c mem)

/-! ## Labels -/

/-- Registers that are written alike are the same. -/
theorem RegisterId.text_inj {id id' : RegisterId} (same : id.text = id'.text) : id = id' := by
  have digits : Nat.repr id.toNat = Nat.repr id'.toNat := by
    simpa only [text, String.append_right_inj] using same
  have read := RegisterId.ofText?_repr id
  rw [digits, RegisterId.ofText?_repr] at read
  exact (Option.some.inj read).symm

/-- Symbols that are spelled alike are the same. -/
theorem Symbol.spelling_inj {symbol symbol' : Symbol}
    (same : symbol.spelling = symbol'.spelling) : symbol = symbol' := by
  have read := symbol.ofSpelling?_spelling
  rw [same, Symbol.ofSpelling?_spelling] at read
  exact (Option.some.inj read).symm

namespace Expr

/-- Two nodes are of a kind and have the same operator, register, function or number. -/
inductive SameNode : Expr → Expr → Prop where
  | number (value : Float) (p q : Offset) : SameNode (number value p) (number value q)
  | register (id : RegisterId) (p q : Offset) : SameNode (register id p) (register id q)
  | unary (op : PrefixOp) (operand operand' : Expr) (p q : Offset) :
      SameNode (unary op operand p) (unary op operand' q)
  | binary (op : BinaryOp) (left left' right right' : Expr) (p q : Offset) :
      SameNode (binary op left right p) (binary op left' right' q)
  | call (name : String) (argument argument' : Expr) (p q : Offset) :
      SameNode (call name argument p) (call name argument' q)
  | assign (target : RegisterId) (value value' : Expr) (p q : Offset) :
      SameNode (assign target value p) (assign target value' q)

/-- The first character of the label of a node, and `none` for a number, whose label may begin with
several. -/
def initial? : Expr → Option Char
  | number _ _ => none
  | register _ _ => some '#'
  | unary _ _ _ => some 'U'
  | binary _ _ _ _ => some 'B'
  | call _ _ _ => some 'F'
  | assign _ _ _ => some 'A'

/-- The label of a node tells its kind by the first character. -/
theorem head?_label (t : Expr) :
    (t.label false).toList.head?.filter (· ∈ ['#', 'U', 'B', 'F', 'A']) = t.initial? := by
  cases t with
  | number value offset =>
    refine Option.filter_eq_none_iff.2 fun c first => ?_
    have mem : c ∈ (numberText value).toList := List.mem_of_head? first
    rcases isNumeric_of_mem_numberText mem with numeric | word
    · rw [decide_eq_true_eq]
      intro mark
      have other : ∀ c ∈ ['#', 'U', 'B', 'F', 'A'], isNumeric c = false := by
        simp [isNumeric]
      rw [other c mark] at numeric
      cases numeric
    · have other : ∀ c ∈ ['-', 'N', 'a', 'i', 'n', 'f'], c ∉ ['#', 'U', 'B', 'F', 'A'] := by
        simp
      rw [decide_eq_true_eq]
      exact other c word
  | register | unary | binary | call | assign =>
    simp only [label, paint_false, RegisterId.text, String.toList_append]
    rfl

/-- Nodes with the same label differ in their parts and their positions only. -/
theorem sameNode_of_label {t u : Expr} (same : t.label false = u.label false) : SameNode t u := by
  have initial : t.initial? = u.initial? := by rw [← head?_label, ← head?_label, same]
  cases t with
  | number x p =>
    cases u with
    | number y q =>
      obtain rfl := numberText_inj same
      exact .number x p q
    | _ => cases initial
  | register id p =>
    cases u with
    | register id' q =>
      obtain rfl := RegisterId.text_inj same
      exact .register id p q
    | _ => cases initial
  | unary op operand p =>
    cases u with
    | unary op' operand' q =>
      simp only [label, paint_false, String.append_left_inj, String.append_right_inj] at same
      obtain rfl := PrefixOp.symbol_inj (Symbol.spelling_inj same)
      exact .unary op operand operand' p q
    | _ => cases initial
  | binary op left right p =>
    cases u with
    | binary op' left' right' q =>
      simp only [label, paint_false, String.append_left_inj, String.append_right_inj] at same
      obtain rfl := BinaryOp.symbol_inj (Symbol.spelling_inj same)
      exact .binary op left left' right right' p q
    | _ => cases initial
  | call name argument p =>
    cases u with
    | call name' argument' q =>
      simp only [label, paint_false, String.append_left_inj, String.append_right_inj] at same
      obtain rfl := same
      exact .call name argument argument' p q
    | _ => cases initial
  | assign target value p =>
    cases u with
    | assign target' value' q =>
      simp only [label, paint_false, String.append_left_inj, String.append_right_inj] at same
      obtain rfl := RegisterId.text_inj same
      exact .assign target value value' p q
    | _ => cases initial

/-- Whether all calls of a tree are under names of letters. -/
def hasLetterNames : Expr → Bool
  | number _ _ | register _ _ => true
  | unary _ operand _ => operand.hasLetterNames
  | binary _ left right _ => left.hasLetterNames && right.hasLetterNames
  | call name argument _ => name.toList.all Char.isAlpha && argument.hasLetterNames
  | assign _ value _ => value.hasLetterNames

/-- The parts of a tree have names of letters if the tree has. -/
theorem hasLetterNames_of_mem_children {t u : Expr} (named : t.hasLetterNames)
    (mem : u ∈ t.children) : u.hasLetterNames := by
  cases t with
  | number | register => cases mem
  | unary | assign =>
    obtain rfl := List.mem_singleton.1 mem
    exact named
  | binary op left right offset =>
    obtain ⟨namedLeft, namedRight⟩ := Bool.and_eq_true_iff.1 named
    rcases List.mem_pair.1 mem with rfl | rfl
    · exact namedLeft
    · exact namedRight
  | call =>
    obtain rfl := List.mem_singleton.1 mem
    exact (Bool.and_eq_true_iff.1 named).2

/-- The calls of a tree have names of letters if they are of functions. -/
theorem hasLetterNames_of_callsFunctions {t : Expr} (known : t.callsFunctions) :
    t.hasLetterNames := by
  induction t with
  | number | register => rfl
  | unary op operand offset ih | assign target operand offset ih => exact ih known
  | binary op left right offset ihl ihr =>
    obtain ⟨knownLeft, knownRight⟩ := Bool.and_eq_true_iff.1 known
    exact Bool.and_eq_true_iff.2 ⟨ihl knownLeft, ihr knownRight⟩
  | call name argument offset ih =>
    obtain ⟨isFunction, known⟩ := Bool.and_eq_true_iff.1 known
    refine Bool.and_eq_true_iff.2 ⟨?_, ih known⟩
    obtain ⟨function, found⟩ := Option.isSome_iff_exists.1 isFunction
    have found : Function.ofName? ((some name).getD "") = some function := found
    obtain rfl := Option.some.inj (Function.eq_name_of_ofName? found)
    cases function <;> decide +kernel

end Expr

/-! ## Characters of labels -/

namespace Text

/-- Whether a text has no control characters. -/
def isClean (text : String) : Bool := text.toList.all fun c => decide (' ' ≤ c)

/-- No character of a clean text is below the space. -/
theorem isClean_iff {text : String} : isClean text ↔ ∀ c ∈ text.toList, ' ' ≤ c := by
  simp only [isClean, List.all_eq_true, decide_eq_true_eq]

/-- Two clean texts make one. -/
theorem isClean_append {s t : String} (first : isClean s) (second : isClean t) :
    isClean (s ++ t) := by
  rw [isClean, String.toList_append, List.all_append]
  exact Bool.and_eq_true_iff.2 ⟨first, second⟩

/-- Letters are no control characters. -/
theorem space_le_of_isAlpha {c : Char} (letter : c.isAlpha) : ' ' ≤ c := by
  simp only [Char.isAlpha, Char.isUpper, Char.isLower, Bool.or_eq_true, Bool.and_eq_true,
    decide_eq_true_eq] at letter
  rcases letter with ⟨upper, -⟩ | ⟨lower, -⟩
  · exact UInt32.le_trans (by decide) upper
  · exact UInt32.le_trans (by decide) lower

/-- Digits and the point are no control characters. -/
theorem space_le_of_isNumeric {c : Char} (numeric : isNumeric c) : ' ' ≤ c := by
  simp only [isNumeric, Char.isDigit, Bool.or_eq_true, Bool.and_eq_true, decide_eq_true_eq]
    at numeric
  rcases numeric with ⟨digit, -⟩ | rfl
  · exact UInt32.le_trans (by decide) digit
  · decide

end Text

/-- The text of a number is clean. -/
theorem isClean_numberText (x : Float) : Text.isClean (numberText x) := by
  refine Text.isClean_iff.2 fun c mem => ?_
  rcases isNumeric_of_mem_numberText mem with numeric | word
  · exact Text.space_le_of_isNumeric numeric
  · have clean : Text.isClean (String.ofList ['-', 'N', 'a', 'i', 'n', 'f']) := by decide +kernel
    exact Text.isClean_iff.1 clean c (by simpa using word)

/-- A number in digits is clean. -/
theorem isClean_repr (n : Nat) : Text.isClean (Nat.repr n) := by
  refine Text.isClean_iff.2 fun c mem => ?_
  have digit : c.isDigit := isDigit_of_mem_toDigits (by simpa using mem)
  exact Text.space_le_of_isNumeric (by simp [isNumeric, digit])

/-- A register is written in a clean text. -/
theorem RegisterId.isClean_text (id : RegisterId) : Text.isClean id.text :=
  Text.isClean_append (by decide +kernel) (isClean_repr _)

/-- The spellings of symbols are clean. -/
theorem Symbol.isClean_spelling (symbol : Symbol) : Text.isClean symbol.spelling := by
  cases symbol <;> decide +kernel

/-- The label of a node is clean if the names of calls are letters. -/
theorem Expr.isClean_label {t : Expr} (named : t.hasLetterNames) :
    Text.isClean (t.label false) := by
  have enclosed {opening text : String} (opens : Text.isClean opening) (clean : Text.isClean text) :
      Text.isClean (opening ++ text ++ ")") :=
    Text.isClean_append (Text.isClean_append opens clean) (by decide +kernel)
  cases t with
  | number value offset => exact isClean_numberText value
  | register id offset => exact id.isClean_text
  | unary op operand offset => exact enclosed (by decide +kernel) op.symbol.isClean_spelling
  | binary op left right offset => exact enclosed (by decide +kernel) op.symbol.isClean_spelling
  | call name argument offset =>
    have letters := List.all_eq_true.1 (Bool.and_eq_true_iff.1 named).1
    exact enclosed (by decide +kernel)
      (Text.isClean_iff.2 fun c mem => Text.space_le_of_isAlpha (letters c mem))
  | assign target value offset => exact enclosed (by decide +kernel) target.isClean_text

end RegisterCalc
