import RegisterCalc.Proofs.Session.Assignments
import RegisterCalc.Proofs.Session.Retyping
import RegisterCalc.Proofs.Token.Scanning

/-!
# Register numerals

The digits behind a marker are read twice: once where a text is cut into tokens, to see that their
number fits, and again where the tokens are read as a tree. Both times they are the same number
(`ofText?_eq_some_iff`), so a numeral that is cut off names a register, and that register is the one
in the tree and the one that is read and written (`addresses_iff`). In a whole statement the tree
has the registers that the tokens name, in the same order (`Expr.registers_of_ofTokens`), by an
induction over how the statement is derived.
-/

namespace RegisterCalc

/-! ## Digits behind a marker -/

/-- Digits whose number does not fit are a fault. -/
theorem tokenizeFrom_register_outOfRange {digits : List Char} (areDigits : ∀ d ∈ digits, d.isDigit)
    (outOfRange : UInt32.size ≤ Nat.ofDigitChars 10 digits 0) (offset : Offset)
    {after : List Char} (ends : ∀ c ∈ after.head?, c.isDigit = false) :
    tokenizeFrom offset ('#' :: (digits ++ after)) =
      .error (.registerOutOfRange (String.ofList digits) offset) :=
  tokenizeFrom_of_fault rfl (length_takeWhile_append areDigits ends)
    (Piece.HasFault.register areDigits outOfRange).ofSpelling

section
variable {digits : List Char} (notEmpty : digits ≠ []) (areDigits : ∀ d ∈ digits, d.isDigit)
include notEmpty areDigits

/-- Digits name the register whose number they are. -/
theorem ofText?_eq_some_iff {id : RegisterId} :
    RegisterId.ofText? (String.ofList digits) = some id ↔
      id.toNat = Nat.ofDigitChars 10 digits 0 := by
  rw [RegisterId.ofText?_ofList areDigits]
  constructor
  · intro named
    split at named
    case isTrue inRange =>
      obtain rfl := Option.some.inj named
      exact UInt32.toNat_ofNat_of_lt' inRange.2
    case isFalse => cases named
  · intro same
    rw [← same, if_pos ⟨notEmpty, id.toNat_lt⟩, UInt32.ofNat_toNat]

/-- Digits behind a marker, an assignment sign and a value are cut off up to the value. -/
theorem lexes_assignment (inRange : Nat.ofDigitChars 10 digits 0 < UInt32.size) (value : String) :
    ∃ sign start, Lexes 0 ("#" ++ String.ofList digits ++ " = " ++ value).toList
      [⟨.register (some (String.ofList digits)), 0⟩, ⟨.symbol .assign, sign⟩] start
      value.toList := by
  have spelled : ("#" ++ String.ofList digits ++ " = " ++ value).toList =
      '#' :: (digits ++ ' ' :: '=' :: ' ' :: value.toList) := by
    simp [String.toList_append]
  have space : ∀ c ∈ (' ' :: '=' :: ' ' :: value.toList).head?, c.isDigit = false := by
    intro c mem
    cases mem
    rfl
  have joined : ∀ c ∈ (' ' :: value.toList).head?, joins c = false := by
    intro c mem
    cases mem
    rfl
  rw [spelled]
  exact ⟨_, _, (Lexes.digits notEmpty areDigits inRange 0 space).trans
    ((Lexes.space _ _).trans ((Lexes.symbol .assign _ joined).trans (Lexes.space _ _)))⟩

end

/-! ## Registers under their numerals -/

/-- What is derived from a register and an assignment sign, and more, assigns the register. -/
theorem Derivation.target?_of_tokens (d : Derivation .assignment) {digits : String}
    {id : RegisterId} (named : RegisterId.ofText? digits = some id) {start sign last : Offset}
    {more : List Token} (spelled : d.tokens ++ [⟨.endOfInput, last⟩] =
      ⟨.register (some digits), start⟩ :: ⟨.symbol .assign, sign⟩ :: more) :
    d.tree.target? = some id := by
  cases d with
  | assign digits' target named' targetOffset signOffset value =>
    obtain ⟨same, -⟩ := List.cons.inj spelled
    cases same
    exact named'.symm.trans named
  | loosest inner =>
    -- What is no assignment does not begin like one, not even before the end of the input.
    have stops : Stops [] [(⟨.endOfInput, last⟩ : Token)] := by
      intro token mem
      cases mem
      exact ⟨nofun, nofun⟩
    have starts := inner.startsAssignment_tokens nofun stops
    rw [Derivation.tokens] at spelled
    rw [spelled] at starts
    cases starts

section
variable {digits : List Char} {id : RegisterId} (notEmpty : digits ≠ [])
  (areDigits : ∀ d ∈ digits, d.isDigit) (same : id.toNat = Nat.ofDigitChars 10 digits 0)
include notEmpty areDigits same

/-- Digits behind a marker are the tree of the register whose number they are. -/
theorem ofText_register :
    Expr.ofText ("#" ++ String.ofList digits) = .ok (.register id 0) := by
  have named := (ofText?_eq_some_iff notEmpty areDigits).2 same
  have spelled : ("#" ++ String.ofList digits).toList = '#' :: (digits ++ []) := by
    simp [String.toList_append]
  have cut := Lexes.digits notEmpty areDigits (same ▸ id.toNat_lt) 0 (nofun : ∀ c ∈ [].head?, _)
  rw [← spelled] at cut
  exact Expr.ofText_of_call (d := .uncalled (.register (String.ofList digits) id named 0))
    cut.tokenizeFrom_eq (Nat.zero_le _)

/-- The tree of an assignment to digits behind a marker assigns the register whose number they
are. -/
theorem target?_of_ofText_assignment {value : String} {t : Expr}
    (read : Expr.ofText ("#" ++ String.ofList digits ++ " = " ++ value) = .ok t) :
    t.target? = some id := by
  have named := (ofText?_eq_some_iff notEmpty areDigits).2 same
  obtain ⟨sign, start, cut⟩ := lexes_assignment notEmpty areDigits (same ▸ id.toNat_lt) value
  obtain ⟨d, last, whole, rfl, -⟩ := Expr.derived_of_ofText read
  rw [tokenize, cut] at whole
  cases rest : tokenizeFrom start value.toList with
  | error fault =>
    rw [rest] at whole
    cases whole
  | ok more =>
    rw [rest] at whole
    exact d.target?_of_tokens named (Except.ok.inj whole).symm

/-- A number that is assigned to digits behind a marker is written to the register whose number they
are. -/
theorem evaluateText_assignment {x : Float} (finite : Binary64.isFinite x)
    (registers : Registers) :
    evaluateText ("#" ++ String.ofList digits ++ " = " ++ numberText x) registers =
      (.ok x, registers.set id x) := by
  have named := (ofText?_eq_some_iff notEmpty areDigits).2 same
  obtain ⟨sign, start, cut⟩ :=
    lexes_assignment notEmpty areDigits (same ▸ id.toNat_lt) (numberText x)
  obtain ⟨d, number, depth, -, value⟩ := exists_derivation_numberText finite start
  have covered : (Derivation.assign _ id named 0 sign d).depth ≤ maxNesting :=
    (Nat.succ_le_succ depth).trans (by decide)
  have read : Expr.ofText ("#" ++ String.ofList digits ++ " = " ++ numberText x) =
      .ok (.assign id d.tree sign) :=
    Expr.ofText_of_derivation (d := .assign _ id named 0 sign d)
      (cut.trans number).tokenizeFrom_eq covered
  rw [evaluateText, read]
  dsimp only [Expr.evaluate]
  rw [value, Evaluation.pure_andThen]
  rfl

end

/-- Digits behind a marker address a register: it is named by their token, it is the tree of the
numeral and the target of every assignment to it, and it is what is read and written. -/
structure Addresses (digits : String) (id : RegisterId) : Prop where
  named : (Lexeme.register (some digits)).registerId? = some id
  node : Expr.ofText ("#" ++ digits) = .ok (.register id 0)
  reads : ∀ registers, evaluateText ("#" ++ digits) registers = (.ok (registers.get id), registers)
  target : ∀ value t, Expr.ofText ("#" ++ digits ++ " = " ++ value) = .ok t →
    t.target? = some id ∧ ∀ registers x, (t.evaluate registers).outcome = .ok x →
      (t.evaluate registers).registers.get id = x
  writes : ∀ x, Binary64.isFinite x → ∀ registers,
    evaluateText ("#" ++ digits ++ " = " ++ numberText x) registers = (.ok x, registers.set id x)

/-- Digits address the register whose number they are. -/
theorem addresses_iff {digits : List Char} (notEmpty : digits ≠ [])
    (areDigits : ∀ d ∈ digits, d.isDigit) (id : RegisterId) :
    Addresses (String.ofList digits) id ↔ id.toNat = Nat.ofDigitChars 10 digits 0 := by
  constructor
  · intro addresses
    exact (ofText?_eq_some_iff notEmpty areDigits).1 addresses.named
  · intro same
    have node := ofText_register notEmpty areDigits same
    refine ⟨(ofText?_eq_some_iff notEmpty areDigits).2 same, node, ?_, ?_, ?_⟩
    · intro registers
      rw [evaluateText, node]
      rfl
    · intro value t read
      have assigns := target?_of_ofText_assignment notEmpty areDigits same read
      refine ⟨assigns, fun registers x ok => Expr.get_evaluate_of_mem_chain ok ?_⟩
      exact List.mem_of_mem_head? (t.head?_chain.trans assigns)
    · intro x finite registers
      exact evaluateText_assignment notEmpty areDigits same finite registers

/-! ## The registers of a text -/

/-- The registers of a tree, in the order in which they are written. -/
def Expr.registers : Expr → List RegisterId
  | number _ _ => []
  | register id _ => [id]
  | unary _ operand _ => operand.registers
  | binary _ left right _ => left.registers ++ right.registers
  | call _ argument _ => argument.registers
  | assign target value _ => target :: value.registers

/-- The registers of a tree are those that its tokens name. -/
theorem Derivation.registers_tree {c : Category} (d : Derivation c) :
    d.tree.registers = d.tokens.filterMap (·.lexeme.registerId?) := by
  induction d with
  | assign digits target named targetOffset signOffset value ih =>
    simp [tree, tokens, Expr.registers, Lexeme.registerId?, named, ih]
  | operation left op ofLevel offset right ihl ihr =>
    simp [tree, tokens, Expr.registers, Lexeme.registerId?, ihl, ihr]
  | prefixed op offset inner ih =>
    simp [tree, tokens, Expr.registers, Lexeme.registerId?, ih]
  | call function nameOffset openOffset argument closeOffset ih =>
    simp [tree, tokens, Expr.registers, Lexeme.registerId?, ih]
  | number text value offset => rfl
  | register digits id named offset =>
    simp [tree, tokens, Expr.registers, Lexeme.registerId?, named]
  | group openOffset inner closeOffset ih =>
    simp [tree, tokens, Lexeme.registerId?, ih]
  | loosest inner ih | tighter inner ih | operand inner ih | unprefixed inner ih
  | uncalled inner ih => exact ih

/-- The registers of the tree of a text are those that its tokens name. -/
theorem Expr.registers_of_ofTokens {text : String} {tokens : List Token} {t : Expr}
    (cut : tokenize text = .ok tokens) (read : Expr.ofTokens tokens = .ok t) :
    t.registers = tokens.filterMap (·.lexeme.registerId?) := by
  obtain ⟨d, last, cut', rfl, -⟩ := Expr.derived_of_ofText (Expr.ofText_of_ofTokens cut read)
  obtain rfl := Except.ok.inj (cut.symm.trans cut')
  rw [d.registers_tree, List.filterMap_append]
  exact (List.append_nil _).symm

/-- A register among the tokens of a text is named by digits whose number it is. -/
theorem exists_registerId_of_tokenize {text : String} {tokens : List Token}
    (cut : tokenize text = .ok tokens) {token : Token} (mem : token ∈ tokens)
    (isRegister : token.isRegister) : ∃ digits id, digits ≠ [] ∧ (∀ d ∈ digits, d.isDigit) ∧
      token.lexeme = .register (some (String.ofList digits)) ∧
      token.lexeme.registerId? = some id ∧ id.toNat = Nat.ofDigitChars 10 digits 0 := by
  obtain ⟨pieces, body, -, denoted, rfl⟩ := exists_scans_of_tokenize cut
  rcases List.mem_append.1 mem with mem | last
  · obtain ⟨piece, -, denotes⟩ := exists_of_forall₂ denoted.flip mem
    cases denotes with
    | @register offset digits notEmpty areDigits inRange =>
      have same := UInt32.toNat_ofNat_of_lt' inRange
      exact ⟨digits, _, notEmpty, areDigits, rfl,
        (ofText?_eq_some_iff notEmpty areDigits).2 same, same⟩
    | number | name | symbol => cases isRegister
  · rw [List.mem_singleton.1 last] at isRegister
    cases isRegister

/-- Digits behind a marker are a register if their number is less than `2 ^ 32`, whatever zeros they
begin with, and else a fault that shows them all. Then they address the register of that number and
no other, so two numerals address the same register if and only if they have the same number. In the
tokens of a text every register is named by its digits, and the registers of its tree are those that
its tokens name. -/
theorem register_numerals :
    (∀ digits : List Char, digits ≠ [] → (∀ d ∈ digits, d.isDigit) →
      (∀ offset after, (∀ c ∈ after.head?, c.isDigit = false) →
        (Nat.ofDigitChars 10 digits 0 < 2 ^ 32 →
          Lexes offset ('#' :: (digits ++ after))
            [⟨.register (some (String.ofList digits)), offset⟩] (offset + 1 + digits.length)
            after) ∧
        (2 ^ 32 ≤ Nat.ofDigitChars 10 digits 0 →
          tokenizeFrom offset ('#' :: (digits ++ after)) =
            .error (.registerOutOfRange (String.ofList digits) offset))) ∧
      (∀ n, Nat.ofDigitChars 10 (List.replicate n '0' ++ digits) 0 =
        Nat.ofDigitChars 10 digits 0) ∧
      (∀ id, Addresses (String.ofList digits) id ↔ id.toNat = Nat.ofDigitChars 10 digits 0) ∧
      ∀ digits', digits' ≠ [] → (∀ d ∈ digits', d.isDigit) →
        Nat.ofDigitChars 10 digits 0 < 2 ^ 32 →
        ((∃ id, Addresses (String.ofList digits) id ∧ Addresses (String.ofList digits') id) ↔
          Nat.ofDigitChars 10 digits 0 = Nat.ofDigitChars 10 digits' 0)) ∧
    ∀ text tokens, tokenize text = .ok tokens →
      (∀ token ∈ tokens, token.isRegister → ∃ digits id, digits ≠ [] ∧
        (∀ d ∈ digits, d.isDigit) ∧ token.lexeme = .register (some (String.ofList digits)) ∧
        token.lexeme.registerId? = some id ∧ id.toNat = Nat.ofDigitChars 10 digits 0) ∧
      ∀ t, Expr.ofTokens tokens = .ok t →
        t.registers = tokens.filterMap (·.lexeme.registerId?) := by
  refine ⟨fun digits notEmpty areDigits => ⟨fun offset after ends => ?_, fun n => ?_,
    addresses_iff notEmpty areDigits, fun digits' notEmpty' areDigits' inRange => ?_⟩,
    fun text tokens cut => ⟨fun token mem isRegister => ?_, fun t read => ?_⟩⟩
  · exact ⟨fun inRange => Lexes.digits notEmpty areDigits inRange offset ends,
      fun outOfRange => tokenizeFrom_register_outOfRange areDigits outOfRange offset ends⟩
  · rw [Nat.ofDigitChars_append, Nat.ofDigitChars_replicate_zero, Nat.mul_zero]
  · simp only [addresses_iff notEmpty areDigits, addresses_iff notEmpty' areDigits']
    constructor
    · rintro ⟨id, same, same'⟩
      rw [← same, same']
    · intro same
      have number := UInt32.toNat_ofNat_of_lt' inRange
      exact ⟨_, number, number.trans same⟩
  · exact exists_registerId_of_tokenize cut mem isRegister
  · exact Expr.registers_of_ofTokens cut read

/-- The numerals `#007` and `#7` address one register, in `#007=#7` as well, and `#4294967296` is
out of range. -/
theorem register_numerals_zeros : Addresses "007" 7 ∧ Addresses "7" 7 ∧
    tokenize "#4294967296" = .error (.registerOutOfRange "4294967296" 0) ∧
    ∃ t, Expr.ofText "#007=#7" = .ok t ∧ t.registers = [7, 7] := by
  have digit {digits : List Char} (all : digits.all Char.isDigit) : ∀ d ∈ digits, d.isDigit :=
    List.all_eq_true.1 all
  obtain ⟨numerals, texts⟩ := register_numerals
  obtain ⟨-, -, zeros, -⟩ := numerals ['0', '0', '7'] nofun (digit rfl)
  obtain ⟨-, -, seven, -⟩ := numerals ['7'] nofun (digit rfl)
  obtain ⟨large, -⟩ := numerals "4294967296".toList (by decide) (digit rfl)
  have cut : tokenize "#007=#7" = .ok [⟨.register (some "007"), 0⟩, ⟨.symbol .assign, 4⟩,
      ⟨.register (some "7"), 5⟩, ⟨.endOfInput, 7⟩] := by decide +kernel
  have read : Expr.ofTokens [⟨.register (some "007"), 0⟩, ⟨.symbol .assign, 4⟩,
      ⟨.register (some "7"), 5⟩, ⟨.endOfInput, 7⟩] = .ok (.assign 7 (.register 7 5) 4) :=
    eq_ok_of_toOption (by decide +kernel)
  obtain ⟨-, registers⟩ := texts _ _ cut
  exact ⟨(zeros 7).2 rfl, (seven 7).2 rfl, (large 0 [] nofun).2 (by decide +kernel), _,
    Expr.ofText_of_ofTokens cut read, registers _ read⟩

end RegisterCalc
