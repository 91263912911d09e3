import RegisterCalc.Proofs.Grammar.Following

/-!
# The grammar is unambiguous

Derivations of a statement that spell the same tokens are the same (`Derivation.eq_of_tokens`).

Two derivations of a category are compared before whatever follows them (`Derivation.Compared`).
Only a level of binary operators leaves open how far an expression goes, and there the number of
operators it goes on with (`Derivation.width`) decides: with equally many they are the same
derivation, and the one with fewer is followed by an operator of the level. The induction is on one
of the two derivations; at a level of operators there is a further one on the width of the other.
-/

namespace RegisterCalc

/-! ## What may follow -/

/-- One of the given operators follows. -/
def GoesOn (ops : List BinaryOp) (rest : List Token) : Prop :=
  ∃ op ∈ ops, ∃ offset more, rest = ⟨.symbol op.symbol, offset⟩ :: more

/-- An expression does not both stop and go on. -/
theorem Stops.not_goesOn {ops : List BinaryOp} {rest : List Token} (stops : Stops ops rest) :
    ¬GoesOn ops rest := by
  rintro ⟨op, mem, offset, more, rfl⟩
  exact (stops _ rfl).2 op mem rfl

namespace Derivation

/-- How many operators of the level of its category an expression goes on with. -/
def width : {c : Category} → Derivation c → Nat
  | _, operation left _ _ _ _ => left.width + 1
  | _, _ => 0

section
variable {c : Category} {d d' : Derivation c} {rest rest' : List Token}

/-- Derivations with equally many operators of their level are the same, and so is what follows
them; after one with fewer a further operator of the level follows. -/
structure Compared (d d' : Derivation c) (rest rest' : List Token) : Prop where
  same : d.width = d'.width → d = d' ∧ rest = rest'
  shorter : d.width < d'.width → GoesOn c.own rest
  longer : d'.width < d.width → GoesOn c.own rest'

namespace Compared

/-- The same derivations before the same tokens compare. -/
theorem of_eq (h : d = d' ∧ rest = rest') : Compared d d' rest rest' := by
  obtain ⟨rfl, rfl⟩ := h
  exact ⟨fun _ => ⟨rfl, rfl⟩, fun h => absurd h (Nat.lt_irrefl _),
    fun h => absurd h (Nat.lt_irrefl _)⟩

/-- Comparing does not depend on the order. -/
theorem symm (h : Compared d d' rest rest') : Compared d' d rest' rest where
  same widths := ⟨(h.same widths.symm).1.symm, (h.same widths.symm).2.symm⟩
  shorter := h.longer
  longer := h.shorter

/-- Derivations are the same where neither goes on. -/
theorem eq (h : Compared d d' rest rest') (stops : Stops c.own rest) (stops' : Stops c.own rest') :
    d = d' ∧ rest = rest' := by
  rcases Nat.lt_trichotomy d.width d'.width with shorter | same | longer
  · exact absurd (h.shorter shorter) stops.not_goesOn
  · exact h.same same
  · exact absurd (h.longer longer) stops'.not_goesOn

/-- A derivation that is not wider than one before an operator is itself before an operator. -/
theorem goesOn {op : BinaryOp} {offset : Offset} {more : List Token} (ofLevel : op ∈ c.own)
    (h : Compared d d' rest (⟨.symbol op.symbol, offset⟩ :: more)) (fits : d.width ≤ d'.width) :
    GoesOn c.own rest := by
  rcases Nat.lt_or_eq_of_le fits with shorter | same
  · exact h.shorter shorter
  · exact ⟨op, ofLevel, offset, more, (h.same same).2⟩

end Compared

end

/-- A derivation compares with each that spells the same tokens before what may follow. -/
def Unambiguous {c : Category} (d : Derivation c) : Prop :=
  ∀ (d' : Derivation c) (rest rest' : List Token), Stops c.tighter rest → Stops c.tighter rest' →
    d.tokens ++ rest = d'.tokens ++ rest' → Compared d d' rest rest'

namespace Unambiguous

variable {level : List BinaryOp} {levels : List (List BinaryOp)} {rest rest' : List Token}

/-! ## Levels of binary operators -/

/-- Operands of a level are the same where no operator of theirs follows. -/
theorem operand_eq {inner inner' : Derivation (.ladder levels)} (ih : inner.Unambiguous)
    (stops : Stops levels.flatten rest) (stops' : Stops levels.flatten rest')
    (h : inner.tokens ++ rest = inner'.tokens ++ rest') : inner = inner' ∧ rest = rest' :=
  (ih inner' rest rest' stops.tighter stops'.tighter h).eq stops.own stops'.own

/-- The tokens of an operation before what follows are those of its left operand before the
operator. -/
theorem tokens_operation_append (left : Derivation (.ladder (level :: levels))) (op : BinaryOp)
    (ofLevel : op ∈ level) (offset : Offset) (right : Derivation (.ladder levels))
    (rest : List Token) : (operation left op ofLevel offset right).tokens ++ rest =
      left.tokens ++ (⟨.symbol op.symbol, offset⟩ :: (right.tokens ++ rest)) := by
  rw [tokens, List.append_assoc, List.cons_append]

/-- A single operand compares with all expressions of its level. -/
theorem tighter (distinct : (Category.ladder (level :: levels)).Distinct)
    {inner : Derivation (.ladder levels)} (ih : inner.Unambiguous) :
    (@Derivation.tighter level levels inner).Unambiguous := by
  intro d' rest rest' stops stops' h
  induction width : d'.width generalizing d' rest' with
  | zero =>
    cases d' with
    | operation => cases width
    | tighter inner' =>
      obtain ⟨rfl, rfl⟩ := ih.operand_eq stops stops' h
      exact .of_eq ⟨rfl, rfl⟩
  | succ n ihn =>
    cases d' with
    | tighter => cases width
    | operation left' op' ofLevel' offset' right' =>
      rw [tokens_operation_append] at h
      have before := ihn left' _ (.operator (distinct.not_mem ofLevel') offset') h
        (Nat.succ.inj width)
      exact ⟨nofun, fun _ => before.goesOn ofLevel' (Nat.zero_le _),
        fun longer => absurd longer (Nat.not_lt_zero _)⟩

/-- An operation compares with all expressions of its level. -/
theorem operation (distinct : (Category.ladder (level :: levels)).Distinct)
    {left : Derivation (.ladder (level :: levels))} {right : Derivation (.ladder levels)}
    (ihl : left.Unambiguous) (ihr : right.Unambiguous) {op : BinaryOp} (ofLevel : op ∈ level)
    (offset : Offset) : (Derivation.operation left op ofLevel offset right).Unambiguous := by
  intro d' rest rest' stops stops' h
  have stopsLeft : Stops (Category.ladder (level :: levels)).tighter
      (⟨.symbol op.symbol, offset⟩ :: (right.tokens ++ rest)) :=
    .operator (distinct.not_mem ofLevel) offset
  rw [tokens_operation_append] at h
  induction width : d'.width generalizing d' rest' with
  | zero =>
    have before := ihl d' _ rest' stopsLeft stops' h
    exact ⟨fun widths => absurd (widths.trans width) (Nat.succ_ne_zero _),
      fun shorter => absurd (width ▸ shorter) (Nat.not_lt_zero _),
      fun _ => before.symm.goesOn ofLevel (width ▸ Nat.zero_le _)⟩
  | succ n ihn =>
    cases d' with
    | tighter => cases width
    | operation left' op' ofLevel' offset' right' =>
      have stopsLeft' : Stops (Category.ladder (level :: levels)).tighter
          (⟨.symbol op'.symbol, offset'⟩ :: (right'.tokens ++ rest')) :=
        .operator (distinct.not_mem ofLevel') offset'
      have before := ihl _ _ rest' stopsLeft stops' h
      rw [tokens_operation_append] at h
      -- Equally wide left operands are the same. Otherwise the wider one is compared with the whole
      -- derivation on the other side, which is then not wider than it.
      have lefts := ihl left' _ _ stopsLeft stopsLeft' h
      have before' := ihn left' _ stopsLeft' h (Nat.succ.inj width)
      refine ⟨fun widths => ?_, fun shorter => ?_, fun longer => ?_⟩
      · obtain ⟨rfl, same⟩ := lefts.same (Nat.succ.inj widths)
        injection same with sign same
        injection sign with lexeme offsets
        injection lexeme with symbol
        obtain rfl := BinaryOp.symbol_inj symbol
        obtain ⟨rfl, rfl⟩ := ihr.operand_eq stops stops' same
        exact ⟨by rw [offsets], rfl⟩
      · exact before'.goesOn ofLevel' (Nat.le_of_lt_succ shorter)
      · exact before.symm.goesOn ofLevel (Nat.le_of_lt_succ longer)

/-! ## Operands -/

/-- What starts with a prefix operator is no call. -/
theorem prefixed_ne_call (op : PrefixOp) (offset : Offset) (more : List Token)
    (inner : Derivation .call) : ⟨.symbol op.symbol, offset⟩ :: more ≠ inner.tokens ++ rest := by
  intro h
  obtain ⟨token, more', first, notPrefix⟩ := inner.tokens_call
  rw [first, List.cons_append] at h
  injection h with same
  rw [← same] at notPrefix
  exact absurd (op.ofSymbol?_symbol.symm.trans notPrefix) nofun

/-- A prefix operator before an operand is nothing else. -/
theorem prefixed {inner : Derivation .unary} (ih : inner.Unambiguous) (op : PrefixOp)
    (offset : Offset) : (prefixed op offset inner).Unambiguous := by
  intro d' rest rest' stops stops' h
  cases d' with
  | prefixed op' offset' inner' =>
    injection h with sign same
    injection sign with lexeme offsets
    injection lexeme with symbol
    obtain rfl := PrefixOp.symbol_inj symbol
    obtain ⟨rfl, rfl⟩ := (ih inner' _ _ stops stops' same).eq stops stops'
    exact .of_eq ⟨by rw [offsets], rfl⟩
  | unprefixed inner' => exact absurd h (prefixed_ne_call op offset _ inner')

/-- An operand without a prefix operator has none. -/
theorem unprefixed {inner : Derivation .call} (ih : inner.Unambiguous) :
    (unprefixed inner).Unambiguous := by
  intro d' rest rest' stops stops' h
  cases d' with
  | prefixed op' offset' inner' => exact absurd h.symm (prefixed_ne_call op' offset' _ inner)
  | unprefixed inner' =>
    obtain ⟨rfl, rfl⟩ := (ih inner' _ _ stops stops' h).eq stops stops'
    exact .of_eq ⟨rfl, rfl⟩

/-- An expression in brackets is the same if the brackets hold the same tokens. -/
theorem bracketed_eq {inner inner' : Derivation .assignment} (ih : inner.Unambiguous)
    {close close' : Offset}
    (h : inner.tokens ++ [⟨.symbol .rightParen, close⟩] ++ rest =
      inner'.tokens ++ [⟨.symbol .rightParen, close'⟩] ++ rest') :
    inner = inner' ∧ close = close' ∧ rest = rest' := by
  rw [List.append_assoc, List.append_assoc] at h
  obtain ⟨rfl, same⟩ :=
    (ih inner' _ _ (.rightParen close) (.rightParen close') h).eq (.rightParen _) (.rightParen _)
  injection same with sign same
  injection sign with _ offsets
  exact ⟨rfl, offsets, same⟩

/-- What starts with a name is no primary expression. -/
theorem name_ne_primary (letters : Option String) (offset : Offset) (more : List Token)
    (inner : Derivation .primary) : ⟨.name letters, offset⟩ :: more ≠ inner.tokens ++ rest := by
  intro h
  obtain ⟨token, more', first, notName, -⟩ := inner.tokens_primary
  rw [first, List.cons_append] at h
  injection h with same
  exact notName letters (same ▸ rfl)

/-- A call is nothing else. -/
theorem call {argument : Derivation .assignment} (ih : argument.Unambiguous) (function : Function)
    (nameOffset openOffset closeOffset : Offset) :
    (call function nameOffset openOffset argument closeOffset).Unambiguous := by
  intro d' rest rest' stops stops' h
  cases d' with
  | call function' nameOffset' openOffset' argument' closeOffset' =>
    injection h with name h
    injection h with opening h
    obtain ⟨rfl, rfl, rfl⟩ := ih.bracketed_eq h
    injection name with lexeme nameOffsets
    injection opening with _ openOffsets
    injection lexeme with letters
    have functions := Function.ofName?_name function
    rw [Option.some.inj letters, Function.ofName?_name] at functions
    obtain rfl := Option.some.inj functions
    exact .of_eq ⟨by rw [nameOffsets, openOffsets], rfl⟩
  | uncalled inner' => exact absurd h (name_ne_primary _ nameOffset _ inner')

/-- A primary expression is no call. -/
theorem uncalled {inner : Derivation .primary} (ih : inner.Unambiguous) :
    (uncalled inner).Unambiguous := by
  intro d' rest rest' stops stops' h
  cases d' with
  | call function' nameOffset' openOffset' argument' closeOffset' =>
    exact absurd h.symm (name_ne_primary _ nameOffset' _ inner)
  | uncalled inner' =>
    obtain ⟨rfl, rfl⟩ := (ih inner' _ _ stops stops' h).eq stops stops'
    exact .of_eq ⟨rfl, rfl⟩

/-- A number is nothing else. -/
theorem number (text : Option String) (value : Float) (offset : Offset) :
    (number text value offset).Unambiguous := by
  intro d' rest rest' stops stops' h
  cases d' with
  | number text' value' offset' =>
    cases h
    exact .of_eq ⟨rfl, rfl⟩
  | register | group => cases h

/-- A register is nothing else. -/
theorem register {digits : String} {id : RegisterId} (named : RegisterId.ofText? digits = some id)
    (offset : Offset) : (register digits id named offset).Unambiguous := by
  intro d' rest rest' stops stops' h
  cases d' with
  | register digits' id' named' offset' =>
    cases h
    obtain rfl := Option.some.inj (named.symm.trans named')
    exact .of_eq ⟨rfl, rfl⟩
  | number | group => cases h

/-- An expression in brackets is nothing else. -/
theorem group {inner : Derivation .assignment} (ih : inner.Unambiguous)
    (openOffset closeOffset : Offset) :
    (group openOffset inner closeOffset).Unambiguous := by
  intro d' rest rest' stops stops' h
  cases d' with
  | number | register => cases h
  | group openOffset' inner' closeOffset' =>
    injection h with opening h
    obtain ⟨rfl, rfl, rfl⟩ := ih.bracketed_eq h
    injection opening with _ offsets
    exact .of_eq ⟨by rw [offsets], rfl⟩

/-! ## Assignments -/

/-- An assignment is nothing else, since what is none does not start one. -/
theorem assign_ne_loosest {digits : String} {target : RegisterId}
    (named : RegisterId.ofText? digits = some target) (targetOffset signOffset : Offset)
    (value : Derivation .assignment) (inner : Derivation (.ladder BinaryOp.levels))
    (stops : Stops BinaryOp.levels.flatten rest') :
    (assign digits target named targetOffset signOffset value).tokens ++ rest ≠
      inner.tokens ++ rest' := by
  intro h
  have starts : startsAssignment (inner.tokens ++ rest') = false :=
    inner.startsAssignment_tokens nofun (stops.mono nofun)
  rw [← h] at starts
  cases starts

/-- An assignment to a register is nothing else. -/
theorem assign {value : Derivation .assignment} (ih : value.Unambiguous) {digits : String}
    {target : RegisterId} (named : RegisterId.ofText? digits = some target)
    (targetOffset signOffset : Offset) :
    (assign digits target named targetOffset signOffset value).Unambiguous := by
  intro d' rest rest' stops stops' h
  cases d' with
  | assign digits' target' named' targetOffset' signOffset' value' =>
    injection h with register h
    injection h with sign h
    obtain ⟨rfl, rfl⟩ := (ih value' _ _ stops stops' h).eq (stops.mono nofun) (stops'.mono nofun)
    cases register
    cases sign
    obtain rfl := Option.some.inj (named.symm.trans named')
    exact .of_eq ⟨rfl, rfl⟩
  | loosest inner' => exact absurd h (assign_ne_loosest named _ _ _ inner' stops')

/-- An expression of the loosest level is no assignment. -/
theorem loosest {inner : Derivation (.ladder BinaryOp.levels)} (ih : inner.Unambiguous) :
    (loosest inner).Unambiguous := by
  intro d' rest rest' stops stops' h
  cases d' with
  | assign digits' target' named' targetOffset' signOffset' value' =>
    exact absurd h.symm (assign_ne_loosest named' _ _ _ inner stops)
  | loosest inner' =>
    obtain ⟨rfl, rfl⟩ := ih.operand_eq stops stops' h
    exact .of_eq ⟨rfl, rfl⟩

end Unambiguous

/-! ## Whole derivations -/

/-- Every derivation compares with those that spell the same tokens. -/
theorem unambiguous {c : Category} (d : Derivation c) (distinct : c.Distinct) :
    d.Unambiguous := by
  induction d with
  | assign digits target named targetOffset signOffset value ih =>
    exact (ih distinct).assign named targetOffset signOffset
  | loosest inner ih => exact (ih Category.distinct_loosest).loosest
  | operation left op ofLevel offset right ihl ihr =>
    exact .operation distinct (ihl distinct) (ihr distinct.tail) ofLevel offset
  | tighter inner ih => exact .tighter distinct (ih distinct.tail)
  | operand inner ih =>
    intro d' rest rest' stops stops' h
    cases d' with
    | operand inner' =>
      obtain ⟨rfl, rfl⟩ := (ih .nil inner' _ _ stops stops' h).eq stops stops'
      exact .of_eq ⟨rfl, rfl⟩
  | prefixed op offset inner ih => exact (ih .nil).prefixed op offset
  | unprefixed inner ih => exact (ih .nil).unprefixed
  | call function nameOffset openOffset argument closeOffset ih =>
    exact (ih Category.distinct_assignment).call function nameOffset openOffset closeOffset
  | uncalled inner ih => exact (ih .nil).uncalled
  | number text value offset => exact .number text value offset
  | register digits id named offset => exact .register named offset
  | group openOffset inner closeOffset ih =>
    exact (ih Category.distinct_assignment).group openOffset closeOffset

/-- Derivations of a statement that spell the same tokens are the same. -/
theorem eq_of_tokens {d d' : Derivation .assignment} (h : d.tokens = d'.tokens) : d = d' := by
  refine (((d.unambiguous Category.distinct_assignment) d' [] [] .nil .nil ?_).eq .nil .nil).1
  rw [h]

end Derivation

end RegisterCalc
