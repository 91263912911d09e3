import RegisterCalc.Proofs.Grammar.Derivation
import Mathlib.Data.List.Nodup

/-!
# What follows an expression

The same tokens can be more than one expression if it is open how far it goes: `1 - 2` begins with
`1`. An expression of a category goes as far as it can if what follows is none of the operators of
the category and no assignment sign. So does an operand in it if what follows is no operator that
binds tighter than those of the category (`Category.tighter`); one of the category's own
(`Category.own`) may follow then. Both are instances of `Stops`.
-/

namespace RegisterCalc

/-! ## Operators apart -/

/-- Operators with the same symbol are the same. -/
theorem BinaryOp.symbol_inj {op op' : BinaryOp} (h : op.symbol = op'.symbol) : op = op' := by
  cases op <;> cases op' <;> first | rfl | cases h

/-- Prefix operators with the same symbol are the same. -/
theorem PrefixOp.symbol_inj {op op' : PrefixOp} (h : op.symbol = op'.symbol) : op = op' := by
  have read := PrefixOp.ofSymbol?_symbol op
  rw [h, PrefixOp.ofSymbol?_symbol] at read
  exact (Option.some.inj read).symm

/-- No binary operator is written as an assignment sign. -/
theorem BinaryOp.symbol_ne_assign (op : BinaryOp) : op.symbol ≠ .assign := by
  cases op <;> decide

/-- No binary operator is written as a bracket. -/
theorem BinaryOp.symbol_ne_rightParen (op : BinaryOp) : op.symbol ≠ .rightParen := by
  cases op <;> decide

/-- Each binary operator is of one level only. -/
theorem BinaryOp.nodup_levels : BinaryOp.levels.flatten.Nodup := by decide

/-- Each binary operator is of a level. -/
theorem BinaryOp.mem_levels (op : BinaryOp) : op ∈ BinaryOp.levels.flatten := by
  cases op <;> decide

namespace Category

/-- The operators that an expression of a category may go on with. -/
def own : Category → List BinaryOp
  | ladder (level :: _) => level
  | _ => []

/-- The operators that bind tighter than those that an expression of a category may go on with. -/
def tighter : Category → List BinaryOp
  | assignment => BinaryOp.levels.flatten
  | ladder (_ :: levels) => levels.flatten
  | _ => []

/-- All operators of the category and those that bind tighter, each once. -/
def Distinct (c : Category) : Prop := (c.own ++ c.tighter).Nodup

/-- The operators of a ladder are those of its levels. -/
theorem own_append_tighter (levels : List (List BinaryOp)) :
    (ladder levels).own ++ (ladder levels).tighter = levels.flatten := by
  cases levels with
  | nil => rfl
  | cons level levels => rfl

/-- The operators of an assignment are distinct. -/
theorem distinct_assignment : assignment.Distinct := BinaryOp.nodup_levels

/-- The operators of an expression of the loosest level are distinct. -/
theorem distinct_loosest : (ladder BinaryOp.levels).Distinct := BinaryOp.nodup_levels

/-- A ladder without its loosest level has distinct operators too. -/
theorem Distinct.tail {level : List BinaryOp} {levels : List (List BinaryOp)}
    (distinct : (ladder (level :: levels)).Distinct) : (ladder levels).Distinct := by
  rw [Distinct, own_append_tighter]
  exact (List.nodup_append.1 distinct).2.1

/-- An operator of the loosest level of a ladder is none of the tighter ones. -/
theorem Distinct.not_mem {level : List BinaryOp} {levels : List (List BinaryOp)} {op : BinaryOp}
    (distinct : (ladder (level :: levels)).Distinct) (ofLevel : op ∈ level) :
    op ∉ (ladder (level :: levels)).tighter := fun mem =>
  (List.nodup_append.1 distinct).2.2 op ofLevel op mem rfl

end Category

/-! ## Where an expression ends -/

/-- Neither an assignment sign nor one of the given operators follows. -/
def Stops (ops : List BinaryOp) (rest : List Token) : Prop :=
  ∀ token ∈ rest.head?,
    token.symbol? ≠ some .assign ∧ ∀ op ∈ ops, token.symbol? ≠ some op.symbol

namespace Stops

variable {ops ops' : List BinaryOp} {rest : List Token}

/-- Where nothing follows, nothing of it is an operator. -/
theorem nil : Stops ops [] := nofun

/-- Where none of some operators follows, none of fewer ones does. -/
theorem mono (fewer : ∀ op ∈ ops', op ∈ ops) (h : Stops ops rest) : Stops ops' rest :=
  fun token mem => ⟨(h token mem).1, fun op mem' => (h token mem).2 op (fewer op mem')⟩

/-- A closing bracket is no operator. -/
theorem rightParen (offset : Offset) : Stops ops (⟨.symbol .rightParen, offset⟩ :: rest) := by
  intro token mem
  obtain rfl := Option.some.inj mem
  refine ⟨nofun, fun op _ same => ?_⟩
  exact op.symbol_ne_rightParen (Option.some.inj same).symm

/-- A binary operator is none of the others. -/
theorem operator {op : BinaryOp} (other : op ∉ ops) (offset : Offset) :
    Stops ops (⟨.symbol op.symbol, offset⟩ :: rest) := by
  intro token mem
  obtain rfl := Option.some.inj mem
  refine ⟨fun same => op.symbol_ne_assign (Option.some.inj same), fun op' mem' same => ?_⟩
  exact other (BinaryOp.symbol_inj (Option.some.inj same) ▸ mem')

/-- Where no operator of a ladder follows, none of its loosest level does. -/
theorem own {levels : List (List BinaryOp)} (h : Stops levels.flatten rest) :
    Stops (Category.ladder levels).own rest :=
  h.mono fun _ mem => Category.own_append_tighter levels ▸ List.mem_append_left _ mem

/-- Where no operator of a ladder follows, none of its tighter levels does. -/
theorem tighter {levels : List (List BinaryOp)} (h : Stops levels.flatten rest) :
    Stops (Category.ladder levels).tighter rest :=
  h.mono fun _ mem => Category.own_append_tighter levels ▸ List.mem_append_right _ mem

end Stops

/-! ## Where an assignment starts -/

/-- Whether tokens start with a register directly before an assignment sign. -/
def startsAssignment : List Token → Bool
  | target :: sign :: _ => target.isRegister && sign.symbol? == some .assign
  | _ => false

/-- What starts with no register starts no assignment. -/
theorem startsAssignment_of_not_register {token : Token} (h : token.isRegister = false)
    (rest : List Token) : startsAssignment (token :: rest) = false := by
  cases rest with
  | nil => rfl
  | cons sign rest => simp [startsAssignment, h]

/-- An expression that is no assignment does not start one, unless an assignment sign follows. -/
theorem Derivation.startsAssignment_tokens {c : Category} (d : Derivation c) {rest : List Token}
    (other : c ≠ .assignment) (stops : Stops [] rest) :
    startsAssignment (d.tokens ++ rest) = false := by
  induction d generalizing rest with
  | assign | loosest => exact absurd rfl other
  | operation left op ofLevel offset right ihl _ =>
    rw [tokens, List.append_assoc]
    exact ihl nofun (.operator (List.not_mem_nil) offset)
  | register digits id named offset =>
    cases rest with
    | nil => rfl
    | cons sign rest => exact beq_false_of_ne (stops sign rfl).1
  | prefixed | call | number | group => exact startsAssignment_of_not_register rfl _
  | tighter inner ih | operand inner ih | unprefixed inner ih | uncalled inner ih =>
    exact ih nofun stops

end RegisterCalc
