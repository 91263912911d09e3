import Mathlib.Data.Finset.Card
import RegisterCalc.Proofs.Registers.Entries

/-!
# Histories of registers

Operations on registers one after another set a register or get its value. What is found under a
number afterwards is what the last operation that set it wrote there (`entryAt_performed`), since an
operation changes nothing under other numbers and getting a value changes nothing at all
(`entryAt_perform`). All else follows: what is read, which entries there are and how many, and that
the order of operations on different registers leaves no trace (`performed_law`).
-/

namespace RegisterCalc.Registers

/-- An operation on registers. -/
inductive Operation where
  | set (id : RegisterId) (value : Float)
  | get (id : RegisterId)
  deriving DecidableEq, Repr

namespace Operation

/-- The register that an operation sets, if it sets one. -/
def target? : Operation → Option RegisterId
  | set id _ => some id
  | get _ => none

/-- What an operation writes to a register, if it sets that one. -/
def written? (id : RegisterId) : Operation → Option Float
  | set target value => if target = id then some value else none
  | get _ => none

end Operation

/-- What an operation reads, if it reads, and the registers after it. -/
def perform (registers : Registers) : Operation → Option Float × Registers
  | .set id value => (none, registers.set id value)
  | .get id => (some (registers.get id), registers)

/-- What operations one after another read, and the registers after them. -/
def performAll (registers : Registers) : List Operation → List (Option Float) × Registers
  | [] => ([], registers)
  | operation :: operations =>
    let first := registers.perform operation
    let others := first.2.performAll operations
    (first.1 :: others.1, others.2)

/-- The registers after operations that start without an entry. -/
def performed (operations : List Operation) : Registers := (empty.performAll operations).2

/-- What the last operation that sets a register writes to it, if any does. -/
def lastSet (operations : List Operation) (id : RegisterId) : Option Float :=
  operations.reverse.findSome? (Operation.written? id)

/-! ## One operation after another -/

section
variable (registers : Registers) (operation : Operation) (before behind operations : List Operation)

/-- Operations can be performed in two parts. -/
theorem performAll_append : registers.performAll (before ++ behind) =
    ((registers.performAll before).1 ++ ((registers.performAll before).2.performAll behind).1,
      ((registers.performAll before).2.performAll behind).2) := by
  induction before generalizing registers with
  | nil => rfl
  | cons operation before ih =>
    rw [List.cons_append, performAll, ih]
    rfl

/-- For every operation there is a place in what is read. -/
theorem length_performAll : (registers.performAll operations).1.length = operations.length := by
  induction operations generalizing registers with
  | nil => rfl
  | cons operation operations ih => exact congrArg Nat.succ (ih _)

/-- A last operation is performed on the registers after the others. -/
theorem performed_concat :
    performed (operations ++ [operation]) = ((performed operations).perform operation).2 := by
  rw [performed, performAll_append]
  rfl

/-- An operation leaves what it writes under a number, or else what was there. -/
theorem entryAt_perform (id : RegisterId) : (registers.perform operation).2.entryAt id =
    (operation.written? id).or (registers.entryAt id) := by
  cases operation with
  | set target value =>
    rw [Operation.written?]
    split
    case isTrue same =>
      obtain rfl := same
      exact entryAt_set_self registers target value
    case isFalse other => exact entryAt_set_of_ne registers (Ne.symm other) value
  | get _ => rfl

/-- A last operation comes before the others in what was set last. -/
theorem lastSet_concat (id : RegisterId) : lastSet (operations ++ [operation]) id =
    (operation.written? id).or (lastSet operations id) := by
  rw [lastSet, List.reverse_append, List.reverse_singleton, List.singleton_append,
    List.findSome?_cons]
  cases operation.written? id <;> rfl

/-- Under every number there is what was set last. -/
theorem entryAt_performed (id : RegisterId) :
    (performed operations).entryAt id = lastSet operations id := by
  induction operations using List.reverseRecOn with
  | nil => rfl
  | append_singleton operations operation ih =>
    rw [performed_concat, entryAt_perform, ih, lastSet_concat]

end

section
variable (operations : List Operation)

/-- What is read is what was last set before, or zero. -/
theorem read_performAll (before behind : List Operation) (id : RegisterId) :
    (empty.performAll (before ++ .get id :: behind)).1[before.length]? =
      some (some ((lastSet before id).getD 0)) := by
  rw [performAll_append, List.getElem?_append_right (length_performAll _ _).le, length_performAll,
    Nat.sub_self, performAll, List.getElem?_cons_zero, ← entryAt_performed, ← get_eq_getD]
  rfl

/-- A register was set if and only if an operation sets it. -/
theorem isSome_lastSet_iff {id : RegisterId} :
    (lastSet operations id).isSome ↔ id ∈ operations.filterMap Operation.target? := by
  rw [lastSet, List.isSome_findSome?, List.any_reverse, List.any_eq_true, List.mem_filterMap]
  refine exists_congr fun operation => and_congr_right fun _ => ?_
  cases operation with
  | set target value =>
    rw [Operation.written?, Operation.target?, Option.some_inj]
    split <;> simp [*]
  | get _ => exact ⟨nofun, nofun⟩

/-- The registers that operations set. -/
theorem mem_targets_iff {id : RegisterId} : id ∈ operations.filterMap Operation.target? ↔
    ∃ value, .set id value ∈ operations := by
  rw [List.mem_filterMap]
  constructor
  · rintro ⟨operation, mem, target⟩
    cases operation with
    | set id' value =>
      cases target
      exact ⟨value, mem⟩
    | get _ => cases target
  · rintro ⟨value, mem⟩
    exact ⟨_, mem, rfl⟩

/-- The registers that have an entry are those that were set. -/
theorem mem_ids_performed_iff {id : RegisterId} :
    id ∈ (performed operations).entries.map (·.1) ↔
      id ∈ operations.filterMap Operation.target? := by
  rw [← isSome_lastSet_iff, ← entryAt_performed, Option.isSome_iff_exists, List.mem_map]
  constructor
  · rintro ⟨⟨_, value⟩, mem, rfl⟩
    exact ⟨value, mem_entries_iff.1 mem⟩
  · rintro ⟨value, found⟩
    exact ⟨(id, value), mem_entries_iff.2 found, rfl⟩

/-- Each register has one entry. -/
theorem nodup_ids (registers : Registers) : (registers.entries.map (·.1)).Nodup :=
  List.pairwise_map.2 (registers.ascending.imp UInt32.ne_of_lt)

/-- There are as many entries as different registers that were set. -/
theorem size_performed :
    (performed operations).size = (operations.filterMap Operation.target?).toFinset.card := by
  have same : (operations.filterMap Operation.target?).toFinset =
      ((performed operations).entries.map (·.1)).toFinset := by
    ext id
    rw [List.mem_toFinset, List.mem_toFinset, mem_ids_performed_iff]
  rw [same, List.toFinset_card_of_nodup (nodup_ids _), List.length_map]
  rfl

/-- No entry is there if and only if no operation sets a register. -/
theorem isEmpty_performed :
    (performed operations).isEmpty ↔ ∀ id value, .set id value ∉ operations := by
  have none : (performed operations).isEmpty ↔ operations.filterMap Operation.target? = [] := by
    rw [← List.toFinset_eq_empty_iff, ← Finset.card_eq_zero, ← size_performed]
    exact List.isEmpty_iff_length_eq_zero
  rw [none, List.filterMap_eq_nil_iff]
  constructor
  · intro h id value mem
    cases h _ mem
  · intro h operation mem
    cases operation with
    | set id value => exact absurd mem (h id value)
    | get id => rfl

/-- Operations that set the same last can be taken for each other. -/
theorem performed_congr {operations operations' : List Operation}
    (same : ∀ id, lastSet operations id = lastSet operations' id) :
    performed operations = performed operations' :=
  ext_entryAt fun id => by rw [entryAt_performed, entryAt_performed, same id]

/-- What is read leaves no entry. -/
theorem performed_filter :
    performed (operations.filter (·.target?.isSome)) = performed operations := by
  induction operations using List.reverseRecOn with
  | nil => rfl
  | append_singleton operations operation ih =>
    rw [List.filter_append, performed_concat, ← ih]
    cases operation with
    | set id value => exact performed_concat (.set id value) _
    | get id => exact congrArg performed (List.append_nil _)

/-- The entries are what any list of them becomes when it is sorted, each register being listed
once. -/
theorem mergeSort_eq_entries {registers : Registers} {cells : List Write}
    (once : (cells.map (·.1)).Nodup)
    (members : ∀ entry, entry ∈ cells ↔ entry ∈ registers.entries) :
    cells.mergeSort (fun cell cell' => decide (cell.1 ≤ cell'.1)) = registers.entries := by
  have permuted := cells.mergeSort_perm fun cell cell' => decide (cell.1 ≤ cell'.1)
  have sorted : (cells.mergeSort fun cell cell' => decide (cell.1 ≤ cell'.1)).Pairwise
      fun cell cell' => decide (cell.1 ≤ cell'.1) = true := by
    refine List.pairwise_mergeSort (fun x y z below above => ?_) (fun x y => ?_) cells
    · exact decide_eq_true (UInt32.le_trans (of_decide_eq_true below) (of_decide_eq_true above))
    · rcases UInt32.le_total x.1 y.1 with below | above
      · rw [decide_eq_true below, Bool.true_or]
      · rw [decide_eq_true above, Bool.or_true]
  have apart := List.pairwise_map.1 ((permuted.map (·.1)).nodup_iff.2 once)
  refine eq_entries ((sorted.and apart).imp ?_) fun entry => ?_
  · rintro cell cell' ⟨atMost, other⟩
    exact UInt32.lt_of_le_of_ne (of_decide_eq_true atMost) other
  · rw [permuted.mem_iff, members]

end

/-- Operations on registers that start without an entry, sets and gets in any order. A get reads what
the last set before it wrote to the register, or zero if there is none, and so does a get behind all
operations. The entries are the registers that were ever set, each with what was set last: ascending,
so each once, whatever order they are kept in before they are sorted. There are as many as different
registers that were set, and none if and only if nothing was set. Gets have no part in them, and
neither has any set but the last of each register. -/
theorem performed_law (operations : List Operation) :
    (∀ before id behind, operations = before ++ .get id :: behind →
      (empty.performAll operations).1[before.length]? = some (some ((lastSet before id).getD 0))) ∧
    (∀ id, (performed operations).get id = (lastSet operations id).getD 0) ∧
    (∀ id value, (id, value) ∈ (performed operations).entries ↔
      lastSet operations id = some value) ∧
    (∀ id, id ∈ (performed operations).entries.map (·.1) ↔ ∃ value, .set id value ∈ operations) ∧
    (performed operations).entries.Pairwise (·.1 < ·.1) ∧
    (∀ cells : List Write, (cells.map (·.1)).Nodup →
      (∀ id value, (id, value) ∈ cells ↔ lastSet operations id = some value) →
      cells.mergeSort (fun cell cell' => decide (cell.1 ≤ cell'.1)) =
        (performed operations).entries) ∧
    (performed operations).size = (operations.filterMap Operation.target?).toFinset.card ∧
    ((performed operations).isEmpty ↔ ∀ id value, .set id value ∉ operations) ∧
    performed (operations.filter (·.target?.isSome)) = performed operations ∧
    ∀ operations', (∀ id, lastSet operations id = lastSet operations' id) →
      (performed operations).entries = (performed operations').entries := by
  have entries (id : RegisterId) (value : Float) : (id, value) ∈ (performed operations).entries ↔
      lastSet operations id = some value := by
    rw [mem_entries_iff, entryAt_performed]
  refine ⟨?_, fun id => ?_, entries, fun id => ?_, (performed operations).ascending,
    fun cells once members => ?_, size_performed operations, isEmpty_performed operations,
    performed_filter operations, fun operations' same => ?_⟩
  · rintro before id behind rfl
    exact read_performAll before behind id
  · rw [get_eq_getD, entryAt_performed]
  · rw [mem_ids_performed_iff, mem_targets_iff]
  · exact mergeSort_eq_entries once fun ⟨id, value⟩ =>
      (members id value).trans (entries id value).symm
  · rw [performed_congr same]

/-- A register that is overwritten, one that is set to zero and one that is only read, then the same
with other writes before the last ones. -/
theorem performed_law_overwritten : ∃ (operations operations' : List Operation)
    (cells : List Write),
    operations = [.set 10 1, .get 10, .set 2 0, .set 10 (-2.5), .get 7] ∧
    operations' = [.set 10 (-2.5), .set 2 5, .set 2 0] ∧ cells = [(10, -2.5), (2, 0)] ∧
    operations = [.set 10 1] ++ .get 10 :: [.set 2 0, .set 10 (-2.5), .get 7] ∧
    (cells.map (·.1)).Nodup ∧
    (∀ id value, (id, value) ∈ cells ↔ lastSet operations id = some value) ∧
    (∀ id, lastSet operations id = lastSet operations' id) ∧
    (empty.performAll operations).1[1]? = some (some 1) ∧
    cells.mergeSort (fun cell cell' => decide (cell.1 ≤ cell'.1)) =
      (performed operations).entries ∧
    (performed operations).entries = (performed operations').entries := by
  have threefold (id : RegisterId) : 10 = id ∨ 2 = id ∨ ¬10 = id ∧ ¬2 = id := by
    by_cases ten : 10 = id
    · exact .inl ten
    · by_cases two : 2 = id
      · exact .inr (.inl two)
      · exact .inr (.inr ⟨ten, two⟩)
  have same (id : RegisterId) :
      lastSet [.set 10 1, .get 10, .set 2 0, .set 10 (-2.5), .get 7] id =
        lastSet [.set 10 (-2.5), .set 2 5, .set 2 0] id := by
    rcases threefold id with rfl | rfl | ⟨ten, two⟩
    · rfl
    · rfl
    · simp [lastSet, List.findSome?_cons, Operation.written?, ten, two]
  have members (id : RegisterId) (value : Float) :
      (id, value) ∈ ([(10, -2.5), (2, 0)] : List Write) ↔
        lastSet [.set 10 1, .get 10, .set 2 0, .set 10 (-2.5), .get 7] id = some value := by
    rw [same]
    rcases threefold id with rfl | rfl | ⟨ten, two⟩
    · simp [lastSet, Operation.written?, eq_comm]
    · simp [lastSet, Operation.written?, eq_comm]
    · simp [lastSet, Operation.written?, ten, two, Ne.symm ten, Ne.symm two]
  have once : (([(10, -2.5), (2, 0)] : List Write).map (·.1)).Nodup := by decide +kernel
  obtain ⟨reads, -, -, -, -, sorted, -, -, -, congr⟩ :=
    performed_law [.set 10 1, .get 10, .set 2 0, .set 10 (-2.5), .get 7]
  exact ⟨_, _, _, rfl, rfl, rfl, rfl, once, members, same, reads [.set 10 1] 10 _ rfl,
    sorted _ once members, congr _ same⟩

end RegisterCalc.Registers
