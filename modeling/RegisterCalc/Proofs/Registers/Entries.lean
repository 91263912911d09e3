import Mathlib.Data.List.Sort
import RegisterCalc.Registers

/-!
# The entries of registers

Registers are determined by what is found under each number (`Registers.ext_entryAt`): the order of
the entries is that of the numbers, so it does not tell in which order they were written. After
writes one after another a register has the last value that was written to it, or else what it had
before (`entryAt_setAll`).
-/

namespace RegisterCalc.Registers

variable {registers registers' : Registers} {id : RegisterId} {writes : List Write}

/-! ## One register -/

/-- What was last written to a register, if anything was. -/
def entryAt (registers : Registers) (id : RegisterId) : Option Float := registers.entries.lookup id

/-- A register reads its entry, and zero if it has none. -/
theorem get_eq_getD (registers : Registers) (id : RegisterId) :
    registers.get id = (registers.entryAt id).getD 0 := rfl

/-- After a write a register has the value as its entry. -/
theorem entryAt_set_self (registers : Registers) (id : RegisterId) (value : Float) :
    (registers.set id value).entryAt id = some value :=
  lookup_insert_self id value registers.entries

/-- A write leaves the entries of other registers as they are. -/
theorem entryAt_set_of_ne (registers : Registers) {id other : RegisterId} (h : other ≠ id)
    (value : Float) : (registers.set id value).entryAt other = registers.entryAt other :=
  lookup_insert_of_ne h value registers.entries

/-- The entry of a register is the one that stands under its number, as there is only one. -/
theorem mem_entries_iff {value : Float} :
    (id, value) ∈ registers.entries ↔ registers.entryAt id = some value := by
  refine ⟨fun mem => ?_, fun found => ?_⟩
  · obtain ⟨before, behind, split⟩ := List.append_of_mem mem
    have ascending := registers.ascending
    rw [split] at ascending
    refine List.lookup_eq_some_iff.2 ⟨before, behind, split, fun entry earlier => ?_⟩
    have below := (List.pairwise_append.1 ascending).2.2 entry earlier _ List.mem_cons_self
    exact bne_iff_ne.2 (UInt32.ne_of_lt below).symm
  · obtain ⟨before, behind, split, -⟩ := List.lookup_eq_some_iff.1 found
    rw [split]
    exact List.mem_append_right _ List.mem_cons_self

/-- Registers are the only ascending list of their entries. -/
theorem eq_entries {cells : List Write} (ascending : cells.Pairwise (·.1 < ·.1))
    (members : ∀ entry, entry ∈ cells ↔ entry ∈ registers.entries) : cells = registers.entries := by
  have : Std.Irrefl fun entry entry' : Write => entry.1 < entry'.1 :=
    ⟨fun entry => UInt32.lt_irrefl entry.1⟩
  have : Std.Antisymm fun entry entry' : Write => entry.1 < entry'.1 :=
    ⟨fun _ _ below above => absurd below (UInt32.lt_asymm above)⟩
  exact ascending.eq_of_mem_iff registers.ascending members

/-- Registers with the same entry under each number are the same. -/
theorem ext_entryAt (h : ∀ id, registers.entryAt id = registers'.entryAt id) :
    registers = registers' := by
  have members (entry : Write) : entry ∈ registers.entries ↔ entry ∈ registers'.entries := by
    obtain ⟨id, value⟩ := entry
    rw [mem_entries_iff, mem_entries_iff, h id]
  have same : registers.entries = registers'.entries := eq_entries registers.ascending members
  cases registers
  obtain rfl := same
  rfl

/-! ## Writes one after another -/

/-- Writes registers one after another. -/
def setAll (registers : Registers) (writes : List Write) : Registers :=
  writes.foldl (fun registers write => registers.set write.1 write.2) registers

/-- A first write is made before the others. -/
theorem setAll_cons (registers : Registers) (write : Write) (writes : List Write) :
    registers.setAll (write :: writes) = (registers.set write.1 write.2).setAll writes := rfl

/-- Writes can be made in two parts. -/
theorem setAll_append (registers : Registers) (writes writes' : List Write) :
    registers.setAll (writes ++ writes') = (registers.setAll writes).setAll writes' :=
  List.foldl_append

/-- A register has the last value that was written to it, or what it had before. -/
theorem entryAt_setAll (registers : Registers) (writes : List Write) (id : RegisterId) :
    (registers.setAll writes).entryAt id =
      (writes.reverse.lookup id).or (registers.entryAt id) := by
  induction writes generalizing registers with
  | nil => rfl
  | cons write writes ih =>
    have first : (registers.set write.1 write.2).entryAt id =
        ([write].lookup id).or (registers.entryAt id) := by
      obtain ⟨key, value⟩ := write
      by_cases same : id = key
      · obtain rfl := same
        rw [entryAt_set_self, List.lookup_cons_self, Option.some_or]
      · have apart : (id == key) = false := beq_false_of_ne same
        rw [entryAt_set_of_ne _ same, List.lookup_cons, apart]
        rfl
    rw [setAll_cons, ih, first, List.reverse_cons, List.lookup_append, Option.or_assoc]

/-- There is a last write to a register if there is one at all. -/
theorem isSome_lookup_reverse_iff :
    (writes.reverse.lookup id).isSome ↔ id ∈ writes.map (·.1) := by
  rw [List.lookup_isSome_iff, List.mem_map]
  constructor
  · rintro ⟨write, mem, same⟩
    exact ⟨write, List.mem_reverse.1 mem, (eq_of_beq same).symm⟩
  · rintro ⟨write, mem, same⟩
    exact ⟨write, List.mem_reverse.2 mem, beq_iff_eq.2 same.symm⟩

/-- A register that is not written keeps its entry. -/
theorem entryAt_setAll_of_not_mem (h : id ∉ writes.map (·.1)) :
    (registers.setAll writes).entryAt id = registers.entryAt id := by
  have noWrite : writes.reverse.lookup id = none :=
    Option.not_isSome_iff_eq_none.1 (mt isSome_lookup_reverse_iff.1 h)
  rw [entryAt_setAll, noWrite, Option.none_or]

/-- The entry of a register that is written does not depend on what was there before. -/
theorem entryAt_setAll_congr (h : id ∈ writes.map (·.1)) (registers registers' : Registers) :
    (registers.setAll writes).entryAt id = (registers'.setAll writes).entryAt id := by
  have written := isSome_lookup_reverse_iff.2 h
  rw [entryAt_setAll, entryAt_setAll, Option.or_of_isSome written, Option.or_of_isSome written]

/-- The registers that have an entry are those that had one before and those that are written. -/
theorem isSome_entryAt_setAll : ((registers.setAll writes).entryAt id).isSome ↔
    (registers.entryAt id).isSome ∨ id ∈ writes.map (·.1) := by
  rw [entryAt_setAll, Option.isSome_or, Bool.or_eq_true, isSome_lookup_reverse_iff, or_comm]

/-- Registers that read alike do so after the same writes. -/
theorem get_setAll_congr (h : registers.get id = registers'.get id) (writes : List Write) :
    (registers.setAll writes).get id = (registers'.setAll writes).get id := by
  by_cases written : id ∈ writes.map (·.1)
  · rw [get_eq_getD, get_eq_getD, entryAt_setAll_congr written]
  · simpa only [get_eq_getD, entryAt_setAll_of_not_mem written] using h

/-- Writes to different registers can be made in either order. -/
theorem setAll_comm {writes' : List Write}
    (apart : ∀ id ∈ writes.map (·.1), id ∉ writes'.map (·.1)) (registers : Registers) :
    (registers.setAll writes).setAll writes' = (registers.setAll writes').setAll writes := by
  refine ext_entryAt fun id => ?_
  by_cases written : id ∈ writes.map (·.1)
  · rw [entryAt_setAll_of_not_mem (apart id written), entryAt_setAll_congr written]
  · rw [entryAt_setAll_of_not_mem written]
    by_cases written' : id ∈ writes'.map (·.1)
    · exact entryAt_setAll_congr written' _ _
    · simp only [entryAt_setAll_of_not_mem written', entryAt_setAll_of_not_mem written]

end RegisterCalc.Registers
