import RegisterCalc.Token.Basic

/-!
# Registers

The registers of a session: the numbers of those that were written, in ascending order and each
once, with their last values. Since the order is part of the type, registers with the same entries
are equal. A register that was never written reads zero. Main statements: `get_set_self` and
`get_set_of_ne`.
-/

namespace RegisterCalc

/-- A register and a value written to it. -/
abbrev Write := RegisterId × Float

/-- The registers that were written. -/
structure Registers where
  entries : List Write
  ascending : entries.Pairwise (·.1 < ·.1)

namespace Registers

/-- No register was written. -/
def empty : Registers := ⟨[], .nil⟩

/-- Puts a write into its place among ascending ones, over an older one to the same register. -/
def insert (write : Write) : List Write → List Write
  | [] => [write]
  | entry :: entries =>
    if write.1 < entry.1 then write :: entry :: entries
    else if write.1 = entry.1 then write :: entries
    else entry :: insert write entries

/-- Only the new write and older ones are there after it. -/
theorem mem_insert {write entry : Write} {entries : List Write} (h : entry ∈ insert write entries) :
    entry = write ∨ entry ∈ entries := by
  induction entries with
  | nil => simpa [insert] using h
  | cons first rest ih =>
    unfold insert at h
    split at h
    · simpa using h
    · split at h
      · rcases List.mem_cons.1 h with h | h
        · exact .inl h
        · exact .inr (List.mem_cons_of_mem _ h)
      · rcases List.mem_cons.1 h with h | h
        · exact .inr (h ▸ List.mem_cons_self)
        · exact (ih h).imp_right (List.mem_cons_of_mem _)

/-- Writing keeps the order. -/
theorem ascending_insert (write : Write) {entries : List Write}
    (h : entries.Pairwise (·.1 < ·.1)) : (insert write entries).Pairwise (·.1 < ·.1) := by
  induction h with
  | nil => exact .cons nofun .nil
  | @cons first rest least tail ih =>
    unfold insert
    split
    · rename_i below
      refine .cons ?_ (.cons least tail)
      intro entry mem
      rcases List.mem_cons.1 mem with rfl | mem
      · exact below
      · exact UInt32.lt_trans below (least entry mem)
    · split
      · rename_i same
        exact .cons (fun entry mem => same ▸ least entry mem) tail
      · rename_i notBelow notSame
        refine .cons ?_ ih
        intro entry mem
        rcases mem_insert mem with rfl | mem
        · have := UInt32.not_lt.1 notBelow
          exact UInt32.lt_of_le_of_ne this fun equal => notSame equal.symm
        · exact least entry mem

/-- Writes a register. -/
def set (registers : Registers) (id : RegisterId) (value : Float) : Registers :=
  ⟨insert (id, value) registers.entries, ascending_insert _ registers.ascending⟩

/-- The value of a register; zero if it was never written. -/
def get (registers : Registers) (id : RegisterId) : Float :=
  (registers.entries.lookup id).getD 0

/-- How many registers were written. -/
def size (registers : Registers) : Nat := registers.entries.length

/-- Whether no register was written. -/
def isEmpty (registers : Registers) : Bool := registers.entries.isEmpty

/-- Looking up a register that was just written. -/
theorem lookup_insert_self (id : RegisterId) (value : Float) (entries : List Write) :
    (insert (id, value) entries).lookup id = some value := by
  induction entries with
  | nil => simp [insert]
  | cons entry entries ih =>
    obtain ⟨key, old⟩ := entry
    unfold insert
    split
    · simp
    · split
      · simp
      · rename_i different
        have apart : (id == key) = false := beq_false_of_ne different
        simp only [List.lookup_cons, apart, ih]

/-- Looking up a register other than the one that was just written. -/
theorem lookup_insert_of_ne {id other : RegisterId} (h : other ≠ id) (value : Float)
    (entries : List Write) : (insert (id, value) entries).lookup other = entries.lookup other := by
  have apart : (other == id) = false := beq_false_of_ne h
  induction entries with
  | nil => simp only [insert, List.lookup_nil, List.lookup_cons, apart]
  | cons entry entries ih =>
    obtain ⟨key, old⟩ := entry
    unfold insert
    split
    · simp only [List.lookup_cons, apart]
    · split
      · rename_i same
        have same : id = key := same
        simp only [List.lookup_cons, ← same, apart]
      · simp only [List.lookup_cons, ih]

/-- A register reads what was last written to it. -/
theorem get_set_self (registers : Registers) (id : RegisterId) (value : Float) :
    (registers.set id value).get id = value := by
  simp [get, set, lookup_insert_self]

/-- Writing a register leaves the others as they are. -/
theorem get_set_of_ne (registers : Registers) {id other : RegisterId} (value : Float)
    (h : other ≠ id) : (registers.set id value).get other = registers.get other := by
  simp [get, set, lookup_insert_of_ne h]

end Registers

end RegisterCalc
