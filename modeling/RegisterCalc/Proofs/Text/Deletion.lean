import RegisterCalc.Proofs.Text.Lines

/-!
# Deleting lines

The lines of some bytes with their ends make the bytes up (`flatten_linesWithEnds`), and without some
of them they are lines of what is left. So the texts of the lines of what is left are those of all
lines but the deleted ones (`lines_deleteLines`).
-/

namespace RegisterCalc

/-! ## Lists with members left out -/

/-- The members of a list but those at the places `deleted`. -/
def without {α : Type} (deleted : Nat → Bool) : List α → List α
  | [] => []
  | x :: xs =>
    let rest := without (fun i => deleted (i + 1)) xs
    if deleted 0 then rest else x :: rest

section
variable {α β : Type} {deleted : Nat → Bool}

/-- A first member that is left out. -/
theorem without_cons_of_deleted (h : deleted 0) (x : α) (xs : List α) :
    without deleted (x :: xs) = without (fun i => deleted (i + 1)) xs :=
  if_pos h

/-- A first member that stays. -/
theorem without_cons_of_kept (h : deleted 0 = false) (x : α) (xs : List α) :
    without deleted (x :: xs) = x :: without (fun i => deleted (i + 1)) xs :=
  if_neg (Bool.eq_false_iff.1 h)

/-- Members can be left out before or after all are changed. -/
theorem map_without (f : α → β) (deleted : Nat → Bool) (xs : List α) :
    (without deleted xs).map f = without deleted (xs.map f) := by
  induction xs generalizing deleted with
  | nil => rfl
  | cons x xs ih =>
    rw [List.map_cons]
    cases first : deleted 0 with
    | true => rw [without_cons_of_deleted first, without_cons_of_deleted first, ih]
    | false => rw [without_cons_of_kept first, without_cons_of_kept first, List.map_cons, ih]

/-- Without the member behind some others there are those and the ones behind it. -/
theorem without_at (before : List α) (x : α) (behind : List α) :
    without (fun i => decide (i = before.length)) (before ++ x :: behind) = before ++ behind := by
  have none (xs : List α) : without (fun i => decide (i + 1 = 0)) xs = xs := by
    induction xs with
    | nil => rfl
    | cons x xs ih => exact congrArg (x :: ·) ih
  induction before with
  | nil => exact none behind
  | cons first before ih =>
    have shift : (fun i => decide (i + 1 = (first :: before).length)) =
        fun i => decide (i = before.length) := by
      funext i
      exact decide_eq_decide.2 Nat.succ_inj
    rw [List.cons_append, without_cons_of_kept (by rfl), shift, ih, List.cons_append]

end

/-! ## Lines with their ends -/

namespace Text

/-- The lines of some bytes, each with the line feed that ends it. -/
def linesWithEnds : List UInt8 → List (List UInt8)
  | [] => []
  | byte :: bytes =>
    if byte = 10 then [byte] :: linesWithEnds bytes
    else match linesWithEnds bytes with
      | [] => [[byte]]
      | line :: lines => (byte :: line) :: lines

/-- Some bytes without the lines at the places `deleted`. -/
def deleteLines (deleted : Nat → Bool) (bytes : List UInt8) : List UInt8 :=
  (without deleted (linesWithEnds bytes)).flatten

/-- Bytes of which all but the last line are ended. -/
inductive AreLines : List (List UInt8) → Prop
  | nil : AreLines []
  | last {line : List UInt8} (notEmpty : line ≠ []) (noLineFeed : 10 ∉ line) : AreLines [line]
  | ended {line : List UInt8} {lines : List (List UInt8)} (noLineFeed : 10 ∉ line)
    (rest : AreLines lines) : AreLines ((line ++ [10]) :: lines)

variable {lines : List (List UInt8)} {bytes : List UInt8}

/-- A line can start with one more byte. -/
theorem AreLines.cons_byte {byte : UInt8} (other : byte ≠ 10) {line : List UInt8}
    (h : AreLines (line :: lines)) : AreLines ((byte :: line) :: lines) := by
  have noLineFeed {line : List UInt8} (h : 10 ∉ line) : 10 ∉ byte :: line := by
    rw [List.mem_cons, not_or]
    exact ⟨Ne.symm other, h⟩
  cases h with
  | last notEmpty none => exact .last (List.cons_ne_nil _ _) (noLineFeed none)
  | ended none rest => exact .ended (noLineFeed none) rest

/-- The lines of some bytes are lines. -/
theorem areLines_linesWithEnds (bytes : List UInt8) : AreLines (linesWithEnds bytes) := by
  induction bytes with
  | nil => exact .nil
  | cons byte bytes ih =>
    unfold linesWithEnds
    split
    case isTrue lineFeed =>
      rw [lineFeed]
      exact .ended (List.not_mem_nil) ih
    case isFalse other =>
      split
      case h_1 => exact .last (List.cons_ne_nil _ _) (by simpa using Ne.symm other)
      case h_2 line lines same => exact .cons_byte other (same ▸ ih)

/-- The lines of some bytes make them up. -/
theorem flatten_linesWithEnds (bytes : List UInt8) : (linesWithEnds bytes).flatten = bytes := by
  induction bytes with
  | nil => rfl
  | cons byte bytes ih =>
    unfold linesWithEnds
    split
    · rw [List.flatten_cons, ih, List.singleton_append]
    · split
      case h_1 same =>
        rw [same] at ih
        rw [← ih]
        rfl
      case h_2 line lines same =>
        rw [same] at ih
        rw [List.flatten_cons, List.cons_append, ← ih, List.flatten_cons]

/-- Lines stay lines when some are left out. -/
theorem AreLines.without (h : AreLines lines) (deleted : Nat → Bool) :
    AreLines (without deleted lines) := by
  induction h generalizing deleted with
  | nil => exact .nil
  | @last line notEmpty noLineFeed =>
    cases first : deleted 0 with
    | true =>
      rw [without_cons_of_deleted first]
      exact .nil
    | false =>
      rw [without_cons_of_kept first]
      exact .last notEmpty noLineFeed
  | ended noLineFeed rest ih =>
    cases first : deleted 0 with
    | true =>
      rw [without_cons_of_deleted first]
      exact ih _
    | false =>
      rw [without_cons_of_kept first]
      exact .ended noLineFeed (ih _)

/-- A line is decoded with its line feed or without it. -/
theorem decodeLine_lineFeed (line : List UInt8) : decodeLine (line ++ [10]) = decodeLine line := by
  have trimmed : trimEnd isLineEndByte (line ++ [10]) = trimEnd isLineEndByte line :=
    List.rdropWhile_concat_pos _ _ _ rfl
  exact congrArg (fun line => String.fromUTF8? ⟨line.toArray⟩) trimmed

/-- The texts of lines that are put together. -/
theorem AreLines.lines_flatten (h : AreLines lines) :
    Text.lines lines.flatten = lines.map decodeLine := by
  induction h with
  | nil => rfl
  | @last line notEmpty noLineFeed =>
    have isOpen : ¬IsEnded line := by
      intro ended
      have last := List.getLast?_eq_some_getLast notEmpty
      exact noLineFeed (ended _ last ▸ List.getLast_mem notEmpty)
    have split : splitLines line = [line] := by
      rw [← splitLines_lineFeed_of_open isOpen]
      exact splitLines_line noLineFeed []
    rw [List.flatten_singleton, Text.lines, split]
  | @ended line lines noLineFeed rest ih =>
    rw [List.flatten_cons, List.append_assoc, List.singleton_append, Text.lines,
      splitLines_line noLineFeed, List.map_cons, List.map_cons, decodeLine_lineFeed]
    exact congrArg _ ih

/-- The texts of the lines of some bytes, each decoded with its line feed. -/
theorem lines_eq_map (bytes : List UInt8) :
    Text.lines bytes = (linesWithEnds bytes).map decodeLine := by
  rw [← (areLines_linesWithEnds bytes).lines_flatten, flatten_linesWithEnds]

/-- The text of a line in its place. -/
theorem getElem?_lines (bytes : List UInt8) (i : Nat) :
    (Text.lines bytes)[i]? = (linesWithEnds bytes)[i]?.map decodeLine := by
  rw [lines_eq_map, List.getElem?_map]

/-- The texts of the lines that stay. -/
theorem lines_deleteLines (deleted : Nat → Bool) (bytes : List UInt8) :
    Text.lines (deleteLines deleted bytes) = without deleted (Text.lines bytes) := by
  rw [deleteLines, ((areLines_linesWithEnds bytes).without deleted).lines_flatten, map_without,
    lines_eq_map]

end Text

end RegisterCalc
