import RegisterCalc.Proofs.Text.Lines
import RegisterCalc.Session.Run

/-!
# The ends of lines

Carriage returns before a line feed belong to the end of a line, however many there are. Bytes with
more of them have the same lines but for their ends (`Text.trimmed_withReturns`), so the same texts,
and a run on them is the same run (`Session.run_withReturns`).
-/

namespace RegisterCalc

namespace Text

/-- Bytes with carriage returns put before each line feed: `returns n` before that of line `n`. -/
def withReturns (returns : Nat → Nat) : List UInt8 → List UInt8
  | [] => []
  | byte :: bytes =>
    if byte = 10 then
      List.replicate (returns 0) 13 ++ 10 :: withReturns (fun n => returns (n + 1)) bytes
    else byte :: withReturns returns bytes

/-- A single carriage return before each line feed. -/
theorem withReturns_one (bytes : List UInt8) : withReturns (fun _ => 1) bytes =
    bytes.flatMap fun byte => if byte = 10 then [13, 10] else [byte] := by
  induction bytes with
  | nil => rfl
  | cons byte bytes ih =>
    rw [withReturns, List.flatMap_cons]
    split
    · rw [ih]
      rfl
    · rw [ih]
      rfl

/-- What is left of a list without its end does not depend on the end. -/
theorem trimEnd_cons_congr {α : Type} {p : α → Bool} {xs ys : List α}
    (same : trimEnd p xs = trimEnd p ys) (x : α) : trimEnd p (x :: xs) = trimEnd p (x :: ys) := by
  have same : xs.reverse.dropWhile p = ys.reverse.dropWhile p := List.reverse_inj.1 same
  rw [trimEnd, trimEnd, List.reverse_cons, List.reverse_cons, List.dropWhile_append,
    List.dropWhile_append, same]

/-- An end is dropped from a list as a whole. -/
theorem trimEnd_append {α : Type} {p : α → Bool} {ys : List α} (ends : ∀ y ∈ ys, p y)
    (xs : List α) : trimEnd p (xs ++ ys) = trimEnd p xs := by
  have ends : ∀ y ∈ ys.reverse, p y := fun y mem => ends y (List.mem_reverse.1 mem)
  rw [trimEnd, trimEnd, List.reverse_append, List.dropWhile_append_of_pos ends]

/-- Carriage returns before line feeds change no line but for its end. -/
theorem trimmed_withReturns (returns : Nat → Nat) (bytes : List UInt8) :
    (splitLines (withReturns returns bytes)).map (trimEnd isLineEndByte) =
      (splitLines bytes).map (trimEnd isLineEndByte) := by
  induction bytes generalizing returns with
  | nil => rfl
  | cons byte bytes ih =>
    by_cases lineFeed : byte = 10
    · obtain rfl := lineFeed
      have noLineFeed : 10 ∉ List.replicate (returns 0) (13 : UInt8) := by
        intro mem
        cases List.eq_of_mem_replicate mem
      have ends : ∀ byte ∈ List.replicate (returns 0) (13 : UInt8), isLineEndByte byte := by
        intro byte mem
        rw [List.eq_of_mem_replicate mem]
        rfl
      have nothing : trimEnd isLineEndByte (List.replicate (returns 0) 13) = [] :=
        trimEnd_append ends []
      rw [withReturns, if_pos rfl, splitLines_line noLineFeed, List.map_cons, ih, nothing,
        splitLines, if_pos rfl]
      rfl
    · have same := ih returns
      rw [withReturns, if_neg lineFeed, splitLines, if_neg lineFeed, splitLines, if_neg lineFeed]
      generalize splitLines (withReturns returns bytes) = lines at same ⊢
      generalize splitLines bytes = lines' at same ⊢
      cases lines with
      | nil =>
        obtain rfl := List.map_eq_nil_iff.1 same.symm
        rfl
      | cons line lines =>
        obtain ⟨line', lines', rfl, first, rest⟩ := List.map_eq_cons_iff.1 same.symm
        exact congrArg₂ List.cons (trimEnd_cons_congr first.symm byte) rest.symm

/-- Carriage returns before line feeds change the text of no line. -/
theorem lines_withReturns (returns : Nat → Nat) (bytes : List UInt8) :
    lines (withReturns returns bytes) = lines bytes := by
  have trimmed (bytes : List UInt8) :
      lines bytes = ((splitLines bytes).map (trimEnd isLineEndByte)).map ofBytes? := by
    rw [List.map_map]
    rfl
  rw [trimmed, trimmed, trimmed_withReturns]

/-- A line feed is dropped with the carriage returns before it. -/
theorem withoutLineEnd_append (line : String) (n : Nat) :
    withoutLineEnd (line ++ String.ofList (List.replicate n '\r') ++ "\n") =
      withoutLineEnd line := by
  have ends : ∀ c ∈ List.replicate n '\r' ++ ['\n'], isLineEnd c := by
    intro c mem
    rcases List.mem_append.1 mem with mem | mem
    · rw [List.eq_of_mem_replicate mem]
      rfl
    · rw [List.mem_singleton.1 mem]
      rfl
  have whole : (line ++ String.ofList (List.replicate n '\r') ++ "\n").toList =
      line.toList ++ (List.replicate n '\r' ++ ['\n']) := by
    simp [String.toList_append]
  rw [withoutLineEnd, whole]
  exact congrArg String.ofList (trimEnd_append ends _)

end Text

/-- A run does not depend on how its lines end. With any number of carriage returns before each line
feed, the same for all or not, it writes the same, ends alike and leaves the same session and the
same log, in any room, whatever the bytes are: those of statements, of rejected and of blank lines,
of no text, with carriage returns elsewhere, or without a line feed at their end. A line that is
answered by itself may have such an end or none. -/
theorem Session.run_withReturns (session : Session) (room : Option Nat) (input : List UInt8) :
    (∀ returns, session.run room (Text.withReturns returns input) = session.run room input) ∧
    session.run room (input.flatMap fun byte => if byte = 10 then [13, 10] else [byte]) =
      session.run room input ∧
    ∀ (line : String) (n : Nat),
      session.processLine (line ++ String.ofList (List.replicate n '\r') ++ "\n") =
        session.processLine line := by
  have same (returns : Nat → Nat) :
      session.run room (Text.withReturns returns input) = session.run room input := by
    rw [run, run, Text.lines_withReturns]
  refine ⟨same, ?_, fun line n => ?_⟩
  · rw [← Text.withReturns_one]
    exact same _
  · rw [processLine, processLine, Text.withoutLineEnd_append]

end RegisterCalc
