import Mathlib.Data.List.DropRight
import RegisterCalc.Text.Blank
import RegisterCalc.Text.Lines

/-!
# Lines of bytes

A line feed ends a line, so bytes that end with one, or none at all, can be followed by other bytes
without a change of their lines (`splitLines_append`). A line feed behind other bytes ends the line
that they leave open (`splitLines_lineFeed_of_open`).

A line is decoded without its end, which comes to the same as to decode it as it stands and to drop
the end of the text (`decodeLine_eq`): line feeds and carriage returns are single bytes, and no other
character has a byte of theirs at its end.
-/

namespace RegisterCalc.Text

/-! ## Splitting -/

/-- No line is left open: the bytes end with a line feed, or there are none. -/
def IsEnded (bytes : List UInt8) : Prop := ∀ byte ∈ bytes.getLast?, byte = 10

section
variable {x : List UInt8}

/-- There is no line where there are no bytes, and only there. -/
theorem splitLines_eq_nil_iff : splitLines x = [] ↔ x = [] := by
  cases x with
  | nil => exact ⟨fun _ => rfl, fun _ => rfl⟩
  | cons byte rest =>
    refine ⟨fun h => ?_, nofun⟩
    unfold splitLines at h
    split at h
    · cases h
    · split at h <;> cases h

/-- Whether a line is left open depends on what comes after a first byte. -/
theorem isEnded_cons {byte : UInt8} (rest : x ≠ []) : IsEnded (byte :: x) ↔ IsEnded x := by
  obtain ⟨next, more, rfl⟩ := List.exists_cons_of_ne_nil rest
  rw [IsEnded, IsEnded, List.getLast?_cons_cons]

/-- Bytes that leave no line open have the same lines whatever follows them. -/
theorem splitLines_append (ended : IsEnded x) (y : List UInt8) :
    splitLines (x ++ y) = splitLines x ++ splitLines y := by
  induction x with
  | nil => rfl
  | cons byte rest ih =>
    by_cases last : rest = []
    · obtain rfl := last
      obtain rfl : byte = 10 := ended byte rfl
      rfl
    · have split := ih ((isEnded_cons last).1 ended)
      have lines : splitLines rest ≠ [] := mt splitLines_eq_nil_iff.1 last
      rw [List.cons_append, splitLines, splitLines, split]
      split
      · rfl
      · obtain ⟨line, lines, eq⟩ := List.exists_cons_of_ne_nil lines
        rw [eq]
        rfl

/-- A line feed ends the line that is left open. -/
theorem splitLines_lineFeed_of_open (isOpen : ¬IsEnded x) :
    splitLines (x ++ [10]) = splitLines x := by
  induction x with
  | nil => exact absurd nofun isOpen
  | cons byte rest ih =>
    by_cases last : rest = []
    · obtain rfl := last
      have other : byte ≠ 10 := by
        rintro rfl
        exact isOpen fun _ => by rintro ⟨⟩; rfl
      simp [splitLines, other]
    · rw [List.cons_append, splitLines, splitLines, ih (mt (isEnded_cons last).2 isOpen)]

/-- Bytes without a line feed are a line before one. -/
theorem splitLines_line (noLineFeed : 10 ∉ x) (y : List UInt8) :
    splitLines (x ++ 10 :: y) = x :: splitLines y := by
  induction x with
  | nil => rfl
  | cons byte rest ih =>
    obtain ⟨other, others⟩ := not_or.1 (mt List.mem_cons.2 noLineFeed)
    rw [List.cons_append, splitLines, if_neg (Ne.symm other), ih others]

/-- A line feed leaves no line open. -/
theorem isEnded_lineFeed (x : List UInt8) : IsEnded (x ++ [10]) := by
  rw [IsEnded, List.getLast?_concat]
  rintro _ ⟨⟩
  rfl

end

/-! ## Decoding -/

/-- The text that some bytes are, if they are well-formed UTF-8. -/
def ofBytes? (bytes : List UInt8) : Option String := String.fromUTF8? ⟨bytes.toArray⟩

/-- Bytes are a text if and only if they are the bytes of the text. -/
theorem ofBytes?_eq_some_iff {bytes : List UInt8} {text : String} :
    ofBytes? bytes = some text ↔ bytes = toBytes text := by
  unfold ofBytes? String.fromUTF8? toBytes
  rw [String.toUTF8_eq_toByteArray]
  constructor
  · intro h
    split at h <;> cases h
    rfl
  · rintro rfl
    exact dif_pos text.isValidUTF8

/-- The bytes of a text are those of its characters. -/
theorem toBytes_ofList (cs : List Char) :
    toBytes (String.ofList cs) = cs.flatMap String.utf8EncodeChar := by
  rw [toBytes, String.toUTF8_eq_toByteArray, String.toByteArray_ofList, List.utf8Encode,
    List.data_toByteArray]

/-- The bytes of two texts, one behind the other. -/
theorem toBytes_append (first second : String) :
    toBytes (first ++ second) = toBytes first ++ toBytes second := by
  simp only [toBytes, String.toUTF8_eq_toByteArray, String.toByteArray_append,
    ByteArray.data_append, Array.toList_append]

/-- The bytes that end lines. -/
def isLineEndByte (byte : UInt8) : Bool := byte = 10 || byte = 13

/-- The characters that end lines. -/
def isLineEnd (c : Char) : Bool := c = '\n' || c = '\r'

/-- What ends lines is a single byte, and no other character ends with such a byte: only the first
byte of a character can be as small. -/
theorem utf8EncodeChar_cases (c : Char) :
    (isLineEnd c ∧ ∃ byte, String.utf8EncodeChar c = [byte] ∧ isLineEndByte byte) ∨
      (isLineEnd c = false ∧
        ∃ more byte, String.utf8EncodeChar c = more ++ [byte] ∧ isLineEndByte byte = false) := by
  cases lineEnd : isLineEnd c with
  | true =>
    simp only [isLineEnd, Bool.or_eq_true, decide_eq_true_eq] at lineEnd
    rcases lineEnd with rfl | rfl
    · exact .inl ⟨rfl, 10, rfl, rfl⟩
    · exact .inl ⟨rfl, 13, rfl, rfl⟩
  | false =>
    obtain ⟨more, byte, encoded⟩ :=
      (List.eq_nil_or_concat' _).resolve_left (String.utf8EncodeChar_ne_nil (c := c))
    refine .inr ⟨rfl, more, byte, encoded, Bool.eq_false_iff.2 fun lineEndByte => ?_⟩
    simp only [isLineEndByte, Bool.or_eq_true, decide_eq_true_eq] at lineEndByte
    have first : byte.IsUTF8FirstByte := by
      rcases lineEndByte with rfl | rfl <;> decide
    have single : c.utf8Size = 1 := by
      have within : more.length < (String.utf8EncodeChar c).length := by simp [encoded]
      have alone : (String.utf8EncodeChar c)[more.length].IsUTF8FirstByte ↔ more.length = 0 :=
        UInt8.isUTF8FirstByte_getElem_utf8EncodeChar
      simp only [encoded, List.getElem_concat_length] at alone
      rw [← String.length_utf8EncodeChar, encoded, List.length_append, alone.1 first]
      rfl
    have small := Char.utf8Size_eq_one_iff.1 single
    rw [String.utf8EncodeChar_eq_singleton single] at encoded
    have value : c.val.toNat = byte.toNat := by
      have same : [] ++ [c.val.toUInt8] = more ++ [byte] := encoded
      rw [← List.singleton_inj.1 (List.append_inj' same rfl).2, UInt32.toNat_toUInt8,
        Nat.mod_eq_of_lt]
      exact Nat.lt_of_le_of_lt (UInt32.le_iff_toNat_le.1 small) (by decide)
    rcases lineEndByte with rfl | rfl
    · obtain rfl : c = '\n' := Char.ext (UInt32.toNat_inj.1 value)
      cases lineEnd
    · obtain rfl : c = '\r' := Char.ext (UInt32.toNat_inj.1 value)
      cases lineEnd

/-- The ends of lines can be dropped from the bytes of characters or from the characters. -/
theorem rdropWhile_flatMap (cs : List Char) :
    (cs.flatMap String.utf8EncodeChar).rdropWhile isLineEndByte =
      (cs.rdropWhile isLineEnd).flatMap String.utf8EncodeChar := by
  induction cs using List.reverseRecOn with
  | nil => rfl
  | append_singleton cs c ih =>
    rw [List.flatMap_append, List.flatMap_singleton, List.rdropWhile_concat]
    rcases utf8EncodeChar_cases c with ⟨lineEnd, byte, encoded, lineEndByte⟩ |
      ⟨other, more, byte, encoded, otherByte⟩
    · rw [if_pos lineEnd, encoded, List.rdropWhile_concat, if_pos lineEndByte, ih]
    · rw [if_neg (Bool.eq_false_iff.1 other), List.flatMap_append, List.flatMap_singleton, encoded,
        ← List.append_assoc, List.rdropWhile_concat, if_neg (Bool.eq_false_iff.1 otherByte)]

/-- The bytes of a text without its end are those of the text without their end. -/
theorem toBytes_withoutLineEnd (text : String) :
    toBytes (withoutLineEnd text) = trimEnd isLineEndByte (toBytes text) := by
  calc toBytes (withoutLineEnd text)
    _ = (text.toList.rdropWhile isLineEnd).flatMap String.utf8EncodeChar := toBytes_ofList _
    _ = (text.toList.flatMap String.utf8EncodeChar).rdropWhile isLineEndByte :=
      (rdropWhile_flatMap _).symm
    _ = trimEnd isLineEndByte (toBytes text) := by
      rw [← toBytes_ofList, String.ofList_toList]
      rfl

/-- Bytes that end lines are a text. -/
theorem exists_toBytes_of_lineEnds {bytes : List UInt8}
    (lineEnds : ∀ byte ∈ bytes, isLineEndByte byte) : ∃ text, bytes = toBytes text := by
  induction bytes with
  | nil => exact ⟨"", rfl⟩
  | cons byte bytes ih =>
    obtain ⟨lineEnd, lineEnds⟩ := List.forall_mem_cons.1 lineEnds
    obtain ⟨text, rfl⟩ := ih lineEnds
    simp only [isLineEndByte, Bool.or_eq_true, decide_eq_true_eq] at lineEnd
    rcases lineEnd with rfl | rfl
    · exact ⟨"\n" ++ text, (toBytes_append "\n" text).symm⟩
    · exact ⟨"\r" ++ text, (toBytes_append "\r" text).symm⟩

/-- A line is decoded to its text without the end, if it is one. -/
theorem decodeLine_eq (line : List UInt8) : decodeLine line = (ofBytes? line).map withoutLineEnd := by
  cases read : ofBytes? line with
  | some text =>
    obtain rfl := ofBytes?_eq_some_iff.1 read
    exact ofBytes?_eq_some_iff.2 (toBytes_withoutLineEnd text).symm
  | none =>
    cases decoded : decodeLine line with
    | none => rfl
    | some text =>
      have trimmed : line.rdropWhile isLineEndByte = toBytes text := ofBytes?_eq_some_iff.1 decoded
      obtain ⟨lineEnd, dropped⟩ := exists_toBytes_of_lineEnds fun byte =>
        List.mem_rtakeWhile_imp (p := isLineEndByte) (l := line)
      have whole : line = toBytes (text ++ lineEnd) := by
        rw [toBytes_append, ← trimmed, ← dropped, List.rdropWhile_append_rtakeWhile]
      rw [ofBytes?_eq_some_iff.2 whole] at read
      cases read

/-! ## Blank lines and statements -/

/-- A text is blank with its end or without it. -/
theorem all_isBlank_withoutLineEnd (text : String) :
    (withoutLineEnd text).toList.all isBlank = text.toList.all isBlank := by
  have trimmed : (withoutLineEnd text).toList = text.toList.rdropWhile isLineEnd :=
    String.toList_ofList
  have dropped : (text.toList.rtakeWhile isLineEnd).all isBlank := by
    refine List.all_eq_true.2 fun c mem => ?_
    have lineEnd := List.mem_rtakeWhile_imp mem
    simp only [isLineEnd, Bool.or_eq_true, decide_eq_true_eq] at lineEnd
    rcases lineEnd with rfl | rfl <;> rfl
  conv_rhs => rw [← List.rdropWhile_append_rtakeWhile (p := isLineEnd) (l := text.toList)]
  rw [trimmed, List.all_append, dropped, Bool.and_true]

/-- A line is blank: it is a text of nothing but blanks. -/
def IsBlankLine (line : List UInt8) : Prop :=
  ∃ text, ofBytes? line = some text ∧ text.toList.all isBlank

/-- The empty line is blank. -/
theorem isBlankLine_nil : IsBlankLine [] := ⟨"", ofBytes?_eq_some_iff.2 rfl, rfl⟩

/-- A line is a statement: it is a text that is not blank. -/
def IsStatement (line : List UInt8) : Prop :=
  ∃ text, ofBytes? line = some text ∧ text.toList.all isBlank = false

section
variable {line : List UInt8}

/-- What is decoded of a blank line is blank. -/
theorem IsBlankLine.decodeLine (h : IsBlankLine line) :
    ∃ text, Text.decodeLine line = some text ∧ text.toList.all isBlank := by
  obtain ⟨text, read, blank⟩ := h
  refine ⟨withoutLineEnd text, ?_, (all_isBlank_withoutLineEnd text).trans blank⟩
  rw [decodeLine_eq, read]
  rfl

/-- What is decoded of a statement is not blank. -/
theorem IsStatement.decodeLine (h : IsStatement line) :
    ∃ text, Text.decodeLine line = some text ∧ text.toList.all isBlank = false := by
  obtain ⟨text, read, notBlank⟩ := h
  refine ⟨withoutLineEnd text, ?_, (all_isBlank_withoutLineEnd text).trans notBlank⟩
  rw [decodeLine_eq, read]
  rfl

end

end RegisterCalc.Text
