/-!
# Lines

Text comes in as bytes. It is cut into lines after each line feed, and the line feed and the
carriage returns before it are dropped before a line is decoded; what is left after the last line
feed is a line too, unless it is nothing. A line that is not well-formed UTF-8 has no text.
-/

namespace RegisterCalc.Text

/-- The lines of some bytes, without their line feeds. -/
def splitLines : List UInt8 → List (List UInt8)
  | [] => []
  | byte :: bytes =>
    if byte = 10 then [] :: splitLines bytes
    else match splitLines bytes with
      | [] => [[byte]]
      | line :: lines => (byte :: line) :: lines

/-- A list without the members at its end that satisfy `p`. -/
def trimEnd {α : Type} (p : α → Bool) (xs : List α) : List α := (xs.reverse.dropWhile p).reverse

/-- The text of a line, if it has one. -/
def decodeLine (line : List UInt8) : Option String :=
  String.fromUTF8? ⟨(trimEnd (fun byte => byte = 10 || byte = 13) line).toArray⟩

/-- The texts of the lines of some bytes. -/
def lines (bytes : List UInt8) : List (Option String) := (splitLines bytes).map decodeLine

/-- A text without the line feeds and carriage returns at its end. -/
def withoutLineEnd (text : String) : String :=
  String.ofList (trimEnd (fun c => c = '\n' || c = '\r') text.toList)

/-- The bytes of a text. -/
def toBytes (text : String) : List UInt8 := text.toUTF8.data.toList

end RegisterCalc.Text
