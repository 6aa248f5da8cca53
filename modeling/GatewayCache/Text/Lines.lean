/-! # Lines

A line of a file ends at a line feed, with or without a carriage return before it.
What follows the last line feed is a line unless it is empty, and is left as it is.
-/

namespace GatewayCache.Text

def lineFeed : UInt8 := 10

def carriageReturn : UInt8 := 13

/-- The lines of bytes, given what the current line holds so far, last first. -/
def linesFrom (current : List UInt8) : List UInt8 → List (List UInt8)
  | [] => if current.isEmpty then [] else [current.reverse]
  | byte :: rest =>
    if byte = lineFeed then
      let line := if current.head? = some carriageReturn then current.tail else current
      line.reverse :: linesFrom [] rest
    else linesFrom (byte :: current) rest

/-- The lines of a file, each as text where its bytes are valid UTF-8. -/
def fileLines (bytes : ByteArray) : List (Option String) :=
  (linesFrom [] bytes.toList).map (fun line => String.fromUTF8? ⟨line.toArray⟩)

/-- The pieces of a text between its line feeds; the last one counts only if it is not empty. -/
def lines : List Char → List (List Char)
  | [] => []
  | c :: rest =>
    if c = '\n' then [] :: lines rest
    else
      match lines rest with
      | [] => [[c]]
      | line :: more => (c :: line) :: more

/-- The number of line feeds in a text. -/
def lineFeeds (text : String) : Nat := text.toList.count '\n'

end GatewayCache.Text
