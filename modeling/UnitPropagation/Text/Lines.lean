namespace UnitPropagation.Text

/-! Lines of a text, which may be given as characters or as bytes. -/

/-- Removes one `mark` from the end, if it stands there. -/
def dropEnd {α : Type} [DecidableEq α] (mark : α) (line : List α) : List α :=
  if line.getLast? = some mark then line.dropLast else line

/-- The lines of a text.  A line ends with `feed`, and one `ret` right before that belongs
to the end, too.  What follows the last `feed` is one more line, whole, unless it is empty. -/
def splitLines {α : Type} [DecidableEq α] (feed ret : α) (text : List α) : List (List α) :=
  let pieces := text.splitOnP (· = feed)
  let ended := pieces.dropLast.map (dropEnd ret)
  match pieces.getLast? with
  | none => ended
  | some rest => if rest.isEmpty then ended else ended ++ [rest]

def lines (text : List Char) : List (List Char) := splitLines '\n' '\r' text

def byteLines (bytes : List UInt8) : List (List UInt8) := splitLines 10 13 bytes

/-- The characters that bytes stand for in UTF-8, if they are valid. -/
def decode? (bytes : List UInt8) : Option (List Char) :=
  (ByteArray.utf8Decode? ⟨bytes.toArray⟩).map Array.toList

/-- A list with its entries numbered from one. -/
def numbered {α : Type} (entries : List α) : List (Nat × α) :=
  (entries.zipIdx 1).map Prod.swap

end UnitPropagation.Text
