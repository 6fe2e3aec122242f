namespace UnitPropagation.Text

/-! Terminal control sequences, and the text that is left without them.

A control sequence starts with the escape character.  What follows decides its kind: a
control sequence proper starts with `[`, a device control string with `P`, an operating
system command with `]`. -/

/-- How far a control sequence has been read. -/
inductive ControlMode where
  /-- Outside of any sequence. -/
  | ground
  | escape
  | escapeIntermediate
  | sequenceEntry
  | sequenceParameter
  | sequenceIntermediate
  /-- Waiting for the end of a malformed sequence. -/
  | sequenceIgnore
  | deviceEntry
  | deviceParameter
  | deviceIntermediate
  /-- Inside the text of a device control string, or of a string for an application. -/
  | string
  /-- Inside an operating system command. -/
  | command
deriving DecidableEq, Repr

/-- Whether a character lies between two others, both included. -/
def between (low high c : Char) : Bool := decide (low ≤ c) && decide (c ≤ high)

/-- Whether a character may stand before the last one of a sequence. -/
def isIntermediate (c : Char) : Bool := between ' ' '/' c

/-- Whether a character is a digit or separator of a parameter. -/
def isParameter (c : Char) : Bool := between '0' ';' c

/-- Whether a character marks parameters as private. -/
def isPrivate (c : Char) : Bool := between '<' '?' c

/-- Whether a character ends a control sequence proper. -/
def isFinal (c : Char) : Bool := between '@' '~' c

/-- Whether the encoding of a character holds the byte that ends a string. -/
def holdsTerminator (c : Char) : Bool := (String.utf8EncodeChar c).contains 0x9c

/-- Whether a character is a blank among the control characters. -/
def isBlankControl (c : Char) : Bool := ['\t', '\n', '\x0c', '\r'].contains c

namespace ControlMode

/-- The mode after a character other than cancel, substitute and escape. -/
def advance (mode : ControlMode) (c : Char) : ControlMode :=
  match mode with
  | .ground => .ground
  | .escape =>
      if isIntermediate c then .escapeIntermediate
      else if c = '[' then .sequenceEntry
      else if c = ']' then .command
      else if c = 'P' then .deviceEntry
      else if c = 'X' || c = '^' || c = '_' then .string
      else if between '0' '~' c then .ground
      else mode
  | .escapeIntermediate => if between '0' '~' c then .ground else mode
  | .sequenceEntry =>
      if isIntermediate c then .sequenceIntermediate
      else if isParameter c || isPrivate c then .sequenceParameter
      else if isFinal c then .ground
      else mode
  | .sequenceParameter =>
      if isIntermediate c then .sequenceIntermediate
      else if isPrivate c then .sequenceIgnore
      else if isFinal c then .ground
      else mode
  | .sequenceIntermediate =>
      if isParameter c || isPrivate c then .sequenceIgnore
      else if isFinal c then .ground
      else mode
  | .sequenceIgnore => if isFinal c then .ground else mode
  | .deviceEntry =>
      if isIntermediate c then .deviceIntermediate
      else if isParameter c || isPrivate c then .deviceParameter
      else if isFinal c then .string
      else mode
  | .deviceParameter =>
      if isIntermediate c then .deviceIntermediate
      else if isPrivate c || isFinal c then .string
      else mode
  | .deviceIntermediate =>
      if isParameter c || isPrivate c || isFinal c then .string else mode
  | .string => if holdsTerminator c then .ground else mode
  | .command => if c = '\x07' then .ground else mode

/-- The mode after a character: cancel and substitute end any sequence, and the escape
character starts one. -/
def next (mode : ControlMode) (c : Char) : ControlMode :=
  if c = '\x18' || c = '\x1a' then .ground
  else if c = '\x1b' then .escape
  else mode.advance c

/-- Whether blanks among the control characters are text. -/
def passesBlanks : ControlMode → Bool
  | .deviceEntry | .deviceParameter | .deviceIntermediate | .string | .command => false
  | _ => true

/-- Whether a character is text. -/
def passes (mode : ControlMode) (c : Char) : Bool :=
  if isBlankControl c then mode.passesBlanks
  else mode = .ground && !decide (c < ' ') && c ≠ '\x7f'

end ControlMode

/-- The text that is left of characters read in a mode.  Once a character is text
(`inText`), so are those after it, up to one that is no text outside of any sequence; then
the sequence that a blank has interrupted goes on, unless a character beyond ASCII ended it. -/
def stripControlsFrom : ControlMode → Bool → List Char → List Char
  | _, _, [] => []
  | mode, inText, c :: rest =>
      if (if inText then ControlMode.ground else mode).passes c then
        c :: stripControlsFrom (if c < '\x80' then mode else .ground) true rest
      else stripControlsFrom (mode.next c) false rest

/-- A text without its control sequences and without control characters other than blanks. -/
def stripControls (text : List Char) : List Char := stripControlsFrom .ground false text

/-- Text without control characters stays as it is. -/
theorem stripControlsFrom_eq_self (text : List Char) (inText : Bool)
    (plain : ∀ c ∈ text, ControlMode.ground.passes c = true) :
    stripControlsFrom .ground inText text = text := by
  induction text generalizing inText with
  | nil => rfl
  | cons c rest induction =>
      have first : ControlMode.ground.passes c = true := plain c (by simp)
      have others := induction true fun d member => plain d (by simp [member])
      simp [stripControlsFrom, first, others]

end UnitPropagation.Text
