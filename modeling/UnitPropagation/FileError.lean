namespace UnitPropagation

/-! Reasons why a file cannot be read or written. -/

inductive FileError where
  | missing
  | notDirectory
  | isDirectory
  | nameTooLong
  /-- A device takes nothing more. -/
  | noSpace
  /-- A device is not there, though its name is. -/
  | noDevice
  /-- A path holds the character that ends a name. -/
  | nulInPath
  /-- The content is not valid UTF-8. -/
  | notText
  /-- Any other reason, in the words of the surroundings. -/
  | other (reason : String)
deriving DecidableEq, Repr

def FileError.message : FileError → String
  | .missing => "No such file or directory (os error 2)"
  | .notDirectory => "Not a directory (os error 20)"
  | .isDirectory => "Is a directory (os error 21)"
  | .nameTooLong => "File name too long (os error 36)"
  | .noSpace => "No space left on device (os error 28)"
  | .noDevice => "No such device or address (os error 6)"
  | .nulInPath => "file name contained an unexpected NUL byte"
  | .notText => "stream did not contain valid UTF-8"
  | .other reason => reason

end UnitPropagation
