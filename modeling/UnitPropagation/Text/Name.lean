namespace UnitPropagation.Text

/-! Choosing among values that have names. -/

/-- A text that is the name of none of the values. -/
structure UnknownName where
  text : String
deriving DecidableEq, Repr

def UnknownName.message (unknown : UnknownName) : String := "invalid variant: " ++ unknown.text

/-- Whether two names are the same, perhaps but for the case of ASCII letters. -/
def sameName (ignoreCase : Bool) (left right : String) : Bool :=
  if ignoreCase then left.toList.map Char.toLower == right.toList.map Char.toLower
  else left == right

/-- The first of the values whose name is `text`. -/
def chooseNamed {α : Type} (name : α → String) (values : List α) (ignoreCase : Bool)
    (text : String) : Except UnknownName α :=
  match values.find? fun value => sameName ignoreCase (name value) text with
  | some value => .ok value
  | none => .error ⟨text⟩

end UnitPropagation.Text
