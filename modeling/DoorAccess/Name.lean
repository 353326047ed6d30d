import DoorAccess.Text.Blank

/-!
Names of doors and users. A name is stored and looked up in snake case: only ASCII letters change,
and an underscore marks each capital that follows a small letter.
-/
namespace DoorAccess.Name

/-- Lowers the capitals; the flag says whether the character before was a small ASCII letter. -/
def snakeFrom : Bool → List Char → List Char
  | _, [] => []
  | afterSmall, c :: cs =>
    if c.isUpper then
      if afterSmall then '_' :: c.toLower :: snakeFrom false cs
      else c.toLower :: snakeFrom false cs
    else
      c :: snakeFrom c.isLower cs

def snakeCase (name : String) : String := String.ofList (snakeFrom false name.toList)

/-- The form a record is stored under: trimmed at both ends, then in snake case. None for a name
of which nothing remains. -/
def canonical? (name : String) : Option String :=
  let name := snakeCase (Text.trimmed name)
  if name = "" then none else some name

end DoorAccess.Name
