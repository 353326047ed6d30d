/-!
Cutting a text in two at a separator, at its first or its last occurrence.
-/
namespace DoorAccess.Text

def cutFirst (separator : List Char) : List Char → Option (List Char × List Char)
  | [] => if separator = [] then some ([], []) else none
  | c :: cs =>
    match separator.isPrefixOf? (c :: cs) with
    | some after => some ([], after)
    | none => (cutFirst separator cs).map fun (before, after) => (c :: before, after)

def cutLast (separator : List Char) : List Char → Option (List Char × List Char)
  | [] => if separator = [] then some ([], []) else none
  | c :: cs =>
    match cutLast separator cs with
    | some (before, after) => some (c :: before, after)
    | none => (separator.isPrefixOf? (c :: cs)).map fun after => ([], after)

end DoorAccess.Text
