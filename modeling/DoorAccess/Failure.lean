/-!
A failure that ends the program or keeps it from starting: what could not be done, and why.
-/
namespace DoorAccess

structure Failure where
  summary : String
  /-- The reasons, each the reason of the one before it. -/
  causes : List String := []
deriving DecidableEq, Repr

namespace Failure

def during (f : Failure) (context : String) : Failure := ⟨context, f.summary :: f.causes⟩

def line (f : Failure) : String := String.intercalate ": " (f.summary :: f.causes)

/-- Indents the lines of a cause; the first one gets a mark in front. -/
def indented (mark margin text : String) : String :=
  mark ++ String.intercalate ("\n" ++ margin) (text.splitOn "\n")

def numbered (number : Nat) : List String → List String
  | [] => []
  | cause :: causes =>
    indented ("    " ++ toString number ++ ": ") "       " cause :: numbered (number + 1) causes

/-- The text on the error channel. Causes are numbered if there is more than one. -/
def report (f : Failure) : String :=
  "Error: " ++ f.summary ++
    match f.causes with
    | [] => ""
    | [cause] => "\n\nCaused by:\n" ++ indented "    " "    " cause
    | causes => "\n\nCaused by:\n" ++ String.intercalate "\n" (numbered 0 causes)

end Failure

end DoorAccess
