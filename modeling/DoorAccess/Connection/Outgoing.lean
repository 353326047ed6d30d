/-!
What is put out on a connection: texts, and files that are read when their turn comes.
-/
namespace DoorAccess

inductive Outgoing
  | text (payload : String)
  | file (path : String)
deriving DecidableEq, Repr

inductive Flow
  | stay
  | close
deriving DecidableEq, Repr

end DoorAccess
