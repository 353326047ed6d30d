/-!
The number of a connection within its listener.
-/
namespace DoorAccess

abbrev ConnectionId := UInt32

end DoorAccess
