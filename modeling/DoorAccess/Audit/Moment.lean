/-!
A reading of the clock to the minute, and its date and time as they are written.
-/
namespace DoorAccess.Audit

structure Moment where
  year : Fin 10000
  month : Fin 13
  day : Fin 32
  hour : Fin 24
  minute : Fin 60
deriving DecidableEq, Repr

namespace Moment

def digit (n : Nat) : Char := Char.ofNat ('0'.toNat + n % 10)

def twoDigits (n : Nat) : List Char := [digit (n / 10), digit n]

def fourDigits (n : Nat) : List Char := twoDigits (n / 100) ++ twoDigits n

def date (m : Moment) : String :=
  String.ofList (twoDigits m.day ++ '/' :: twoDigits m.month ++ '/' :: fourDigits m.year)

def time (m : Moment) : String :=
  String.ofList (twoDigits m.hour ++ ':' :: twoDigits m.minute)

/-- The day in the form that orders like the calendar. -/
def dayKey (m : Moment) : String :=
  String.ofList (fourDigits m.year ++ '_' :: twoDigits m.month ++ '_' :: twoDigits m.day)

end Moment

end DoorAccess.Audit
