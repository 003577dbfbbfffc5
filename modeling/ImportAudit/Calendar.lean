/-!
# Calendar days
-/

namespace ImportAudit.Calendar

def isLeap (year : Nat) : Bool :=
  year % 4 == 0 && (year % 100 != 0 || year % 400 == 0)

def monthLengths (year : Nat) : List Nat :=
  [31, if isLeap year then 29 else 28, 31, 30, 31, 30, 31, 31, 30, 31, 30, 31]

def daysInMonth (year month : Nat) : Nat :=
  (monthLengths year).getD (month - 1) 0

def daysBeforeYear (year : Nat) : Nat :=
  let y := year - 1
  y * 365 + y / 4 - y / 100 + y / 400

/-- The number of a day, from the first day of the year 1 on. -/
def dayNumber (year month day : Nat) : Nat :=
  daysBeforeYear year + ((monthLengths year).take (month - 1)).foldl (· + ·) 0 + day

def dateFault? (year month day : Nat) : Option String :=
  if year = 0 then some ("year " ++ toString year ++ " is out of range")
  else if month = 0 ∨ 12 < month then some "month must be in 1..12"
  else if day = 0 ∨ daysInMonth year month < day then some "day is out of range for month"
  else none

def timeFault? (hour minute second : Nat) : Option String :=
  if 23 < hour then some "hour must be in 0..23"
  else if 59 < minute then some "minute must be in 0..59"
  else if 59 < second then some "second must be in 0..59"
  else none

/-- What is wrong with an offset in minutes, if anything: it is less than a day. -/
def offsetFault? (minutes : Int) : Option String :=
  if minutes.natAbs < 24 * 60 then none
  else
    let days := Int.fdiv minutes (24 * 60)
    let seconds := Int.fmod minutes (24 * 60) * 60
    some ("offset must be a timedelta strictly between -timedelta(hours=24) and "
      ++ "timedelta(hours=24), not datetime.timedelta(days=" ++ toString days
      ++ (if seconds = 0 then "" else ", seconds=" ++ toString seconds) ++ ").")

end ImportAudit.Calendar
