/-!
Days of the Gregorian calendar and moments of a day, from year 1 to 9999. A moment may know how far
its clock is ahead of universal time.
-/

namespace SchemaScript

structure Date where
  year : Nat
  month : Nat
  day : Nat
deriving DecidableEq, Repr

structure Moment where
  date : Date
  hour : Nat
  minute : Nat
  second : Nat
  microsecond : Nat
  offset : Option Int
deriving DecidableEq, Repr

inductive CalendarFault
  | year (value : Nat)
  | month
  | day
  | hour
  | minute
  | second
  | offset (seconds : Int)
deriving DecidableEq, Repr

def secondsPerDay : Int := 86400

def durationText (seconds : Int) : String :=
  let days := Int.fdiv seconds secondsPerDay
  let rest := Int.fmod seconds secondsPerDay
  let parts := (if days = 0 then [] else ["days=" ++ toString days]) ++
    (if rest = 0 then [] else ["seconds=" ++ toString rest])
  "datetime.timedelta(" ++ (if parts.isEmpty then "0" else ", ".intercalate parts) ++ ")"

def CalendarFault.message : CalendarFault → String
  | .year value => "year " ++ toString value ++ " is out of range"
  | .month => "month must be in 1..12"
  | .day => "day is out of range for month"
  | .hour => "hour must be in 0..23"
  | .minute => "minute must be in 0..59"
  | .second => "second must be in 0..59"
  | .offset seconds =>
    "offset must be a timedelta strictly between -timedelta(hours=24) and timedelta(hours=24), not "
      ++ durationText seconds ++ "."

def isLeap (year : Nat) : Bool := year % 4 = 0 && (year % 100 != 0 || year % 400 = 0)

def daysIn (year month : Nat) : Nat :=
  if month = 2 then (if isLeap year then 29 else 28)
  else if month = 4 || month = 6 || month = 9 || month = 11 then 30
  else 31

def Date.check (date : Date) : Except CalendarFault Date :=
  if date.year < 1 || 9999 < date.year then .error (.year date.year)
  else if date.month < 1 || 12 < date.month then .error .month
  else if date.day < 1 || daysIn date.year date.month < date.day then .error .day
  else .ok date

def Moment.check (moment : Moment) : Except CalendarFault Moment := do
  if let some seconds := moment.offset then
    if seconds ≤ -secondsPerDay || secondsPerDay ≤ seconds then throw (.offset seconds)
  let _ ← moment.date.check
  if 23 < moment.hour then throw .hour
  if 59 < moment.minute then throw .minute
  if 59 < moment.second then throw .second
  return moment

/-- Days from the first of March of year 0. -/
def Date.number (date : Date) : Int :=
  let year : Int := if date.month ≤ 2 then (date.year : Int) - 1 else date.year
  let month : Int := if date.month ≤ 2 then date.month + 9 else (date.month : Int) - 3
  365 * year + Int.fdiv year 4 - Int.fdiv year 100 + Int.fdiv year 400 +
    (153 * month + 2) / 5 + date.day - 1

def Date.ofNumber (number : Int) : Date :=
  let era := Int.fdiv number 146097
  let inEra := Int.fmod number 146097
  let yearOfEra := (inEra - inEra / 1460 + inEra / 36524 - inEra / 146096) / 365
  let dayOfYear := inEra - (365 * yearOfEra + yearOfEra / 4 - yearOfEra / 100)
  let shifted := (5 * dayOfYear + 2) / 153
  let day := dayOfYear - (153 * shifted + 2) / 5 + 1
  let month := if shifted < 10 then shifted + 3 else shifted - 9
  let year := yearOfEra + era * 400 + (if month ≤ 2 then 1 else 0)
  ⟨year.toNat, month.toNat, day.toNat⟩

def epoch : Date := ⟨1970, 1, 1⟩

def Moment.ofEpoch (seconds : Int) (microsecond : Nat) : Moment :=
  let day := Int.fdiv seconds secondsPerDay
  let rest := (Int.fmod seconds secondsPerDay).toNat
  ⟨.ofNumber (epoch.number + day), rest / 3600, rest / 60 % 60, rest % 60, microsecond, some 0⟩

def Moment.seconds (moment : Moment) : Int :=
  moment.date.number * secondsPerDay + moment.hour * 3600 + moment.minute * 60 + moment.second -
    moment.offset.getD 0

/-- Whether two moments are the same. A clock that states its offset is never compared with one
that does not. -/
def Moment.same (a b : Moment) : Bool :=
  a.offset.isSome == b.offset.isSome && a.seconds == b.seconds && a.microsecond == b.microsecond

def Date.text (date : Date) : String :=
  "datetime.date(" ++ ", ".intercalate ([date.year, date.month, date.day].map toString) ++ ")"

def offsetText (seconds : Int) : String :=
  if seconds = 0 then "datetime.timezone.utc"
  else "datetime.timezone(" ++ durationText seconds ++ ")"

/-- Seconds and microseconds are left out from the end while they are nought. -/
def Moment.text (moment : Moment) : String :=
  let fine :=
    if moment.microsecond != 0 then [moment.second, moment.microsecond]
    else if moment.second != 0 then [moment.second]
    else []
  let fields := ([moment.date.year, moment.date.month, moment.date.day, moment.hour,
    moment.minute] ++ fine).map toString
  let zone := (moment.offset.map fun seconds => "tzinfo=" ++ offsetText seconds).toList
  "datetime.datetime(" ++ ", ".intercalate (fields ++ zone) ++ ")"

def paddedNumber (width n : Nat) : String :=
  let digits := (toString n).toList
  String.ofList (List.replicate (width - digits.length) '0' ++ digits)

def Date.isoText (date : Date) : String :=
  "-".intercalate [paddedNumber 4 date.year, paddedNumber 2 date.month, paddedNumber 2 date.day]

def timeText (moment : Moment) : String :=
  ":".intercalate
    [paddedNumber 2 moment.hour, paddedNumber 2 moment.minute, paddedNumber 2 moment.second]

end SchemaScript
