/-! Dates and times of day. A date exists in the calendar or is refused for the first of its parts
that does not fit. -/

namespace Recenter.Calendar

inductive Fault
  | year (n : Nat)
  | month
  | day
  | hour
  | minute
  | second
  | offset (seconds : Int)
deriving DecidableEq, Repr

structure Date where
  year : Nat
  month : Nat
  day : Nat
deriving DecidableEq, Repr

/-- A time of day on a date. The offset counts seconds east of the prime meridian. -/
structure Moment where
  date : Date
  hour : Nat
  minute : Nat
  second : Nat
  micro : Nat
  offset : Option Int
deriving DecidableEq, Repr

def isLeap (year : Nat) : Bool :=
  year % 4 == 0 && (year % 100 != 0 || year % 400 == 0)

def daysIn (year month : Nat) : Nat :=
  if month = 2 then (if isLeap year then 29 else 28)
  else if month ∈ [4, 6, 9, 11] then 30
  else 31

def Date.ofParts (year month day : Nat) : Except Fault Date :=
  if year = 0 ∨ 9999 < year then .error (.year year)
  else if month = 0 ∨ 12 < month then .error .month
  else if day = 0 ∨ daysIn year month < day then .error .day
  else .ok ⟨year, month, day⟩

def checkOffset (seconds : Int) : Except Fault Unit :=
  if seconds.natAbs < 86400 then .ok () else .error (.offset seconds)

/-- The date is looked at before the time of day. -/
def Moment.ofParts (year month day hour minute second micro : Nat) (offset : Option Int) :
    Except Fault Moment := do
  let date ← Date.ofParts year month day
  if 23 < hour then .error .hour
  else if 59 < minute then .error .minute
  else if 59 < second then .error .second
  else .ok ⟨date, hour, minute, second, micro, offset⟩

def Date.toDays (d : Date) : Nat :=
  let years := d.year - 1
  let inMonths := (List.range (d.month - 1)).foldl (fun days m => days + daysIn d.year (m + 1)) 0
  365 * years + years / 4 - years / 100 + years / 400 + inMonths + (d.day - 1)

/-- The time of a clock that shows universal time, in millionths of a second. -/
def Moment.universal (m : Moment) (offset : Int) : Int :=
  let seconds : Int := m.date.toDays * 86400 + m.hour * 3600 + m.minute * 60 + m.second
  (seconds - offset) * 1000000 + m.micro

/-- Whether two moments are one point in time. Without an offset a moment is at no known one, and
equal only to a moment that reads the same. -/
def Moment.isSameTime (m n : Moment) : Bool :=
  match m.offset, n.offset with
  | none, none => m == n
  | some a, some b => m.universal a == n.universal b
  | _, _ => false

/-- The date so many days after the first of March of the year zero. Its year begins in March, so
that a leap day is the last day of its year; months of 31 and of 30 days then alternate in runs of
five, which have 153 days. -/
def Date.ofMarchDay (days : Nat) : Date :=
  let era := days / 146097
  let day := days % 146097
  let year := (day - day / 1460 + day / 36524 - day / 146096) / 365
  let inYear := day - (365 * year + year / 4 - year / 100)
  let month := (5 * inYear + 2) / 153
  let dayOfMonth := inYear - (153 * month + 2) / 5 + 1
  if month < 10 then ⟨400 * era + year, month + 3, dayOfMonth⟩
  else ⟨400 * era + year + 1, month - 9, dayOfMonth⟩

/-- The point in time so many seconds after the beginning of 1970. -/
def Moment.ofSeconds (n : Nat) : Moment :=
  ⟨Date.ofMarchDay (n / 86400 + 719468), n % 86400 / 3600, n % 3600 / 60, n % 60, 0, none⟩

/-- A span of time as a message shows it: whole days, and the seconds that are left over. -/
def shownSpan (seconds : Int) : String :=
  let days := seconds.fdiv 86400
  let rest := seconds.fmod 86400
  let parts :=
    (if days = 0 then [] else ["days=" ++ toString days]) ++
    (if rest = 0 then [] else ["seconds=" ++ toString rest])
  "datetime.timedelta(" ++ (if parts.isEmpty then "0" else ", ".intercalate parts) ++ ")"

def Fault.message : Fault → String
  | year n => "year " ++ toString n ++ " is out of range"
  | month => "month must be in 1..12"
  | day => "day is out of range for month"
  | hour => "hour must be in 0..23"
  | minute => "minute must be in 0..59"
  | second => "second must be in 0..59"
  | offset seconds =>
    "offset must be a timedelta strictly between -timedelta(hours=24) and " ++
      "timedelta(hours=24), not " ++ shownSpan seconds ++ "."

def listed (numbers : List Nat) : String :=
  ", ".intercalate (numbers.map toString)

def Date.shown (d : Date) : String :=
  "datetime.date(" ++ listed [d.year, d.month, d.day] ++ ")"

def shownOffset (seconds : Int) : String :=
  if seconds = 0 then "datetime.timezone.utc"
  else "datetime.timezone(" ++ shownSpan seconds ++ ")"

/-- Seconds and smaller parts are left out at the end where they are zero. -/
def Moment.shown (m : Moment) : String :=
  let time :=
    if m.micro ≠ 0 then [m.hour, m.minute, m.second, m.micro]
    else if m.second ≠ 0 then [m.hour, m.minute, m.second]
    else [m.hour, m.minute]
  let zone :=
    match m.offset with
    | some seconds => ", tzinfo=" ++ shownOffset seconds
    | none => ""
  "datetime.datetime(" ++ listed ([m.date.year, m.date.month, m.date.day] ++ time) ++ zone ++ ")"

def padded (width n : Nat) : String :=
  let digits := toString n
  String.ofList (List.replicate (width - digits.length) '0') ++ digits

def Date.text (d : Date) : String :=
  padded 4 d.year ++ "-" ++ padded 2 d.month ++ "-" ++ padded 2 d.day

/-- Hours and minutes of an offset, and its seconds if there are any. -/
def offsetText (seconds : Int) : String :=
  let n := seconds.natAbs
  (if seconds < 0 then "-" else "+") ++ padded 2 (n / 3600) ++ ":" ++ padded 2 (n / 60 % 60) ++
    (if n % 60 = 0 then "" else ":" ++ padded 2 (n % 60))

def Moment.text (m : Moment) : String :=
  m.date.text ++ " " ++ padded 2 m.hour ++ ":" ++ padded 2 m.minute ++ ":" ++
    padded 2 m.second ++ (if m.micro = 0 then "" else "." ++ padded 6 m.micro) ++
    (m.offset.map offsetText).getD ""

end Recenter.Calendar
