/-
# Moments — dates and times in a document

`2001-12-14` is a date.  A time may follow, `2001-12-14t21:59:43.10-05:00`, with a fraction
of a second and a distance from universal time, either of which may be missing.  What is
written so need not exist; a moment is asked for its flaw before it is taken.
-/
import ImageTrust.Text.Basic

namespace ImageTrust

/-- A time of the day, to the microsecond. -/
structure TimeOfDay where
  hour : Nat
  minute : Nat
  second : Nat
  microsecond : Nat
  /-- The seconds that the clock is ahead of universal time, where that is known. -/
  ahead : Option Int
deriving DecidableEq, Repr

/-- A date, with or without a time. -/
structure Moment where
  year : Nat
  month : Nat
  day : Nat
  time : Option TimeOfDay
deriving DecidableEq, Repr

/-- Why no moment has these parts. -/
inductive Moment.Flaw where
  | year (n : Nat)
  | month
  | day
  | hour
  | minute
  | second
  | ahead (seconds : Int)
deriving DecidableEq, Repr

namespace Moment

/-! ## Reading -/

/-- A number of `least` to `most` digits at the start of a text, and what follows it. -/
def takeDigits? (least most : Nat) (t : Text) : Option (Nat × Text) :=
  let digits := (t.take most).takeWhile CodePoint.isDigit
  if digits.length < least then none else some (Text.decimalValue digits, t.drop digits.length)

/-- What follows a sign at the start of a text. -/
def takeSign? (sign : CodePoint) : Text → Option Text
  | [] => none
  | c :: t => if c = sign then some t else none

/-- Whether this is a space or a tab. -/
def isGap (c : CodePoint) : Bool := c = ' ' || c = '\t'

/-- The text after what divides the time from the date. -/
def takeDivider? : Text → Option Text
  | [] => none
  | c :: t =>
    if c = 't' ∨ c = 'T' then some t
    else if isGap c then some (t.dropWhile isGap)
    else none

/-- The microseconds of a fraction, if the text starts with one, and what follows. Digits
beyond the sixth do not count. -/
def takeFraction : Text → Nat × Text
  | [] => (0, [])
  | c :: t =>
    if c = '.' then
      let digits := (t.takeWhile CodePoint.isDigit).take 6
      (Text.decimalValue digits * 10 ^ (6 - digits.length), t.dropWhile CodePoint.isDigit)
    else (0, c :: t)

/-- The distance from universal time that the whole text writes, in seconds. -/
def ahead? (t : Text) : Option (Option Int) :=
  match t.dropWhile isGap with
  | [] => if t = [] then some none else none
  | c :: t =>
    if c = 'Z' then (if t = [] then some (some 0) else none)
    else if c = '+' ∨ c = '-' then do
      let (hours, t) ← takeDigits? 1 2 t
      let minutes ←
        if t = [] then some 0
        else do
          let (minutes, t) ← takeDigits? 2 2 (← takeSign? ':' t)
          if t = [] then some minutes else none
      let seconds := Int.ofNat (hours * 3600 + minutes * 60)
      return some (if c = '-' then -seconds else seconds)
    else none

/-- The time that the whole text writes. -/
def time? (t : Text) : Option TimeOfDay := do
  let (hour, t) ← takeDigits? 1 2 t
  let (minute, t) ← takeDigits? 2 2 (← takeSign? ':' t)
  let (second, t) ← takeDigits? 2 2 (← takeSign? ':' t)
  let (microsecond, t) := takeFraction t
  let ahead ← ahead? t
  return { hour, minute, second, microsecond, ahead }

/-- The moment that a text writes. -/
def ofText? (t : Text) : Option Moment := do
  let (year, t) ← takeDigits? 4 4 t
  let (month, t) ← takeDigits? 1 2 (← takeSign? '-' t)
  let (day, t) ← takeDigits? 1 2 (← takeSign? '-' t)
  if t = [] then return { year, month, day, time := none }
  else
    let time ← time? (← takeDivider? t)
    return { year, month, day, time := some time }

/-! ## Existence -/

/-- Whether the year has a day more. -/
def isLeap (year : Nat) : Bool := year % 4 == 0 && (year % 100 != 0 || year % 400 == 0)

/-- The days of a month. -/
def daysIn (year month : Nat) : Nat :=
  if month = 2 then (if isLeap year then 29 else 28)
  else if month = 4 ∨ month = 6 ∨ month = 9 ∨ month = 11 then 30
  else 31

/-- The seconds of a day. -/
def daySeconds : Nat := 86400

/-- Why the moment does not exist, if it does not. The distance from universal time is looked
at first, then the parts from the year on. -/
def flaw? (m : Moment) : Option Flaw :=
  let distance := (m.time.bind TimeOfDay.ahead).getD 0
  let time := m.time.getD { hour := 0, minute := 0, second := 0, microsecond := 0, ahead := none }
  if daySeconds ≤ distance.natAbs then some (.ahead distance)
  else if m.year = 0 then some (.year m.year)
  else if m.month = 0 ∨ 12 < m.month then some .month
  else if m.day = 0 ∨ daysIn m.year m.month < m.day then some .day
  else if 24 ≤ time.hour then some .hour
  else if 60 ≤ time.minute then some .minute
  else if 60 ≤ time.second then some .second
  else none

/-! ## Showing -/

/-- A stretch of time as a message shows it: days, and seconds within the day. -/
def stretchShown (seconds : Int) : Text :=
  let days := Int.fdiv seconds daySeconds
  let rest := Int.fmod seconds daySeconds
  let parts : List Text :=
    (if days = 0 then [] else [Text.sentence ["days=", Text.integer days]]) ++
      (if rest = 0 then [] else [Text.sentence ["seconds=", Text.integer rest]])
  Text.sentence ["datetime.timedelta(", if parts = [] then "0" else Text.joined ", " parts, ")"]

/-- A clock as a message shows it. -/
def clockShown : Option Int → Text
  | none => []
  | some 0 => ", tzinfo=datetime.timezone.utc"
  | some seconds =>
    Text.sentence [", tzinfo=datetime.timezone(", stretchShown seconds, ")"]

/-- The numbers of a time: the seconds, and what is smaller, are left out where they are zero. -/
def timeParts (t : TimeOfDay) : List Nat :=
  [t.hour, t.minute] ++
    (if t.microsecond ≠ 0 then [t.second, t.microsecond]
      else if t.second ≠ 0 then [t.second] else [])

/-- The moment as a message shows it. -/
def shown (m : Moment) : Text :=
  let numbers (parts : List Nat) : Text := Text.joined ", " (parts.map Text.decimal)
  match m.time with
  | none => Text.sentence ["datetime.date(", numbers [m.year, m.month, m.day], ")"]
  | some t =>
    Text.sentence ["datetime.datetime(", numbers ([m.year, m.month, m.day] ++ timeParts t),
      clockShown t.ahead, ")"]

end Moment

/-- What is said of parts that no moment has. -/
def Moment.Flaw.message : Moment.Flaw → Text
  | .year n => Text.sentence ["year ", Text.decimal n, " is out of range"]
  | .month => "month must be in 1..12"
  | .day => "day is out of range for month"
  | .hour => "hour must be in 0..23"
  | .minute => "minute must be in 0..59"
  | .second => "second must be in 0..59"
  | .ahead seconds =>
    Text.sentence
      ["offset must be a timedelta strictly between -timedelta(hours=24) and ",
       "timedelta(hours=24), not ", Moment.stretchShown seconds, "."]

end ImageTrust
