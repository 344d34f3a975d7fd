import Runbook.Text.Digits
import Runbook.Text.Quoted

/-! Dates, and moments of a day with or without a time zone: how they are read from their parts, when
two of them are the same, and how they are shown. -/
namespace Runbook.Yaml

structure Date where
  year : Nat
  month : Nat
  day : Nat
  deriving DecidableEq, Repr

/-- A distance in minutes from the prime meridian, under the name by which it was given. -/
structure Zone where
  offset : Int
  name : Text
  deriving DecidableEq, Repr

structure Moment where
  date : Date
  hour : Nat
  minute : Nat
  second : Nat
  microsecond : Nat
  zone : Option Zone
  deriving DecidableEq, Repr

/-- Why parts make no date. -/
inductive DateFault where
  | year (n : Nat)
  | month
  | day
  | hour
  | minute
  | second
  /-- A zone a day or more away, by minutes. -/
  | zone (offset : Int)
  /-- The last moment of the calendar has no next one. -/
  | endOfTime
  deriving DecidableEq, Repr

def isLeap (year : Nat) : Bool := year % 4 == 0 && (year % 100 != 0 || year % 400 == 0)

def daysIn (year month : Nat) : Nat :=
  if month = 2 then (if isLeap year then 29 else 28)
  else if month = 4 ∨ month = 6 ∨ month = 9 ∨ month = 11 then 30 else 31

namespace Date

/-- The last year of the calendar. -/
def lastYear : Nat := 9999

def ofParts (year month day : Nat) : Except DateFault Date :=
  if year = 0 then .error (.year year)
  else if month = 0 ∨ 12 < month then .error .month
  else if day = 0 ∨ daysIn year month < day then .error .day
  else .ok ⟨year, month, day⟩

/-- The day after, unless the calendar ends. -/
def next? (d : Date) : Option Date :=
  if d.day < daysIn d.year d.month then some { d with day := d.day + 1 }
  else if d.month < 12 then some ⟨d.year, d.month + 1, 1⟩
  else if d.year < lastYear then some ⟨d.year + 1, 1, 1⟩
  else none

/-- The days from the first of the calendar. -/
def ordinal (d : Date) : Nat :=
  let past := d.year - 1
  past * 365 + past / 4 - past / 100 + past / 400 +
    ((List.range d.month).drop 1).foldl (fun n month => n + daysIn d.year month) 0 + d.day

def parts (d : Date) : List Nat := [d.year, d.month, d.day]

def shown (d : Date) : Text :=
  "datetime.date(" ++ Text.joinWith ", " (d.parts.map Text.ofNat) ++ [')']

end Date

/-- A span of minutes as it is shown: days, and seconds that are not negative. -/
def spanShown (minutes : Int) : Text :=
  let days := minutes / 1440
  let seconds := minutes % 1440 * 60
  let named (name : Text) (n : Int) : List Text :=
    if n = 0 then [] else [name ++ '=' :: Text.ofInt n]
  let parts := named "days" days ++ named "seconds" seconds
  "datetime.timedelta(" ++ (if parts.isEmpty then ['0'] else Text.joinWith ", " parts) ++ [')']

def Zone.shown (z : Zone) : Text :=
  "datetime.timezone(" ++ spanShown z.offset ++ ", " ++ Text.inQuotes z.name ++ [')']

namespace Moment

/-- The moment a second later, unless the calendar ends. -/
def next? (m : Moment) : Option Moment :=
  if m.second < 59 then some { m with second := m.second + 1 }
  else if m.minute < 59 then some { m with minute := m.minute + 1, second := 0 }
  else if m.hour < 23 then some { m with hour := m.hour + 1, minute := 0, second := 0 }
  else m.date.next?.map fun date => { m with date, hour := 0, minute := 0, second := 0 }

/-- Microseconds of a moment without regard to its zone. -/
def count (m : Moment) : Int :=
  (((m.date.ordinal * 24 + m.hour) * 60 + m.minute) * 60 + m.second) * 1000000 + m.microsecond

/-- Moments are the same wherever they are told; one with a zone is never one without. -/
def same (a b : Moment) : Bool :=
  match a.zone, b.zone with
  | none, none => a.count == b.count
  | some x, some y => a.count - x.offset * 60000000 == b.count - y.offset * 60000000
  | _, _ => false

/-- Microseconds of zero are left out, and seconds of zero before them. -/
def shown (m : Moment) : Text :=
  let small : List Nat :=
    if m.microsecond ≠ 0 then [m.second, m.microsecond]
    else if m.second ≠ 0 then [m.second] else []
  let zone := match m.zone with
    | some z => ", tzinfo=" ++ z.shown
    | none => []
  "datetime.datetime(" ++
    Text.joinWith ", " ((m.date.parts ++ [m.hour, m.minute] ++ small).map Text.ofNat) ++ zone ++ [')']

end Moment

/-- The written form of a zone: the letter for the meridian itself, or a sign with hours and
minutes. -/
inductive ZoneMark where
  | meridian
  | away (sign : Char) (hours : Text) (minutes : Option Text)
  deriving DecidableEq, Repr

/-- The written parts of a time. -/
structure Clock where
  hour : Text
  minute : Text
  second : Text
  /-- The digits of a fraction of the second, if there is a point. -/
  fraction : Text := []
  zone : Option ZoneMark := none
  deriving DecidableEq, Repr

/-- The written parts of a date, and of the time after it if there is any. -/
structure Stamp where
  year : Text
  month : Text
  day : Text
  clock : Option Clock := none
  deriving DecidableEq, Repr

/-- At least and at most so many digits. -/
def digitRun? (least most : Nat) (s : Text) : Option (Text × Text) :=
  let run := (s.take most).takeWhile Char.isDigit
  if run.length < least then none else some (run, s.drop run.length)

def mark? (c : Char) (s : Text) : Option Text :=
  match s with
  | d :: r => if c = d then some r else none
  | [] => none

/-- A zone that ends a text. -/
def zoneMark? (s : Text) : Option ZoneMark :=
  match s with
  | ['Z'] => some .meridian
  | sign :: r =>
    if sign == '+' || sign == '-' then
      match digitRun? 1 2 r with
      | some (hours, []) => some (.away sign hours none)
      | some (hours, ':' :: minutes) =>
        if minutes.length = 2 ∧ minutes.all Char.isDigit then
          some (.away sign hours (some minutes))
        else none
      | _ => none
    else none
  | [] => none

/-- The digits after the point of a fraction, and the rest. -/
def fractionDigits : Text → Text × Text
  | '.' :: r => (r.takeWhile Char.isDigit, r.dropWhile Char.isDigit)
  | r => ([], r)

/-- What separates a date from its time: a letter, or blanks. -/
def afterDate? : Text → Option Text
  | 'T' :: r => some r
  | 't' :: r => some r
  | c :: r => if Text.isSpaceOrTab c then some (r.dropWhile Text.isSpaceOrTab) else none
  | [] => none

/-- A time that ends a text. -/
def clock? (s : Text) : Option Clock := do
  let (hour, s) ← digitRun? 1 2 s
  let (minute, s) ← digitRun? 2 2 (← mark? ':' s)
  let (second, s) ← digitRun? 2 2 (← mark? ':' s)
  let (fraction, s) := fractionDigits s
  if s.isEmpty then return { hour, minute, second, fraction }
  else
    let zone ← zoneMark? (s.dropWhile Text.isSpaceOrTab)
    return { hour, minute, second, fraction, zone }

/-- A date, by itself or with a time. -/
def stamp? (s : Text) : Option Stamp := do
  let (year, s) ← digitRun? 4 4 s
  let (month, s) ← digitRun? 1 2 (← mark? '-' s)
  let (day, s) ← digitRun? 1 2 (← mark? '-' s)
  if s.isEmpty then return { year, month, day }
  else
    let clock ← clock? (← afterDate? s)
    return { year, month, day, clock }

/-- The zone that its mark describes. -/
def ZoneMark.read : ZoneMark → Except DateFault Zone
  | .meridian => .ok ⟨0, ['Z']⟩
  | .away sign hours minutes =>
    let size : Int := Text.numeral hours * 60 + Text.numeral (minutes.getD [])
    let offset := if sign = '-' then -size else size
    if 1440 ≤ size then .error (.zone offset)
    else .ok ⟨offset, sign :: hours ++ (match minutes with
      | some m => ':' :: m
      | none => [])⟩

/-- The microseconds of the digits of a fraction. The seventh digit rounds them. -/
def microseconds (fraction : Text) : Nat :=
  Text.numeral ((fraction ++ List.replicate 6 '0').take 6) +
    (if (fraction.drop 6).head?.any ('5' ≤ ·) then 1 else 0)

/-- The moment of a day that a clock shows. -/
def Clock.read (c : Clock) (day : Except DateFault Date) : Except DateFault Moment := do
  let zone ← c.zone.mapM ZoneMark.read
  let date ← day
  let hour := Text.numeral c.hour
  let minute := Text.numeral c.minute
  let second := Text.numeral c.second
  if 23 < hour then throw .hour
  if 59 < minute then throw .minute
  if 59 < second then throw .second
  let fraction := microseconds c.fraction
  if fraction < 1000000 then return ⟨date, hour, minute, second, fraction, zone⟩
  else
    match (⟨date, hour, minute, second, 0, zone⟩ : Moment).next? with
    | some m => return m
    | none => throw .endOfTime

/-- The date of a stamp. -/
def Stamp.date (s : Stamp) : Except DateFault Date :=
  Date.ofParts (Text.numeral s.year) (Text.numeral s.month) (Text.numeral s.day)

namespace DateFault

/-- The words for a fault; there are none for the end of time. -/
def message : DateFault → Text
  | year n => "year " ++ Text.ofNat n ++ " is out of range"
  | month => "month must be in 1..12"
  | day => "day is out of range for month"
  | hour => "hour must be in 0..23"
  | minute => "minute must be in 0..59"
  | second => "second must be in 0..59"
  | zone offset =>
    "offset must be a timedelta strictly between -timedelta(hours=24) and timedelta(hours=24), not "
      ++ spanShown offset ++ ['.']
  | endOfTime => []

end DateFault
end Runbook.Yaml
