import AtomicCss.Text.Digits
import AtomicCss.Toml.Reader

/-!
# Dates and times

A moment is a date, a time, or both, and with both it may have an offset from universal time. The
calendar is checked when a date is read; a sixtieth second is accepted for leap seconds. Digits
beyond the ninth of a fraction of a second are dropped.
-/

namespace AtomicCss.Toml

structure Date where
  year : Nat
  month : Nat
  day : Nat
  deriving DecidableEq, Repr

structure Time where
  hour : Nat
  minute : Nat
  second : Nat
  nanosecond : Nat
  deriving DecidableEq, Repr

/-- How far a clock is ahead of universal time: not at all, or by some minutes. -/
inductive Offset
  | universal
  | minutes (count : Int)
  deriving DecidableEq, Repr

inductive Moment
  | date (date : Date)
  | time (time : Time)
  | dateTime (date : Date) (time : Time) (offset : Option Offset)
  deriving DecidableEq, Repr

def bounded (count least greatest : Nat) (text : Text) : Option (Nat × Text) :=
  let digits : Text := text.take count
  if digits.length = count && digits.all Char.isDigit then
    let value := digits.decimalNumber
    if least ≤ value && value ≤ greatest then some (value, text.drop count) else none
  else none

/-- The text after `char`, if it starts with that character. -/
def expect (char : Char) (text : Text) : Option Text :=
  text.after? [char]

namespace Date

def isLeapYear (year : Nat) : Bool :=
  year % 4 = 0 && (year % 100 ≠ 0 || year % 400 = 0)

def daysIn (year month : Nat) : Nat :=
  if month = 2 then if isLeapYear year then 29 else 28
  else if [4, 6, 9, 11].contains month then 30
  else 31

def read (text : Text) : Option (Date × Text) := do
  let (year, rest) ← bounded 4 0 9999 text
  let rest ← expect '-' rest
  let (month, rest) ← bounded 2 1 12 rest
  let rest ← expect '-' rest
  let (day, rest) ← bounded 2 1 (daysIn year month) rest
  some (⟨year, month, day⟩, rest)

end Date

namespace Time

/-- The nanoseconds that the digits after the point of a second state. -/
def nanoseconds (digits : Text) : Nat :=
  let kept : Text := digits.take 9
  kept.decimalNumber * Nat.pow 10 (9 - kept.length)

/-- The fraction of a second, if one follows. -/
def fraction : Text → Option (Nat × Text)
  | '.' :: text =>
      let digits := text.takeWhile Char.isDigit
      if digits.isEmpty then none else some (nanoseconds digits, text.dropWhile Char.isDigit)
  | _ => none

def read (text : Text) : Option (Time × Text) := do
  let (hour, rest) ← bounded 2 0 23 text
  let rest ← expect ':' rest
  let (minute, rest) ← bounded 2 0 59 rest
  let rest ← expect ':' rest
  let (second, rest) ← bounded 2 0 60 rest
  let (nanosecond, rest) := (fraction rest).getD (0, rest)
  some (⟨hour, minute, second, nanosecond⟩, rest)

end Time

def Offset.read : Reader Offset
  | [] => none
  | char :: text =>
      if char = 'Z' || char = 'z' then some (.universal, text)
      else if char = '+' || char = '-' then do
        let (hour, rest) ← bounded 2 0 23 text
        let rest ← expect ':' rest
        let (minute, rest) ← bounded 2 0 59 rest
        let count : Int := 60 * hour + minute
        some (.minutes (if char = '-' then -count else count), rest)
      else none

namespace Moment

/-- The time that may follow a date, and its offset. -/
def timeAfterDate : Reader (Time × Option Offset)
  | [] => none
  | char :: text =>
      if char = 'T' || char = 't' || char = ' ' then do
        let (clock, rest) ← Time.read text
        match Offset.read rest with
        | some (offset, rest) => some ((clock, some offset), rest)
        | none => some ((clock, none), rest)
      else none

def read (text : Text) : Option (Moment × Text) :=
  match Date.read text with
  | none => (Time.read text).map fun (clock, rest) => (.time clock, rest)
  | some (day, rest) =>
      match timeAfterDate rest with
      | some ((clock, offset), rest) => some (.dateTime day clock offset, rest)
      | none => some (.date day, rest)

/-- A part of a date or a time, in at least two digits. -/
def twoDigits (number : Nat) : Text :=
  Text.ofNatPadded 2 number

def printDate (day : Date) : Text :=
  Text.ofNatPadded 4 day.year ++ '-' :: twoDigits day.month ++ '-' :: twoDigits day.day

/-- The written form of a time, whose fraction has as few digits as it needs. -/
def printTime (clock : Time) : Text :=
  let fraction := Text.trimZeros (Text.ofNatPadded 9 clock.nanosecond)
  twoDigits clock.hour ++ ':' :: twoDigits clock.minute ++ ':' :: twoDigits clock.second ++
    if fraction.isEmpty then [] else '.' :: fraction

def printOffset : Offset → Text
  | .universal => ['Z']
  | .minutes count =>
      (if count < 0 then '-' else '+') :: twoDigits (count.natAbs / 60) ++
        ':' :: twoDigits (count.natAbs % 60)

def print : Moment → Text
  | .date day => printDate day
  | .time clock => printTime clock
  | .dateTime day clock offset =>
      printDate day ++ 'T' :: printTime clock ++ (offset.map printOffset).getD []

end Moment

end AtomicCss.Toml
