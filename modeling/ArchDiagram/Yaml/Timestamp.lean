import ArchDiagram.Yaml.Fault

/-!
Dates and times. A timestamp is a date, or a date with a time of day and perhaps the distance of
its zone from universal time.
-/

namespace ArchDiagram.Yaml

structure Date where
  year : Nat
  month : Nat
  day : Nat
deriving DecidableEq, Repr

structure Clock where
  hour : Nat
  minute : Nat
  second : Nat
  micro : Nat
deriving DecidableEq, Repr

/-- A day, or a time on it with the seconds by which its zone is ahead, if they are known. -/
inductive Timestamp
  | date (date : Date)
  | time (date : Date) (clock : Clock) (zone : Option Int)
deriving DecidableEq, Repr

namespace Timestamp

/-- The number that the digits at the front of a text spell, and the text behind them; at least and
at most so many digits are taken. -/
def cutNumber? (least most : Nat) (cs : List Char) : Option (Nat × List Char) :=
  let digits := (cs.take most).takeWhile Char.isDigit
  if digits.length < least then none
  else some (digits.foldl (fun n c => 10 * n + (c.toNat - 48)) 0, cs.drop digits.length)

def cutChar? (c : Char) : List Char → Option (List Char)
  | d :: rest => if d = c then some rest else none
  | [] => none

def microOf (digits : List Char) : Nat :=
  ((digits ++ List.replicate 6 '0').take 6).foldl (fun n c => 10 * n + (c.toNat - 48)) 0

def isSpace (c : Char) : Bool := c = ' ' || c = '\t'

/-- The zone that a text spells: nothing, a letter for universal time, or a signed distance. -/
def zone? (cs : List Char) : Option (Option Int) :=
  match cs, cs.dropWhile isSpace with
  | [], _ => some none
  | _, ['Z'] => some (some 0)
  | _, sign :: rest =>
    if sign = '+' ∨ sign = '-' then do
      let (hours, rest) ← cutNumber? 1 2 rest
      let minutes ← match rest with
        | [] => some 0
        | _ => do
          let (minutes, rest) ← cutNumber? 2 2 (← cutChar? ':' rest)
          if rest.isEmpty then some minutes else none
      let seconds : Int := 3600 * hours + 60 * minutes
      return some (if sign = '-' then -seconds else seconds)
    else none
  | _, [] => none

def clock? (cs : List Char) : Option (Clock × Option Int) := do
  let rest ← match cs with
    | 'T' :: rest | 't' :: rest => some rest
    | c :: rest => if isSpace c then some (rest.dropWhile isSpace) else none
    | [] => none
  let (hour, rest) ← cutNumber? 1 2 rest
  let (minute, rest) ← cutNumber? 2 2 (← cutChar? ':' rest)
  let (second, rest) ← cutNumber? 2 2 (← cutChar? ':' rest)
  let (micro, rest) := match rest with
    | '.' :: more => (microOf (more.takeWhile Char.isDigit), more.dropWhile Char.isDigit)
    | _ => (0, rest)
  return (⟨hour, minute, second, micro⟩, ← zone? rest)

/-- The timestamp that a text spells, whether or not there is such a time. -/
def parse? (cs : List Char) : Option Timestamp := do
  let (year, rest) ← cutNumber? 4 4 cs
  let (month, rest) ← cutNumber? 1 2 (← cutChar? '-' rest)
  let (day, rest) ← cutNumber? 1 2 (← cutChar? '-' rest)
  if rest.isEmpty then
    return .date ⟨year, month, day⟩
  else
    let (clock, zone) ← clock? rest
    return .time ⟨year, month, day⟩ clock zone

/-- Whether a plain scalar is a timestamp. Without a time the month and the day have two digits. -/
def isPlain (cs : List Char) : Bool :=
  match parse? cs with
  | some (.date _) => cs.length = 10
  | some (.time _ _ _) => true
  | none => false

def daysIn (year month : Nat) : Nat :=
  if month = 2 then
    if (year % 4 = 0 ∧ year % 100 ≠ 0) ∨ year % 400 = 0 then 29 else 28
  else if month ∈ [4, 6, 9, 11] then 30
  else 31

def dateFault? (date : Date) : Option Fault :=
  if date.year = 0 then some .year
  else if date.month = 0 ∨ 12 < date.month then some .month
  else if date.day = 0 ∨ daysIn date.year date.month < date.day then some .day
  else none

def clockFault? (clock : Clock) : Option Fault :=
  if 23 < clock.hour then some .hour
  else if 59 < clock.minute then some .minute
  else if 59 < clock.second then some .second
  else none

/-- What is wrong with a zone. It is less than a day away. -/
def zoneFault? (zone : Option Int) : Option Fault :=
  zone.bind fun seconds => if seconds.natAbs < 86400 then none else some (.zone seconds)

def fault? : Timestamp → Option Fault
  | date day => dateFault? day
  | time day clock zone => (zoneFault? zone).or ((dateFault? day).or (clockFault? clock))

def padded (width n : Nat) : String :=
  String.ofList (List.replicate (width - (toString n).length) '0') ++ toString n

def dateText (date : Date) : String :=
  padded 4 date.year ++ "-" ++ padded 2 date.month ++ "-" ++ padded 2 date.day

def clockText (clock : Clock) : String :=
  padded 2 clock.hour ++ ":" ++ padded 2 clock.minute ++ ":" ++ padded 2 clock.second
    ++ (if clock.micro = 0 then "" else "." ++ padded 6 clock.micro)

def zoneText (seconds : Int) : String :=
  (if seconds < 0 then "-" else "+") ++ padded 2 (seconds.natAbs / 3600) ++ ":"
    ++ padded 2 (seconds.natAbs % 3600 / 60)

def toText : Timestamp → String
  | date day => dateText day
  | time day clock zone =>
    dateText day ++ " " ++ clockText clock ++ ((zone.map zoneText).getD "")

def daysBeforeYear (year : Nat) : Nat :=
  let past := year - 1
  365 * year + past / 4 - past / 100 + past / 400

def dayNumber (date : Date) : Nat :=
  daysBeforeYear date.year + ((List.range date.month).drop 1).foldl (· + daysIn date.year ·) 0
    + date.day

def instant (date : Date) (clock : Clock) (zone : Int) : Int :=
  let seconds : Int := 86400 * dayNumber date + 3600 * clock.hour + 60 * clock.minute + clock.second
  1000000 * (seconds - zone) + clock.micro

/-- Whether two timestamps are the same moment. Times whose zone is unknown are compared as they
are written, and never equal one whose zone is known. -/
def same : Timestamp → Timestamp → Bool
  | time d c (some z), time d' c' (some z') => instant d c z = instant d' c' z'
  | a, b => a = b

end Timestamp

end ArchDiagram.Yaml
