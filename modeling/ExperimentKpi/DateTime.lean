/-
# Dates with times

A date of the Gregorian calendar and a time of day, without a zone. Second 60 is a leap second.
Years beyond four digits have a sign.

Key definitions: `DateTime`, `DateTime.ofIso?`, `DateTime.ofStored?`, `DateTime.text`,
`DateTime.toIso`.
-/
import ExperimentKpi.Text.Integer

namespace ExperimentKpi

/-- A date and a time of day. -/
structure DateTime where
  year : Int
  month : Nat
  day : Nat
  hour : Nat
  minute : Nat
  second : Nat
deriving DecidableEq, Repr

namespace DateTime

/-- Whether a year has a 29th of February. -/
def isLeap (year : Int) : Bool :=
  year % 4 == 0 && (year % 100 != 0 || year % 400 == 0)

/-- The number of days of a month. -/
def daysIn (year : Int) (month : Nat) : Nat :=
  if month = 2 then if isLeap year then 29 else 28
  else if month ∈ [4, 6, 9, 11] then 30
  else 31

/-- Whether the parts are those of a date and a time. -/
def IsValid (t : DateTime) : Prop :=
  -262143 ≤ t.year ∧ t.year ≤ 262142 ∧ 1 ≤ t.month ∧ t.month ≤ 12 ∧ 1 ≤ t.day ∧
    t.day ≤ daysIn t.year t.month ∧ t.hour < 24 ∧ t.minute < 60 ∧ t.second ≤ 60

instance (t : DateTime) : Decidable t.IsValid := by
  unfold IsValid
  infer_instance

/-- A number of one to `width` digits at the head of a text. -/
def digits? (width : Nat) (s : List Char) : Option (Nat × List Char) :=
  let found := (s.takeWhile Text.isDigit).take width
  if found.isEmpty then none else some (Text.digitsValue found, s.drop found.length)

/-- A year at the head of a text: of up to four digits, or of any number behind a sign. -/
def year? : List Char → Option (Int × List Char)
  | '-' :: r => (digits? r.length r).map fun (n, rest) => (-(n : Int), rest)
  | '+' :: r => (digits? r.length r).map fun (n, rest) => ((n : Int), rest)
  | s => (digits? 4 s).map fun (n, rest) => ((n : Int), rest)

/-- The text after one given character. -/
def after? (c : Char) : List Char → Option (List Char)
  | d :: r => if d = c then some r else none
  | [] => none

/-- A date at the head of a text. -/
def date? (s : List Char) : Option ((Int × Nat × Nat) × List Char) := do
  let (year, s) ← year? s
  let s ← after? '-' s
  let (month, s) ← digits? 2 s
  let s ← after? '-' s
  let (day, s) ← digits? 2 s
  return ((year, month, day), s)

/-- The hour and the minute at the head of a text. -/
def clock? (s : List Char) : Option ((Nat × Nat) × List Char) := do
  let (hour, s) ← digits? 2 s
  let s ← after? ':' s
  let (minute, s) ← digits? 2 s
  return ((hour, minute), s)

/-- A second, which a fraction may follow, at the head of a text. -/
def second? (s : List Char) : Option (Nat × List Char) := do
  let (second, s) ← digits? 2 s
  match s with
  | '.' :: r =>
    let fraction := r.takeWhile Text.isDigit
    if fraction.isEmpty then none else return (second, r.dropWhile Text.isDigit)
  | _ => return (second, s)

/-- The parts, if they are those of a date and a time. -/
def ofParts? (date : Int × Nat × Nat) (clock : Nat × Nat) (second : Nat) : Option DateTime :=
  let t : DateTime := ⟨date.1, date.2.1, date.2.2, clock.1, clock.2, second⟩
  if t.IsValid then some t else none

/-- A date and a time with `T` between them and a fraction of the second allowed. -/
def ofIso? (s : String) : Option DateTime := do
  let (date, s) ← date? s.toList
  let s ← after? 'T' s
  let (clock, s) ← clock? s
  let s ← after? ':' s
  let (second, s) ← second? s
  if s.isEmpty then ofParts? date clock second else none

/-- Whether a text is empty or a zone, which is read over. -/
def isZone : List Char → Bool
  | [] => true
  | ['Z'] => true
  | sign :: s =>
    (sign == '+' || sign == '-') &&
      match clock? s with
      | some ((hour, minute), []) => decide (hour < 24 ∧ minute < 60)
      | _ => false

/-- A date and a time as databases hold them: with a blank or `T` between them, the second and a
zone optional. -/
def ofStored? (s : String) : Option DateTime := do
  let (date, s) ← date? s.toList
  let s ← (after? ' ' s).or (after? 'T' s)
  let (clock, s) ← clock? s
  match s with
  | ':' :: r =>
    let (second, s) ← second? r
    if isZone s then ofParts? date clock second else none
  | _ => if isZone s then ofParts? date clock 0 else none

/-- A number with zeros in front up to a width. -/
def padded (width n : Nat) : List Char :=
  let digits := Nat.toDigits 10 n
  List.replicate (width - digits.length) '0' ++ digits

/-- A year of at least four digits, with a sign beyond them. -/
def yearText (year : Int) : List Char :=
  if year < 0 then '-' :: padded 4 year.natAbs
  else if year > 9999 then '+' :: padded 4 year.natAbs
  else padded 4 year.natAbs

/-- A date and a time with the given character between them. -/
def textWith (between : Char) (t : DateTime) : String :=
  String.ofList (yearText t.year ++ '-' :: padded 2 t.month ++ '-' :: padded 2 t.day ++
    between :: padded 2 t.hour ++ ':' :: padded 2 t.minute ++ ':' :: padded 2 t.second)

/-- A date and a time with a blank between them. -/
def text (t : DateTime) : String :=
  t.textWith ' '

/-- A date and a time with `T` between them. -/
def toIso (t : DateTime) : String :=
  t.textWith 'T'

end DateTime

end ExperimentKpi
