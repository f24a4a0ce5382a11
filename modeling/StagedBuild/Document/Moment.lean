import StagedBuild.Document.Characters

/-! Which spellings are moments: a date, a time of day, or both, then perhaps with an offset. Dates
must exist; a minute may have a second 60. -/
namespace StagedBuild.Document

def isLeapYear (year : Nat) : Bool :=
  year % 4 == 0 && (year % 100 != 0 || year % 400 == 0)

def daysIn (year month : Nat) : Nat :=
  if month == 2 then (if isLeapYear year then 29 else 28)
  else if month == 4 || month == 6 || month == 9 || month == 11 then 30
  else 31

def digits? (cs : List Char) : Option Nat :=
  if cs.all isDecimal then some (decimalValue cs) else none

def date? : List Char → Option (List Char)
  | a :: b :: c :: d :: '-' :: e :: f :: '-' :: g :: h :: rest => do
    let year ← digits? [a, b, c, d]
    let month ← digits? [e, f]
    let day ← digits? [g, h]
    if 1 ≤ month && month ≤ 12 && 1 ≤ day && day ≤ daysIn year month then some rest else none
  | _ => none

def clock? : List Char → Option (List Char)
  | a :: b :: ':' :: c :: d :: rest => do
    let hour ← digits? [a, b]
    let minute ← digits? [c, d]
    if hour ≤ 23 && minute ≤ 59 then some rest else none
  | _ => none

def seconds? : List Char → Option (List Char)
  | ':' :: a :: b :: rest => do
    let second ← digits? [a, b]
    if second ≤ 60 then
      match rest with
      | '.' :: behind =>
        if (behind.takeWhile isDecimal).isEmpty then none else some (behind.dropWhile isDecimal)
      | _ => some rest
    else none
  | rest => some rest

def timeOfDay? (cs : List Char) : Option (List Char) := clock? cs >>= seconds?

def isOffset : List Char → Bool
  | [] => true
  | ['Z'] => true
  | ['z'] => true
  | '+' :: rest => clock? rest == some []
  | '-' :: rest => clock? rest == some []
  | _ => false

def isMoment (cs : List Char) : Bool :=
  match date? cs with
  | some [] => true
  | some (separator :: rest) =>
    (separator == 'T' || separator == 't' || separator == ' ')
      && (match timeOfDay? rest with
        | some offset => isOffset offset
        | none => false)
  | none => timeOfDay? cs == some []

end StagedBuild.Document
