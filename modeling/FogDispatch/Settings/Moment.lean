import FogDispatch.Number.Literal

/-!
# Dates and times of day

A setting may be a date, a time of day, or both with an offset.  It is read as its digits stand and
kept as text in one canonical form.
-/

namespace FogDispatch.Settings.Moment

/-- A number of exactly `count` digits at the start of a text, and the rest. -/
def digits? (count : Nat) (cs : List Char) : Option (Nat × List Char) :=
  let front := cs.take count
  if front.length = count ∧ front.all isDigit then some (digitsValue front, cs.drop count)
  else none

def after? (c : Char) : List Char → Option (List Char)
  | [] => none
  | d :: rest => if d = c then some rest else none

/-- A number as decimal digits, filled up with zeros. -/
def padded (width n : Nat) : List Char :=
  let digits := Nat.toDigits 10 n
  List.replicate (width - digits.length) '0' ++ digits

/-- A date at the start of a text, in canonical form. -/
def date? (cs : List Char) : Option (List Char × List Char) := do
  let (year, cs) ← digits? 4 cs
  let cs ← after? '-' cs
  let (month, cs) ← digits? 2 cs
  let cs ← after? '-' cs
  let (day, cs) ← digits? 2 cs
  if 1 ≤ month ∧ month ≤ 12 ∧ 1 ≤ day ∧ day ≤ 31 then
    return (padded 4 year ++ '-' :: padded 2 month ++ '-' :: padded 2 day, cs)
  else none

/-- The fraction of a second at the start of a text: at most nine digits count, and zeros at the end
are left out. -/
def fraction? (cs : List Char) : Option (List Char × List Char) :=
  match cs with
  | '.' :: rest =>
    let digits := rest.takeWhile isDigit
    let kept := ((digits.take 9).reverse.dropWhile (· == '0')).reverse
    if digits.isEmpty then none
    else some (if kept.isEmpty then [] else '.' :: kept, rest.dropWhile isDigit)
  | rest => some ([], rest)

/-- A time of day at the start of a text, in canonical form. -/
def clock? (cs : List Char) : Option (List Char × List Char) := do
  let (hour, cs) ← digits? 2 cs
  let cs ← after? ':' cs
  let (minute, cs) ← digits? 2 cs
  let cs ← after? ':' cs
  let (second, cs) ← digits? 2 cs
  let (fraction, cs) ← fraction? cs
  if hour ≤ 24 ∧ minute ≤ 59 ∧ second ≤ 59 then
    return (padded 2 hour ++ ':' :: padded 2 minute ++ ':' :: padded 2 second ++ fraction, cs)
  else none

/-- An offset at the end of a text, in canonical form. -/
def offset? (cs : List Char) : Option (List Char) := do
  let signed (sign : Char) (rest : List Char) : Option (List Char) := do
    let (hours, rest) ← digits? 2 rest
    let rest ← after? ':' rest
    let (minutes, rest) ← digits? 2 rest
    -- an offset of no hours has a plus sign
    let sign := if hours = 0 then '+' else sign
    if rest.isEmpty then return sign :: padded 2 hours ++ ':' :: padded 2 minutes else none
  match cs with
  | [] => some []
  | ['Z'] => some ['Z']
  | ['z'] => some ['Z']
  | '+' :: rest => signed '+' rest
  | '-' :: rest => signed '-' rest
  | _ => none

/-- The canonical form of a date, a time of day or both. -/
def read? (cs : List Char) : Option (List Char) :=
  if cs.length < 3 then none
  else if cs[2]? = some ':' then do
    let (clock, rest) ← clock? cs
    if rest.isEmpty then return clock else none
  else do
    let (date, rest) ← date? cs
    match rest with
    | [] => return date
    | mark :: rest =>
      if mark = 'T' ∨ mark = 't' ∨ mark = ' ' then
        let (clock, rest) ← clock? rest
        return date ++ 'T' :: clock ++ (← offset? rest)
      else none

end FogDispatch.Settings.Moment
