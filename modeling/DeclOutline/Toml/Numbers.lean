import DeclOutline.Toml.Node
import DeclOutline.Text.Numeral

/-!
# Numbers and dates in TOML documents

No profile has a number or a date in it, but a document may, and is refused if one is misspelt or
out of range: integers have 64 bits, floats must not round to infinity, dates must exist.

Readers give the value and what follows it, and do not look at what follows. A number that runs
into something else is refused where the line goes on.
-/

namespace DeclOutline.Toml

/-- The first `n` characters, if they are decimal digits, with what follows. -/
def takeDigits (n : Nat) (cs : List Char) : Option (Nat × List Char) :=
  let digits := cs.take n
  if digits.length == n && digits.all Char.isDigit then
    some (digits.foldl (fun k c => 10 * k + (c.toNat - '0'.toNat)) 0, cs.drop n)
  else none

/-- A character, with what follows it. -/
def takeChar (c : Char) : List Char → Option (List Char)
  | d :: rest => if d = c then some rest else none
  | [] => none

/-- The part of a text that reading it has used up. -/
def spelling (cs rest : List Char) : String :=
  String.ofList (cs.take (cs.length - rest.length))

/-! ### Dates and times -/

/-- The number of days of a month. -/
def daysInMonth (year month : Nat) : Nat :=
  if month = 2 then
    if year % 4 == 0 && (year % 100 != 0 || year % 400 == 0) then 29 else 28
  else if month = 4 ∨ month = 6 ∨ month = 9 ∨ month = 11 then 30
  else 31

/-- Reads `year-month-day`. -/
def readDay (cs : List Char) : Option (List Char) := do
  let (year, cs) ← takeDigits 4 cs
  let cs ← takeChar '-' cs
  let (month, cs) ← takeDigits 2 cs
  let cs ← takeChar '-' cs
  let (day, cs) ← takeDigits 2 cs
  guard (1 ≤ month ∧ month ≤ 12 ∧ 1 ≤ day ∧ day ≤ daysInMonth year month)
  some cs

/-- Reads `.digits`, if it is there. -/
def readFraction : List Char → List Char
  | '.' :: c :: rest => if c.isDigit then rest.dropWhile Char.isDigit else '.' :: c :: rest
  | cs => cs

/-- Reads `hour:minute:second`, with a fraction of a second if there is one. -/
def readTime (cs : List Char) : Option (List Char) := do
  let (hour, cs) ← takeDigits 2 cs
  let cs ← takeChar ':' cs
  let (minute, cs) ← takeDigits 2 cs
  let cs ← takeChar ':' cs
  let (second, cs) ← takeDigits 2 cs
  guard (hour ≤ 23 ∧ minute ≤ 59 ∧ second ≤ 60)
  some (readFraction cs)

/-- Reads an offset from universal time, if it is there. -/
def readOffset : List Char → Option (List Char)
  | 'Z' :: rest | 'z' :: rest => some rest
  | '+' :: rest | '-' :: rest => do
    let (hour, rest) ← takeDigits 2 rest
    let rest ← takeChar ':' rest
    let (minute, rest) ← takeDigits 2 rest
    guard (hour ≤ 23 ∧ minute ≤ 59)
    some rest
  | cs => some cs

/-- Whether a text begins with two digits and a colon. -/
def startsTime (cs : List Char) : Bool :=
  ((takeDigits 2 cs).bind fun (_, cs) => takeChar ':' cs).isSome

/-- Whether a text begins with four digits and a hyphen. -/
def startsDay (cs : List Char) : Bool :=
  ((takeDigits 4 cs).bind fun (_, cs) => takeChar '-' cs).isSome

/-- Reads a day, with a time after it if there is one. -/
def readDate (cs : List Char) : Option (List Char) := do
  let rest ← readDay cs
  match rest with
  | c :: more =>
    if (c == 'T' || c == 't' || c == ' ') && startsTime more then (readTime more).bind readOffset
    else some rest
  | [] => some rest

/-! ### Numbers -/

/-- Reads digits, of which two may have an underscore between them. -/
def digitRun (isDigit : Char → Bool) : List Char → Option (List Char × List Char)
  | [] => some ([], [])
  | '_' :: rest =>
    match rest with
    | [] => none
    | c :: _ => if isDigit c then digitRun isDigit rest else none
  | c :: rest =>
    if isDigit c then (digitRun isDigit rest).map fun (digits, after) => (c :: digits, after)
    else some ([], c :: rest)

/-- Reads one digit or more, of which two may have an underscore between them. -/
def digits1 (isDigit : Char → Bool) : List Char → Option (List Char × List Char)
  | [] => none
  | c :: rest => if isDigit c then digitRun isDigit (c :: rest) else none

/-- The number that digits write in a base. -/
def ofDigits (base : Nat) (digits : List Char) : Nat :=
  digits.foldl (fun n c => base * n + (Text.hexValue? c).getD 0) 0

/-- A sign, if there is one: whether it is a minus. -/
def readSign : List Char → Bool × List Char
  | '-' :: rest => (true, rest)
  | '+' :: rest => (false, rest)
  | cs => (false, cs)

/-- Reads the digits of a decimal integer, which has no leading zeros. -/
def decimalDigits : List Char → Option (List Char × List Char)
  | [] => none
  | '0' :: rest => some (['0'], rest)
  | c :: rest => digits1 Char.isDigit (c :: rest)

/-- An integer of 64 bits. -/
def integer? (negative : Bool) (magnitude : Nat) : Option Node :=
  if negative then
    if magnitude ≤ Nat.pow 2 63 then some (.integer (-(magnitude : Int))) else none
  else if magnitude < Nat.pow 2 63 then some (.integer magnitude)
  else none

/-- The least magnitude that rounds to infinity in a float of 64 bits. -/
def floatLimit : Nat :=
  Nat.pow 2 1024 - Nat.pow 2 970

/-- Whether `mantissa * 10 ^ exponent` rounds to infinity. -/
def roundsToInfinity (mantissa : Nat) (exponent : Int) : Bool :=
  let size : Int := (Nat.toDigits 10 mantissa).length
  if mantissa == 0 || size + exponent < 300 then false
  else if 400 < size + exponent then true
  else if 0 ≤ exponent then floatLimit ≤ mantissa * Nat.pow 10 exponent.toNat
  else floatLimit * Nat.pow 10 (-exponent).toNat ≤ mantissa

/-- Reads an exponent, if there is one. -/
def readExponent : List Char → Option (Int × List Char)
  | c :: rest =>
    if c == 'e' || c == 'E' then do
      let (negative, rest) := readSign rest
      let (digits, rest) ← digits1 Char.isDigit rest
      let magnitude : Int := ofDigits 10 digits
      some (if negative then -magnitude else magnitude, rest)
    else some (0, c :: rest)
  | [] => some (0, [])

/-- Reads what follows the integral digits of a decimal number. -/
def afterIntegral (negative : Bool) (whole : List Char) (start : List Char) :
    List Char → Option (Node × List Char)
  | '.' :: rest => do
    let (fraction, rest) ← digits1 Char.isDigit rest
    let (exponent, rest) ← readExponent rest
    guard (negative ||
      !roundsToInfinity (ofDigits 10 (whole ++ fraction)) (exponent - fraction.length))
    some (.float (spelling start rest), rest)
  | c :: rest =>
    if c == 'e' || c == 'E' then do
      let (exponent, rest) ← readExponent (c :: rest)
      guard (negative || !roundsToInfinity (ofDigits 10 whole) exponent)
      some (.float (spelling start rest), rest)
    else do
      let node ← integer? negative (ofDigits 10 whole)
      some (node, c :: rest)
  | [] => do
    let node ← integer? negative (ofDigits 10 whole)
    some (node, [])

/-- Reads an integer in a base other than ten. -/
def basedInteger (base : Nat) (isDigit : Char → Bool) (cs : List Char) :
    Option (Node × List Char) := do
  let (digits, rest) ← digits1 isDigit cs
  let node ← integer? false (ofDigits base digits)
  some (node, rest)

/-- Reads a float that is not a number or not finite. -/
def specialFloat (start : List Char) : List Char → Option (Node × List Char)
  | 'i' :: 'n' :: 'f' :: rest => some (.float (spelling start rest), rest)
  | 'n' :: 'a' :: 'n' :: rest => some (.float (spelling start rest), rest)
  | _ => none

/-- Reads a number. -/
def readNumber (cs : List Char) : Option (Node × List Char) :=
  match cs with
  | '0' :: 'x' :: rest => basedInteger 16 (fun c => (Text.hexValue? c).isSome) rest
  | '0' :: 'o' :: rest => basedInteger 8 (fun c => '0' ≤ c && c ≤ '7') rest
  | '0' :: 'b' :: rest => basedInteger 2 (fun c => c == '0' || c == '1') rest
  | _ =>
    let (negative, unsigned) := readSign cs
    match decimalDigits unsigned with
    | some (whole, rest) => afterIntegral negative whole cs rest
    | none => specialFloat cs unsigned

/-- Reads a number, a date or a time. -/
def readNumberOrDate (cs : List Char) : Option (Node × List Char) :=
  if startsDay cs then (readDate cs).map fun rest => (.date (spelling cs rest), rest)
  else if startsTime cs then (readTime cs).map fun rest => (.date (spelling cs rest), rest)
  else readNumber cs

end DeclOutline.Toml
