import GraphStore.Calendar.Date
import GraphStore.Text.White

/-!
Dates and times as text, after RFC 3339. Years outside four digits carry a sign. The reader is lenient:
blanks may stand between the parts, a blank or a small `t` may stand for the `T`, and the offset may be
written in several ways. A leap second is the second 60 of its minute.
-/
namespace GraphStore.Rfc3339

/-- How the fraction of a second is written. -/
inductive Fraction where
  /-- No digits, or three, six or nine: the fewest that lose nothing. -/
  | exact
  /-- Always three digits. -/
  | millis

/-- How the offset of universal time is written. -/
inductive Offset where
  | zulu
  | numeric

def padded (width n : Nat) : String :=
  let digits := toString n
  String.ofList (List.replicate (width - digits.length) '0') ++ digits

def yearText (year : Int) : String :=
  if 0 ≤ year ∧ year ≤ 9999 then padded 4 year.toNat
  else (if year < 0 then "-" else "+") ++ padded 4 year.natAbs

def fractionText : Fraction → Nat → String
  | .millis, nanos => "." ++ padded 3 (nanos / 1000000)
  | .exact, nanos =>
    if nanos = 0 then ""
    else if nanos % 1000000 = 0 then "." ++ padded 3 (nanos / 1000000)
    else if nanos % 1000 = 0 then "." ++ padded 6 (nanos / 1000)
    else "." ++ padded 9 nanos

def text (fraction : Fraction) (offset : Offset) (t : Timestamp) : String :=
  let date := Date.ofDays (t.seconds / 86400)
  let clock := (t.seconds % 86400).toNat
  let second := clock % 60 + (if t.isLeap then 1 else 0)
  yearText date.year ++ "-" ++ padded 2 date.month ++ "-" ++ padded 2 date.day ++ "T"
    ++ padded 2 (clock / 3600) ++ ":" ++ padded 2 (clock / 60 % 60) ++ ":" ++ padded 2 second
    ++ fractionText fraction (t.nanos % 1000000000)
    ++ (match offset with | .zulu => "Z" | .numeric => "+00:00")

/-! Reading. Each step takes the characters that are left and gives those after it. -/

def skipWhite (cs : List Char) : List Char := cs.dropWhile isWhite

def isDigit (c : Char) : Bool := '0' ≤ c && c ≤ '9'

def digitsValue (cs : List Char) : Nat := cs.foldl (fun n c => 10 * n + (c.toNat - 48)) 0

/-- One digit or more, but no more than `most`. -/
def number? (most : Nat) (cs : List Char) : Option (Nat × List Char) :=
  let digits := (cs.take most).takeWhile isDigit
  if digits.isEmpty then none else some (digitsValue digits, cs.drop digits.length)

/-- A number after any blanks. -/
def field? (most : Nat) (cs : List Char) : Option (Nat × List Char) := number? most (skipWhite cs)

/-- A sign lifts the bound of four digits on a year. -/
def year? (cs : List Char) : Option (Int × List Char) :=
  match skipWhite cs with
  | '-' :: rest => (number? rest.length rest).map fun (n, rest) => (-(n : Int), rest)
  | '+' :: rest => (number? rest.length rest).map fun (n, rest) => ((n : Int), rest)
  | cs => (number? 4 cs).map fun (n, rest) => ((n : Int), rest)

/-- A mark after any blanks. -/
def mark? (mark : Char) (cs : List Char) : Option (List Char) :=
  match skipWhite cs with
  | c :: rest => if c = mark then some rest else none
  | [] => none

/-- Digits after a point, to nine places; further digits are dropped. -/
def fraction? : List Char → Option (Nat × List Char)
  | '.' :: rest =>
    (number? 9 rest).map fun (n, left) =>
      (n * Nat.pow 10 (9 - (rest.length - left.length)), left.dropWhile isDigit)
  | cs => some (0, cs)

def isLetter (upper lower : Char) (c : Char) : Bool := c = upper || c = lower

/-- The offset from universal time in seconds. -/
def offset? : List Char → Option (Int × List Char)
  | [] => none
  | c :: rest =>
    if isLetter 'Z' 'z' c then some (0, rest)
    else
      match rest with
      | u :: t :: after =>
        if isLetter 'U' 'u' c && isLetter 'T' 't' u && isLetter 'C' 'c' t then some (0, after)
        else
          if c = '+' || c = '-' || c = '\u2212' then
            if isDigit u && isDigit t then
              match after.dropWhile (fun c => c = ':' || isWhite c) with
              | m :: n :: left =>
                if '0' ≤ m && m ≤ '5' && isDigit n then
                  let seconds : Int := digitsValue [u, t] * 3600 + digitsValue [m, n] * 60
                  some (if c = '+' then seconds else -seconds, left)
                else none
              | _ => none
            else none
          else none
      | _ => none

/-- The point in time at which a clock shows a time of day. -/
def timestamp? (date : Date) (hour minute second nanos : Nat) (offset : Int) : Option Timestamp :=
  if date.isValid && hour ≤ 23 && minute ≤ 59 && second ≤ 60 && offset.natAbs < 86400 then
    let clock := hour * 3600 + minute * 60 + (if second = 60 then 59 else second)
    Timestamp.ofParts? (date.toDays * 86400 + clock - offset)
      (if second = 60 then 1000000000 + nanos else nanos)
  else none

def read? (s : String) : Option Timestamp := do
  let (year, cs) ← year? s.toList
  let cs ← mark? '-' cs
  let (month, cs) ← field? 2 cs
  let cs ← mark? '-' cs
  let (day, cs) ← field? 2 cs
  let cs ←
    match cs with
    | c :: rest => if isLetter 'T' 't' c || c = ' ' then some rest else none
    | [] => none
  let (hour, cs) ← field? 2 cs
  let cs ← mark? ':' cs
  let (minute, cs) ← field? 2 cs
  let cs ← mark? ':' cs
  let (second, cs) ← field? 2 cs
  let (nanos, cs) ← fraction? cs
  let (offset, cs) ← offset? (skipWhite cs)
  if (skipWhite cs).isEmpty then timestamp? ⟨year, month, day⟩ hour minute second nanos offset
  else none

example : ((read? "2017-01-01 00:59:60.5 +01:00").map (text .exact .zulu)) =
    some "2016-12-31T23:59:60.500Z" := by decide +kernel

end GraphStore.Rfc3339
