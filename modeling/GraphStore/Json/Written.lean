import GraphStore.Json
import GraphStore.Text.Hex

/-!
JSON texts. `Written` is a text's tree as it stands: fields in order with repeated names kept, numbers
as digits, strings as code units. A part that nobody looks at need only be well-formed, so what a number
or a string means is worked out apart, and may fail: a number can be too great, and a surrogate can
stand alone.
-/
namespace GraphStore.Json

/-- The digits of a number. -/
structure Numeral where
  negative : Bool
  whole : List Nat
  fraction : List Nat
  /-- The sign and the digits of the exponent; the sign is `true` below zero. -/
  exponent : Option (Bool × List Nat)
  /-- Whether a point or an exponent makes this a float. -/
  isFloat : Bool
  deriving Repr

/-- Code units: scalar values as they stand, and what `\u` escapes name, surrogates included. -/
abbrev Units := List Nat

inductive Written where
  | null
  | bool (b : Bool)
  | number (n : Numeral)
  | string (units : Units)
  | array (items : List Written)
  | object (fields : List (Units × Written))
  deriving Repr

namespace Written

def isBlank (c : Char) : Bool := c = ' ' || c = '\n' || c = '\t' || c = '\r'

def skipBlank (cs : List Char) : List Char := cs.dropWhile isBlank

def isDigit (c : Char) : Bool := '0' ≤ c && c ≤ '9'

/-- The digits at the front, and what follows them. -/
def digits (cs : List Char) : List Nat × List Char :=
  ((cs.takeWhile isDigit).map (fun c => c.toNat - 48), cs.dropWhile isDigit)

def fractionPart : List Char → Option (List Nat × List Char)
  | '.' :: rest => match digits rest with
    | ([], _) => none
    | found => some found
  | cs => some ([], cs)

def exponentDigits (negative : Bool) (cs : List Char) :
    Option (Option (Bool × List Nat) × List Char) :=
  match digits cs with
  | ([], _) => none
  | (ds, rest) => some (some (negative, ds), rest)

def exponentPart : List Char → Option (Option (Bool × List Nat) × List Char)
  | c :: rest =>
    if c = 'e' || c = 'E' then
      match rest with
      | '+' :: rest => exponentDigits false rest
      | '-' :: rest => exponentDigits true rest
      | rest => exponentDigits false rest
    else some (none, c :: rest)
  | [] => some (none, [])

/-- A number without its sign. A zero may lead only alone. -/
def unsigned (negative : Bool) (cs : List Char) : Option (Numeral × List Char) := do
  let (whole, rest) := digits cs
  if whole = [] || (whole.head? = some 0 && 1 < whole.length) then none
  else
    let (fraction, rest) ← fractionPart rest
    let (exponent, rest) ← exponentPart rest
    some (⟨negative, whole, fraction, exponent, fraction ≠ [] || exponent.isSome⟩, rest)

/-- What follows a backslash. -/
def escape : List Char → Option (Nat × List Char)
  | 'u' :: a :: b :: c :: d :: rest => (Hex.number? [a, b, c, d]).map (·, rest)
  | c :: rest =>
    if c = '"' || c = '\\' || c = '/' then some (c.toNat, rest)
    else if c = 'b' then some (8, rest)
    else if c = 'f' then some (12, rest)
    else if c = 'n' then some (10, rest)
    else if c = 'r' then some (13, rest)
    else if c = 't' then some (9, rest)
    else none
  | [] => none

/-- A string after its opening quote. Controls must be escaped. -/
def stringBody : Nat → List Char → Option (Units × List Char)
  | 0, _ => none
  | _ + 1, [] => none
  | fuel + 1, c :: rest =>
    if c = '"' then some ([], rest)
    else if c = '\\' then
      match escape rest with
      | some (unit, rest) => (stringBody fuel rest).map fun (us, rest) => (unit :: us, rest)
      | none => none
    else if c.toNat < 32 then none
    else (stringBody fuel rest).map fun (us, rest) => (c.toNat :: us, rest)

def word (expected : List Char) (result : Written) (cs : List Char) :
    Option (Written × List Char) :=
  if expected.isPrefixOf cs then some (result, cs.drop expected.length) else none

mutual
/-- A value after any blanks. The fuel need only exceed the number of characters. -/
def value : Nat → List Char → Option (Written × List Char)
  | 0, _ => none
  | fuel + 1, cs =>
    match skipBlank cs with
    | '\x7b' :: rest =>
      match skipBlank rest with
      | '\x7d' :: rest => some (.object [], rest)
      | rest => (members fuel rest).map fun (fs, rest) => (.object fs, rest)
    | '[' :: rest =>
      match skipBlank rest with
      | ']' :: rest => some (.array [], rest)
      | rest => (items fuel rest).map fun (is, rest) => (.array is, rest)
    | '"' :: rest => (stringBody (rest.length + 1) rest).map fun (us, rest) => (.string us, rest)
    | '-' :: rest => (unsigned true rest).map fun (n, rest) => (.number n, rest)
    | 't' :: rest => word ['r', 'u', 'e'] (.bool true) rest
    | 'f' :: rest => word ['a', 'l', 's', 'e'] (.bool false) rest
    | 'n' :: rest => word ['u', 'l', 'l'] .null rest
    | cs => (unsigned false cs).map fun (n, rest) => (.number n, rest)

/-- One item or more, and the closing bracket. -/
def items : Nat → List Char → Option (List Written × List Char)
  | 0, _ => none
  | fuel + 1, cs =>
    match value fuel cs with
    | some (item, rest) =>
      match skipBlank rest with
      | ',' :: rest => (items fuel rest).map fun (is, rest) => (item :: is, rest)
      | ']' :: rest => some ([item], rest)
      | _ => none
    | none => none

/-- One field or more, and the closing brace. -/
def members : Nat → List Char → Option (List (Units × Written) × List Char)
  | 0, _ => none
  | fuel + 1, cs =>
    match skipBlank cs with
    | '"' :: rest =>
      match stringBody (rest.length + 1) rest with
      | some (name, rest) =>
        match skipBlank rest with
        | ':' :: rest =>
          match value fuel rest with
          | some (item, rest) =>
            match skipBlank rest with
            | ',' :: rest =>
              (members fuel rest).map fun (fs, rest) => ((name, item) :: fs, rest)
            | '\x7d' :: rest => some ([(name, item)], rest)
            | _ => none
          | none => none
        | _ => none
      | none => none
    | _ => none
end

/-- The tree of a whole text. -/
def parse? (s : String) : Option Written :=
  match value (s.length + 1) s.toList with
  | some (w, rest) => if (skipBlank rest).isEmpty then some w else none
  | none => none

/-! ### Meaning -/

/-- The text of some code units; a surrogate must be one of a pair. -/
def unitsText? : Units → Option (List Char)
  | [] => some []
  | [u] => if 0xD800 ≤ u && u < 0xE000 then none else some [Char.ofNat u]
  | u :: v :: rest =>
    if 0xD800 ≤ u && u < 0xDC00 then
      if 0xDC00 ≤ v && v < 0xE000 then
        (unitsText? rest).map
          (Char.ofNat (0x10000 + (u - 0xD800) * 0x400 + (v - 0xDC00)) :: ·)
      else none
    else if 0xDC00 ≤ u && u < 0xE000 then none
    else (unitsText? (v :: rest)).map (Char.ofNat u :: ·)

def text? (units : Units) : Option String := (unitsText? units).map String.ofList

/-- Take digits as long as the number keeps to 64 bits; the count of those left over. -/
def gather (n : Nat) : List Nat → Nat × Nat
  | [] => (n, 0)
  | d :: ds => if 10 * n + d < UInt64.size then gather (10 * n + d) ds else (n, ds.length + 1)

/-- `x · 10 ^ e`, one rounding to a step; `none` past the greatest float. A power below `10 ^ -308` is
divided out in parts, until nothing is left. -/
def scaleTen (x : Binary64) (e : Int) : Nat → Option Binary64
  | 0 => some x
  | fuel + 1 =>
    if e.natAbs ≤ 308 then
      let power := Binary64.ofNat (Nat.pow 10 e.natAbs)
      if 0 ≤ e then
        let y := x.scaleUp power
        if y.isFinite then some y else none
      else some (x.scaleDown power)
    else if x.isZero then some x
    else if 0 ≤ e then none
    else scaleTen (x.scaleDown (Binary64.ofNat (Nat.pow 10 308))) (e + 308) fuel

def signed (negative : Bool) (x : Binary64) : Binary64 := .ofMagnitude negative x.magnitude

/-- Exponents are counted in 32 bits. -/
def greatestExponent : Nat := 0x7fffffff

/-- The worth of a float: the digits that fit a word, scaled by a power of ten. -/
def Numeral.float? (n : Numeral) : Option Binary64 :=
  let (significand, dropped) := gather 0 n.whole
  let (significand, left) := gather significand n.fraction
  let start : Int := (dropped : Int) - ((n.fraction.length : Int) - left)
  let x := Binary64.ofNat significand
  let scale (e : Int) := (scaleTen x e (e.natAbs / 308 + 1)).map (signed n.negative)
  match n.exponent with
  | none => scale start
  | some (below, ds) =>
    let e := ds.foldl (fun e d => 10 * e + d) 0
    if greatestExponent < e then
      if significand ≠ 0 && !below then none else some (.ofMagnitude n.negative 0)
    else scale (start + if below then -(e : Int) else e)

/-- A whole number of 64 bits stays one; a greater one, and minus zero, become floats. -/
def Numeral.json? (n : Numeral) : Option Json :=
  let (significand, dropped) := gather 0 n.whole
  if n.isFloat || dropped ≠ 0 then (Numeral.float? n).map .float
  else if !n.negative then some (.int significand)
  else if 0 < significand && significand ≤ 0x8000000000000000 then some (.int (-(significand : Int)))
  else some (.float (signed true (.ofNat significand)))

mutual
/-- The value of a tree that nests less than `depth` deep. Repeated fields are kept. -/
def json? : Nat → Written → Option Json
  | _, .null => some .null
  | _, .bool b => some (.bool b)
  | _, .number n => Numeral.json? n
  | _, .string us => (text? us).map .string
  | 0, .array _ => none
  | depth + 1, .array is => (itemsJson? depth is).map .array
  | 0, .object _ => none
  | depth + 1, .object fs => (fieldsJson? depth fs).map .object

def itemsJson? : Nat → List Written → Option (List Json)
  | _, [] => some []
  | depth, i :: is =>
    match json? depth i, itemsJson? depth is with
    | some j, some js => some (j :: js)
    | _, _ => none

def fieldsJson? : Nat → List (Units × Written) → Option (List (String × Json))
  | _, [] => some []
  | depth, (name, w) :: fs =>
    match text? name, json? depth w, fieldsJson? depth fs with
    | some n, some j, some js => some ((n, j) :: js)
    | _, _, _ => none
end

end Written

/-- Values of a text may nest this deep. -/
def deepest : Nat := 127

mutual
/-- The value with each object's repeated fields settled: the last of a name counts. -/
def settle : Json → Json
  | .array items => .array (settleItems items)
  | .object fields => record (settleFields fields)
  | j => j

def settleItems : List Json → List Json
  | [] => []
  | j :: js => settle j :: settleItems js

def settleFields : List (String × Json) → List (String × Json)
  | [] => []
  | f :: fs => (f.1, settle f.2) :: settleFields fs
end

end GraphStore.Json
