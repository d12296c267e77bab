import GraphStore.Decimal.Shortest

/-!
Floats as text. A style says which numbers are written positionally, and how a whole number ends; the
digits are always the shortest that read back.
-/
namespace GraphStore.Decimal

structure Style where
  /-- Positional notation is used when the point stands from here … -/
  lowestPoint : Option Int
  /-- … to here, counted in digits before the point. -/
  highestPoint : Option Int
  /-- What follows the digits of a whole number. -/
  wholeEnd : String
  /-- Whether a tie between two shortest texts goes to the even digit, and not upwards. -/
  toEven : Bool
  /-- The sign of an exponent that is not negative. -/
  exponentPlus : String

/-- Values in messages never use an exponent. -/
def plain : Style := ⟨none, none, "", false, ""⟩

/-- Inside a written predicate a float shows that it is one, and uses an exponent from `1e16` on and
below `1e-4`. -/
def marked : Style := ⟨some (-3), some 16, ".0", false, ""⟩

/-- Numbers in a JSON text use an exponent from `1e+16` on and below `1e-5`. -/
def json : Style := ⟨some (-4), some 16, ".0", true, "+"⟩

def digitText (ds : List Nat) : String := String.ofList (ds.map Nat.digitChar)

def zeros (n : Nat) : String := String.ofList (List.replicate n '0')

def positional (wholeEnd : String) (d : Digits) : String :=
  let n : Int := d.digits.length
  if n ≤ d.point then digitText d.digits ++ zeros (d.point - n).toNat ++ wholeEnd
  else if 0 < d.point then
    digitText (d.digits.take d.point.toNat) ++ "." ++ digitText (d.digits.drop d.point.toNat)
  else "0." ++ zeros (-d.point).toNat ++ digitText d.digits

def exponential (plus : String) (d : Digits) : String :=
  let lead := digitText (d.digits.take 1)
  let rest := digitText (d.digits.drop 1)
  let exponent := d.point - 1
  lead ++ (if rest.isEmpty then "" else "." ++ rest) ++ "e" ++ (if 0 ≤ exponent then plus else "")
    ++ toString exponent

def Style.isPositional (s : Style) (point : Int) : Bool :=
  s.lowestPoint.all (· ≤ point) && s.highestPoint.all (point ≤ ·)

/-- A text of any float; the words for what is not finite are the same in every style. -/
def Style.text (s : Style) (x : Binary64) : String :=
  if x.isNaN then "NaN"
  else
    let sign := if x.negative then "-" else ""
    if !x.isFinite then sign ++ "inf"
    else if x.isZero then sign ++ "0" ++ s.wholeEnd
    else
      let d := shortest s.toEven x
      sign ++ (if s.isPositional d.point then positional s.wholeEnd d
        else exponential s.exponentPlus d)

example : plain.text ⟨0x444b1ae4d6e2ef50⟩ = "1000000000000000000000" := by decide +kernel
example : marked.text ⟨0x3e7ad7f29abcaf48⟩ = "1e-7" := by decide +kernel
example : json.text ⟨0x4341c37937e08000⟩ = "1e+16" := by decide +kernel

end GraphStore.Decimal
