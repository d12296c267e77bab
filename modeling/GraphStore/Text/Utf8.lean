/-!
Text as UTF-8 bytes, and back. Reading is strict: overlong forms, surrogates and numbers above the
last code point are faults, and a fault tells how many bytes were good and how many the ill-formed
sequence takes.
-/
namespace GraphStore

abbrev Bytes := List UInt8

namespace Utf8

/-- The first ill-formed sequence of a byte string: the well-formed bytes before it, and the bytes it
takes, or `none` if the input ends inside a sequence that could still have been completed. -/
structure Fault where
  validUpTo : Nat
  width : Option Nat
  deriving DecidableEq, Repr

def Fault.message (f : Fault) : String :=
  match f.width with
  | some n => s!"invalid utf-8 sequence of {n} bytes from index {f.validUpTo}"
  | none => s!"incomplete utf-8 byte sequence from index {f.validUpTo}"

/-- The byte of a number below 256. -/
def octet (n : Nat) : UInt8 := UInt8.ofNat n

def encodeChar (c : Char) : Bytes :=
  let n := c.toNat
  if n < 0x80 then [octet n]
  else if n < 0x800 then [octet (0xC0 + n / 0x40), octet (0x80 + n % 0x40)]
  else if n < 0x10000 then
    [octet (0xE0 + n / 0x1000), octet (0x80 + n / 0x40 % 0x40), octet (0x80 + n % 0x40)]
  else
    [octet (0xF0 + n / 0x40000), octet (0x80 + n / 0x1000 % 0x40), octet (0x80 + n / 0x40 % 0x40),
      octet (0x80 + n % 0x40)]

def encode (s : String) : Bytes := s.toList.flatMap encodeChar

/-- The second bytes that may follow a lead byte. The narrower spans keep out overlong forms,
surrogates and numbers past the last code point. -/
def secondFits (lead second : Nat) : Bool :=
  let least := if lead = 0xE0 then 0xA0 else if lead = 0xF0 then 0x90 else 0x80
  let most := if lead = 0xED then 0x9F else if lead = 0xF4 then 0x8F else 0xBF
  least ≤ second && second ≤ most

def isTail (b : Nat) : Bool := 0x80 ≤ b && b ≤ 0xBF

/-- The sequence at the front of some bytes. -/
inductive Front where
  | char (c : Char) (rest : Bytes)
  | fault (width : Option Nat)

/-- The sequence that a lead byte opens. -/
def front (lead : UInt8) (rest : Bytes) : Front :=
  let a := lead.toNat
  if a < 0x80 then .char (Char.ofNat a) rest
  else if a < 0xC2 then .fault (some 1)
  else if a < 0xE0 then
    match rest with
    | [] => .fault none
    | b :: rest =>
      if isTail b.toNat then .char (Char.ofNat ((a - 0xC0) * 0x40 + (b.toNat - 0x80))) rest
      else .fault (some 1)
  else if a < 0xF0 then
    match rest with
    | [] => .fault none
    | b :: rest =>
      if secondFits a b.toNat then
        match rest with
        | [] => .fault none
        | c :: rest =>
          if isTail c.toNat then
            .char (Char.ofNat ((a - 0xE0) * 0x1000 + (b.toNat - 0x80) * 0x40 + (c.toNat - 0x80)))
              rest
          else .fault (some 2)
      else .fault (some 1)
  else if a < 0xF5 then
    match rest with
    | [] => .fault none
    | b :: rest =>
      if secondFits a b.toNat then
        match rest with
        | [] => .fault none
        | c :: rest =>
          if isTail c.toNat then
            match rest with
            | [] => .fault none
            | d :: rest =>
              if isTail d.toNat then
                .char (Char.ofNat ((a - 0xF0) * 0x40000 + (b.toNat - 0x80) * 0x1000
                  + (c.toNat - 0x80) * 0x40 + (d.toNat - 0x80))) rest
              else .fault (some 3)
          else .fault (some 2)
      else .fault (some 1)
  else .fault (some 1)

/-- The characters of some bytes, of which the first stands at index `start` of the input. Each
character takes a byte or more, so the fuel need not exceed the number of bytes. -/
def decodeFrom : Nat → Nat → Bytes → Except Fault (List Char)
  | _, _, [] => .ok []
  | 0, start, _ :: _ => .error ⟨start, none⟩
  | fuel + 1, start, lead :: rest =>
    match front lead rest with
    | .char c left =>
      match decodeFrom fuel (start + (rest.length + 1 - left.length)) left with
      | .ok cs => .ok (c :: cs)
      | .error f => .error f
    | .fault width => .error ⟨start, width⟩

def decode (bytes : Bytes) : Except Fault String :=
  (decodeFrom bytes.length 0 bytes).map String.ofList

end Utf8

end GraphStore
