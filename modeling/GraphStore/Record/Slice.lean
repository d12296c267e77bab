import GraphStore.Bytes.Above
import GraphStore.Record.Layout

/-!
Intervals of record keys. A slice starts at a byte string and ends before another; it selects the
relations of one type and direction, and can be narrowed by the sort key, field by field, and then by
the far vertex. Points and a final range become the two ends; for a descending type the bits of both are
turned, so the upper bound of the values gives the lower end.
-/
namespace GraphStore

inductive Bound where
  | unbounded
  | included (v : Value)
  | excluded (v : Value)
  deriving DecidableEq, Repr

/-- What is asked of one sort-key field. -/
inductive Interval where
  | point (v : Value)
  | range (low high : Bound)
  deriving DecidableEq, Repr

structure Slice where
  start : Bytes
  stop : Bytes
  deriving DecidableEq, Repr

def Bound.value? : Bound → Option Value
  | unbounded => none
  | included v => some v
  | excluded v => some v

def Interval.isRange : Interval → Bool
  | point _ => false
  | range _ _ => true

namespace Slice

def contains (s : Slice) (key : Bytes) : Bool := !Bytes.less key s.start && Bytes.less key s.stop

/-- A bound that is there, as a field. -/
def boundBytes (declared : DataType) (b : Bound) : Except Fault Bytes :=
  match b.value? with
  | none => .ok []
  | some v => Inline.write declared (some v)

/-- The fields of both ends. -/
def ends (types : Types) : List (SchemaId × Interval) → Except Fault (Bytes × Bytes)
  | [] => .ok ([], [])
  | (key, interval) :: rest => do
    let declared ← types.keyType key
    let (low, high) ←
      match interval with
      | .point v => do
        let field ← Inline.write declared (some v)
        pure (field, field)
      | .range low high => do
        let low ← boundBytes declared low
        let high ← boundBytes declared high
        pure (low, high)
    let (lows, highs) ← ends types rest
    return (low ++ lows, high ++ highs)

/-- The first range must be the last interval. -/
def rangeIsLast : List Interval → Bool
  | [] => true
  | [_] => true
  | interval :: rest => !interval.isRange && rangeIsLast rest

/-- The final range, if there is one. -/
def finalRange? : List Interval → Option (Bound × Bound)
  | [] => none
  | [.range low high] => some (low, high)
  | _ :: rest => finalRange? rest

/-- A bound that lets in what starts with the bytes, as an upper end. -/
def upper (b : Bound) (bytes : Bytes) : Except Fault Bytes :=
  match b with
  | .excluded _ => .ok bytes
  | _ => Bytes.above bytes

/-- A bound that keeps out what starts with the bytes, as a lower end. -/
def lower (b : Bound) (bytes : Bytes) : Except Fault Bytes :=
  match b with
  | .excluded _ => Bytes.above bytes
  | _ => .ok bytes

/-- Whether the far vertex stands right after the given fields. -/
def narrows (t : RelationType) (d : Direction) (given : Nat) : Bool :=
  !t.isPropertyKey &&
    match Layout.of t d with
    | .unconstrained => given = t.sortKey.length
    | .constrained => true
    | .unique => false

/-- Edges of a type in either direction: their slots are neighbours. -/
def both (t : RelationType) : Except Fault Slice := do
  let start ← Header.write ⟨t.id, .edgeOut, t.invisible⟩
  let last ← Header.write ⟨t.id, .edgeIn, t.invisible⟩
  return ⟨start, ← Bytes.above last⟩

/-- All fields are points: what starts with them, and with the far vertex if one is given. -/
def ofPoints (t : RelationType) (d : Direction) (given : Nat) (adjacent : Option VertexId)
    (start : Bytes) : Except Fault Slice := do
  let start ←
    match adjacent with
    | none => .ok start
    | some v =>
      if narrows t d given then .ok (start ++ Bytes.escapedText v)
      else .error (.validation (.adjacentNotNarrowing t.name))
  return ⟨start, ← Bytes.above start⟩

def ofRange (order : SortOrder) (low high : Bound) (lows highs : Bytes) : Except Fault Slice :=
  match order with
  | .ascending => do
    let start ← lower low lows
    return ⟨start, ← upper high highs⟩
  | .descending => do
    let start ← lower high highs
    return ⟨start, ← upper low lows⟩

/-- The slice of a type in one direction. -/
def directed (types : Types) (t : RelationType) (d : Direction) (intervals : List Interval)
    (adjacent : Option VertexId) : Except Fault Slice := do
  if t.sortKey.length < intervals.length then
    .error (.validation (.tooManyIntervals intervals.length t.sortKey.length))
  else if !rangeIsLast intervals then .error (.validation .rangeNotLast)
  else
    let header ← t.header d
    let (lows, highs) ← ends types (t.sortKey.zip intervals)
    let turn (fields : Bytes) :=
      match t.sortOrder with
      | .ascending => fields
      | .descending => Bytes.flip fields
    let lows := header ++ turn lows
    let highs := header ++ turn highs
    match finalRange? intervals with
    | none => ofPoints t d intervals.length adjacent lows
    | some (low, high) =>
      if adjacent.isSome then .error (.validation .adjacentAfterRange)
      else ofRange t.sortOrder low high lows highs

def build (types : Types) (t : RelationType) (d : Direction) (intervals : List Interval)
    (adjacent : Option VertexId) : Except Fault Slice :=
  if d = .both && !t.isPropertyKey then
    if !intervals.isEmpty || adjacent.isSome then .error (.validation .bothConstrained)
    else both t
  else directed types t (if t.isPropertyKey then .out else d) intervals adjacent

end Slice

end GraphStore
