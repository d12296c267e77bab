import GraphStore.Record.Decoded

/-!
A record that remembers what was decoded of it. A full decode also answers for the header part, but not
the other way round. Failures are not remembered.
-/
namespace GraphStore

structure Memo where
  record : Record
  header : Option Decoded
  full : Option Decoded
  deriving DecidableEq, Repr

namespace Memo

def new (record : Record) : Memo := ⟨record, none, none⟩

def readHeader (m : Memo) (types : Types) : Except Fault Decoded × Memo :=
  match m.full, m.header with
  | some full, _ => (.ok full, m)
  | none, some header => (.ok header, m)
  | none, none =>
    match m.record.decode types true with
    | .ok decoded => (.ok decoded, { m with header := some decoded })
    | .error fault => (.error fault, m)

def readFull (m : Memo) (types : Types) : Except Fault Decoded × Memo :=
  match m.full with
  | some full => (.ok full, m)
  | none =>
    match m.record.decode types false with
    | .ok decoded => (.ok decoded, { m with full := some decoded })
    | .error fault => (.error fault, m)

end Memo

end GraphStore
