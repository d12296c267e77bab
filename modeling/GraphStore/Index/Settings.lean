/-! Settings of the index layer. -/
namespace GraphStore

/-- How many bytes of digest stand before a composite key. -/
inductive HashLength where
  | short | long
  deriving DecidableEq, Repr

namespace HashLength

def name : HashLength → String
  | short => "short"
  | long => "long"

def ofName? (name : String) : Option HashLength := [short, long].find? (·.name = name)

def bytes : HashLength → Nat
  | short => 4
  | long => 8

end HashLength

structure BatchSettings where
  /-- A batch of so many updates is full. -/
  batchSize : Nat
  /-- At so little free memory a batch is handed over early. -/
  minFreeMemoryPercent : Nat
  deriving DecidableEq, Repr

structure Settings where
  hashKeys : Option HashLength
  /-- What a key reference of a raw query starts with. -/
  rawQueryPrefix : String
  wildcardField : String
  /-- What the name of a text field's exact twin ends with. -/
  stringSuffix : String
  batch : BatchSettings
  deriving DecidableEq, Repr

def BatchSettings.default : BatchSettings := ⟨1000, 10⟩

def Settings.default : Settings := ⟨none, "v.", "*", "__STRING", .default⟩

end GraphStore
