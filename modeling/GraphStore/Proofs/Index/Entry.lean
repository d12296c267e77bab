import GraphStore.Index.Entry
import GraphStore.Proofs.Bytes.Reading

/-!
Entries read back. The value of an entry gives its element and ends where the element does. Its column is a zero
and then texts that tell where they end, so two columns are the same only if the texts are, one by one.
-/
namespace GraphStore

namespace IndexEntry

open Reading

variable {i : CompositeIndex} {m n : Match} {e f : Element} {entry other : IndexEntry}

theorem takes_readInVertex (v : Option VertexId) :
    Takes readInVertex (match v with | some v => 1 :: Bytes.escapedText v | none => [0]) v := by
  cases v with
  | none => exact (takes_byte 0).bind (.pure none)
  | some v => exact (takes_byte 1).bind ((takes_escapedText v).map some)

/-- The category of the element says in which of the two forms it stands. -/
theorem takes_readElement (e : Element) : Takes (readElement e.category) (elementBytes e) e := by
  cases e with
  | vertex id => exact (takes_escapedText id).map Element.vertex
  | relation r =>
    -- an edge and a property are read in one way
    have either : readElement (Element.relation r).category = readElement .edge := by
      rw [Element.category]
      split <;> rfl
    rw [either, elementBytes, List.append_assoc, List.append_assoc]
    refine (takes_escapedText r.relation).bind ?_
    refine (takes_escapedText r.outVertex).bind ?_
    refine (takes_orderedVarint r.type.value).bind ?_
    exact (takes_readInVertex r.inVertex).map fun v =>
      Element.relation ⟨r.relation, r.outVertex, r.type, v⟩

@[simp] theorem column_ofParts (column value : Bytes) : (ofParts column value).column = column :=
  List.take_left

@[simp] theorem value_ofParts (column value : Bytes) : (ofParts column value).value = value :=
  List.drop_left

theorem build_ok_iff : build i m e = .ok entry ↔
    e.category = i.element ∧ entry = ofParts (columnBytes i.cardinality m e) (elementBytes e) := by
  rw [build]
  split
  · next fitting => simp [fitting, eq_comm]
  · next foreign => simp [foreign]

theorem build_error_iff {fault : Fault} : build i m e = .error fault ↔
    e.category ≠ i.element ∧ fault = .invariant (.elementCategory e.category i.element i.name) := by
  rw [build]
  split
  · next fitting => simp [fitting]
  · next foreign => simp [foreign, eq_comm]

/-- An entry leads back to its element, and nothing is left over. -/
theorem decode_build (built : build i m e = .ok entry) : decode i entry = .ok e := by
  obtain ⟨fitting, rfl⟩ := build_ok_iff.1 built
  have taken := takes_readElement e []
  rw [List.append_nil, fitting] at taken
  rw [decode, column_ofParts, value_ofParts, if_neg (by simp [ofParts, columnBytes])]
  show (read i.element _).1 = _
  rw [read, Attempt.bind_run_ok taken, Attempt.bind_run_ok (remaining_run [])]
  rfl

/-- What the entries of a key stand apart by: nothing, the element, or the element and the relations that
matched. -/
def InOneColumn (m n : Match) (e f : Element) : Cardinality → Prop
  | .single => True
  | .set => e.documentId = f.documentId
  | .list => e.documentId = f.documentId ∧ m.map (·.relation) = n.map (·.relation)

theorem columnBytes_eq_iff (cardinality : Cardinality) :
    columnBytes cardinality m e = columnBytes cardinality n f ↔ InOneColumn m n e f cardinality := by
  cases cardinality with
  | single => simp [columnBytes, InOneColumn]
  | set =>
    refine ⟨fun same => ?_, fun same => by simp [columnBytes, show e.documentId = f.documentId from same]⟩
    exact (Bytes.escapedText_append_inj (List.cons.inj same).2).1
  | list =>
    constructor
    · intro same
      obtain ⟨element, relations⟩ := Bytes.escapedText_append_inj (List.cons.inj same).2
      refine ⟨element, Bytes.flatMap_escapedText_inj ?_⟩
      simpa only [List.flatMap_map, if_true] using relations
    · rintro ⟨element, relations⟩
      have texts := congrArg (List.flatMap Bytes.escapedText) relations
      rw [List.flatMap_map, List.flatMap_map] at texts
      simp [columnBytes, element, texts]

/-- An index refuses the elements of other categories and no others. What it takes is found again in the entry,
and two entries share a column exactly where the cardinality of the index allows it. -/
theorem build_reads_back (i : CompositeIndex) (m n : Match) (e f : Element) :
    (∀ fault, build i m e = .error fault ↔ e.category ≠ i.element ∧
      fault = .invariant (.elementCategory e.category i.element i.name)) ∧
    (∀ entry, build i m e = .ok entry → decode i entry = .ok e ∧
      ∀ other, build i n f = .ok other →
        (entry.column = other.column ↔ InOneColumn m n e f i.cardinality)) := by
  refine ⟨fun fault => build_error_iff, fun entry built => ⟨decode_build built, fun other made => ?_⟩⟩
  obtain ⟨-, rfl⟩ := build_ok_iff.1 built
  obtain ⟨-, rfl⟩ := build_ok_iff.1 made
  rw [column_ofParts, column_ofParts, columnBytes_eq_iff]

/-- Notes on edges, each note in an entry of its own. -/
def byNote : CompositeIndex := ⟨.ofNat 301, "by note", .edge, [.ofNat 80, .ofNat 81], .list, .enabled, none⟩

/-- Two notes by the relations that hold them. -/
def notes (first second : RelationId) : Match :=
  [⟨first, .ofNat 80, .string "seen"⟩, ⟨second, .ofNat 81, .string "heard"⟩]

/-- Ids that hold zeros, and so could seem to end early. -/
theorem build_reads_back_zeros : ∃ (r : RelationIdentity) (entry other : IndexEntry),
    r = ⟨"e\x00", "ann\x00\x00", .ofNat 12, some "\x00"⟩ ∧
    build byNote (notes "p\x00" "q") (.relation r) = .ok entry ∧
    build byNote (notes "p" "\x00q") (.relation r) = .ok other ∧
    decode byNote entry = .ok (.relation r) ∧ entry.column ≠ other.column := by
  obtain ⟨-, reads⟩ := build_reads_back byNote (notes "p\x00" "q") (notes "p" "\x00q")
    (.relation ⟨"e\x00", "ann\x00\x00", .ofNat 12, some "\x00"⟩)
    (.relation ⟨"e\x00", "ann\x00\x00", .ofNat 12, some "\x00"⟩)
  obtain ⟨decoded, columns⟩ := reads _ rfl
  refine ⟨_, _, _, rfl, rfl, rfl, decoded, fun same => ?_⟩
  obtain ⟨-, relations⟩ := (columns _ rfl).1 same
  exact absurd relations (by decide)

end IndexEntry

end GraphStore
