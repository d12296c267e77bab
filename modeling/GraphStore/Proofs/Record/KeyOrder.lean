import GraphStore.Proofs.Record.Parts

/-!
The keys of unconstrained types sort as their relations do: by the sort key field by field, a missing value
before every value, then by the far vertex, then by the relation id. A descending type turns around the
order of the sort key only.
-/
namespace GraphStore

/-- Field by field, the first difference deciding. -/
def orderFields (a b : SchemaId → Option Value) : List SchemaId → Ordering
  | [] => .eq
  | key :: rest => (Value.orderMissing (a key) (b key)).then (orderFields a b rest)

/-- The order of two relations by their far vertices. Properties have none. -/
def Relation.orderOther (d : Direction) (a b : Relation) : Ordering :=
  match a.otherVertex d, b.otherVertex d with
  | some u, some v => compare (Utf8.encode u) (Utf8.encode v)
  | _, _ => .eq

open Bytes (Compares)

/-- Fields of one key compare as what they hold, whatever follows them. -/
theorem Inline.compares_write {declared : DataType} {a b : Option Value} {x y : Bytes}
    (left : write declared a = .ok x) (right : write declared b = .ok y) :
    Compares x y (Value.orderMissing a b) := by
  have there {v : Value} {x : Bytes} (h : write declared (some v) = .ok x) :
      v.dataType = declared ∧ x = 1 :: Ordered.write v := by
    obtain ⟨bytes, written, rfl⟩ := write_some_ok h
    obtain ⟨typed, rfl⟩ := Attribute.write_ordered written
    exact ⟨typed.symm, rfl⟩
  cases a with
  | none =>
    obtain rfl := Except.ok.inj left
    cases b with
    | none =>
      obtain rfl := Except.ok.inj right
      exact Compares.refl _
    | some v =>
      obtain ⟨-, rfl⟩ := there right
      exact Compares.of_head (by decide) _ _
  | some u =>
    obtain ⟨typed, rfl⟩ := there left
    cases b with
    | none =>
      obtain rfl := Except.ok.inj right
      exact Compares.of_head (by decide) _ _
    | some v =>
      obtain ⟨typed', rfl⟩ := there right
      exact (Ordered.compares_write (typed.trans typed'.symm)).cons

theorem Inline.compares_writeAll {types : Types} {a b : SchemaId → Option Value}
    {keys : List SchemaId} {x y : Bytes} (left : writeAll types a keys = .ok x)
    (right : writeAll types b keys = .ok y) : Compares x y (orderFields a b keys) := by
  induction keys generalizing x y with
  | nil =>
    obtain rfl := Except.ok.inj left
    obtain rfl := Except.ok.inj right
    exact Compares.refl _
  | cons key rest ih =>
    obtain ⟨declared, field, fields, typed, written, others, rfl⟩ := writeAll_cons_ok left
    obtain ⟨declared', field', fields', typed', written', others', rfl⟩ := writeAll_cons_ok right
    obtain rfl := Except.ok.inj (typed.symm.trans typed')
    exact (compares_write written written').append (ih others others')

theorem orderFields_congr {a b a' b' : SchemaId → Option Value} {keys : List SchemaId}
    (left : ∀ key ∈ keys, a key = a' key) (right : ∀ key ∈ keys, b key = b' key) :
    orderFields a b keys = orderFields a' b' keys := by
  induction keys with
  | nil => rfl
  | cons key rest ih =>
    rw [orderFields, orderFields, left key List.mem_cons_self, right key List.mem_cons_self,
      ih (fun key member => left key (List.mem_cons_of_mem _ member))
        (fun key member => right key (List.mem_cons_of_mem _ member))]

namespace Record

variable {types : Types} {t : RelationType} {a b r : Relation} {position : Nat}

theorem stored_get? {key : SchemaId} (h : ImplicitKey.isReserved key = false) :
    (stored r).get? key = r.get? key := by
  rw [stored, KeyMap.get?_filter, h, Relation.get?]
  cases r.properties.get? key <;> rfl

/-- Sort keys compare as the values under their keys, in the order of the type. -/
theorem compares_sortKey {x y : Bytes} (plain : ∀ key ∈ t.sortKey, ImplicitKey.isReserved key = false)
    (left : sortKey types t a = .ok x) (right : sortKey types t b = .ok y) :
    Compares x y (t.sortOrder.turn (orderFields a.get? b.get? t.sortKey)) := by
  obtain ⟨fields, written, rfl⟩ := sortKey_ok left
  obtain ⟨fields', written', rfl⟩ := sortKey_ok right
  have compared := Inline.compares_writeAll written written'
  rw [orderFields_congr (fun key member => stored_get? (plain key member))
    (fun key member => stored_get? (plain key member))] at compared
  exact compared.turnBytes t.sortOrder

/-- What stands in the key for the far vertex. -/
def farKey (r : Relation) (d : Direction) : Bytes := (r.otherVertex d).elim [] Bytes.escapedText

/-- Key of an unconstrained type. -/
theorem Parts.key_eq (p : Parts types r position)
    (multi : p.type.multiplicity.isConstrained = false) :
    ∃ sort, sortKey types p.type r = .ok sort ∧ p.key =
      p.header ++ (sort ++ (farKey r (.ofPosition position) ++ Bytes.escapedText r.id)) := by
  obtain ⟨tip, tip_eq, parts⟩ := keyAndEnds_ok p.keyAndEnds_eq
  rw [Layout.of_eq_unconstrained.2 multi] at parts
  obtain ⟨sort, sorted, parts⟩ := parts
  refine ⟨sort, sorted, ?_⟩
  obtain ⟨edge, -, other, seen, far⟩ | ⟨property, -, v, holds, -⟩ := farEnd_ok p.farEnd_eq
  · rw [if_pos edge] at parts
    rw [far] at tip_eq
    obtain rfl := Except.ok.inj tip_eq
    rw [parts.1, farKey, seen, List.append_assoc, List.append_assoc]
    rfl
  · rw [if_neg (by rw [property]; decide)] at parts
    rw [parts.1, farKey, r.otherVertex_of_property property, List.append_assoc]
    rfl

theorem compares_farKey {d : Direction} {far far' : FarEnd} (left : farEnd t a d = .ok far)
    (right : farEnd t b d = .ok far') : Compares (farKey a d) (farKey b d) (a.orderOther d b) := by
  obtain ⟨-, u, v, seen, seen', -⟩ | ⟨property, property', -⟩ := farEnds_ok left right
  · rw [farKey, farKey, Relation.orderOther, seen, seen']
    exact Bytes.compares_escapedText u v
  · rw [farKey, farKey, Relation.orderOther, a.otherVertex_of_property property,
      b.otherVertex_of_property property']
    exact Compares.refl _

/-- Records of one unconstrained type at one end sort, byte by byte, by sort key, far vertex and id. -/
theorem compare_keys {x y : Record} (sameType : a.type = b.type) (known : types.type? a.type = some t)
    (multi : t.multiplicity.isConstrained = false)
    (plain : ∀ key ∈ t.sortKey, ImplicitKey.isReserved key = false)
    (left : encode types a position = .ok x) (right : encode types b position = .ok y) :
    compare x.key y.key =
      (t.sortOrder.turn (orderFields a.get? b.get? t.sortKey)).then
        ((a.orderOther (.ofPosition position) b).then
          (compare (Utf8.encode a.id) (Utf8.encode b.id))) := by
  obtain ⟨p, rfl⟩ := encode_ok left
  obtain ⟨q, rfl⟩ := encode_ok right
  obtain rfl : t = p.type := Option.some.inj (known.symm.trans p.known)
  have same : q.type = p.type := Option.some.inj (q.known.symm.trans (sameType ▸ p.known))
  obtain ⟨sort, sorted, key⟩ := p.key_eq multi
  obtain ⟨sort', sorted', key'⟩ := q.key_eq (same ▸ multi)
  rw [same] at sorted'
  have headers : p.header = q.header :=
    Except.ok.inj (p.header_eq.symm.trans (same ▸ q.header_eq))
  have sorts := compares_sortKey plain sorted sorted'
  have fars := compares_farKey p.farEnd_eq (same ▸ q.farEnd_eq)
  have ids := Bytes.compares_escapedText a.id b.id
  show compare p.key q.key = _
  rw [key, key', headers, Bytes.compare_append_left]
  exact (sorts.append (fars.append ids)).result

theorem compare_keys_annKnows :
    ∃ x y, encode Schema.acquaintance.lookup (annKnows "k" "bob" 2001) 0 = .ok x ∧
      encode Schema.acquaintance.lookup (annKnows "l" "cid" 2005) 0 = .ok y ∧
      compare x.key y.key = .gt := by
  obtain ⟨x, left⟩ : ∃ x,
      encode Schema.acquaintance.lookup (annKnows "k" "bob" 2001) 0 = .ok x := ⟨_, rfl⟩
  obtain ⟨y, right⟩ : ∃ y,
      encode Schema.acquaintance.lookup (annKnows "l" "cid" 2005) 0 = .ok y := ⟨_, rfl⟩
  have sameType : (annKnows "k" "bob" 2001).type = (annKnows "l" "cid" 2005).type := rfl
  have known : Schema.acquaintance.lookup.type? (annKnows "k" "bob" 2001).type = some Schema.knows := rfl
  have compared := compare_keys sameType known rfl (by decide) left right
  exact ⟨x, y, left, right, compared.trans rfl⟩

end Record

end GraphStore
