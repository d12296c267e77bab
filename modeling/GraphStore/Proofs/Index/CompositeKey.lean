import GraphStore.Index.Catalog
import GraphStore.Index.CompositeKey
import GraphStore.Proofs.Attempt
import GraphStore.Proofs.Codec.Refusal

/-!
Composite keys and the values that they are made of. A key is read back, up to what the compact form keeps
of a value, and tells apart all values that the compact form does, be they read back or not. The index id comes
first and tells where it ends, and so does each value, so that no key goes on from another one, be it of the same
index or not.
-/
namespace GraphStore

theorem HashLength.bytes_le (length : HashLength) : length.bytes ≤ 8 := by cases length <;> decide

namespace KeyCodec

open Reading

variable {c : KeyCodec} {types : Types} {i : CompositeIndex} {keys : List SchemaId}
  {values others : List Value} {key bytes : Bytes}

/-- Every digest is long enough for the longest mark. -/
def IsWide (c : KeyCodec) : Prop := ∀ raw, 8 ≤ (c.digest raw).length

theorem sha256_isWide (hash : Option HashLength) : (sha256 hash).IsWide := by
  intro raw
  rw [sha256, Sha256.digest_length]
  decide

theorem mark_length (wide : c.IsWide) (length : HashLength) (raw : Bytes) :
    (c.mark length raw).length = length.bytes := by
  have enough := wide raw
  have short := length.bytes_le
  rw [mark, List.length_take]
  omega

/-- The mark is found in front of a key and comes off. -/
theorem strip_withMark (wide : c.IsWide) (raw : Bytes) : c.strip (c.withMark raw) = .ok raw := by
  rw [strip, withMark]
  cases c.hash with
  | none => rfl
  | some length =>
    have front := mark_length wide length raw
    have long : ¬(c.mark length raw ++ raw).length < length.bytes := by
      rw [List.length_append, front]
      omega
    simp only [if_neg long]
    rw [List.drop_left' front, List.take_left' front, if_pos rfl]

theorem withMark_inj (wide : c.IsWide) {x y : Bytes} (same : c.withMark x = c.withMark y) : x = y := by
  have stripped := strip_withMark wide x
  rw [same, strip_withMark wide y] at stripped
  exact (Except.ok.inj stripped).symm

theorem writeValues_cons_ok {field : SchemaId} {v : Value} {rest : List (SchemaId × Value)}
    (h : writeValues types ((field, v) :: rest) = .ok bytes) :
    ∃ declared value more, types.keyType field = .ok declared ∧
      Attribute.write declared .compact v = .ok value ∧ writeValues types rest = .ok more ∧
      bytes = value ++ more := by
  obtain ⟨declared, typed, h⟩ := bind_ok_iff.1 h
  obtain ⟨value, written, h⟩ := bind_ok_iff.1 h
  obtain ⟨more, others, h⟩ := bind_ok_iff.1 h
  exact ⟨declared, value, more, typed, written, others, (pure_ok_iff.1 h).symm⟩

theorem takes_writeValues (aligned : values.length = keys.length) (near : ∀ v ∈ values, v.isBeyond = false)
    (h : writeValues types (keys.zip values) = .ok bytes) :
    Takes (readValues types keys) bytes (values.map (·.kept .compact)) := by
  induction keys generalizing values bytes with
  | nil =>
    obtain rfl := List.length_eq_zero_iff.1 aligned
    obtain rfl := Except.ok.inj h
    exact .pure []
  | cons field rest ih =>
    cases values with
    | nil => cases aligned
    | cons v values =>
      obtain ⟨declared, value, more, typed, written, others, rfl⟩ := writeValues_cons_ok h
      obtain ⟨near, nears⟩ := List.forall_mem_cons.1 near
      have later := ih (Nat.succ.inj aligned) nears others
      exact .bind_lift typed ((Attribute.takes_write written near).bind
        (later.map (v.kept .compact :: ·)))

theorem refuses_writeValues (aligned : values.length = keys.length) (beyond : ∃ v ∈ values, v.isBeyond = true)
    (h : writeValues types (keys.zip values) = .ok bytes) : Refuses (readValues types keys) bytes := by
  induction keys generalizing values bytes with
  | nil =>
    obtain rfl := List.length_eq_zero_iff.1 aligned
    simp at beyond
  | cons field rest ih =>
    cases values with
    | nil => cases aligned
    | cons v values =>
      obtain ⟨declared, value, more, typed, written, others, rfl⟩ := writeValues_cons_ok h
      refine .bind_lift typed ?_
      cases here : v.isBeyond with
      | true => exact ((Attribute.refuses_write written here).followed _).append more
      | false =>
        have later : ∃ w ∈ values, w.isBeyond = true := by simpa [here] using beyond
        have refused := ih (Nat.succ.inj aligned) later others
        exact .bind (Attribute.takes_write written here) (refused.followed _)

/-- Lists of stored values are told apart by what is kept of them, and tell where they end. -/
theorem writeValues_split {x y : Bytes} (aligned : values.length = keys.length)
    (aligned' : others.length = keys.length) (left : writeValues types (keys.zip values) = .ok key)
    (right : writeValues types (keys.zip others) = .ok bytes) (same : key ++ x = bytes ++ y) :
    values.map (·.kept .compact) = others.map (·.kept .compact) ∧ x = y := by
  induction keys generalizing values others key bytes with
  | nil =>
    obtain rfl := List.length_eq_zero_iff.1 aligned
    obtain rfl := List.length_eq_zero_iff.1 aligned'
    obtain rfl := Except.ok.inj left
    obtain rfl := Except.ok.inj right
    exact ⟨rfl, same⟩
  | cons field rest ih =>
    cases values with
    | nil => cases aligned
    | cons v values =>
      cases others with
      | nil => cases aligned'
      | cons w others =>
        obtain ⟨declared, value, more, typed, written, later, rfl⟩ := writeValues_cons_ok left
        obtain ⟨declared', value', more', typed', written', later', rfl⟩ := writeValues_cons_ok right
        obtain rfl := Except.ok.inj (typed.symm.trans typed')
        rw [List.append_assoc, List.append_assoc] at same
        obtain ⟨first, same⟩ := Attribute.write_split written written' same
        obtain ⟨tails, ends⟩ := ih (Nat.succ.inj aligned) (Nat.succ.inj aligned') later later' same
        exact ⟨by rw [List.map_cons, List.map_cons, first, tails], ends⟩

theorem build_ok (h : c.build types i values = .ok key) :
    values.length = i.fields.length ∧
      ∃ fields, writeValues types (i.fields.zip values) = .ok fields ∧
        key = c.withMark (Bytes.orderedVarint i.id.value ++ fields) := by
  rw [build] at h
  split at h
  · cases h
  · next aligned =>
    obtain ⟨fields, written, h⟩ := bind_ok_iff.1 h
    exact ⟨not_not.1 aligned, fields, written, (pure_ok_iff.1 h).symm⟩

theorem takes_id (id : SchemaId) : Takes readId (Bytes.orderedVarint id.value) id :=
  (takes_orderedVarint id.value).map SchemaId.mk

/-- A key is read back. -/
theorem decode_build (wide : c.IsWide) (near : ∀ v ∈ values, v.isBeyond = false)
    (h : c.build types i values = .ok key) :
    c.decode types i key = .ok (values.map (·.kept .compact)) := by
  obtain ⟨aligned, fields, written, rfl⟩ := build_ok h
  have taken := takes_writeValues aligned near written []
  rw [List.append_nil] at taken
  rw [decode, strip_withMark wide]
  show (read types i _).1 = _
  rw [read, Attempt.bind_run_ok (takes_id i.id fields), if_neg (not_not.2 rfl),
    Attempt.bind_run_ok taken, Attempt.bind_run_ok (remaining_run [])]
  rfl

/-- A key of a date beyond all milliseconds is not read back. -/
theorem decode_refused (wide : c.IsWide) (beyond : ∃ v ∈ values, v.isBeyond = true)
    (h : c.build types i values = .ok key) :
    ∃ ms, c.decode types i key = .error (.encoding (.dateOutOfRange ms)) := by
  obtain ⟨aligned, fields, written, rfl⟩ := build_ok h
  obtain ⟨ms, left, failed⟩ := refuses_writeValues aligned beyond written []
  rw [List.append_nil] at failed
  refine ⟨ms, ?_⟩
  rw [decode, strip_withMark wide]
  show (read types i _).1 = _
  rw [read, Attempt.bind_run_ok (takes_id i.id fields), if_neg (not_not.2 rfl), Attempt.bind_run_error failed]

theorem indexId_build (wide : c.IsWide) (h : c.build types i values = .ok key) :
    c.indexId key = .ok i.id := by
  obtain ⟨-, fields, -, rfl⟩ := build_ok h
  rw [indexId, strip_withMark wide]
  show (readId _).1 = _
  rw [takes_id i.id fields]

/-- Keys differ if what is kept of the values does. -/
theorem kept_of_build_eq (wide : c.IsWide) (left : c.build types i values = .ok key)
    (right : c.build types i others = .ok key) :
    values.map (·.kept .compact) = others.map (·.kept .compact) := by
  obtain ⟨aligned, fields, written, rfl⟩ := build_ok left
  obtain ⟨aligned', fields', written', same⟩ := build_ok right
  have behind := List.append_cancel_left (withMark_inj wide same)
  exact (writeValues_split aligned aligned' written written' (congrArg (· ++ []) behind)).1

theorem writeValues_of_kept_eq (aligned : values.length = keys.length)
    (same : values.map (·.kept .compact) = others.map (·.kept .compact))
    (h : writeValues types (keys.zip values) = .ok bytes) :
    writeValues types (keys.zip others) = .ok bytes := by
  induction keys generalizing values others bytes with
  | nil => exact h
  | cons field rest ih =>
    cases values with
    | nil => cases aligned
    | cons v values =>
      cases others with
      | nil => cases same
      | cons w others =>
        obtain ⟨head, tail⟩ := List.cons.inj same
        obtain ⟨declared, value, more, typed, written, later, rfl⟩ := writeValues_cons_ok h
        exact bind_ok_iff.2 ⟨declared, typed, bind_ok_iff.2
          ⟨value, Attribute.write_of_kept_eq head written, bind_ok_iff.2
            ⟨more, ih (Nat.succ.inj aligned) tail later, rfl⟩⟩⟩

/-- Keys are the same if what is kept of the values is. -/
theorem build_of_kept_eq (same : values.map (·.kept .compact) = others.map (·.kept .compact))
    (h : c.build types i values = .ok key) : c.build types i others = .ok key := by
  obtain ⟨aligned, fields, written, rfl⟩ := build_ok h
  have sizes : values.length = others.length := by simpa using congrArg List.length same
  rw [build, if_neg (not_not.2 (sizes ▸ aligned))]
  exact bind_ok_iff.2 ⟨fields, writeValues_of_kept_eq aligned same written, rfl⟩

/-- Only what was marked is stripped. -/
theorem strip_ok_iff (wide : c.IsWide) {raw : Bytes} : c.strip bytes = .ok raw ↔ bytes = c.withMark raw := by
  refine ⟨fun h => ?_, fun h => by rw [h, strip_withMark wide]⟩
  rw [strip] at h
  rw [withMark]
  split at h
  · exact Except.ok.inj h
  · next length _ =>
    split at h
    · cases h
    · simp only at h
      split at h
      · next marked =>
        obtain rfl := Except.ok.inj h
        simp only [marked, List.take_append_drop]
      · cases h

/-- Marks are of one length, so a key goes on from another one only if it does behind them. -/
theorem prefix_of_withMark (wide : c.IsWide) {x y : Bytes} (start : c.withMark x <+: c.withMark y) :
    x <+: y := by
  rw [withMark, withMark] at start
  split at start
  · exact start
  · next length _ =>
    obtain ⟨tail, shape⟩ := start
    rw [List.append_assoc] at shape
    have sizes : (c.mark length x).length = (c.mark length y).length := by
      rw [mark_length wide, mark_length wide]
    exact ⟨tail, (List.append_inj shape sizes).2⟩

theorem id_eq_of_start {a b : SchemaId} {x y : Bytes}
    (start : Bytes.orderedVarint a.value ++ x <+: Bytes.orderedVarint b.value ++ y) : a = b := by
  obtain ⟨tail, shape⟩ := start
  have first := takes_id a (x ++ tail)
  rw [← List.append_assoc, shape, takes_id b y] at first
  exact (Except.ok.inj (Prod.mk.inj first).1).symm

/-- Of the keys of one index none goes on from another one. -/
theorem build_eq_of_start (wide : c.IsWide) (left : c.build types i values = .ok key)
    (right : c.build types i others = .ok bytes) (start : key <+: bytes) : key = bytes := by
  obtain ⟨aligned, fields, written, rfl⟩ := build_ok left
  obtain ⟨aligned', fields', written', rfl⟩ := build_ok right
  obtain ⟨tail, behind⟩ := (List.prefix_append_right_inj _).1 (prefix_of_withMark wide start)
  rw [← List.append_nil fields'] at behind
  obtain ⟨-, rfl⟩ := writeValues_split aligned aligned' written written' behind
  rw [List.append_cancel_right behind]

variable {catalog : Catalog} {j : CompositeIndex}

/-- In a catalog an id means one index. -/
theorem index_eq_of_start (wide : c.IsWide) (one : catalog.get? i.id = some (.composite i))
    (other : catalog.get? j.id = some (.composite j)) (left : c.build types i values = .ok key)
    (right : c.build types j others = .ok bytes) (start : key <+: bytes) : i = j := by
  obtain ⟨-, fields, -, rfl⟩ := build_ok left
  obtain ⟨-, fields', -, rfl⟩ := build_ok right
  rw [id_eq_of_start (prefix_of_withMark wide start), other] at one
  exact (IndexDefinition.composite.inj (Option.some.inj one)).symm

/-- Keys behind a long mark, which is what they start with. -/
def leading : KeyCodec := ⟨some .long, fun raw => (raw ++ List.replicate 8 0).take 8⟩

theorem leading_isWide : leading.IsWide := by
  intro raw
  show 8 ≤ ((raw ++ List.replicate 8 0).take 8).length
  rw [List.length_take, List.length_append, List.length_replicate]
  omega

/-- When vertices were written, and how long they live. -/
def byTime : CompositeIndex :=
  ⟨.ofNat 300, "by time", .vertex, [ImplicitKey.timestamp.id, ImplicitKey.ttl.id], .list, .enabled, none⟩

/-- Some nanoseconds after the first second of 1970. -/
def early (nanos : Nat) (small : nanos < 2000000000) : Timestamp := ⟨1, nanos, small, by decide⟩

end KeyCodec

end GraphStore
