import GraphStore.Proofs.Codec.Refusal
import GraphStore.Proofs.Record.RoundTrip

/-!
Records of dates beyond all milliseconds. Each part of a record that has one stops its reader, so a record is read
back just if none of its parts does.
-/
namespace GraphStore

open Reading

namespace Inline

variable {types : Types} {properties : SchemaId → Option Value}

theorem not_beyond_iff {keys : List SchemaId} :
    (¬∃ key ∈ keys, ∃ v, properties key = some v ∧ v.isBeyond = true) ↔
      ∀ key ∈ keys, ∀ v, properties key = some v → v.isBeyond = false := by
  simp only [not_exists, not_and, Bool.not_eq_true]

theorem refuses_readAll {keys : List SchemaId} {bytes : Bytes} (h : writeAll types properties keys = .ok bytes)
    (beyond : ∃ key ∈ keys, ∃ v, properties key = some v ∧ v.isBeyond = true) :
    Refuses (readAll types keys) bytes := by
  induction keys generalizing bytes with
  | nil => simp at beyond
  | cons key rest ih =>
    obtain ⟨declared, field, fields, typed, written, others, rfl⟩ := writeAll_cons_ok h
    refine .bind_lift typed ?_
    by_cases here : ∃ v, properties key = some v ∧ v.isBeyond = true
    · obtain ⟨v, there, late⟩ := here
      rw [there] at written
      obtain ⟨value, stored, rfl⟩ := write_some_ok written
      have refused := Attribute.refuses_write stored late
      exact ((Refuses.bind (takes_byte 1) (refused.followed _)).followed _).append fields
    · have first : ∀ v, properties key = some v → v.isBeyond = false := by
        simpa only [not_exists, not_and, Bool.not_eq_true] using here
      obtain ⟨k, listed, late⟩ := beyond
      obtain rfl | later := List.mem_cons.1 listed
      · exact absurd late here
      · exact .bind (takes_read first written) ((ih others ⟨k, later, late⟩).followed _)

end Inline

/-- Turned bytes are refused as what was turned is. -/
theorem Reading.flipped_refused {α : Type} {r : Reading α} {x : Bytes} (refused : Refuses r x) {limit : Nat}
    (room : x.length ≤ limit) : ∀ rest, ∃ ms left,
      flipped limit r (Bytes.flip x ++ rest) = (.error (.encoding (.dateOutOfRange ms)), left) := by
  intro rest
  obtain ⟨ms, left, failed⟩ := refused (Bytes.flip (rest.take (limit - x.length)))
  refine ⟨ms, Bytes.flip x ++ rest, ?_⟩
  simp only [flipped]
  rw [Bytes.flip_take_flip room, failed]

namespace Record

variable {types : Types} {t : RelationType} {r : Relation} {d : Direction} {far : FarEnd}

/-- Only a property has a value. -/
theorem farEnd_of_value {v : Value} (holds : r.value = some v) (fitting : farEnd t r d = .ok far) :
    r.isEdge = false ∧ (∃ type, t.dataType? = some type) ∧ far = .value v := by
  obtain ⟨edge, -⟩ | ⟨property, declared, w, holds', rfl⟩ := farEnd_ok fitting
  · cases kind : r.kind <;> simp [Relation.value, Relation.isEdge, kind] at holds edge
  · obtain rfl := Option.some.inj (holds.symm.trans holds')
    exact ⟨property, declared, rfl⟩

theorem refuses_farEnd {tip : Bytes} {v : Value} (holds : r.value = some v) (beyond : v.isBeyond = true)
    (fitting : farEnd t r d = .ok far) (h : far.write t = .ok tip) : Refuses (FarEnd.read t) tip := by
  obtain ⟨-, ⟨type, declared⟩, rfl⟩ := farEnd_of_value holds fitting
  rw [FarEnd.write, declared] at h
  rw [FarEnd.read, declared]
  exact (Attribute.refuses_write h beyond).followed _

theorem not_leadsWithin_iff : ¬r.LeadsWithin t ↔ (∃ v, r.value = some v ∧ v.isBeyond = true) ∨
    ∃ key ∈ t.sortKey, ∃ v, (stored r).get? key = some v ∧ v.isBeyond = true := by
  rw [← not_iff_not, not_not, not_or, Inline.not_beyond_iff]
  simp only [not_exists, not_and, Bool.not_eq_true]
  exact ⟨fun leads => ⟨leads.value, leads.sortKey⟩, fun apart => ⟨apart.1, apart.2⟩⟩

theorem readSortKey_refused {rec : Record} {header sort rest : Bytes}
    (beyond : ∃ key ∈ t.sortKey, ∃ v, (stored r).get? key = some v ∧ v.isBeyond = true)
    (sorted : sortKey types t r = .ok sort) (key : rec.key = header ++ (sort ++ rest)) :
    ∃ ms left, readSortKey types t rec (sort ++ (rest ++ rec.content)) =
      (.error (.encoding (.dateOutOfRange ms)), left) := by
  have whole : rec.bytes = header ++ (sort ++ (rest ++ rec.content)) := by
    rw [bytes, key]
    simp only [List.append_assoc]
  obtain ⟨fields, written, rfl⟩ := sortKey_ok sorted
  have refused := Inline.refuses_readAll written beyond
  rw [readSortKey]
  cases order : t.sortOrder with
  | ascending => exact refused _
  | descending =>
    simp only [order, SortOrder.turnBytes] at whole key
    have room : fields.length ≤ rec.key.length - header.length := by
      rw [key]
      simp [Bytes.flip]
    obtain ⟨ms, left, failed⟩ := flipped_refused refused room (rest ++ rec.content)
    have at_header := position_run rec header _ whole
    exact ⟨ms, left, (Attempt.bind_run_ok at_header).trans failed⟩

section Layouts

variable {rec : Record} {header sort tip behind more : Bytes}

theorem readEnds_unique_refused (refused : Refuses (FarEnd.read t) tip) (layout : Layout.of t d = .unique)
    (content : rec.content = tip ++ Bytes.escapedText r.id ++ more) :
    ∃ ms left, readEnds types t d rec rec.content = (.error (.encoding (.dateOutOfRange ms)), left) := by
  have there : rec.content ≠ [] := by
    rw [content, List.append_assoc]
    exact List.append_ne_nil_of_right_ne_nil _ (Bytes.escapedText_append_ne_nil r.id more)
  rw [readEnds_to_content layout there, content]
  exact (refused.append _).followed _ more

theorem readEnds_constrained_refused (refused : Refuses (FarEnd.read t) tip)
    (layout : Layout.of t d = .constrained) :
    ∃ ms left, readEnds types t d rec (tip ++ rec.content) =
      (.error (.encoding (.dateOutOfRange ms)), left) := by
  rw [readEnds, layout]
  exact refused.followed _ rec.content

theorem readEnds_sortKey_refused (beyond : ∃ key ∈ t.sortKey, ∃ v, (stored r).get? key = some v ∧ v.isBeyond = true)
    (layout : Layout.of t d = .unconstrained) (sorted : sortKey types t r = .ok sort)
    (key : rec.key = header ++ (sort ++ behind)) :
    ∃ ms left, readEnds types t d rec (sort ++ behind ++ rec.content) =
      (.error (.encoding (.dateOutOfRange ms)), left) := by
  obtain ⟨ms, left, failed⟩ := readSortKey_refused beyond sorted key
  rw [readEnds, layout, List.append_assoc]
  exact ⟨ms, left, Attempt.bind_run_error failed⟩

theorem readEnds_propertyKey_refused {type : DataType} (refused : Refuses (FarEnd.read t) tip)
    (sortable : ∀ key ∈ t.sortKey, ∀ v, (stored r).get? key = some v → v.isBeyond = false)
    (layout : Layout.of t d = .unconstrained) (declared : t.dataType? = some type) (there : tip ≠ [])
    (sorted : sortKey types t r = .ok sort) (key : rec.key = header ++ (sort ++ Bytes.escapedText r.id))
    (content : rec.content = tip ++ more) :
    ∃ ms left, readEnds types t d rec (sort ++ Bytes.escapedText r.id ++ rec.content) =
      (.error (.encoding (.dateOutOfRange ms)), left) := by
  have ahead : rec.content ≠ [] := content ▸ List.append_ne_nil_of_left_ne_nil there more
  rw [readEnds_to_value layout declared ahead sortable sorted key, content]
  exact refused.followed _ more

/-- In each layout the decoder stops among the ends. -/
theorem readEnds_refused {ends : Bytes} (beyond : ¬r.LeadsWithin t) (fitting : farEnd t r d = .ok far)
    (written : keyAndEnds types t r d far header = .ok (rec.key, ends)) (content : rec.content = ends ++ more)
    (unsorted : t.multiplicity.isConstrained = true → t.sortKey = []) :
    ∃ tail, rec.key = header ++ tail ∧ ∃ ms left, readEnds types t d rec (tail ++ rec.content) =
      (.error (.encoding (.dateOutOfRange ms)), left) := by
  obtain ⟨tip, tip_eq, parts⟩ := keyAndEnds_ok written
  have late := not_leadsWithin_iff.1 beyond
  -- where the type is constrained nothing is sorted, so there it is the value
  have alone (constrained : t.multiplicity.isConstrained = true) : Refuses (FarEnd.read t) tip := by
    obtain ⟨v, holds, late⟩ | ⟨key, sorted, -⟩ := late
    · exact refuses_farEnd holds late fitting tip_eq
    · rw [unsorted constrained] at sorted
      cases sorted
  cases layout : Layout.of t d with
  | unique =>
    rw [layout] at parts
    obtain ⟨key, rfl⟩ := parts
    have refused := alone (Layout.isConstrained (by rw [layout]; decide))
    exact ⟨[], by simp [key], readEnds_unique_refused refused layout content⟩
  | constrained =>
    rw [layout] at parts
    have refused := alone (Layout.isConstrained (by rw [layout]; decide))
    exact ⟨tip, parts.1, readEnds_constrained_refused refused layout⟩
  | unconstrained =>
    rw [layout] at parts
    obtain ⟨sort, sorted, parts⟩ := parts
    by_cases unread : ∃ key ∈ t.sortKey, ∃ v, (stored r).get? key = some v ∧ v.isBeyond = true
    · obtain ⟨behind, key⟩ : ∃ behind, rec.key = header ++ (sort ++ behind) := by
        split at parts
        · exact ⟨tip ++ Bytes.escapedText r.id, by simp only [parts.1, List.append_assoc]⟩
        · exact ⟨Bytes.escapedText r.id, by simp only [parts.1, List.append_assoc]⟩
      exact ⟨_, key, readEnds_sortKey_refused unread layout sorted key⟩
    · obtain ⟨v, holds, value⟩ := late.resolve_right unread
      have refused := refuses_farEnd holds value fitting tip_eq
      obtain ⟨property, ⟨type, declared⟩, rfl⟩ := farEnd_of_value holds fitting
      rw [if_neg (by rw [property]; decide), List.append_assoc] at parts
      obtain ⟨key, rfl⟩ := parts
      have sortable := Inline.not_beyond_iff.1 unread
      have there := Attribute.write_compact_ne_nil tip_eq
      exact ⟨_, key, readEnds_propertyKey_refused refused sortable layout declared there sorted key content⟩

end Layouts

theorem readLoose_refused {entries : List (SchemaId × Value)} {bytes : Bytes}
    (beyond : ∃ e ∈ entries, e.1 ∉ t.inlinedKeys ∧ e.2.isBeyond = true)
    (h : writeLoose types t entries = .ok bytes) {fuel : Nat} (enough : bytes.length < fuel) :
    ∃ ms left, readLoose types fuel bytes = (.error (.encoding (.dateOutOfRange ms)), left) := by
  induction entries generalizing bytes fuel with
  | nil => simp at beyond
  | cons entry rest ih =>
    obtain ⟨key, v⟩ := entry
    obtain ⟨e, listed, loose, late⟩ := beyond
    rw [writeLoose] at h
    split at h
    · next inlined =>
      obtain rfl | later := List.mem_cons.1 listed
      · exact absurd inlined loose
      · exact ih ⟨e, later, loose, late⟩ h enough
    · obtain ⟨declared, typed, h⟩ := bind_ok_iff.1 h
      obtain ⟨value, written, h⟩ := bind_ok_iff.1 h
      obtain ⟨others, rest_eq, h⟩ := bind_ok_iff.1 h
      obtain rfl := pure_ok_iff.1 h
      cases fuel with
      | zero => omega
      | succ fuel =>
        have more : others.length < fuel := by
          simp only [Bytes.orderedVarint, List.length_append, List.length_cons] at enough
          omega
        rw [List.append_assoc, readLoose_field typed]
        cases here : v.isBeyond with
        | true =>
          obtain ⟨ms, left, failed⟩ := Attribute.refuses_write written here others
          exact ⟨ms, left, Attempt.bind_run_error failed⟩
        | false =>
          obtain rfl | later := List.mem_cons.1 listed
          · rw [here] at late
            cases late
          · obtain ⟨ms, left, failed⟩ := ih ⟨e, later, loose, late⟩ rest_eq more
            refine ⟨ms, left, ?_⟩
            refine (Attempt.bind_run_ok (Attribute.takes_write written here _)).trans ?_
            exact Attempt.bind_run_error failed

/-- A date beyond all milliseconds that a record leads with is what every decoding of it comes to. -/
theorem decode_refused {s : Schema} {position : Nat} (p : Parts s.lookup r position) (named : p.type.id = r.type)
    (sound : s.Sound p.type) (beyond : ¬r.LeadsWithin p.type) (headerOnly : Bool) :
    ∃ ms, p.record.decode s.lookup headerOnly = .error (.encoding (.dateOutOfRange ms)) := by
  have content : p.record.content = p.ends ++ (p.signature ++ p.loose) := List.append_assoc _ _ _
  obtain ⟨tail, key, ms, left, failed⟩ :=
    readEnds_refused beyond p.farEnd_eq p.keyAndEnds_eq content sound.unsorted
  have whole : p.record.bytes = p.header ++ (tail ++ p.record.content) := by
    rw [bytes, key, List.append_assoc]
  exact ⟨ms, decode_error p named whole failed headerOnly⟩

/-- One in the other properties is what a decoding in full comes to. -/
theorem decode_full_refused {s : Schema} {position : Nat} (p : Parts s.lookup r position)
    (named : p.type.id = r.type) (sound : s.Sound p.type) (leads : r.LeadsWithin p.type) (beyond : ¬r.IsWithin) :
    ∃ ms, p.record.decode s.lookup false = .error (.encoding (.dateOutOfRange ms)) := by
  have content : p.record.content = p.ends ++ (p.signature ++ p.loose) := List.append_assoc _ _ _
  obtain ⟨tail, key, ends⟩ := readEnds_run leads p.farEnd_eq p.keyAndEnds_eq content sound.unsorted
  have whole : p.record.bytes = p.header ++ (tail ++ p.record.content) := by
    rw [bytes, key, List.append_assoc]
  rw [decode_run p named whole, result, Attempt.bind_run_ok ends]
  simp only [readProperties, Bool.false_eq_true, if_false]
  by_cases signed : ∃ key ∈ p.type.signature, ∃ v, (stored r).get? key = some v ∧ v.isBeyond = true
  · obtain ⟨ms, left, failed⟩ := Inline.refuses_readAll p.signature_eq signed p.loose
    exact ⟨ms, by rw [Attempt.bind_run_error failed]⟩
  · have read := Inline.not_beyond_iff.1 signed
    have signature := Inline.takes_readAll read p.signature_eq p.loose
    have loose : ∃ e ∈ (stored r).entries, e.1 ∉ p.type.inlinedKeys ∧ e.2.isBeyond = true := by
      by_contra none
      refine beyond ⟨leads.value, fun key v there => ?_⟩
      by_cases inlined : key ∈ p.type.inlinedKeys
      · obtain sorted | signed := List.mem_append.1 inlined
        · exact leads.sortKey key sorted v there
        · exact read key signed v there
      · exact Bool.eq_false_iff.2 fun late => none ⟨(key, v), KeyMap.mem_entries.2 there, inlined, late⟩
    have enough : p.loose.length < p.record.bytes.length + 1 := by
      simp only [bytes, Parts.record, List.length_append]
      omega
    obtain ⟨ms, left, failed⟩ := readLoose_refused loose p.loose_eq enough
    exact ⟨ms, by rw [Attempt.bind_run_ok signature, Attempt.bind_run_error failed]⟩

def annBorn (t : Timestamp) : Relation := ⟨"p", Schema.birth.id, .property "ann" (.date t), .empty⟩

theorem annBorn_isWithin {t : Timestamp} (near : t.isBeyond = false) : (annBorn t).IsWithin where
  value v holds := by
    obtain rfl := Option.some.inj holds
    exact near
  properties key v there := by
    have held := (get?_stored.1 there).1
    rw [annBorn, KeyMap.get?_empty] at held
    cases held

end Record

end GraphStore
