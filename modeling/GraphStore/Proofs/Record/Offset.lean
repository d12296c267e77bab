import GraphStore.Proofs.Codec.Shortage
import GraphStore.Proofs.Record.Slice
import GraphStore.Proofs.Record.RoundTrip

/-!
Records whose content starts at the wrong place. Each layout checks where the key ends as soon as it has read
the key, so it finds a shifted offset whatever the offset is. Only the sort key of a descending type is read
with the offset in hand: if the key breaks off inside of it, the bytes run out before the check is reached.
-/
namespace GraphStore

open Reading

namespace Inline

variable {types : Types} {properties : SchemaId → Option Value}

theorem runsOut_read {declared : DataType} {field : Option Value} {bytes : Bytes}
    (h : write declared field = .ok bytes) : RunsOut (read declared) bytes := by
  cases field with
  | none =>
    obtain rfl := Except.ok.inj h
    exact (runsOut_byte 0).followed _
  | some v =>
    obtain ⟨value, written, rfl⟩ := write_some_ok h
    obtain ⟨rfl, rfl⟩ := Attribute.write_ordered written
    exact .bind (takes_byte 1) (runsOut_byte 1) ((Ordered.runsOut_write v).followed _)

theorem runsOut_readAll {keys : List SchemaId} {bytes : Bytes}
    (within : ∀ key ∈ keys, ∀ v, properties key = some v → v.isBeyond = false)
    (h : writeAll types properties keys = .ok bytes) : RunsOut (readAll types keys) bytes := by
  induction keys generalizing bytes with
  | nil =>
    obtain rfl := Except.ok.inj h
    exact .nil _
  | cons key rest ih =>
    obtain ⟨declared, field, fields, typed, written, others, rfl⟩ := writeAll_cons_ok h
    obtain ⟨first, later⟩ := List.forall_mem_cons.1 within
    refine .bind_lift typed (.bind (takes_read first written) (runsOut_read written) ?_)
    exact (ih later others).followed _

end Inline

/-- Turned bytes that break off before the whole value is there. -/
theorem Reading.flipped_short {α : Type} {r : Reading α} {x : Bytes} (h : RunsOut r x) {limit : Nat}
    (less : limit < x.length) (rest : Bytes) :
    ∃ cause, cause.isShortage = true ∧
      flipped limit r (Bytes.flip x ++ rest) = (.error (.encoding cause), Bytes.flip x ++ rest) := by
  have view : Bytes.flip ((Bytes.flip x ++ rest).take limit) = x.take limit := by
    rw [List.take_append_of_le_length (by simpa [Bytes.flip] using Nat.le_of_lt less)]
    have twice := congrArg (List.take limit) (Bytes.flip_flip x)
    simpa [Bytes.flip, List.map_take] using twice
  have apart : x.take limit ≠ x := fun same => by
    have size := congrArg List.length same
    rw [List.length_take] at size
    omega
  obtain ⟨cause, left, kind, failed⟩ := h _ (List.take_prefix limit x) apart
  refine ⟨cause, kind, ?_⟩
  simp only [flipped, view, failed]

namespace Record

/-- A key that ended at the offset would break off in a sort key whose bits are turned. -/
structure CutsSortKey (t : RelationType) (header sort : Bytes) (offset : Nat) : Prop where
  order : t.sortOrder = .descending
  there : sort ≠ []
  inside : offset < (header ++ sort).length

instance (t : RelationType) (header sort : Bytes) (offset : Nat) :
    Decidable (CutsSortKey t header sort offset) :=
  decidable_of_iff (t.sortOrder = .descending ∧ sort ≠ [] ∧ offset < (header ++ sort).length)
    ⟨fun ⟨order, there, inside⟩ => ⟨order, there, inside⟩, fun ⟨order, there, inside⟩ => ⟨order, there, inside⟩⟩

section Ends

variable {types : Types} {t : RelationType} {r : Relation} {d : Direction} {far : FarEnd}
  {header sort key ends content : Bytes} {rec : Record}

theorem expectKeyEnd_error (t : RelationType) {before rest : Bytes} (whole : rec.bytes = before ++ rest)
    (apart : before.length ≠ rec.key.length) :
    rec.expectKeyEnd t rest =
      (.error (.invariant (.keyEnd t.name before.length rec.key.length)), rest) := by
  rw [expectKeyEnd, Attempt.bind_run_ok (position_run rec before rest whole), if_neg apart]
  rfl

/-- In each layout the decoder has read the whole key when it checks where the key ends. Unless the key was all
there is to say, it then wants content. -/
theorem readEnds_to_keyEnd (within : r.LeadsWithin t) (fitting : farEnd t r d = .ok far)
    (written : keyAndEnds types t r d far header = .ok (key, ends)) (sorted : sortKey types t r = .ok sort)
    (whole : rec.bytes = key ++ content) (intact : ¬CutsSortKey t header sort rec.key.length) :
    ∃ tail next, key = header ++ tail ∧
      readEnds types t d rec (tail ++ content) = (rec.expectKeyEnd t >>= next) content ∧
      (t.multiplicity.isConstrained = true ∨ r.isEdge = false →
        ∃ more, next = fun _ => expectContent t >>= more) := by
  obtain ⟨tip, tip_eq, parts⟩ := keyAndEnds_ok written
  -- running up to the check gives what comes after it, so that goal goes last
  cases layout : Layout.of t d with
  | unique =>
    rw [layout] at parts
    refine ⟨[], ?_, by simp [parts.1], ?_, ?_⟩
    rotate_left
    · rw [readEnds, layout]
      rfl
    · exact fun _ => ⟨_, rfl⟩
  | constrained =>
    rw [layout] at parts
    refine ⟨tip, ?_, parts.1, ?_, ?_⟩
    rotate_left
    · rw [readEnds, layout]
      exact Attempt.bind_run_ok (takes_farEnd within fitting tip_eq content)
    · exact fun _ => ⟨_, rfl⟩
  | unconstrained =>
    rw [layout] at parts
    obtain ⟨_, sorted', parts⟩ := parts
    obtain rfl := Except.ok.inj (sorted.symm.trans sorted')
    have room : t.sortOrder = .descending → sort.length ≤ rec.key.length - header.length := by
      intro order
      by_cases there : sort = []
      · simp [there]
      · have beyond : ¬rec.key.length < (header ++ sort).length := fun inside =>
          intact ⟨order, there, inside⟩
        rw [List.length_append] at beyond
        omega
    obtain ⟨edge, label, -⟩ | ⟨edge, ⟨type, declared⟩, -⟩ := farEnd_ok fitting
    · rw [if_pos edge, List.append_assoc, List.append_assoc] at parts
      obtain ⟨rfl, -⟩ := parts
      have at_sort : rec.bytes = header ++ (sort ++ (tip ++ Bytes.escapedText r.id ++ content)) := by
        rw [whole]; simp only [List.append_assoc]
      refine ⟨_, ?_, rfl, ?_, ?_⟩
      rotate_left
      · rw [readEnds, layout, List.append_assoc sort]
        refine (Attempt.bind_run_ok (readSortKey_within within.sortKey sorted at_sort room)).trans ?_
        rw [if_neg (by simp [RelationType.isPropertyKey, label]), List.append_assoc]
        refine (Attempt.bind_run_ok (takes_farEnd within fitting tip_eq _)).trans ?_
        exact Attempt.bind_run_ok (takes_escapedText r.id _)
      · rintro (bound | property)
        · rw [Layout.of_eq_unconstrained.1 layout] at bound
          cases bound
        · rw [edge] at property
          cases property
    · rw [if_neg (by rw [edge]; decide), List.append_assoc] at parts
      obtain ⟨rfl, -⟩ := parts
      have at_sort : rec.bytes = header ++ (sort ++ (Bytes.escapedText r.id ++ content)) := by
        rw [whole]; simp only [List.append_assoc]
      refine ⟨_, ?_, rfl, ?_, ?_⟩
      rotate_left
      · rw [readEnds, layout, List.append_assoc sort]
        refine (Attempt.bind_run_ok (readSortKey_within within.sortKey sorted at_sort room)).trans ?_
        rw [if_pos (by simp [RelationType.isPropertyKey, declared])]
        exact Attempt.bind_run_ok (takes_escapedText r.id _)
      · exact fun _ => ⟨_, rfl⟩

/-- A key that breaks off in a turned sort key runs out of bytes there. -/
theorem readEnds_cut (within : r.LeadsWithin t) (layout : Layout.of t d = .unconstrained)
    (sorted : sortKey types t r = .ok sort) {rest : Bytes} (whole : rec.bytes = header ++ (sort ++ rest))
    (cuts : CutsSortKey t header sort rec.key.length) :
    ∃ cause left, cause.isShortage = true ∧
      readEnds types t d rec (sort ++ rest) = (.error (.encoding cause), left) := by
  obtain ⟨order, there, inside⟩ := cuts
  obtain ⟨fields, written, rfl⟩ := sortKey_ok sorted
  simp only [order, SortOrder.turnBytes] at whole there inside ⊢
  have less : rec.key.length - header.length < fields.length := by
    have some_field : 0 < fields.length := List.length_pos_iff.2 fun none => there (by rw [none]; rfl)
    simp only [Bytes.flip, List.length_append, List.length_map] at inside
    omega
  obtain ⟨cause, kind, failed⟩ := flipped_short (Inline.runsOut_readAll within.sortKey written) less rest
  refine ⟨cause, Bytes.flip fields ++ rest, kind, ?_⟩
  have at_header := position_run rec header _ whole
  rw [readEnds, layout]
  refine Attempt.bind_run_error ?_
  rw [readSortKey, order]
  exact (Attempt.bind_run_ok at_header).trans failed

end Ends

variable {r : Relation} {position : Nat}

theorem ofBytes_ok {bytes : Bytes} {offset : Nat} (within : offset ≤ bytes.length) :
    ∃ rec, ofBytes bytes offset = .ok rec ∧ rec.bytes = bytes ∧ rec.key.length = offset := by
  refine ⟨_, if_neg (Nat.not_lt.2 within), List.take_append_drop offset bytes, ?_⟩
  rw [List.length_take, Nat.min_eq_left within]

section Shifted

variable {s : Schema} {p : Parts s.lookup r position} {sort after : Bytes} {rec : Record}

/-- Shifted into or before a turned sort key, a record runs out of bytes. -/
theorem decode_cut (reached : s.Reachable) (within : r.LeadsWithin p.type)
    (sorted : sortKey s.lookup p.type r = .ok sort) (key : p.key = p.header ++ (sort ++ after))
    (whole : rec.bytes = p.key ++ p.record.content)
    (cuts : CutsSortKey p.type p.header sort rec.key.length) (headerOnly : Bool) :
    ∃ cause, cause.isShortage = true ∧ rec.decode s.lookup headerOnly = .error (.encoding cause) := by
  have layout : Layout.of p.type (.ofPosition position) = .unconstrained := by
    refine Classical.not_not.1 fun constrained => cuts.there ?_
    have unsorted := (reached.sound p.known).2.unsorted (Layout.isConstrained constrained)
    exact Except.ok.inj (sorted.symm.trans (sortKey_nil unsorted r))
  have split_at : rec.bytes = p.header ++ (sort ++ (after ++ p.record.content)) := by
    rw [whole, key]
    simp only [List.append_assoc]
  obtain ⟨cause, left, kind, failed⟩ := readEnds_cut within layout sorted split_at cuts
  exact ⟨cause, kind, decode_error p (reached.sound p.known).1 split_at failed headerOnly⟩

/-- Shifted anywhere else, a record has a key that ends at the wrong place. -/
theorem decode_misplaced (reached : s.Reachable) (within : r.LeadsWithin p.type)
    (sorted : sortKey s.lookup p.type r = .ok sort)
    (whole : rec.bytes = p.key ++ p.record.content)
    (intact : ¬CutsSortKey p.type p.header sort rec.key.length) (apart : p.key.length ≠ rec.key.length)
    (headerOnly : Bool) : rec.decode s.lookup headerOnly =
      .error (.invariant (.keyEnd p.type.name p.key.length rec.key.length)) := by
  obtain ⟨tail, next, key, run, -⟩ := readEnds_to_keyEnd within p.farEnd_eq p.keyAndEnds_eq sorted whole intact
  have split_at : rec.bytes = p.header ++ (tail ++ p.record.content) := by
    rw [whole, key, List.append_assoc]
  have failed := run.trans (Attempt.bind_run_error (expectKeyEnd_error p.type whole apart))
  exact decode_error p (reached.sound p.known).1 split_at failed headerOnly

/-- A key without content lacks what stands first in the content. -/
theorem decode_bare (reached : s.Reachable) (within : r.LeadsWithin p.type)
    (sorted : sortKey s.lookup p.type r = .ok sort) (key : p.key = p.header ++ (sort ++ after))
    (wanted : p.type.multiplicity.isConstrained = true ∨ r.isEdge = false) (headerOnly : Bool) :
    Record.decode s.lookup ⟨p.key, [], .empty⟩ headerOnly =
      .error (.invariant (.missingValue p.type.name)) := by
  have intact : ¬CutsSortKey p.type p.header sort p.key.length := fun cuts => by
    have inside := cuts.inside
    rw [key, ← List.append_assoc, List.length_append] at inside
    omega
  have whole : (⟨p.key, [], .empty⟩ : Record).bytes = p.key ++ [] := rfl
  obtain ⟨tail, next, split, run, wants⟩ :=
    readEnds_to_keyEnd within p.farEnd_eq p.keyAndEnds_eq sorted whole intact
  obtain ⟨more, rfl⟩ := wants wanted
  have split_at : (⟨p.key, [], .empty⟩ : Record).bytes = p.header ++ (tail ++ []) := by
    rw [whole, split, List.append_assoc]
  have ended := expectKeyEnd_run ⟨p.key, [], .empty⟩ p.type
  have failed := run.trans ((Attempt.bind_run_ok ended).trans rfl)
  exact decode_error p (reached.sound p.known).1 split_at failed headerOnly

end Shifted

/-- In every schema that additions lead to, a record of any layout is refused under every offset but its own.
The decoder says that the key ends elsewhere, unless the offset lies in or before a turned sort key, where it
runs out of bytes. A key that lacks its content is found to lack it. Where the record leads with a date beyond all
milliseconds, that can be found first. -/
theorem decode_shifted {s : Schema} (reached : s.Reachable) {rec : Record}
    (written : encode s.lookup r position = .ok rec) :
    ∃ t header sort after, s.lookup.type? r.type = some t ∧ t.header (.ofPosition position) = .ok header ∧
      sortKey s.lookup t r = .ok sort ∧ rec.key = header ++ (sort ++ after) ∧
      (r.LeadsWithin t → ∀ offset ≤ rec.bytes.length, offset ≠ rec.key.length →
        ∃ shifted, ofBytes rec.bytes offset = .ok shifted ∧ ∀ headerOnly,
          if CutsSortKey t header sort offset then
            ∃ cause, cause.isShortage = true ∧ shifted.decode s.lookup headerOnly = .error (.encoding cause)
          else shifted.decode s.lookup headerOnly =
            .error (.invariant (.keyEnd t.name rec.key.length offset))) ∧
      (r.LeadsWithin t → t.multiplicity.isConstrained = true ∨ r.isEdge = false →
        ∃ bare, ofBytes rec.key rec.key.length = .ok bare ∧ ∀ headerOnly,
          bare.decode s.lookup headerOnly = .error (.invariant (.missingValue t.name))) := by
  obtain ⟨p, rfl⟩ := encode_ok written
  obtain ⟨sort, after, sorted, key, -⟩ := p.key_front (reached.sound p.known).2.unsorted
  refine ⟨p.type, p.header, sort, after, p.known, p.header_eq, sorted, key, ?_, ?_⟩
  · intro within offset inside apart
    obtain ⟨shifted, made, whole, rfl⟩ := ofBytes_ok inside
    refine ⟨shifted, made, fun headerOnly => ?_⟩
    split
    · next cuts => exact decode_cut reached within sorted key whole cuts headerOnly
    · next intact => exact decode_misplaced reached within sorted whole intact (Ne.symm apart) headerOnly
  · intro within wanted
    have made : ofBytes p.key p.key.length = .ok ⟨p.key, [], .empty⟩ := by
      rw [ofBytes, if_neg (Nat.lt_irrefl _), List.take_length, List.drop_length]
    exact ⟨_, made, decode_bare reached within sorted key wanted⟩

/-- Before the last byte of the key the offset is found to be wrong, inside of the sort key the bytes run out. -/
theorem decode_shifted_annKnows :
    ∃ rec near mid, encode Schema.acquaintance.lookup (annKnows "k" "bob" 2001) 0 = .ok rec ∧
      ofBytes rec.bytes 18 = .ok near ∧ (∀ headerOnly, near.decode Schema.acquaintance.lookup headerOnly =
        .error (.invariant (.keyEnd "knows" 19 18))) ∧
      ofBytes rec.bytes 5 = .ok mid ∧ ∀ headerOnly, ∃ cause, cause.isShortage = true ∧
        mid.decode Schema.acquaintance.lookup headerOnly = .error (.encoding cause) := by
  obtain ⟨rec, written, size, room⟩ : ∃ rec,
      encode Schema.acquaintance.lookup (annKnows "k" "bob" 2001) 0 = .ok rec ∧
        rec.key.length = 19 ∧ 19 ≤ rec.bytes.length := ⟨_, rfl, rfl, by decide⟩
  obtain ⟨t, header, sort, after, known, header_eq, sorted, -, shifts, -⟩ :=
    decode_shifted Schema.acquaintance_reachable written
  obtain rfl : Schema.knows = t := Option.some.inj known
  have widths : header.length = 2 ∧ sort.length = 9 := by
    rw [← Except.ok.inj header_eq, ← Except.ok.inj sorted]
    exact ⟨rfl, rfl⟩
  have width : (header ++ sort).length = 11 := by
    rw [List.length_append, widths.1, widths.2]
  have intact : ¬CutsSortKey Schema.knows header sort 18 := fun cuts =>
    absurd (width ▸ cuts.inside) (by decide)
  have cuts : CutsSortKey Schema.knows header sort 5 :=
    ⟨rfl, List.ne_nil_of_length_pos (by rw [widths.2]; decide), by rw [width]; decide⟩
  have within := (annKnows_isWithin "k" "bob" 2001).leads Schema.knows
  obtain ⟨near, near_eq, refused⟩ := shifts within 18 (by omega) (by omega)
  obtain ⟨mid, mid_eq, short⟩ := shifts within 5 (by omega) (by omega)
  simp only [if_neg intact, size] at refused
  simp only [if_pos cuts] at short
  exact ⟨rec, near, mid, written, near_eq, refused, mid_eq, short⟩

/-- A shifted record whose fault is not fatal. -/
theorem decode_shifted_not_fatal :
    ∃ rec mid fault, encode Schema.acquaintance.lookup (annKnows "k" "bob" 2001) 0 = .ok rec ∧
      rec.key.length ≠ 5 ∧ ofBytes rec.bytes 5 = .ok mid ∧
      mid.decode Schema.acquaintance.lookup true = .error fault ∧ fault = .encoding .endOfInput ∧
      fault.isFatal = false :=
  ⟨_, _, _, rfl, by decide, rfl, rfl, rfl, rfl⟩

end Record

end GraphStore
