import GraphStore.Proofs.Record.RoundTrip
import GraphStore.Record.Memo

/-!
A memo answers as the decoder does. A full decode reads the header part on its way, so where it succeeds the
header alone is read as well, and says the same. What a memo holds was decoded with the one schema that knows
the types; callers that know none are served from it, and their failures leave nothing behind.
-/
namespace GraphStore

namespace Types

/-- No relation type is known by its id. -/
def KnowsNone (types : Types) : Prop := ∀ id, types.type? id = none

theorem empty_knowsNone : empty.KnowsNone := fun _ => rfl

theorem KnowsNone.existing {types : Types} (none : types.KnowsNone) (id : SchemaId) :
    types.existing id = .error (.unknownType id) := by
  simp only [Types.existing, none id]

end Types

namespace Record

variable {types : Types} {rec : Record} {d : Decoded}

theorem decode_ok_iff {headerOnly : Bool} :
    rec.decode types headerOnly = .ok d ↔ ∃ rest, rec.read types headerOnly rec.bytes = (.ok d, rest) := by
  rw [decode, Reading.result]
  constructor
  · exact fun decoded => ⟨_, Prod.ext decoded rfl⟩
  · rintro ⟨rest, run⟩
    rw [run]

/-- What every successful decode has met on its way: the header, its type, and both ends. -/
structure Met (types : Types) (rec : Record) (d : Decoded) where
  header : Header
  type : RelationType
  ends : FarEnd × RelationId × List (SchemaId × Value)
  after : Bytes
  left : Bytes
  header_run : Header.read rec.bytes = (.ok header, after)
  known : types.existing header.type = .ok type
  category : type.isPropertyKey = (header.slot = .property : Bool)
  ends_run : readEnds types type header.slot.direction rec after = (.ok ends, left)
  part : { d with properties := none } = ⟨type.id, header.slot.direction, ends.2.1, ends.1, none⟩

theorem exists_met {headerOnly : Bool} (decoded : rec.decode types headerOnly = .ok d) :
    Nonempty (Met types rec d) ∧ d.properties.isSome = !headerOnly := by
  obtain ⟨rest, run⟩ := decode_ok_iff.1 decoded
  obtain ⟨header, after, header_run, run⟩ := Attempt.bind_run_ok_iff.1 run
  obtain ⟨t, after', lifted, run⟩ := Attempt.bind_run_ok_iff.1 run
  obtain ⟨known, rfl⟩ := Prod.mk.inj lifted
  split at run
  · cases run
  next category =>
  obtain ⟨ends, left, ends_run, run⟩ := Attempt.bind_run_ok_iff.1 run
  have met (d : Decoded) (part : _) : Met types rec d :=
    ⟨header, t, ends, after, left, header_run, known, by simpa using category, ends_run, part⟩
  cases headerOnly with
  | true =>
    obtain ⟨rfl⟩ := Except.ok.inj (Prod.mk.inj run).1
    exact ⟨⟨met _ rfl⟩, rfl⟩
  | false =>
    simp only [Bool.false_eq_true, if_false] at run
    obtain ⟨signature, _, -, run⟩ := Attempt.bind_run_ok_iff.1 run
    obtain ⟨loose, _, -, run⟩ := Attempt.bind_run_ok_iff.1 run
    obtain ⟨rfl⟩ := Except.ok.inj (Prod.mk.inj run).1
    exact ⟨⟨met _ rfl⟩, rfl⟩

/-- The header part of a successful full decode is what a decode of the header alone gives. -/
theorem decode_header_of_full (full : rec.decode types false = .ok d) :
    rec.decode types true = .ok { d with properties := none } := by
  obtain ⟨⟨met⟩, -⟩ := exists_met full
  refine decode_ok_iff.2 ⟨met.left, ?_⟩
  rw [met.part, read, Attempt.bind_run_ok met.header_run,
    Attempt.bind_run_ok (Attempt.lift_run met.known met.after), if_neg (by simp [met.category])]
  exact Attempt.bind_run_ok met.ends_run

theorem decode_header_properties (decoded : rec.decode types true = .ok d) :
    rec.decode types true = .ok { d with properties := none } := by
  have bare : d.properties = none := by simpa using (exists_met decoded).2
  rw [decoded, ← bare]

/-- Who knows no types decodes nothing. -/
theorem exists_fault_of_knowsNone (none : types.KnowsNone) (headerOnly : Bool) :
    ∃ fault, rec.decode types headerOnly = .error fault := by
  cases decoded : rec.decode types headerOnly with
  | error fault => exact ⟨fault, rfl⟩
  | ok d =>
    obtain ⟨⟨met⟩, -⟩ := exists_met decoded
    have known := met.known
    rw [none.existing] at known
    cases known

end Record

namespace Memo

/-- A call on a memo: what is read, and with which knowledge of types. -/
structure Call where
  headerOnly : Bool
  types : Types

/-- The answer to a call, and the memo after it. -/
def answer (m : Memo) (c : Call) : Except Fault Decoded × Memo :=
  if c.headerOnly then m.readHeader c.types else m.readFull c.types

def after (m : Memo) : List Call → Memo
  | [] => m
  | c :: calls => ((m.answer c).2).after calls

/-- The answers to some calls, one after another. -/
def answers (m : Memo) : List Call → List (Except Fault Decoded)
  | [] => []
  | c :: calls => (m.answer c).1 :: ((m.answer c).2).answers calls

/-- The call is made with the given types, or with none. -/
def Call.Honest (types : Types) (c : Call) : Prop := c.types = types ∨ c.types.KnowsNone

/-- What a memo holds is what a fresh decode of its record gives. -/
structure Sound (record : Record) (types : Types) (m : Memo) : Prop where
  same : m.record = record
  header : ∀ d, m.header = some d → record.decode types true = .ok d
  full : ∀ d, m.full = some d → record.decode types false = .ok d

variable {record : Record} {types : Types} {m : Memo} {c : Call} {calls : List Call} {d : Decoded}
  {fault : Fault}

theorem sound_new (record : Record) (types : Types) : Sound record types (new record) := by
  refine ⟨rfl, fun d held => ?_, fun d held => ?_⟩
  · cases held
  · cases held

/-- What can come of a call: an answer from a slot, a fault that leaves the memo as it was, or a decode that
fills the slot it was made for. -/
inductive Outcome (m : Memo) (c : Call) : Except Fault Decoded × Memo → Prop
  | fromFull {d : Decoded} (full : m.full = some d) : Outcome m c (.ok d, m)
  | fromHeader {d : Decoded} (asked : c.headerOnly = true) (full : m.full = none)
      (header : m.header = some d) : Outcome m c (.ok d, m)
  | refused {fault : Fault} (full : m.full = none)
      (decoded : m.record.decode c.types c.headerOnly = .error fault) : Outcome m c (.error fault, m)
  | headerRead {d : Decoded} (asked : c.headerOnly = true) (full : m.full = none)
      (decoded : m.record.decode c.types true = .ok d) : Outcome m c (.ok d, { m with header := some d })
  | fullRead {d : Decoded} (asked : c.headerOnly = false) (full : m.full = none)
      (decoded : m.record.decode c.types false = .ok d) : Outcome m c (.ok d, { m with full := some d })

theorem outcome_readHeader (m : Memo) (types : Types) : Outcome m ⟨true, types⟩ (m.readHeader types) := by
  rw [readHeader]
  split
  · next full => exact .fromFull full
  · next full header => exact .fromHeader rfl full header
  · next full header =>
    split
    · next decoded => exact .headerRead rfl full decoded
    · next decoded => exact .refused full decoded

theorem outcome_readFull (m : Memo) (types : Types) : Outcome m ⟨false, types⟩ (m.readFull types) := by
  rw [readFull]
  split
  · next full => exact .fromFull full
  · next full =>
    split
    · next decoded => exact .fullRead rfl full decoded
    · next decoded => exact .refused full decoded

theorem outcome_answer (m : Memo) (c : Call) : Outcome m c (m.answer c) := by
  obtain ⟨headerOnly, types⟩ := c
  cases headerOnly
  · exact outcome_readFull m types
  · exact outcome_readHeader m types

/-- A failed call leaves the memo as it was. -/
theorem answer_error (failed : (m.answer c).1 = .error fault) :
    m.record.decode c.types c.headerOnly = .error fault ∧ (m.answer c).2 = m := by
  have outcome := outcome_answer m c
  generalize m.answer c = result at outcome failed
  cases outcome with
  | fromFull => cases failed
  | fromHeader => cases failed
  | refused full decoded =>
    obtain rfl := Except.error.inj failed
    exact ⟨decoded, rfl⟩
  | headerRead => cases failed
  | fullRead => cases failed

/-- Once there is a full decode, every call is answered from it. -/
theorem answer_of_full (full : m.full = some d) (c : Call) : m.answer c = (.ok d, m) := by
  cases headerOnly : c.headerOnly <;> simp [answer, headerOnly, readHeader, readFull, full]

theorem after_of_full (full : m.full = some d) (calls : List Call) : m.after calls = m := by
  induction calls with
  | nil => rfl
  | cons c calls ih => rw [after, answer_of_full full c, ih]

theorem after_append (m : Memo) (calls more : List Call) :
    m.after (calls ++ more) = (m.after calls).after more := by
  induction calls generalizing m with
  | nil => rfl
  | cons c calls ih => exact ih (m.answer c).2

/-- A full decode that was handed out is kept. -/
theorem full_of_answer (asked : c.headerOnly = false) (ok : (m.answer c).1 = .ok d) :
    (m.answer c).2.full = some d := by
  have outcome := outcome_answer m c
  generalize m.answer c = result at outcome ok
  cases outcome with
  | fromFull full =>
    obtain rfl := Except.ok.inj ok
    exact full
  | fromHeader headerAsked => rw [asked] at headerAsked; cases headerAsked
  | refused => cases ok
  | headerRead headerAsked => rw [asked] at headerAsked; cases headerAsked
  | fullRead asked full decoded =>
    obtain rfl := Except.ok.inj ok
    rfl

theorem Call.Honest.decode_ok (honest : c.Honest types) {headerOnly : Bool}
    (decoded : record.decode c.types headerOnly = .ok d) : record.decode types headerOnly = .ok d := by
  obtain same | none := honest
  · rwa [same] at decoded
  · obtain ⟨fault, refused⟩ : ∃ fault, record.decode c.types headerOnly = .error fault :=
      Record.exists_fault_of_knowsNone none headerOnly
    rw [refused] at decoded
    cases decoded

namespace Sound

theorem answer (sound : Sound record types m) (honest : c.Honest types) :
    Sound record types (m.answer c).2 := by
  obtain ⟨rfl, header, full⟩ := sound
  have outcome := outcome_answer m c
  generalize m.answer c = result at outcome
  cases outcome with
  | fromFull | fromHeader | refused => exact ⟨rfl, header, full⟩
  | headerRead _ _ decoded =>
    refine ⟨rfl, fun d held => ?_, full⟩
    obtain rfl := Option.some.inj held
    exact honest.decode_ok decoded
  | fullRead _ _ decoded =>
    refine ⟨rfl, header, fun d held => ?_⟩
    obtain rfl := Option.some.inj held
    exact honest.decode_ok decoded

theorem after (sound : Sound record types m) (honest : ∀ c ∈ calls, c.Honest types) :
    Sound record types (m.after calls) := by
  induction calls generalizing m with
  | nil => exact sound
  | cons c calls ih =>
    obtain ⟨first, others⟩ := List.forall_mem_cons.1 honest
    exact ih (sound.answer first) others

/-- An answer says what a fresh decode with the knowing types says. -/
theorem answer_ok (sound : Sound record types m) (honest : c.Honest types)
    (ok : (m.answer c).1 = .ok d) :
    if c.headerOnly then record.decode types true = .ok { d with properties := none }
    else record.decode types false = .ok d := by
  obtain ⟨rfl, header, full⟩ := sound
  have outcome := outcome_answer m c
  generalize m.answer c = result at outcome ok
  cases outcome with
  | fromFull held =>
    obtain rfl := Except.ok.inj ok
    split
    · exact Record.decode_header_of_full (full _ held)
    · exact full _ held
  | fromHeader asked _ held =>
    obtain rfl := Except.ok.inj ok
    rw [if_pos asked]
    exact Record.decode_header_properties (header _ held)
  | refused => cases ok
  | headerRead asked _ decoded =>
    obtain rfl := Except.ok.inj ok
    rw [if_pos asked]
    exact Record.decode_header_properties (honest.decode_ok decoded)
  | fullRead asked _ decoded =>
    obtain rfl := Except.ok.inj ok
    rw [if_neg (by simp [asked])]
    exact honest.decode_ok decoded

end Sound

/-- After any calls on a memo, each made with the given types or with none: an answer is that of a fresh
decode with these types, a header its header part; a call fails only where its own decode does, and what
comes later is answered as if it had not been made; and after a full answer no call fails. -/
theorem answers_agree (honest : ∀ c ∈ calls, c.Honest types) (own : c.Honest types) :
    (∀ d, (((new record).after calls).answer c).1 = .ok d →
        if c.headerOnly then record.decode types true = .ok { d with properties := none }
        else record.decode types false = .ok d ∧ d.properties.isSome = true) ∧
      (∀ fault, (((new record).after calls).answer c).1 = .error fault →
        record.decode c.types c.headerOnly = .error fault ∧
          ∀ later, (((new record).after calls).answer c).2.answers later =
            ((new record).after calls).answers later) ∧
      ((∃ before full between d, calls = before ++ full :: between ∧ full.headerOnly = false ∧
          (((new record).after before).answer full).1 = .ok d) →
        ∃ d, (((new record).after calls).answer c).1 = .ok d) := by
  have sound := (sound_new record types).after honest
  refine ⟨fun d ok => ?_, fun fault failed => ?_, ?_⟩
  · have decoded := sound.answer_ok own ok
    split
    · next asked => rwa [if_pos asked] at decoded
    · next asked =>
      rw [if_neg asked] at decoded
      exact ⟨decoded, (Record.exists_met decoded).2⟩
  · obtain ⟨decoded, same⟩ := answer_error failed
    rw [sound.same] at decoded
    exact ⟨decoded, fun later => by rw [same]⟩
  · rintro ⟨before, full, between, d, rfl, asked, ok⟩
    have held := full_of_answer asked ok
    rw [after_append, after, after_of_full held, answer_of_full held]
    exact ⟨d, rfl⟩

theorem answers_agree_annKnows :
    ∃ rec full, Record.encode Schema.acquaintance.lookup (Record.annKnows "k" "bob" 2001) 0 = .ok rec ∧
      (∀ c ∈ [⟨true, .empty⟩, ⟨true, Schema.acquaintance.lookup⟩],
        Call.Honest Schema.acquaintance.lookup c) ∧
      Call.Honest Schema.acquaintance.lookup ⟨false, Schema.acquaintance.lookup⟩ ∧
      (((new rec).after [⟨true, .empty⟩, ⟨true, Schema.acquaintance.lookup⟩]).answer
        ⟨false, Schema.acquaintance.lookup⟩).1 = .ok full ∧
      rec.decode Schema.acquaintance.lookup false = .ok full := by
  obtain ⟨rec, written⟩ : ∃ rec,
      Record.encode Schema.acquaintance.lookup (Record.annKnows "k" "bob" 2001) 0 = .ok rec := ⟨_, rfl⟩
  obtain ⟨p, rfl⟩ := Record.encode_ok written
  have known : Schema.acquaintance.types.get? Schema.knows.id = some p.type := p.known
  obtain ⟨named, sound⟩ := Schema.acquaintance_reachable.sound known
  have honest : ∀ c ∈ [⟨true, .empty⟩, ⟨true, Schema.acquaintance.lookup⟩],
      Call.Honest Schema.acquaintance.lookup c := by
    simp [Call.Honest, Types.empty_knowsNone]
  have own : Call.Honest Schema.acquaintance.lookup ⟨false, Schema.acquaintance.lookup⟩ := .inl rfl
  obtain ⟨agrees, fails, -⟩ := answers_agree honest own
  cases answered : (((new p.record).after [⟨true, .empty⟩, ⟨true, Schema.acquaintance.lookup⟩]).answer
      ⟨false, Schema.acquaintance.lookup⟩).1 with
  | ok full => exact ⟨_, full, written, honest, own, answered, (agrees full answered).1⟩
  | error fault =>
    have within := Record.annKnows_isWithin "k" "bob" 2001
    have decoded := Record.decode_record p named sound false (within.leads p.type) fun _ => within
    rw [(fails fault answered).1] at decoded
    cases decoded

end Memo

end GraphStore
