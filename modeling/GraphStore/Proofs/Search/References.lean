import GraphStore.Proofs.Attempt
import GraphStore.Search.RawQuery
import Mathlib.Data.List.Infix
import Mathlib.Data.List.TakeWhile

/-!
The references of a raw query. A query is scanned from left to right: where a mark counts and a name stands
behind it, that is a reference, and the scan goes on after it; every other character is text. Marks that cannot
overlap themselves are skipped as a whole without missing any. What comes of the query is what its pieces give,
one after another, up to the first that gives a fault.
-/
namespace GraphStore

namespace Reference

/-- Of what a mark starts with, only nothing and the whole end it too. -/
def Unbordered (mark : List Char) : Prop :=
  ∀ border, border <+: mark → border <:+ mark → border = [] ∨ border = mark

theorem unbordered_iff {mark : List Char} :
    Unbordered mark ↔ ∀ n < mark.length, 0 < n → mark.take n ≠ mark.drop (mark.length - n) := by
  constructor
  · intro unbordered n short some same
    have length : (mark.take n).length = n := List.length_take_of_le (Nat.le_of_lt short)
    obtain none | whole := unbordered (mark.take n) (List.take_prefix n mark) (same ▸ List.drop_suffix _ mark)
    · rw [none, List.length_nil] at length
      omega
    · rw [whole] at length
      omega
  · intro differ border starts ends
    by_cases short : border.length < mark.length
    · refine .inl (List.length_eq_zero_iff.1 (Nat.eq_zero_of_not_pos fun some => differ _ short some ?_))
      rw [← List.prefix_iff_eq_take.1 starts, ← List.suffix_iff_eq_drop.1 ends]
    · exact .inr (starts.eq_of_length_le (Nat.le_of_not_lt short))

instance (mark : List Char) : Decidable (Unbordered mark) := decidable_of_iff _ unbordered_iff.symm

/-- How a name is written where some text follows. A run of name characters goes on as far as it can. -/
inductive Names : List Char → List Char → List Char → Prop
  | quoted {name rest : List Char} : name ≠ [] → '"' ∉ name → Names name ('"' :: name ++ ['"']) rest
  | star {rest : List Char} : Names ['*'] ['*'] rest
  | word {name rest : List Char} : name ≠ [] → (∀ c ∈ name, isNameChar c = true) →
      (∀ c ∈ rest.head?, isNameChar c = false) → Names name name rest

/-- A mark at the start of what is left of a query, with no letter or digit right before it. -/
structure Marks (mark front rest after : List Char) : Prop where
  split : rest = mark ++ after
  boundary : ∀ c ∈ front.getLast?, isAlphanumeric c = false

/-- A mark with a name behind it. -/
structure Refers (mark front rest name written after : List Char) : Prop where
  marks : Marks mark front rest (written ++ after)
  names : Names name written after

/-- A mark with a quote behind it that is never closed. -/
def Unclosed (mark front rest : List Char) : Prop := ∃ after, Marks mark front rest ('"' :: after) ∧ '"' ∉ after

/-- Something other than text starts here. -/
def Starts (mark front rest : List Char) : Prop :=
  Unclosed mark front rest ∨ ∃ name written after, Refers mark front rest name written after

/-- All fields, or the one of a name. -/
def Piece.ofName (name : List Char) : Piece := if name = ['*'] then .wildcard else .name name

/-- A scan of what is left of a query, `front` being what was before it. -/
inductive Scans (mark : List Char) : List Char → List Char → List Piece → Prop
  | finished {front : List Char} : Scans mark front [] []
  | unclosed {front rest : List Char} : Unclosed mark front rest → Scans mark front rest [.unterminated]
  | kept {front rest : List Char} {c : Char} {ps : List Piece} : ¬Starts mark front (c :: rest) →
      Scans mark (front ++ [c]) rest ps → Scans mark front (c :: rest) (.text [c] :: ps)
  | replaced {front rest name written after : List Char} {ps : List Piece} :
      Refers mark front rest name written after → Scans mark (front ++ mark ++ written) after ps →
        Scans mark front rest (.ofName name :: ps)

section Targets

variable {name written rest after : List Char}

theorem Names.written_ne_nil (names : Names name written rest) : written ≠ [] := by
  cases names with
  | quoted => exact List.cons_ne_nil _ _
  | star => exact List.cons_ne_nil _ _
  | word some => exact some

theorem Target.ofName_of_ne_nil (some : name ≠ []) (length : Nat) :
    ofName name length = .found (.ofName name) length := by
  rw [ofName, Piece.ofName, if_neg some]
  split <;> rfl

theorem Target.ofName_ne_unterminated (length : Nat) : ofName name length ≠ .unterminated := by
  rw [ofName]
  split
  · exact nofun
  · split <;> exact nofun

/-- What is found under a name has that name, and it is not empty. -/
theorem Target.ofName_found {piece : Piece} {length n : Nat} (h : ofName name length = .found piece n) :
    name ≠ [] ∧ piece = .ofName name ∧ n = length := by
  by_cases empty : name = []
  · rw [ofName, if_pos empty] at h
    cases h
  · rw [ofName_of_ne_nil empty] at h
    cases h
    exact ⟨empty, rfl, rfl⟩

/-- A quoted name ends at the next quote. -/
theorem target_quoted (inside : '"' ∉ name) (rest : List Char) :
    target ('"' :: (name ++ '"' :: rest)) = .ofName name (name.length + 2) := by
  have others : ∀ c ∈ name, decide (c ≠ '"') = true := fun c there =>
    decide_eq_true fun same => inside (same ▸ there)
  have quoted : (name ++ '"' :: rest).takeWhile (· ≠ '"') = name := by
    rw [List.takeWhile_append_of_pos others, List.takeWhile_cons_of_neg (by simp), List.append_nil]
  have closed : ¬name.length = (name ++ '"' :: rest).length := by simp
  simp only [target, quoted, if_neg closed]

theorem target_unclosed (never : '"' ∉ rest) : target ('"' :: rest) = .unterminated := by
  have all : rest.takeWhile (· ≠ '"') = rest :=
    List.takeWhile_eq_self_iff.2 fun c there => decide_eq_true fun same => never (same ▸ there)
  simp only [target, all, if_true]

/-- Text that starts with neither a quote nor a star names what it runs on with. -/
theorem target_run {c : Char} (quote : c ≠ '"') (star : c ≠ '*') (rest : List Char) :
    target (c :: rest) =
      .ofName ((c :: rest).takeWhile isNameChar) ((c :: rest).takeWhile isNameChar).length := by
  unfold target
  split
  · next same => exact absurd (List.cons.inj same).1 quote
  · next same => exact absurd (List.cons.inj same).1 star
  · rfl

/-- A written name is found, with its length. -/
theorem target_of_names (names : Names name written rest) :
    target (written ++ rest) = .found (.ofName name) written.length := by
  cases names with
  | quoted some inside =>
    have shown : '"' :: name ++ ['"'] ++ rest = '"' :: (name ++ '"' :: rest) := by simp
    have length : ('"' :: name ++ ['"']).length = name.length + 2 := by simp
    rw [shown, target_quoted inside, Target.ofName_of_ne_nil some, length]
  | star => rfl
  | word some run ends =>
    obtain ⟨c, cs, rfl⟩ := List.exists_cons_of_ne_nil some
    have first := run c List.mem_cons_self
    have quote : c ≠ '"' := fun same => absurd (same ▸ first) (by decide)
    have star : c ≠ '*' := fun same => absurd (same ▸ first) (by decide)
    have longest : (c :: cs ++ rest).takeWhile isNameChar = c :: cs := by
      rw [List.takeWhile_append_of_pos run]
      cases rest with
      | nil => rw [List.takeWhile_nil, List.append_nil]
      | cons d others => rw [List.takeWhile_cons_of_neg (by simp [ends d rfl]), List.append_nil]
    rw [List.cons_append, target_run quote star, ← List.cons_append, longest, Target.ofName_of_ne_nil some]

/-- The longest run of name characters is a written name, unless it is empty. -/
theorem names_takeWhile (some : after.takeWhile isNameChar ≠ []) :
    Names (after.takeWhile isNameChar) (after.takeWhile isNameChar) (after.dropWhile isNameChar) := by
  refine .word some (fun c there => List.mem_takeWhile_imp there) fun c first => ?_
  have stop := List.head?_dropWhile_not isNameChar after
  rwa [Option.mem_def.1 first] at stop

/-- What is found is a written name. -/
theorem names_of_target {piece : Piece} {length : Nat} (h : target after = .found piece length) :
    ∃ name written rest, after = written ++ rest ∧ Names name written rest ∧ piece = .ofName name ∧
      length = written.length := by
  cases after with
  | nil => cases h
  | cons c rest =>
    by_cases quote : c = '"'
    · subst quote
      by_cases closes : '"' ∈ rest
      · obtain ⟨name, others, rfl, inside⟩ := List.eq_append_cons_of_mem closes
        rw [target_quoted inside] at h
        obtain ⟨some, rfl, rfl⟩ := Target.ofName_found h
        exact ⟨name, _, others, by simp, .quoted some inside, rfl, by simp⟩
      · rw [target_unclosed closes] at h
        cases h
    · by_cases star : c = '*'
      · subst star
        cases h
        exact ⟨['*'], ['*'], rest, rfl, .star, rfl, rfl⟩
      · rw [target_run quote star] at h
        obtain ⟨some, rfl, rfl⟩ := Target.ofName_found h
        exact ⟨_, _, _, List.takeWhile_append_dropWhile.symm, names_takeWhile some, rfl, rfl⟩

theorem unclosed_of_target (h : target after = .unterminated) : ∃ rest, after = '"' :: rest ∧ '"' ∉ rest := by
  cases after with
  | nil => cases h
  | cons c rest =>
    by_cases quote : c = '"'
    · subst quote
      refine ⟨rest, rfl, fun closes => ?_⟩
      obtain ⟨name, others, rfl, inside⟩ := List.eq_append_cons_of_mem closes
      rw [target_quoted inside] at h
      exact absurd h (Target.ofName_ne_unterminated _)
    · by_cases star : c = '*'
      · subst star
        cases h
      · rw [target_run quote star] at h
        exact absurd h (Target.ofName_ne_unterminated _)

end Targets

section Scanning

variable {mark front rest name written after : List Char} {ps ps' : List Piece}

/-- Behind a mark that counts, something starts unless nothing is named there. -/
theorem Marks.starts_iff (marks : Marks mark front rest after) : Starts mark front rest ↔ target after ≠ .none := by
  have same {other : List Char} (there : Marks mark front rest other) : other = after :=
    List.append_cancel_left (there.split.symm.trans marks.split)
  constructor
  · rintro (⟨other, there, never⟩ | ⟨name, written, other, refers⟩)
    · rw [← same there, target_unclosed never]
      exact nofun
    · rw [← same refers.marks, target_of_names refers.names]
      exact nofun
  · intro some
    cases found : target after with
    | none => exact absurd found some
    | unterminated =>
      obtain ⟨other, rfl, never⟩ := unclosed_of_target found
      exact .inl ⟨other, marks, never⟩
    | found piece length =>
      obtain ⟨name, written, other, rfl, names, -, -⟩ := names_of_target found
      exact .inr ⟨name, written, other, marks, names⟩

/-- Nothing but text starts without a mark. -/
theorem Starts.marks (starts : Starts mark front rest) : ∃ after, Marks mark front rest after := by
  obtain ⟨after, marks, -⟩ | ⟨name, written, after, refers⟩ := starts
  · exact ⟨_, marks⟩
  · exact ⟨_, refers.marks⟩

theorem Unclosed.target (unclosed : Unclosed mark front rest) (marks : Marks mark front rest after) :
    Reference.target after = .unterminated := by
  obtain ⟨other, there, never⟩ := unclosed
  rw [← List.append_cancel_left (there.split.symm.trans marks.split), target_unclosed never]

theorem Refers.target (refers : Refers mark front rest name written after) {other : List Char}
    (marks : Marks mark front rest other) : Reference.target other = .found (.ofName name) written.length := by
  rw [← List.append_cancel_left (refers.marks.split.symm.trans marks.split), target_of_names refers.names]

theorem Piece.ofName_inj {other : List Char} (same : ofName name = ofName other) : name = other := by
  rw [ofName, ofName] at same
  split at same <;> split at same
  · next left right => rw [left, right]
  · cases same
  · cases same
  · exact Piece.name.inj same

/-- A reference is read in one way. -/
theorem Refers.unique {name' written' after' : List Char} (left : Refers mark front rest name written after)
    (right : Refers mark front rest name' written' after') : name = name' ∧ written = written' ∧ after = after' := by
  have found := (left.target right.marks).symm.trans (target_of_names right.names)
  obtain ⟨piece, length⟩ := Target.found.inj found
  have both : written ++ after = written' ++ after' :=
    List.append_cancel_left (left.marks.split.symm.trans right.marks.split)
  obtain ⟨wrote, rest⟩ := List.append_inj both length
  exact ⟨Piece.ofName_inj piece, wrote, rest⟩

theorem Refers.rest_ne_nil (refers : Refers mark front rest name written after) : rest ≠ [] := by
  rw [refers.marks.split]
  exact fun none => refers.names.written_ne_nil (List.append_eq_nil_iff.1 (List.append_eq_nil_iff.1 none).2).1

theorem Unclosed.rest_ne_nil (unclosed : Unclosed mark front rest) : rest ≠ [] := by
  obtain ⟨after, marks, -⟩ := unclosed
  rw [marks.split]
  exact fun none => List.cons_ne_nil _ _ (List.append_eq_nil_iff.1 none).2

/-- A query is scanned in one way. -/
theorem Scans.unique (left : Scans mark front rest ps) (right : Scans mark front rest ps') : ps = ps' := by
  induction left generalizing ps' with
  | finished =>
    cases right with
    | finished => rfl
    | unclosed here => exact absurd rfl here.rest_ne_nil
    | replaced here => exact absurd rfl here.rest_ne_nil
  | unclosed here =>
    cases right with
    | finished => exact absurd rfl here.rest_ne_nil
    | unclosed => rfl
    | kept free => exact absurd (.inl here) free
    | replaced other => exact nomatch (here.target other.marks).symm.trans (target_of_names other.names)
  | kept free _ ih =>
    cases right with
    | unclosed here => exact absurd (.inl here) free
    | kept _ later => rw [ih later]
    | replaced here => exact absurd (.inr ⟨_, _, _, here⟩) free
  | replaced here _ ih =>
    cases right with
    | finished => exact absurd rfl here.rest_ne_nil
    | unclosed other => exact nomatch (other.target here.marks).symm.trans (target_of_names here.names)
    | kept free => exact absurd (.inr ⟨_, _, _, here⟩) free
    | replaced other later =>
      obtain ⟨rfl, rfl, rfl⟩ := here.unique other
      rw [ih later]

/-- Text where nothing else starts is kept. -/
theorem Scans.append {text : List Char}
    (free : ∀ a b, text = a ++ b → b ≠ [] → ¬Starts mark (front ++ a) (b ++ rest))
    (scans : Scans mark (front ++ text) rest ps) :
    Scans mark front (text ++ rest) (text.map (fun c => .text [c]) ++ ps) := by
  induction text generalizing front with
  | nil => simpa using scans
  | cons c others ih =>
    refine .kept ?_ (ih (fun a b split some => ?_) (by simpa using scans))
    · simpa using free [] (c :: others) rfl (List.cons_ne_nil _ _)
    · simpa using free (c :: a) b (by rw [split]; rfl) some

end Scanning

/-- Every character of a text by itself. -/
def spread : List Piece → List Piece
  | [] => []
  | .text cs :: rest => cs.map (fun c => .text [c]) ++ spread rest
  | piece :: rest => piece :: spread rest

theorem spread_ofName (name : List Char) (ps : List Piece) :
    spread (.ofName name :: ps) = .ofName name :: spread ps := by
  rw [Piece.ofName]
  split <;> rfl

section Pieces

variable {first : Char} {others front rest after : List Char} {ps : List Piece}

/-- A mark without borders does not start again inside itself. -/
theorem Unbordered.free {mark a b : List Char} (unbordered : Unbordered mark) (split : mark = a ++ b)
    (later : a ≠ []) (some : b ≠ []) : ¬Starts mark front (b ++ rest) := by
  intro starts
  obtain ⟨after, marks⟩ := starts.marks
  have shorter : b.length < mark.length := by
    rw [split, List.length_append]
    have := List.length_pos_of_ne_nil later
    omega
  have starting : b <+: mark :=
    List.prefix_of_prefix_length_le (List.prefix_append b rest) (marks.split ▸ List.prefix_append mark after)
      (Nat.le_of_lt shorter)
  obtain none | whole := unbordered b starting ⟨a, split.symm⟩
  · exact some none
  · exact Nat.ne_of_lt shorter (congrArg List.length whole)

/-- A mark behind which nothing is named is text. -/
theorem Scans.skip {mark : List Char} (unbordered : Unbordered mark) (nothing : ¬Starts mark front (mark ++ after))
    (scans : Scans mark (front ++ mark) after ps) :
    Scans mark front (mark ++ after) (mark.map (fun c => .text [c]) ++ ps) := by
  refine scans.append fun a b split some => ?_
  cases a with
  | nil =>
    obtain rfl : mark = b := split
    simpa using nothing
  | cons c cs => exact unbordered.free split (List.cons_ne_nil c cs) some

theorem marks_iff : Marks (first :: others) front rest after ↔
    rest = first :: others ++ after ∧ isBoundary front.getLast? = true := by
  have boundary : isBoundary front.getLast? = true ↔ ∀ c ∈ front.getLast?, isAlphanumeric c = false := by
    cases front.getLast? <;> simp [isBoundary]
  rw [boundary]
  exact ⟨fun h => ⟨h.split, h.boundary⟩, fun h => ⟨h.1, h.2⟩⟩

theorem getLast?_append_of_ne_nil (a : List Char) {b : List Char} (some : b ≠ []) :
    (a ++ b).getLast? = b.getLast? := by
  rw [List.getLast?_append]
  obtain ⟨c, last⟩ := Option.ne_none_iff_exists'.1 (mt List.getLast?_eq_none_iff.1 some)
  rw [last]
  rfl

theorem pieces_marked (before : Option Char) (after : List Char) :
    pieces first others before (first :: others ++ after) =
      if isBoundary before then
        match target after with
        | .none => .text (first :: others) :: pieces first others (first :: others).getLast? after
        | .unterminated => [.unterminated]
        | .found piece length =>
          piece :: pieces first others (after.take length).getLast? (after.drop length)
      else .text (first :: others) :: pieces first others (first :: others).getLast? after := by
  have here : (decide (first = first) && others.isPrefixOf (others ++ after)) = true := by simp
  rw [List.cons_append, pieces, if_pos here]
  cases isBoundary before <;> cases found : target after <;>
    simp only [List.drop_left, found, Bool.false_eq_true, if_true, if_false]

theorem pieces_unmarked {c : Char} (elsewhere : ¬(c = first ∧ others <+: rest)) (before : Option Char) :
    pieces first others before (c :: rest) = .text [c] :: pieces first others (some c) rest := by
  rw [pieces, if_neg (by simpa using elsewhere)]

/-- The pieces of a query are those of the scan, if the mark cannot overlap itself. -/
theorem scans_pieces (unbordered : Unbordered (first :: others)) (front rest : List Char) :
    Scans (first :: others) front rest (spread (pieces first others front.getLast? rest)) := by
  -- what is left of the query gets shorter with every piece
  induction length : rest.length using Nat.strongRecOn generalizing front rest with
  | ind n ih =>
    cases rest with
    | nil =>
      rw [pieces]
      exact .finished
    | cons c rest =>
      subst length
      by_cases marked : c = first ∧ others <+: rest
      · obtain ⟨rfl, after, rfl⟩ := marked
        have skipped (nothing : ¬Starts (c :: others) front (c :: others ++ after)) :
            Scans (c :: others) front (c :: others ++ after)
              (spread (.text (c :: others) :: pieces c others (c :: others).getLast? after)) := by
          refine Scans.skip unbordered nothing ?_
          rw [← getLast?_append_of_ne_nil front (List.cons_ne_nil c others)]
          exact ih after.length (by rw [List.length_cons, List.length_append]; omega) _ _ rfl
        rw [← List.cons_append, pieces_marked]
        by_cases boundary : isBoundary front.getLast? = true
        · have marks : Marks (c :: others) front (c :: others ++ after) after := marks_iff.2 ⟨rfl, boundary⟩
          rw [if_pos boundary]
          cases found : target after with
          | none => exact skipped fun starts => marks.starts_iff.1 starts found
          | unterminated =>
            obtain ⟨others', rfl, never⟩ := unclosed_of_target found
            exact .unclosed ⟨others', marks, never⟩
          | found piece length =>
            obtain ⟨name, written, left, rfl, names, rfl, rfl⟩ := names_of_target found
            simp only [List.take_left, List.drop_left, spread_ofName]
            refine .replaced ⟨marks, names⟩ ?_
            rw [← getLast?_append_of_ne_nil (front ++ c :: others) names.written_ne_nil]
            exact ih left.length (by simp only [List.length_cons, List.length_append]; omega) _ _ rfl
        · rw [if_neg boundary]
          refine skipped fun starts => boundary ?_
          obtain ⟨after', marks⟩ := starts.marks
          exact (marks_iff.1 marks).2
      · rw [pieces_unmarked marked, ← List.getLast?_concat (l := front)]
        refine .kept (fun starts => marked ?_) (ih rest.length (by simp) _ _ rfl)
        obtain ⟨after, marks⟩ := starts.marks
        obtain ⟨rfl, rfl⟩ := List.cons.inj marks.split
        exact ⟨rfl, List.prefix_append others after⟩

end Pieces

end Reference

namespace RawQuery

open Reference

variable {σ : Type}

section Filling

variable {style : ReferenceStyle} {raw : String} {resolve : String → Attempt σ IndexFault (Option String)}
variable {s t u : σ} {piece : Piece} {ps ps' : List Piece} {out : List Char} {fault : IndexFault}

/-- What a piece gives in the place of itself: a text or a fault. -/
inductive Gives (style : ReferenceStyle) (raw : String)
    (resolve : String → Attempt σ IndexFault (Option String)) :
    Piece → σ → Except IndexFault (List Char) → σ → Prop
  | text {s : σ} {cs : List Char} : Gives style raw resolve (.text cs) s (.ok cs) s
  | wildcard {s : σ} : Gives style raw resolve .wildcard s (.ok style.wildcard.toList) s
  | field {s t : σ} {cs : List Char} {field : String} : resolve (String.ofList cs) s = (.ok (some field), t) →
      Gives style raw resolve (.name cs) s (.ok field.toList) t
  | fallback {s t : σ} {cs : List Char} {field : String} : resolve (String.ofList cs) s = (.ok none, t) →
      style.fallback = some field → Gives style raw resolve (.name cs) s (.ok field.toList) t
  | unknown {s t : σ} {cs : List Char} : resolve (String.ofList cs) s = (.ok none, t) → style.fallback = none →
      Gives style raw resolve (.name cs) s (.error (.invalidQuery (.unknownName (String.ofList cs)))) t
  | refused {s t : σ} {cs : List Char} {fault : IndexFault} : resolve (String.ofList cs) s = (.error fault, t) →
      Gives style raw resolve (.name cs) s (.error fault) t
  | unclosed {s : σ} : Gives style raw resolve .unterminated s (.error (.invalidQuery (.unterminatedQuote raw))) s

/-- What pieces give one after another, all of them texts. -/
inductive Fills (style : ReferenceStyle) (raw : String)
    (resolve : String → Attempt σ IndexFault (Option String)) : List Piece → σ → List Char → σ → Prop
  | nil {s : σ} : Fills style raw resolve [] s [] s
  | cons {s t u : σ} {piece : Piece} {ps : List Piece} {text out : List Char} :
      Gives style raw resolve piece s (.ok text) t → Fills style raw resolve ps t out u →
        Fills style raw resolve (piece :: ps) s (text ++ out) u

/-- The first piece that gives no text gives a fault. -/
def Faults (style : ReferenceStyle) (raw : String) (resolve : String → Attempt σ IndexFault (Option String))
    (ps : List Piece) (s : σ) (fault : IndexFault) (t : σ) : Prop :=
  ∃ before piece after text u, ps = before ++ piece :: after ∧ Fills style raw resolve before s text u ∧
    Gives style raw resolve piece u (.error fault) t

/-- What one piece gives, in steps. -/
def give (style : ReferenceStyle) (raw : String) (resolve : String → Attempt σ IndexFault (Option String)) :
    Piece → Attempt σ IndexFault (List Char)
  | .text cs => return cs
  | .wildcard => return style.wildcard.toList
  | .unterminated => Attempt.fail (.invalidQuery (.unterminatedQuote raw))
  | .name cs => do
    match (← resolve (String.ofList cs)).or style.fallback with
    | some field => return field.toList
    | none => Attempt.fail (.invalidQuery (.unknownName (String.ofList cs)))

theorem give_iff {result : Except IndexFault (List Char)} :
    give style raw resolve piece s = (result, t) ↔ Gives style raw resolve piece s result t := by
  constructor
  · intro h
    cases piece with
    | text cs =>
      obtain ⟨rfl, rfl⟩ := Prod.mk.inj h
      exact .text
    | wildcard =>
      obtain ⟨rfl, rfl⟩ := Prod.mk.inj h
      exact .wildcard
    | unterminated =>
      obtain ⟨rfl, rfl⟩ := Prod.mk.inj h
      exact .unclosed
    | name cs =>
      cases run : resolve (String.ofList cs) s with
      | mk answer u =>
        cases answer with
        | error fault =>
          rw [give, Attempt.bind_run_error run] at h
          obtain ⟨rfl, rfl⟩ := Prod.mk.inj h
          exact .refused run
        | ok found =>
          rw [give, Attempt.bind_run_ok run] at h
          cases found with
          | some field =>
            obtain ⟨rfl, rfl⟩ := Prod.mk.inj h
            exact .field run
          | none =>
            cases spare : style.fallback with
            | some field =>
              rw [spare] at h
              obtain ⟨rfl, rfl⟩ := Prod.mk.inj h
              exact .fallback run spare
            | none =>
              rw [spare] at h
              obtain ⟨rfl, rfl⟩ := Prod.mk.inj h
              exact .unknown run spare
  · intro gives
    cases gives with
    | text | wildcard | unclosed => rfl
    | field run => rw [give, Attempt.bind_run_ok run]; rfl
    | fallback run spare => rw [give, Attempt.bind_run_ok run, spare]; rfl
    | unknown run spare => rw [give, Attempt.bind_run_ok run, spare]; rfl
    | refused run => rw [give, Attempt.bind_run_error run]

/-- Pieces are filled one by one. -/
theorem fill_cons (piece : Piece) (ps : List Piece) : fill style raw resolve (piece :: ps) =
    (do return (← give style raw resolve piece) ++ (← fill style raw resolve ps)) := by
  funext s
  cases piece with
  | text | wildcard | unterminated => rfl
  | name cs =>
    cases run : resolve (String.ofList cs) s with
    | mk answer u =>
      cases answer with
      | error fault =>
        have given : give style raw resolve (.name cs) s = (.error fault, u) := give_iff.2 (.refused run)
        rw [fill, Attempt.bind_run_error run, Attempt.bind_run_error given]
      | ok found =>
        rw [fill, Attempt.bind_run_ok run]
        cases either : found.or style.fallback with
        | some field =>
          have given : give style raw resolve (.name cs) s = (.ok field.toList, u) := by
            rw [give, Attempt.bind_run_ok run, either]
            rfl
          rw [Attempt.bind_run_ok given]
        | none =>
          have given : give style raw resolve (.name cs) s =
              (.error (.invalidQuery (.unknownName (String.ofList cs))), u) := by
            rw [give, Attempt.bind_run_ok run, either]
            rfl
          rw [Attempt.bind_run_error given]
          rfl

theorem Fills.reaches {before after : List Piece}
    (fills : Fills style raw resolve (before ++ piece :: after) s out t) :
    ∃ text u given v, Fills style raw resolve before s text u ∧ Gives style raw resolve piece u (.ok given) v := by
  induction before generalizing s out with
  | nil =>
    obtain _ | ⟨gives, -⟩ := fills
    exact ⟨_, _, _, _, .nil, gives⟩
  | cons first rest ih =>
    obtain _ | ⟨gives, later⟩ := fills
    obtain ⟨text, u, given, v, filled, there⟩ := ih later
    exact ⟨_, u, given, v, .cons gives filled, there⟩

section Composed

variable {P : ∀ {α : Type}, Attempt σ IndexFault α → Prop}

theorem give_composed (composes : Attempt.Composes P) (resolves : ∀ name, P (resolve name)) (piece : Piece) :
    P (give style raw resolve piece) := by
  cases piece with
  | text cs => exact composes.pure cs
  | wildcard => exact composes.pure _
  | unterminated => exact composes.lift (.error _)
  | name cs =>
    refine composes.bind (resolves _) fun found => ?_
    split
    · exact composes.pure _
    · exact composes.lift (.error _)

/-- Filling resolves names, and nothing else touches what is shared. -/
theorem fill_composed (composes : Attempt.Composes P) (resolves : ∀ name, P (resolve name)) (ps : List Piece) :
    P (fill style raw resolve ps) := by
  induction ps with
  | nil => exact composes.pure []
  | cons piece rest ih =>
    rw [fill_cons]
    exact composes.bind (give_composed composes resolves piece) fun _ => composes.bind ih fun _ => composes.pure _

end Composed

theorem fill_ok_iff : fill style raw resolve ps s = (.ok out, t) ↔ Fills style raw resolve ps s out t := by
  induction ps generalizing s out with
  | nil =>
    constructor
    · intro h
      obtain ⟨same, rfl⟩ := Prod.mk.inj h
      obtain rfl := Except.ok.inj same
      exact .nil
    · rintro ⟨⟩
      rfl
  | cons piece rest ih =>
    rw [fill_cons, Attempt.bind_run_ok_iff]
    constructor
    · rintro ⟨text, u, given, h⟩
      obtain ⟨more, v, filled, done⟩ := Attempt.bind_run_ok_iff.1 h
      obtain ⟨same, rfl⟩ := Prod.mk.inj done
      obtain rfl := Except.ok.inj same
      exact .cons (give_iff.1 given) (ih.1 filled)
    · rintro (_ | ⟨given, filled⟩)
      exact ⟨_, _, give_iff.2 given, Attempt.bind_run_ok_iff.2 ⟨_, _, ih.2 filled, rfl⟩⟩

theorem fill_error_iff :
    fill style raw resolve ps s = (.error fault, t) ↔ Faults style raw resolve ps s fault t := by
  induction ps generalizing s with
  | nil =>
    constructor
    · exact nofun
    · rintro ⟨before, piece, after, text, u, split, -⟩
      exact absurd split.symm (by simp)
  | cons piece rest ih =>
    rw [fill_cons, Attempt.bind_run_error_iff]
    constructor
    · rintro (given | ⟨text, u, given, h⟩)
      · exact ⟨[], piece, rest, [], s, rfl, .nil, give_iff.1 given⟩
      · obtain filled | ⟨_, _, _, done⟩ := Attempt.bind_run_error_iff.1 h
        · obtain ⟨before, piece', after, more, v, rfl, fills, gives⟩ := ih.1 filled
          exact ⟨piece :: before, piece', after, _, v, rfl, .cons (give_iff.1 given) fills, gives⟩
        · cases done
    · rintro ⟨before, piece', after, text, u, split, fills, gives⟩
      cases fills with
      | nil =>
        obtain ⟨rfl, rfl⟩ := List.cons.inj split
        exact .inl (give_iff.2 gives)
      | cons given fills =>
        obtain ⟨rfl, rfl⟩ := List.cons.inj split
        exact .inr ⟨_, _, give_iff.2 given,
          Attempt.bind_run_error_iff.2 (.inl (ih.2 ⟨_, piece', after, _, u, rfl, fills, gives⟩))⟩

theorem fill_texts (cs : List Char) (ps : List Piece) :
    fill style raw resolve (cs.map (fun c => .text [c]) ++ ps) =
      (do return cs ++ (← fill style raw resolve ps)) := by
  induction cs with
  | nil =>
    funext s
    rw [List.map_nil, List.nil_append, Attempt.map_run]
    cases fill style raw resolve ps s with
    | mk result t => cases result <;> rfl
  | cons c rest ih =>
    funext s
    rw [List.map_cons, List.cons_append, fill, ih, Attempt.map_run, Attempt.map_run, Attempt.map_run]
    cases fill style raw resolve ps s with
    | mk result t => cases result <;> rfl

/-- A text comes out the same by characters. -/
theorem fill_spread (ps : List Piece) : fill style raw resolve (spread ps) = fill style raw resolve ps := by
  induction ps with
  | nil => rfl
  | cons piece rest ih =>
    cases piece with
    | text cs => rw [spread, fill_texts, ih, fill]
    | _ => simp only [spread, fill_cons, ih]

end Filling

/-- A query and what becomes of it, by the pieces that a scan of it finds. -/
structure Rewrites (style : ReferenceStyle) (raw : String)
    (resolve : String → Attempt σ IndexFault (Option String)) (s : σ) (ps : List Piece) : Prop where
  scans : Scans style.mark.toList [] raw.toList ps
  only : ∀ ps', Scans style.mark.toList [] raw.toList ps' → ps' = ps
  succeeds : ∀ out t, substitute style raw resolve s = (.ok out, t) ↔
    Fills style raw resolve ps s out.toList t
  fails : ∀ fault t, substitute style raw resolve s = (.error fault, t) ↔
    Faults style raw resolve ps s fault t
  unchanged : (∀ front rest, raw.toList = front ++ rest → ¬Starts style.mark.toList front rest) →
    substitute style raw resolve s = (.ok raw, s)

variable {style : ReferenceStyle} {raw : String} {resolve : String → Attempt σ IndexFault (Option String)} {s t : σ}

theorem substitute_run {first : Char} {others : List Char} (marked : style.mark.toList = first :: others) :
    substitute style raw resolve s =
      ((fill style raw resolve (pieces first others none raw.toList) s).1.map String.ofList,
        (fill style raw resolve (pieces first others none raw.toList) s).2) := by
  rw [substitute, marked]
  exact Attempt.map_run

/-- A query comes out as the pieces of its only scan say, whatever names are resolved to. -/
theorem substitute_rewrites (marked : style.mark ≠ "") (unbordered : Unbordered style.mark.toList) (raw : String)
    (resolve : String → Attempt σ IndexFault (Option String)) (s : σ) :
    ∃ ps, Rewrites style raw resolve s ps := by
  obtain ⟨first, others, mark⟩ : ∃ first others, style.mark.toList = first :: others :=
    List.exists_cons_of_ne_nil (mt String.toList_eq_nil_iff.1 marked)
  have scans : Scans style.mark.toList [] raw.toList (spread (pieces first others none raw.toList)) := by
    rw [mark] at unbordered ⊢
    exact scans_pieces unbordered [] raw.toList
  have run : substitute style raw resolve s = _ := substitute_run mark
  rw [← fill_spread] at run
  have succeeds (out : String) (t : σ) : substitute style raw resolve s = (.ok out, t) ↔
      Fills style raw resolve (spread (pieces first others none raw.toList)) s out.toList t := by
    rw [run, ← fill_ok_iff]
    cases fill style raw resolve (spread (pieces first others none raw.toList)) s with
    | mk result u =>
      cases result with
      | ok cs => simp [Except.map, String.ext_iff]
      | error fault => simp [Except.map]
  refine ⟨_, scans, fun ps' other => other.unique scans, succeeds, fun fault t => ?_, fun free => ?_⟩
  · rw [run, ← fill_error_iff]
    cases fill style raw resolve (spread (pieces first others none raw.toList)) s with
    | mk result u => cases result <;> simp [Except.map]
  · have plain : Scans style.mark.toList [] (raw.toList ++ []) (raw.toList.map (fun c => .text [c]) ++ []) := .append
      (fun a b split some => by simpa using free a b split) .finished
    rw [List.append_nil, List.append_nil] at plain
    rw [succeeds, scans.unique plain, ← fill_ok_iff]
    have filled : fill style raw resolve (raw.toList.map (fun c => .text [c]) ++ []) s = _ :=
      congrFun (fill_texts raw.toList []) s
    rw [List.append_nil] at filled
    rw [filled]
    simp [fill, Attempt.map_run, Except.map]

/-- Names with a letter before them, in a query that has also words and a field of no name in it. -/
theorem substitute_rewrites_homeTown : "v." ≠ "" ∧ Unbordered "v.".toList ∧
    ∃ ps, Rewrites ⟨"v.", "_all", none⟩ "dev.x:v. OR v.\"home town\":rome"
      (fun name => fun asked : List String => (.ok (some ("f_" ++ name)), asked ++ [name])) [] ps :=
  ⟨by decide, by decide, substitute_rewrites (by decide) (by decide) _ _ _⟩

end RawQuery

end GraphStore
