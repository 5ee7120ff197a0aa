import RaceIngest.Proofs.Json.Compact
import RaceIngest.Proofs.Telemetry.Document

/-!
# Which documents are read back

The document of a race, an event, a lap, a sample or a recorded sample is read back from its text if
and only if all its words are finite numbers and all its timestamps are regular. The words come back
bit for bit, subnormal numbers and both zeros among them, and the timestamps to the nanosecond, also
inside a leap second.

A recorded sample is held in memory before its fields are told apart, which its document allows:
it is nested twice, and every number that is read as a word or as an integer of at most 64 bits is one
that can be held.

## Main definitions

* `Json.IsReadBack`: both forms of the document of a value are read as the value.

## Main statements

* `Json.isPlain_of_toSingle?`, `Sample.isPlain_of_mem_members`: documents that can be held,
* `Lap.ofJson?_toJson`, `Event.ofJson?_toJson`, `Recorded.ofJson?_toJson`: what is read of a document,
* `documents_read_back`: which documents are read back from their texts.
-/

namespace RaceIngest

namespace Json

open Decimal

/-! ## Documents that can be held -/

section Plain

variable {depth : Nat} {j : Json}

/-- What is read as an integer can be held. -/
theorem isPlain_of_toInteger? {literal : Numeral} {i : Int} (hread : literal.toInteger? = some i) :
    (Json.number literal).isPlain depth = true := by
  rw [isPlain, hread]
  rfl

theorem isPlain_int {i : Int} (hlow : -2 ^ 63 ≤ i) (hhigh : i < 2 ^ 64) :
    (int i).isPlain depth = true :=
  isPlain_of_toInteger? (Numeral.toInteger?_ofInt hlow hhigh)

theorem isPlain_nat {n : Nat} (hsmall : n < 2 ^ 64) : (nat n).isPlain depth = true :=
  isPlain_of_toInteger? (Numeral.toInteger?_ofNat hsmall)

/-- What is read as a word can be held. -/
theorem isPlain_of_toSingle? {x : Single} (hread : j.toSingle? = some x) :
    j.isPlain depth = true := by
  cases j with
  | number literal =>
      have hword : literal.toSingle? = some x := hread
      unfold Numeral.toSingle? at hword
      rw [isPlain]
      cases hwhole : literal.toInteger? with
      | some i => rfl
      | none =>
          rw [hwhole] at hword
          obtain ⟨double, hheld, -⟩ := Option.map_eq_some_iff.mp hword
          rw [hheld]
          rfl
  | _ => cases hread

theorem isPlain_single (x : Single) : (single x).isPlain depth = true := by
  cases hfinite : x.isFinite with
  | true =>
      apply isPlain_of_toSingle?
      rw [toSingle?_single, if_pos hfinite]
  | false =>
      have hunwritten : x.toNumeral? = none := by simp [Single.toNumeral?, hfinite]
      rw [single, hunwritten]
      rfl

theorem isPlain_text (s : String) : (text s).isPlain depth = true := rfl

/-- An object can be held one deeper than its values. -/
theorem isPlain_ofMembers {members : List (String × Json)}
    (hvalues : ∀ member ∈ members, member.2.isPlain depth = true) :
    (ofMembers members).isPlain (depth + 1) = true := by
  rw [ofMembers, isPlain]
  induction members with
  | nil => rfl
  | cons member members ih =>
      obtain ⟨hfirst, hrest⟩ := List.forall_mem_cons.mp hvalues
      rw [List.map_cons, arePlainMembers, hfirst, ih hrest]
      rfl

theorem isPlain_vec3 (v : Vec3) : (vec3 v).isPlain (depth + 1) = true := by
  apply isPlain_ofMembers
  simp [isPlain_single]

theorem isPlain_corners {α : Type} {item : α → Json} (hitems : ∀ a, (item a).isPlain depth = true)
    (c : Corners α) : (corners item c).isPlain (depth + 1) = true := by
  apply isPlain_ofMembers
  simp [hitems]

end Plain

/-! ## Reading a text -/

/-- Both forms of the document of a value are read as the value. -/
def IsReadBack {α : Type} (toJson : α → Json) (ofJson? : Json → Option α) (a : α) : Prop :=
  (parse? (toJson a).chars).bind ofJson? = some a ∧
    (parse? ((toJson a).indented 0)).bind ofJson? = some a

/-- The text of a legible document is as good as the document. -/
theorem isReadBack_iff {α : Type} {toJson : α → Json} {ofJson? : Json → Option α} {a : α}
    (hlegible : (toJson a).Legible) :
    IsReadBack toJson ofJson? a ↔ ofJson? (toJson a) = some a := by
  rw [IsReadBack, parse?_chars hlegible, parse?_indented hlegible, Option.bind_some, and_self]

end Json

open Json

/-! ## Recorded samples -/

/-- The values of a sample can be held, nested as they are. -/
theorem Sample.isPlain_of_mem_members {s : Sample} {depth : Nat} :
    ∀ member ∈ s.members, member.2.isPlain (depth + 1) = true := by
  have hword (d : Nat) (i : Int32) : (int i.toInt).isPlain d = true := by
    have hlow : -2 ^ 31 ≤ i.toInt := i.le_toInt
    have hhigh : i.toInt < 2 ^ 31 := i.toInt_lt
    exact isPlain_int (by omega) (by omega)
  have hsigned (i : Int8) : (int i.toInt).isPlain (depth + 1) = true := by
    have hlow : -2 ^ 7 ≤ i.toInt := i.le_toInt
    have hhigh : i.toInt < 2 ^ 7 := i.toInt_lt
    exact isPlain_int (by omega) (by omega)
  have hbyte (n : UInt8) : (nat n.toNat).isPlain (depth + 1) = true :=
    isPlain_nat (by have := n.toNat_lt; omega)
  have hshort (n : UInt16) : (nat n.toNat).isPlain (depth + 1) = true :=
    isPlain_nat (by have := n.toNat_lt; omega)
  have hlong (n : UInt32) : (nat n.toNat).isPlain (depth + 1) = true :=
    isPlain_nat (by have := n.toNat_lt; omega)
  simp [members, hword, hsigned, hbyte, hshort, hlong, isPlain_single, isPlain_vec3,
    isPlain_corners]

namespace Recorded

/-- The members of the document of a recorded sample. -/
def members (r : Recorded) : List (String × Json) :=
  r.sample.members ++ [("race", .uuid r.race), ("created_at", .timestamp r.createdAt)]

theorem nodup_names (r : Recorded) : (r.members.map Prod.fst).Nodup := by
  have hnames : r.members.map Prod.fst = Sample.fieldNames ++ ["race", "created_at"] := rfl
  rw [hnames]
  decide

theorem legible_toJson (r : Recorded) : r.toJson.Legible := by
  rw [toJson, legible_ofMembers, List.forall_mem_append]
  constructor
  · exact Sample.legible_of_mem_members
  · simp [uuid, timestamp]

/-- The document of a recorded sample can be held. -/
theorem isPlain_toJson (r : Recorded) : r.toJson.isPlain plainDepth = true := by
  apply isPlain_ofMembers
  rw [List.forall_mem_append]
  constructor
  · exact Sample.isPlain_of_mem_members
  · simp [uuid, timestamp, isPlain_text]

/-- What is read of the document of a recorded sample: the sample, if all its words are finite. -/
theorem ofJson?_toJson {r : Recorded} (hregular : r.createdAt.Regular) :
    ofJson? r.toJson = if r.sample.isFinite then some r else none := by
  have hdistinct := r.nodup_names
  have hgiven (name : String) {value : Json} (hmem : (name, value) ∈ r.members) :
      r.members.lookup name = some value := lookup_of_mem hdistinct hmem
  have hfields : objectFields? (Sample.fieldNames ++ ["race", "created_at"])
      (r.members.map fun member => (some member.1, member.2)) =
      some fun name => r.members.lookup name := fields?_ofMembers hdistinct _
  have hsample := Sample.ofFields?_eq fun member (hmem : member ∈ r.sample.members) =>
    hgiven member.1 (List.mem_append_left _ hmem)
  have hrace : Fields.required (fun name => r.members.lookup name) "race" toUuid? =
      some r.race := by
    have hmem : ("race", uuid r.race) ∈ r.members := by simp [members]
    rw [Fields.required, hgiven "race" hmem, Option.bind_some, toUuid?_uuid]
  have hreceipt : Fields.required (fun name => r.members.lookup name) "created_at" toTimestamp? =
      some r.createdAt := by
    have hmem : ("created_at", timestamp r.createdAt) ∈ r.members := by simp [members]
    rw [Fields.required, hgiven "created_at" hmem, Option.bind_some,
      toTimestamp?_timestamp hregular]
  have hplain := r.isPlain_toJson
  have hshape : r.toJson = .object (r.members.map fun member => (some member.1, member.2)) := rfl
  rw [hshape] at hplain ⊢
  simp only [ofJson?, hplain, guard, if_true, hfields, hsample, hrace, hreceipt,
    Option.bind_eq_bind, Option.bind_some, Option.pure_def]
  cases r.sample.isFinite <;> rfl

/-- The receipt of a sample that was read is regular. -/
theorem regular_of_ofJson? {j : Json} {recorded : Recorded}
    (hread : ofJson? j = some recorded) : recorded.createdAt.Regular := by
  unfold ofJson? at hread
  obtain ⟨_, -, hread⟩ := Option.bind_eq_some_iff.mp hread
  split at hread
  · obtain ⟨fields, -, hread⟩ := Option.bind_eq_some_iff.mp hread
    obtain ⟨sample, -, hread⟩ := Option.bind_eq_some_iff.mp hread
    obtain ⟨race, -, hread⟩ := Option.bind_eq_some_iff.mp hread
    obtain ⟨createdAt, hreceived, hsame⟩ := Option.bind_eq_some_iff.mp hread
    cases hsame
    obtain ⟨value, -, hmoment⟩ := Option.bind_eq_some_iff.mp hreceived
    exact Json.regular_of_toTimestamp? hmoment
  · cases hread

end Recorded

/-! ## Laps -/

namespace Lap

/-- The members of the document of a lap. -/
def members (l : Lap) : List (String × Json) := [
  ("lapNumber", .nat l.lapNumber.toNat),
  ("lapTime", .single l.lapTime),
  ("finishedAt", .timestamp l.finishedAt),
  ("racePosition", .nat l.racePosition.toNat),
  ("raceTime", .single l.raceTime)]

/-- Whether the clocks of a lap are finite. -/
def isFinite (l : Lap) : Bool := l.lapTime.isFinite && l.raceTime.isFinite

theorem legible_toJson (l : Lap) : l.toJson.Legible := by
  rw [toJson, legible_ofMembers]
  simp [timestamp]

/-- What is read of the document of a lap: the lap, if its clocks are finite. -/
theorem ofJson?_toJson {l : Lap} (hregular : l.finishedAt.Regular) :
    ofJson? l.toJson = if l.isFinite then some l else none := by
  have hnames : l.members.map Prod.fst = fieldNames := rfl
  have hdistinct : (l.members.map Prod.fst).Nodup := by
    rw [hnames]
    decide
  have hshape : l.toJson = .ofMembers l.members := rfl
  have hgiven (name : String) {value : Json} (hmem : (name, value) ∈ l.members) :
      l.members.lookup name = some value := lookup_of_mem hdistinct hmem
  rw [hshape, ofJson?, fields?_ofMembers hdistinct, Option.bind_eq_bind, Option.bind_some]
  rw [required_bind (hgiven "lapNumber" (by simp [members])) (toUInt16?_nat l.lapNumber)]
  rw [required_single l.lapTime (hgiven "lapTime" (by simp [members]))]
  rw [required_bind (hgiven "finishedAt" (by simp [members])) (toTimestamp?_timestamp hregular)]
  rw [required_bind (hgiven "racePosition" (by simp [members])) (toUInt8?_nat l.racePosition)]
  rw [required_single l.raceTime (hgiven "raceTime" (by simp [members]))]
  simp only [isFinite, Bool.and_eq_true, ite_and]
  rfl

theorem regular_of_ofJson? {j : Json} {l : Lap} (hread : ofJson? j = some l) :
    l.finishedAt.Regular := by
  unfold ofJson? at hread
  obtain ⟨fields, -, hread⟩ := Option.bind_eq_some_iff.mp hread
  obtain ⟨lapNumber, -, hread⟩ := Option.bind_eq_some_iff.mp hread
  obtain ⟨lapTime, -, hread⟩ := Option.bind_eq_some_iff.mp hread
  obtain ⟨finishedAt, hfinished, hread⟩ := Option.bind_eq_some_iff.mp hread
  obtain ⟨racePosition, -, hread⟩ := Option.bind_eq_some_iff.mp hread
  obtain ⟨raceTime, -, hsame⟩ := Option.bind_eq_some_iff.mp hread
  cases hsame
  obtain ⟨value, -, hmoment⟩ := Option.bind_eq_some_iff.mp hfinished
  exact Json.regular_of_toTimestamp? hmoment

end Lap

/-! ## Events -/

namespace Event

theorem legible_toJson (e : Event) : e.toJson.Legible := by
  rw [toJson, legible_ofMembers]
  simp [e.race.legible_toJson]

/-- What is read of the document of an event is what is read of its race. -/
theorem ofJson?_toJson (e : Event) :
    ofJson? e.toJson = (Race.ofJson? e.race.toJson).map fun race => ⟨e.kind, race⟩ := by
  let members := [("event", Json.text e.kind.name), ("race", e.race.toJson)]
  have hnames : members.map Prod.fst = ["event", "race"] := rfl
  have hdistinct : (members.map Prod.fst).Nodup := by
    rw [hnames]
    decide
  have hfields : objectFields? ["event", "race"]
      (members.map fun member => (some member.1, member.2)) =
      some fun name => members.lookup name := fields?_ofMembers hdistinct _
  have hkind : Fields.required (fun name => members.lookup name) "event" kindOfField? =
      some e.kind := EventKind.ofName?_name e.kind
  have hheld : members.lookup "race" = some e.race.toJson := rfl
  -- The kind of the event is written first, so the race need not be held back.
  have hfirst : raceComesFirst (members.map fun member => (some member.1, member.2)) = false := rfl
  have hshape : e.toJson = .object (members.map fun member => (some member.1, member.2)) := rfl
  rw [hshape]
  simp only [ofJson?, hfields, hkind, hheld, hfirst, guard, Bool.not_false, Bool.true_or, if_true,
    Option.bind_eq_bind, Option.bind_some, Option.pure_def]
  cases Race.ofJson? e.race.toJson <;> rfl

end Event

/-! ## All documents -/

/-- A value is read back if what is read of its document is the value on some condition, and everything
that is read is regular. -/
theorem isReadBack_iff_of_ite {α : Type} {toJson : α → Json} {ofJson? : Json → Option α} {a : α}
    {holds : Bool} {regular : Prop} (hlegible : (toJson a).Legible)
    (hback : regular → ofJson? (toJson a) = if holds then some a else none)
    (halways : ∀ {j}, ofJson? j = some a → regular) :
    IsReadBack toJson ofJson? a ↔ holds = true ∧ regular := by
  rw [isReadBack_iff hlegible]
  constructor
  · intro hread
    have hshown := halways hread
    rw [hback hshown] at hread
    split at hread
    · rename_i hfinite
      exact ⟨hfinite, hshown⟩
    · cases hread
  · rintro ⟨hfinite, hshown⟩
    rw [hback hshown, if_pos hfinite]

/-- **Which documents are read back**: those of races, events, laps, samples and recorded samples whose
words are all finite and whose timestamps are all regular, and no others. Every moment that a clock
shows and every moment that a text denotes is regular (`Timestamp.regular_ofEpoch`,
`Timestamp.regular_of_parse?`), leap seconds included. -/
theorem documents_read_back :
    (∀ r : Race, IsReadBack Race.toJson Race.ofJson? r ↔ r.hasFiniteAggregates = true ∧ r.Dated) ∧
    (∀ e : Event, IsReadBack Event.toJson Event.ofJson? e ↔
      e.race.hasFiniteAggregates = true ∧ e.race.Dated) ∧
    (∀ l : Lap, IsReadBack Lap.toJson Lap.ofJson? l ↔ l.isFinite = true ∧ l.finishedAt.Regular) ∧
    (∀ s : Sample, IsReadBack Sample.toJson Sample.ofJson? s ↔ s.isFinite = true) ∧
    ∀ r : Recorded, IsReadBack Recorded.toJson Recorded.ofJson? r ↔
      r.sample.isFinite = true ∧ r.createdAt.Regular := by
  have hraces (r : Race) :
      Race.ofJson? r.toJson = some r ↔ r.hasFiniteAggregates = true ∧ r.Dated := by
    rw [← isReadBack_iff r.legible_toJson]
    exact isReadBack_iff_of_ite r.legible_toJson Race.ofJson?_toJson Race.dated_of_ofJson?
  refine ⟨?_, ?_, ?_, ?_, ?_⟩
  · intro r
    rw [isReadBack_iff r.legible_toJson, hraces]
  · intro e
    rw [isReadBack_iff e.legible_toJson, Event.ofJson?_toJson, ← hraces e.race]
    cases Race.ofJson? e.race.toJson with
    | none => simp
    | some race => cases e; simp
  · intro l
    exact isReadBack_iff_of_ite l.legible_toJson Lap.ofJson?_toJson Lap.regular_of_ofJson?
  · intro s
    rw [isReadBack_iff s.legible_toJson, Sample.ofJson?_toJson]
    cases s.isFinite <;> simp
  · intro r
    exact isReadBack_iff_of_ite r.legible_toJson Recorded.ofJson?_toJson Recorded.regular_of_ofJson?

/-- The least subnormal number, negative zero and the last nanosecond of a leap second are read back. -/
theorem lap_with_leap_second_reads_back :
    IsReadBack Lap.toJson Lap.ofJson?
      ⟨65535, ⟨0x00000001⟩, ⟨default, 86399, 1999999999⟩, 255, ⟨0x80000000⟩⟩ := by
  obtain ⟨-, -, hlaps, -⟩ := documents_read_back
  exact (hlaps _).mpr ⟨by decide, by decide⟩

/-- A moment can also be held whose nanoseconds go on past a second which is not the last of its
minute. Its text is that of another moment, in the following second, and is read as that one. -/
theorem lap_with_irregular_finish_reads_otherwise :
    let finish : Calendar.Timestamp := ⟨default, 86164, 1333333333⟩
    let next : Calendar.Timestamp := ⟨default, 86165, 333333333⟩
    let lap : Lap := ⟨1, .one, finish, 1, .one⟩
    finish.chars = "1970-01-01T23:56:05.333333333Z".toList ∧
      lap.isFinite = true ∧
      (parse? lap.toJson.chars).bind Lap.ofJson? = some { lap with finishedAt := next } ∧
      ¬IsReadBack Lap.toJson Lap.ofJson? lap := by
  intro finish next lap
  have hread : (parse? lap.toJson.chars).bind Lap.ofJson? =
      some { lap with finishedAt := next } := by
    decide +kernel
  refine ⟨by decide +kernel, by decide, hread, ?_⟩
  intro hback
  have hsame : some { lap with finishedAt := next } = some lap := hread.symm.trans hback.1
  exact absurd hsame (by decide)

end RaceIngest
