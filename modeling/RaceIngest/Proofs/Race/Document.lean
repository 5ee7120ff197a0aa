import RaceIngest.Race.Document
import RaceIngest.Proofs.Calendar.Format
import RaceIngest.Proofs.Decimal.Roundtrip
import RaceIngest.Proofs.Json.Roundtrip
import RaceIngest.Proofs.Uuid

/-!
# Written races are read back

A record whose fields have different names is found again in its document, and so is every field
but one kind: a word that is no finite number is written as null, and null is no number. So a race
is read back from its document if its aggregates are finite, and otherwise nothing is.

## Main statements

* `Json.fields?_ofMembers`: the fields of a written record,
* `Race.ofJson?_toJson`: what is read from the document of a race,
* `Race.dated_of_ofJson?`: the timestamps of a race that was read are regular.
-/

namespace RaceIngest.Json

open Calendar Decimal

/-! ## Fields -/

theorem namedMembers?_some (members : List (String × Json)) :
    namedMembers? (members.map fun (name, value) => (some name, value)) = some members := by
  rw [namedMembers?]
  induction members with
  | nil => rfl
  | cons member members ih =>
      rw [List.map_cons, List.mapM_cons, ih]
      rfl

theorem occurrences_le_one {members : List (String × Json)}
    (hdistinct : (members.map Prod.fst).Nodup) (name : String) : occurrences name members ≤ 1 := by
  have hcount : occurrences name members = (members.map Prod.fst).count name := by
    rw [occurrences, List.count, List.countP_map]
    rfl
  rw [hcount]
  exact List.nodup_iff_count_le_one.mp hdistinct name

/-- **The fields of a record with different names are found in its document.** -/
theorem fields?_ofMembers {members : List (String × Json)}
    (hdistinct : (members.map Prod.fst).Nodup) (names : List String) :
    (ofMembers members).fields? names = some fun name => members.lookup name := by
  have honce : (names.all fun name => decide (occurrences name members ≤ 1)) = true :=
    List.all_eq_true.mpr fun name _ => decide_eq_true (occurrences_le_one hdistinct name)
  rw [ofMembers, fields?, objectFields?, namedMembers?_some]
  simp only [Option.bind_eq_bind, Option.bind_some, honce, guard, if_true]
  rfl

/-- A member is found under its name if no other member has the name. -/
theorem lookup_of_mem {members : List (String × Json)} (hdistinct : (members.map Prod.fst).Nodup)
    {member : String × Json} (hmem : member ∈ members) :
    members.lookup member.1 = some member.2 := by
  induction members with
  | nil => cases hmem
  | cons first members ih =>
      obtain ⟨hothers, hdistinct⟩ := List.nodup_cons.mp hdistinct
      rcases List.mem_cons.mp hmem with rfl | hlater
      · exact List.lookup_cons_self
      · have hother : (member.1 == first.1) = false := by
          rw [beq_eq_false_iff_ne]
          intro hsame
          exact hothers (hsame ▸ List.mem_map_of_mem hlater)
        rw [List.lookup_cons, hother]
        exact ih hdistinct hlater

/-! ## Single values -/

theorem toUuid?_uuid (id : Uuid) : (uuid id).toUuid? = some id := by
  rw [toUuid?, uuid, text, toText?, Option.bind_some, Uuid.text, String.toList_ofList,
    Uuid.parse?_chars]

theorem toTimestamp?_timestamp {t : Timestamp} (hregular : t.Regular) :
    (timestamp t).toTimestamp? = some t := by
  rw [toTimestamp?, timestamp, text, toText?, Option.bind_some, Timestamp.text,
    String.toList_ofList, Timestamp.parse?_chars hregular]

theorem regular_of_toTimestamp? {j : Json} {t : Timestamp} (hread : j.toTimestamp? = some t) :
    t.Regular := by
  obtain ⟨s, -, hparsed⟩ := Option.bind_eq_some_iff.mp hread
  exact Timestamp.regular_of_parse? hparsed

theorem toInt32?_int (i : Int32) : (int i.toInt).toInt32? = some i := by
  have hlow : -2 ^ (32 - 1) ≤ i.toInt := i.le_toInt
  have hhigh : i.toInt < 2 ^ (32 - 1) := i.toInt_lt
  have hread : (int i.toInt).toSigned? 32 = some i.toInt :=
    Numeral.toSigned?_ofInt hlow hhigh (by decide)
  rw [toInt32?, hread, Option.map_some, Int32.ofInt_toInt]

theorem toUInt8?_nat (n : UInt8) : (nat n.toNat).toUInt8? = some n := by
  have hread : (nat n.toNat).toNatBelow? (2 ^ 8) = some n.toNat :=
    Numeral.toNatBelow?_ofNat n.toNat_lt (by decide)
  rw [toUInt8?, hread, Option.map_some, UInt8.ofNat_toNat]

/-- **A word is read back when it is a finite number, and otherwise nothing is.** -/
theorem toSingle?_single (x : Single) :
    (single x).toSingle? = if x.isFinite then some x else none := by
  cases hfinite : x.isFinite with
  | true =>
      have hread := Single.toSingle?_toNumeral? hfinite
      obtain ⟨literal, hwritten, hsame⟩ := Option.bind_eq_some_iff.mp hread
      simp only [single, hwritten, toSingle?, hsame, if_true]
  | false =>
      have hunwritten : x.toNumeral? = none := by
        simp [Single.toNumeral?, hfinite]
      simp only [single, hunwritten, toSingle?, Bool.false_eq_true, if_false]

/-! ## Fields of a record -/

section Fields

variable {members : List (String × Json)} {name : String}

/-- A field that was given and is read back. -/
theorem required_bind {α β : Type} {value : Json} {a : α} {read : Json → Option α}
    (hgiven : members.lookup name = some value) (hback : read value = some a)
    (next : α → Option β) :
    (Fields.required (fun name => members.lookup name) name read >>= next) = next a := by
  rw [Fields.required, hgiven, Option.bind_some, hback]
  rfl

/-- A word that was given is read back when it is a finite number. -/
theorem required_single {β : Type} (x : Single) (hgiven : members.lookup name = some (single x))
    (next : Single → Option β) :
    (Fields.required (fun name => members.lookup name) name toSingle? >>= next) =
      if x.isFinite then next x else none := by
  rw [Fields.required, hgiven, Option.bind_some, toSingle?_single]
  split <;> rfl

/-- A moment that may be missing is null when it is. -/
theorem optional_timestamp {value : Option Timestamp}
    (hgiven : members.lookup name = some (ofOption (value.map timestamp)))
    (hregular : ∀ t ∈ value, t.Regular) :
    Fields.optional (fun name => members.lookup name) name toTimestamp? = some value := by
  simp only [Fields.optional, hgiven]
  cases value with
  | none => rfl
  | some t =>
      have hread := toTimestamp?_timestamp (hregular t rfl)
      show (timestamp t).toTimestamp?.map some = _
      rw [hread, Option.map_some]

/-- A field that is there was read from a value. -/
theorem exists_of_optional {α : Type} {fields : Json.Fields} {read : Json → Option α} {a : α}
    (hfound : fields.optional name read = some (some a)) : ∃ value, read value = some a := by
  unfold Fields.optional at hfound
  split at hfound
  · cases hfound
  · cases hfound
  · rename_i value _ _
    exact ⟨value, by simpa using hfound⟩

end Fields

/-- What was read from a row of documents was read from each of them. -/
theorem exists_of_mem_mapM {α β : Type} {read : α → Option β} {row : List α} {results : List β}
    (hall : row.mapM read = some results) {result : β} (hmem : result ∈ results) :
    ∃ item ∈ row, read item = some result := by
  induction row generalizing results with
  | nil =>
      cases hall
      cases hmem
  | cons item row ih =>
      rw [List.mapM_cons] at hall
      obtain ⟨first, hhere, hall⟩ := Option.bind_eq_some_iff.mp hall
      obtain ⟨rest, hlater, hsame⟩ := Option.bind_eq_some_iff.mp hall
      cases hsame
      rcases List.mem_cons.mp hmem with rfl | hinside
      · exact ⟨item, List.mem_cons_self, hhere⟩
      · obtain ⟨other, hamong, hfound⟩ := ih hlater hinside
        exact ⟨other, List.mem_cons_of_mem _ hamong, hfound⟩

end RaceIngest.Json

namespace RaceIngest.Race

open Calendar Json

/-- The timestamps of the race are regular. -/
structure Dated (race : Race) : Prop where
  started : race.startedAt.Regular
  finished : ∀ t ∈ race.finishedAt, t.Regular

/-- Whether the aggregates of the race are finite numbers. -/
def hasFiniteAggregates (race : Race) : Bool :=
  race.bestLap.isFinite && race.raceTime.isFinite && race.distanceTraveled.isFinite

/-- An update of a dated race is dated. -/
theorem Dated.mergeMutable {race other : Race} (hdated : race.Dated) (hupdate : other.Dated) :
    (race.mergeMutable other).Dated :=
  ⟨hdated.started, hupdate.finished⟩

/-- The members of the document of a race. -/
def members (r : Race) : List (String × Json) := [
  ("id", .uuid r.id),
  ("sessionId", .uuid r.sessionId),
  ("paused", .bool r.paused),
  ("inProgress", .bool r.inProgress),
  ("startedAt", .timestamp r.startedAt),
  ("finishedAt", .ofOption (r.finishedAt.map .timestamp)),
  ("car", .int r.car.toInt),
  ("carClass", .int r.carClass.toInt),
  ("carPerformanceIndex", .int r.carPerformanceIndex.toInt),
  ("track", .int r.track.toInt),
  ("bestLap", .single r.bestLap),
  ("raceTime", .single r.raceTime),
  ("position", .nat r.position.toNat),
  ("distanceTraveled", .single r.distanceTraveled)]

theorem toJson_eq (r : Race) : r.toJson = .ofMembers r.members := rfl

theorem names_members (r : Race) : r.members.map Prod.fst = fieldNames := rfl

theorem nodup_fieldNames : fieldNames.Nodup := by decide

/-- The document of a race is legible. -/
theorem legible_toJson (r : Race) : r.toJson.Legible := by
  have hfinish : (Json.ofOption (r.finishedAt.map .timestamp)).Legible := by
    cases r.finishedAt with
    | none => trivial
    | some t => exact legible_text _
  have hflag (b : Bool) : (Json.bool b).Legible := trivial
  rw [toJson, legible_ofMembers]
  simp [hfinish, hflag, Json.uuid, Json.timestamp]

/-- **What is read from the document of a race**: the race, if its aggregates are finite. -/
theorem ofJson?_toJson {r : Race} (hdated : r.Dated) :
    ofJson? r.toJson = if r.hasFiniteAggregates then some r else none := by
  have hdistinct : (r.members.map Prod.fst).Nodup := by
    rw [names_members]
    exact nodup_fieldNames
  have hgiven (name : String) {value : Json} (hmem : (name, value) ∈ r.members) :
      r.members.lookup name = some value := lookup_of_mem hdistinct hmem
  have hflag (b : Bool) : (Json.bool b).toBool? = some b := rfl
  rw [toJson_eq, ofJson?, fields?_ofMembers hdistinct, Option.bind_eq_bind, Option.bind_some]
  rw [required_bind (hgiven "id" (by simp [members])) (toUuid?_uuid r.id)]
  rw [required_bind (hgiven "sessionId" (by simp [members])) (toUuid?_uuid r.sessionId)]
  rw [required_bind (hgiven "paused" (by simp [members])) (hflag r.paused)]
  rw [required_bind (hgiven "inProgress" (by simp [members])) (hflag r.inProgress)]
  rw [required_bind (hgiven "startedAt" (by simp [members]))
    (toTimestamp?_timestamp hdated.started)]
  rw [optional_timestamp (hgiven "finishedAt" (by simp [members])) hdated.finished,
    Option.bind_eq_bind, Option.bind_some]
  rw [required_bind (hgiven "car" (by simp [members])) (toInt32?_int r.car)]
  rw [required_bind (hgiven "carClass" (by simp [members])) (toInt32?_int r.carClass)]
  rw [required_bind (hgiven "carPerformanceIndex" (by simp [members]))
    (toInt32?_int r.carPerformanceIndex)]
  rw [required_bind (hgiven "track" (by simp [members])) (toInt32?_int r.track)]
  rw [required_single r.bestLap (hgiven "bestLap" (by simp [members]))]
  rw [required_single r.raceTime (hgiven "raceTime" (by simp [members]))]
  rw [required_bind (hgiven "position" (by simp [members])) (toUInt8?_nat r.position)]
  rw [required_single r.distanceTraveled (hgiven "distanceTraveled" (by simp [members]))]
  unfold hasFiniteAggregates
  cases r.bestLap.isFinite <;> cases r.raceTime.isFinite <;> cases r.distanceTraveled.isFinite <;> rfl

/-- **The timestamps of a race that was read are regular.** -/
theorem dated_of_ofJson? {j : Json} {r : Race} (hread : ofJson? j = some r) : r.Dated := by
  -- Every field is taken off before the fields after it are looked at.
  have hfield {α : Type} {x : Option α} {next : α → Option Race} :
      (x >>= next) = some r ↔ ∃ a, x = some a ∧ next a = some r := Option.bind_eq_some_iff
  unfold ofJson? at hread
  simp only [↓hfield] at hread
  obtain ⟨fields, -, id, -, sessionId, -, paused, -, inProgress, -, startedAt, hstarted, finishedAt,
    hfinished, _, -, _, -, _, -, _, -, _, -, _, -, _, -, _, -, hsame⟩ := hread
  cases hsame
  refine ⟨?_, ?_⟩
  · obtain ⟨value, -, hread⟩ := Option.bind_eq_some_iff.mp hstarted
    exact regular_of_toTimestamp? hread
  · intro t hshown
    have hgiven : finishedAt = some t := hshown
    rw [hgiven] at hfinished
    obtain ⟨value, hread⟩ := exists_of_optional hfinished
    exact regular_of_toTimestamp? hread

end RaceIngest.Race
