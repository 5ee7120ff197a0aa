import RaceIngest.Proofs.Race.Document

/-!
# Written samples are read back

A sample has readings of three kinds: integers, which are always read back, words, which are read
back when they are finite numbers, and groups of these. So a sample is read from the fields it was
written to if and only if all its words are finite.

The fields may stand among others, as they do in a recorded sample; what matters is only that every
one of them is found under its name.

## Main definitions

* `Vec3.isFinite`, `Corners.isFinite`, `Sample.isFinite`.

## Main statements

* `Json.toVec3?_vec3`, `Json.toCorners?_corners`: what is read of a group,
* `Sample.ofFields?_eq`: what is read of the fields of a sample,
* `Sample.ofJson?_toJson`: what is read of its document.
-/

namespace RaceIngest

/-! ## Finite readings -/

/-- Whether a reading with three axes is finite. -/
def Vec3.isFinite (v : Vec3) : Bool := v.x.isFinite && v.y.isFinite && v.z.isFinite

/-- Whether a reading per wheel is finite. -/
def Corners.isFinite (c : Corners Single) : Bool := c.toList.all Single.isFinite

/-- Whether all words of a sample are finite. -/
def Sample.isFinite (s : Sample) : Bool :=
  s.engineMaxRpm.isFinite && s.engineIdleRpm.isFinite && s.engineCurrentRpm.isFinite &&
  s.acceleration.isFinite && s.velocity.isFinite && s.angularVelocity.isFinite &&
  s.yaw.isFinite && s.pitch.isFinite && s.roll.isFinite &&
  s.normalizedSuspensionTravel.isFinite && s.tireSlipRatio.isFinite &&
  s.wheelRotationSpeed.isFinite && s.wheelInPuddleDepth.isFinite && s.surfaceRumble.isFinite &&
  s.tireSlipAngle.isFinite && s.tireCombinedSlip.isFinite && s.suspensionTravelMeters.isFinite &&
  s.position.isFinite && s.speed.isFinite && s.power.isFinite && s.torque.isFinite &&
  s.tireTemp.isFinite && s.boost.isFinite && s.fuel.isFinite && s.distanceTraveled.isFinite &&
  s.bestLap.isFinite && s.lastLap.isFinite && s.currentLap.isFinite && s.currentRaceTime.isFinite &&
  s.tireWear.isFinite

namespace Json

open Decimal

/-! ## Single values -/

theorem toUInt16?_nat (n : UInt16) : (nat n.toNat).toUInt16? = some n := by
  have hread : (nat n.toNat).toNatBelow? (2 ^ 16) = some n.toNat :=
    Numeral.toNatBelow?_ofNat n.toNat_lt (by decide)
  rw [toUInt16?, hread, Option.map_some, UInt16.ofNat_toNat]

theorem toUInt32?_nat (n : UInt32) : (nat n.toNat).toUInt32? = some n := by
  have hread : (nat n.toNat).toNatBelow? (2 ^ 32) = some n.toNat :=
    Numeral.toNatBelow?_ofNat n.toNat_lt (by decide)
  rw [toUInt32?, hread, Option.map_some, UInt32.ofNat_toNat]

theorem toInt8?_int (i : Int8) : (int i.toInt).toInt8? = some i := by
  have hlow : -2 ^ (8 - 1) ≤ i.toInt := i.le_toInt
  have hhigh : i.toInt < 2 ^ (8 - 1) := i.toInt_lt
  have hread : (int i.toInt).toSigned? 8 = some i.toInt :=
    Numeral.toSigned?_ofInt hlow hhigh (by decide)
  rw [toInt8?, hread, Option.map_some, Int8.ofInt_toInt]

/-! ## Groups -/

/-- A field that was given, of a kind that is read back on some condition. -/
theorem required_ite {α β : Type} {members : List (String × Json)} {name : String} {value : Json}
    {read : Json → Option α} {holds : Bool} {a : α} (hrow : members.lookup name = some value)
    (hback : read value = if holds then some a else none) (next : α → Option β) :
    (Fields.required (fun name => members.lookup name) name read >>= next) =
      if holds then next a else none := by
  rw [Fields.required, hrow, Option.bind_some, hback]
  split <;> rfl

/-- A reading with three axes is read back when it is finite, and otherwise nothing is. -/
theorem toVec3?_vec3 (v : Vec3) : (vec3 v).toVec3? = if v.isFinite then some v else none := by
  let members := [("x", single v.x), ("y", single v.y), ("z", single v.z)]
  have hnames : members.map Prod.fst = ["x", "y", "z"] := rfl
  have hdistinct : (members.map Prod.fst).Nodup := by
    rw [hnames]
    decide
  rw [toVec3?, vec3, fields?_ofMembers hdistinct, Option.bind_eq_bind, Option.bind_some]
  rw [required_single v.x (by rfl), required_single v.y (by rfl), required_single v.z (by rfl)]
  simp only [Vec3.isFinite, Bool.and_eq_true, ite_and]
  rfl

/-- A reading per wheel is read back when the four readings are. -/
theorem toCorners?_corners {α : Type} {item : α → Json} {read : Json → Option α} {holds : α → Bool}
    (hback : ∀ a, read (item a) = if holds a then some a else none) (c : Corners α) :
    toCorners? read (corners item c) = if c.toList.all holds then some c else none := by
  let members := [("front_left", item c.frontLeft), ("front_right", item c.frontRight),
    ("rear_left", item c.rearLeft), ("rear_right", item c.rearRight)]
  have hnames : members.map Prod.fst = wheelNames := rfl
  have hdistinct : (members.map Prod.fst).Nodup := by
    rw [hnames]
    decide
  rw [toCorners?, corners, fields?_ofMembers hdistinct, Option.bind_eq_bind, Option.bind_some]
  rw [required_ite (by rfl) (hback c.frontLeft), required_ite (by rfl) (hback c.frontRight),
    required_ite (by rfl) (hback c.rearLeft), required_ite (by rfl) (hback c.rearRight)]
  simp only [Corners.toList, List.all_cons, List.all_nil, Bool.and_true, Bool.and_eq_true, ite_and]
  rfl

theorem toCorners?_single (c : Corners Single) :
    toCorners? toSingle? (corners single c) = if c.isFinite then some c else none :=
  toCorners?_corners toSingle?_single c

theorem toCorners?_int (c : Corners Int32) :
    toCorners? toInt32? (corners (fun i => int i.toInt) c) = some c := by
  have hback (i : Int32) : (int i.toInt).toInt32? = if true then some i else none := toInt32?_int i
  exact toCorners?_corners hback c

end Json

namespace Sample

open Json

/-- **What is read of the fields of a sample**, wherever they stand: the sample, if all its words are
finite. -/
theorem ofFields?_eq {all : List (String × Json)} {s : Sample}
    (hfound : ∀ member ∈ s.members, all.lookup member.1 = some member.2) :
    ofFields? (fun name => all.lookup name) = if s.isFinite then some s else none := by
  have hrow (name : String) {value : Json} (hmem : (name, value) ∈ s.members) :
      all.lookup name = some value := hfound (name, value) hmem
  rw [ofFields?]
  rw [required_bind (hrow "is_race_on" (by simp [members])) (toInt32?_int s.isRaceOn)]
  rw [required_bind (hrow "timestamp_ms" (by simp [members])) (toUInt32?_nat s.timestampMs)]
  rw [required_ite (hrow "engine_max_rpm" (by simp [members])) (toSingle?_single s.engineMaxRpm)]
  rw [required_ite (hrow "engine_idle_rpm" (by simp [members])) (toSingle?_single s.engineIdleRpm)]
  rw [required_ite (hrow "engine_current_rpm" (by simp [members]))
    (toSingle?_single s.engineCurrentRpm)]
  rw [required_ite (hrow "acceleration" (by simp [members])) (toVec3?_vec3 s.acceleration)]
  rw [required_ite (hrow "velocity" (by simp [members])) (toVec3?_vec3 s.velocity)]
  rw [required_ite (hrow "angular_velocity" (by simp [members])) (toVec3?_vec3 s.angularVelocity)]
  rw [required_ite (hrow "yaw" (by simp [members])) (toSingle?_single s.yaw)]
  rw [required_ite (hrow "pitch" (by simp [members])) (toSingle?_single s.pitch)]
  rw [required_ite (hrow "roll" (by simp [members])) (toSingle?_single s.roll)]
  rw [required_ite (hrow "normalized_suspension_travel" (by simp [members]))
    (toCorners?_single s.normalizedSuspensionTravel)]
  rw [required_ite (hrow "tire_slip_ratio" (by simp [members])) (toCorners?_single s.tireSlipRatio)]
  rw [required_ite (hrow "wheel_rotation_speed" (by simp [members]))
    (toCorners?_single s.wheelRotationSpeed)]
  rw [required_bind (hrow "wheel_on_rumble_strip" (by simp [members]))
    (toCorners?_int s.wheelOnRumbleStrip)]
  rw [required_ite (hrow "wheel_in_puddle_depth" (by simp [members]))
    (toCorners?_single s.wheelInPuddleDepth)]
  rw [required_ite (hrow "surface_rumble" (by simp [members])) (toCorners?_single s.surfaceRumble)]
  rw [required_ite (hrow "tire_slip_angle" (by simp [members])) (toCorners?_single s.tireSlipAngle)]
  rw [required_ite (hrow "tire_combined_slip" (by simp [members]))
    (toCorners?_single s.tireCombinedSlip)]
  rw [required_ite (hrow "suspension_travel_meters" (by simp [members]))
    (toCorners?_single s.suspensionTravelMeters)]
  rw [required_bind (hrow "car_ordinal" (by simp [members])) (toInt32?_int s.carOrdinal)]
  rw [required_bind (hrow "car_class" (by simp [members])) (toInt32?_int s.carClass)]
  rw [required_bind (hrow "car_performance_index" (by simp [members]))
    (toInt32?_int s.carPerformanceIndex)]
  rw [required_bind (hrow "drivetrain_type" (by simp [members])) (toInt32?_int s.drivetrainType)]
  rw [required_bind (hrow "num_cylinders" (by simp [members])) (toInt32?_int s.numCylinders)]
  rw [required_ite (hrow "position" (by simp [members])) (toVec3?_vec3 s.position)]
  rw [required_ite (hrow "speed" (by simp [members])) (toSingle?_single s.speed)]
  rw [required_ite (hrow "power" (by simp [members])) (toSingle?_single s.power)]
  rw [required_ite (hrow "torque" (by simp [members])) (toSingle?_single s.torque)]
  rw [required_ite (hrow "tire_temp" (by simp [members])) (toCorners?_single s.tireTemp)]
  rw [required_ite (hrow "boost" (by simp [members])) (toSingle?_single s.boost)]
  rw [required_ite (hrow "fuel" (by simp [members])) (toSingle?_single s.fuel)]
  rw [required_ite (hrow "distance_traveled" (by simp [members]))
    (toSingle?_single s.distanceTraveled)]
  rw [required_ite (hrow "best_lap" (by simp [members])) (toSingle?_single s.bestLap)]
  rw [required_ite (hrow "last_lap" (by simp [members])) (toSingle?_single s.lastLap)]
  rw [required_ite (hrow "current_lap" (by simp [members])) (toSingle?_single s.currentLap)]
  rw [required_ite (hrow "current_race_time" (by simp [members]))
    (toSingle?_single s.currentRaceTime)]
  rw [required_bind (hrow "lap_number" (by simp [members])) (toUInt16?_nat s.lapNumber)]
  rw [required_bind (hrow "race_position" (by simp [members])) (toUInt8?_nat s.racePosition)]
  rw [required_bind (hrow "accel" (by simp [members])) (toUInt8?_nat s.accel)]
  rw [required_bind (hrow "brake" (by simp [members])) (toUInt8?_nat s.brake)]
  rw [required_bind (hrow "clutch" (by simp [members])) (toUInt8?_nat s.clutch)]
  rw [required_bind (hrow "hand_brake" (by simp [members])) (toUInt8?_nat s.handBrake)]
  rw [required_bind (hrow "gear" (by simp [members])) (toUInt8?_nat s.gear)]
  rw [required_bind (hrow "steer" (by simp [members])) (toInt8?_int s.steer)]
  rw [required_bind (hrow "normalized_driving_line" (by simp [members]))
    (toInt8?_int s.normalizedDrivingLine)]
  rw [required_bind (hrow "normalized_ai_brake_difference" (by simp [members]))
    (toInt8?_int s.normalizedAiBrakeDifference)]
  rw [required_ite (hrow "tire_wear" (by simp [members])) (toCorners?_single s.tireWear)]
  rw [required_bind (hrow "track_ordinal" (by simp [members])) (toInt32?_int s.trackOrdinal)]
  simp only [Sample.isFinite, Bool.and_eq_true, ite_and]
  rfl

theorem names_members (s : Sample) : s.members.map Prod.fst = fieldNames := rfl

theorem nodup_fieldNames : fieldNames.Nodup := by decide

/-- What is read of the document of a sample: the sample, if all its words are finite. -/
theorem ofJson?_toJson (s : Sample) : ofJson? s.toJson = if s.isFinite then some s else none := by
  have hdistinct : (s.members.map Prod.fst).Nodup := by
    rw [names_members]
    exact nodup_fieldNames
  rw [ofJson?, toJson, fields?_ofMembers hdistinct, Option.bind_some]
  exact ofFields?_eq fun member hmem => lookup_of_mem hdistinct hmem

/-- The values of a sample are legible. -/
theorem legible_of_mem_members {s : Sample} : ∀ member ∈ s.members, member.2.Legible := by
  simp [members, vec3, corners, legible_ofMembers]

theorem legible_toJson (s : Sample) : s.toJson.Legible := legible_ofMembers.mpr legible_of_mem_members

end Sample

end RaceIngest
