import RaceIngest.Calendar.Format
import RaceIngest.Json.Record
import RaceIngest.Race.Lap

/-!
# Documents of races and samples

Races, race events, laps, samples and recorded samples are exchanged and stored as JSON. Every
type has a function to its document and one from it. The names of the fields and their order are
part of the format: samples use the names of the wire documentation, races and laps words joined by
capitals.

Two documents have a shape of their own. A recorded sample is an object in which the fields of
the sample stand beside those of the record, so it has to be a plain object
(`Json.isPlain`). A race event is an object with the members `event` and `race`, in either order,
or an array of the two; when the race comes first it has to be plain, because it is held back until
the kind of the event is known.

A word that is no finite number is written as null, and null is not read as a number.
-/

namespace RaceIngest

open Calendar Json

namespace Json

/-- An identifier as a value. -/
def uuid (id : Uuid) : Json := .text id.text

/-- A timestamp as a value. -/
def timestamp (t : Timestamp) : Json := .text t.text

/-- Reads an identifier. -/
def toUuid? (j : Json) : Option Uuid := j.toText?.bind fun s => Uuid.parse? s.toList

/-- Reads a timestamp. -/
def toTimestamp? (j : Json) : Option Timestamp := j.toText?.bind fun s => Timestamp.parse? s.toList

/-- The document of a reading with three axes. -/
def vec3 (v : Vec3) : Json :=
  .ofMembers [("x", .single v.x), ("y", .single v.y), ("z", .single v.z)]

/-- Reads a reading with three axes. -/
def toVec3? (j : Json) : Option Vec3 := do
  let fields ← j.fields? ["x", "y", "z"]
  let x ← fields.required "x" toSingle?
  let y ← fields.required "y" toSingle?
  let z ← fields.required "z" toSingle?
  return { x, y, z }

/-- The names of the wheels. -/
def wheelNames : List String := ["front_left", "front_right", "rear_left", "rear_right"]

/-- The document of a reading per wheel. -/
def corners {α : Type} (item : α → Json) (c : Corners α) : Json :=
  .ofMembers [("front_left", item c.frontLeft), ("front_right", item c.frontRight),
    ("rear_left", item c.rearLeft), ("rear_right", item c.rearRight)]

/-- Reads a reading per wheel. -/
def toCorners? {α : Type} (read : Json → Option α) (j : Json) : Option (Corners α) := do
  let fields ← j.fields? wheelNames
  let frontLeft ← fields.required "front_left" read
  let frontRight ← fields.required "front_right" read
  let rearLeft ← fields.required "rear_left" read
  let rearRight ← fields.required "rear_right" read
  return { frontLeft, frontRight, rearLeft, rearRight }

end Json

/-! ## Samples -/

namespace Sample

/-- The names of the fields of a sample, in wire order. -/
def fieldNames : List String := [
  "is_race_on", "timestamp_ms", "engine_max_rpm", "engine_idle_rpm", "engine_current_rpm",
  "acceleration", "velocity", "angular_velocity", "yaw", "pitch", "roll",
  "normalized_suspension_travel", "tire_slip_ratio", "wheel_rotation_speed",
  "wheel_on_rumble_strip", "wheel_in_puddle_depth", "surface_rumble", "tire_slip_angle",
  "tire_combined_slip", "suspension_travel_meters", "car_ordinal", "car_class",
  "car_performance_index", "drivetrain_type", "num_cylinders", "position", "speed", "power",
  "torque", "tire_temp", "boost", "fuel", "distance_traveled", "best_lap", "last_lap",
  "current_lap", "current_race_time", "lap_number", "race_position", "accel", "brake", "clutch",
  "hand_brake", "gear", "steer", "normalized_driving_line", "normalized_ai_brake_difference",
  "tire_wear", "track_ordinal"]

/-- The members of the document of a sample. -/
def members (s : Sample) : List (String × Json) := [
  ("is_race_on", .int s.isRaceOn.toInt),
  ("timestamp_ms", .nat s.timestampMs.toNat),
  ("engine_max_rpm", .single s.engineMaxRpm),
  ("engine_idle_rpm", .single s.engineIdleRpm),
  ("engine_current_rpm", .single s.engineCurrentRpm),
  ("acceleration", vec3 s.acceleration),
  ("velocity", vec3 s.velocity),
  ("angular_velocity", vec3 s.angularVelocity),
  ("yaw", .single s.yaw),
  ("pitch", .single s.pitch),
  ("roll", .single s.roll),
  ("normalized_suspension_travel", corners .single s.normalizedSuspensionTravel),
  ("tire_slip_ratio", corners .single s.tireSlipRatio),
  ("wheel_rotation_speed", corners .single s.wheelRotationSpeed),
  ("wheel_on_rumble_strip", corners (fun i => .int i.toInt) s.wheelOnRumbleStrip),
  ("wheel_in_puddle_depth", corners .single s.wheelInPuddleDepth),
  ("surface_rumble", corners .single s.surfaceRumble),
  ("tire_slip_angle", corners .single s.tireSlipAngle),
  ("tire_combined_slip", corners .single s.tireCombinedSlip),
  ("suspension_travel_meters", corners .single s.suspensionTravelMeters),
  ("car_ordinal", .int s.carOrdinal.toInt),
  ("car_class", .int s.carClass.toInt),
  ("car_performance_index", .int s.carPerformanceIndex.toInt),
  ("drivetrain_type", .int s.drivetrainType.toInt),
  ("num_cylinders", .int s.numCylinders.toInt),
  ("position", vec3 s.position),
  ("speed", .single s.speed),
  ("power", .single s.power),
  ("torque", .single s.torque),
  ("tire_temp", corners .single s.tireTemp),
  ("boost", .single s.boost),
  ("fuel", .single s.fuel),
  ("distance_traveled", .single s.distanceTraveled),
  ("best_lap", .single s.bestLap),
  ("last_lap", .single s.lastLap),
  ("current_lap", .single s.currentLap),
  ("current_race_time", .single s.currentRaceTime),
  ("lap_number", .nat s.lapNumber.toNat),
  ("race_position", .nat s.racePosition.toNat),
  ("accel", .nat s.accel.toNat),
  ("brake", .nat s.brake.toNat),
  ("clutch", .nat s.clutch.toNat),
  ("hand_brake", .nat s.handBrake.toNat),
  ("gear", .nat s.gear.toNat),
  ("steer", .int s.steer.toInt),
  ("normalized_driving_line", .int s.normalizedDrivingLine.toInt),
  ("normalized_ai_brake_difference", .int s.normalizedAiBrakeDifference.toInt),
  ("tire_wear", corners .single s.tireWear),
  ("track_ordinal", .int s.trackOrdinal.toInt)]

/-- The document of a sample. -/
def toJson (s : Sample) : Json := .ofMembers s.members

/-- Reads a sample from its fields. -/
def ofFields? (fields : Json.Fields) : Option Sample := do
  let isRaceOn ← fields.required "is_race_on" toInt32?
  let timestampMs ← fields.required "timestamp_ms" toUInt32?
  let engineMaxRpm ← fields.required "engine_max_rpm" toSingle?
  let engineIdleRpm ← fields.required "engine_idle_rpm" toSingle?
  let engineCurrentRpm ← fields.required "engine_current_rpm" toSingle?
  let acceleration ← fields.required "acceleration" toVec3?
  let velocity ← fields.required "velocity" toVec3?
  let angularVelocity ← fields.required "angular_velocity" toVec3?
  let yaw ← fields.required "yaw" toSingle?
  let pitch ← fields.required "pitch" toSingle?
  let roll ← fields.required "roll" toSingle?
  let normalizedSuspensionTravel ← fields.required "normalized_suspension_travel" (toCorners? toSingle?)
  let tireSlipRatio ← fields.required "tire_slip_ratio" (toCorners? toSingle?)
  let wheelRotationSpeed ← fields.required "wheel_rotation_speed" (toCorners? toSingle?)
  let wheelOnRumbleStrip ← fields.required "wheel_on_rumble_strip" (toCorners? toInt32?)
  let wheelInPuddleDepth ← fields.required "wheel_in_puddle_depth" (toCorners? toSingle?)
  let surfaceRumble ← fields.required "surface_rumble" (toCorners? toSingle?)
  let tireSlipAngle ← fields.required "tire_slip_angle" (toCorners? toSingle?)
  let tireCombinedSlip ← fields.required "tire_combined_slip" (toCorners? toSingle?)
  let suspensionTravelMeters ← fields.required "suspension_travel_meters" (toCorners? toSingle?)
  let carOrdinal ← fields.required "car_ordinal" toInt32?
  let carClass ← fields.required "car_class" toInt32?
  let carPerformanceIndex ← fields.required "car_performance_index" toInt32?
  let drivetrainType ← fields.required "drivetrain_type" toInt32?
  let numCylinders ← fields.required "num_cylinders" toInt32?
  let position ← fields.required "position" toVec3?
  let speed ← fields.required "speed" toSingle?
  let power ← fields.required "power" toSingle?
  let torque ← fields.required "torque" toSingle?
  let tireTemp ← fields.required "tire_temp" (toCorners? toSingle?)
  let boost ← fields.required "boost" toSingle?
  let fuel ← fields.required "fuel" toSingle?
  let distanceTraveled ← fields.required "distance_traveled" toSingle?
  let bestLap ← fields.required "best_lap" toSingle?
  let lastLap ← fields.required "last_lap" toSingle?
  let currentLap ← fields.required "current_lap" toSingle?
  let currentRaceTime ← fields.required "current_race_time" toSingle?
  let lapNumber ← fields.required "lap_number" toUInt16?
  let racePosition ← fields.required "race_position" toUInt8?
  let accel ← fields.required "accel" toUInt8?
  let brake ← fields.required "brake" toUInt8?
  let clutch ← fields.required "clutch" toUInt8?
  let handBrake ← fields.required "hand_brake" toUInt8?
  let gear ← fields.required "gear" toUInt8?
  let steer ← fields.required "steer" toInt8?
  let normalizedDrivingLine ← fields.required "normalized_driving_line" toInt8?
  let normalizedAiBrakeDifference ← fields.required "normalized_ai_brake_difference" toInt8?
  let tireWear ← fields.required "tire_wear" (toCorners? toSingle?)
  let trackOrdinal ← fields.required "track_ordinal" toInt32?
  return {
    isRaceOn, timestampMs, engineMaxRpm, engineIdleRpm, engineCurrentRpm, acceleration, velocity,
    angularVelocity, yaw, pitch, roll, normalizedSuspensionTravel, tireSlipRatio,
    wheelRotationSpeed, wheelOnRumbleStrip, wheelInPuddleDepth, surfaceRumble, tireSlipAngle,
    tireCombinedSlip, suspensionTravelMeters, carOrdinal, carClass, carPerformanceIndex,
    drivetrainType, numCylinders, position, speed, power, torque, tireTemp, boost, fuel,
    distanceTraveled, bestLap, lastLap, currentLap, currentRaceTime, lapNumber, racePosition,
    accel, brake, clutch, handBrake, gear, steer, normalizedDrivingLine,
    normalizedAiBrakeDifference, tireWear, trackOrdinal }

/-- Reads a sample from its document. -/
def ofJson? (j : Json) : Option Sample := (j.fields? fieldNames).bind ofFields?

end Sample

namespace Recorded

/-- The document of a recorded sample: the fields of the sample, then those of the record. -/
def toJson (r : Recorded) : Json :=
  .ofMembers (r.sample.members ++ [("race", .uuid r.race), ("created_at", .timestamp r.createdAt)])

/-- Reads a recorded sample from its document. -/
def ofJson? (j : Json) : Option Recorded := do
  guard (j.isPlain plainDepth)
  match j with
  | .object members =>
    let fields ← objectFields? (Sample.fieldNames ++ ["race", "created_at"]) members
    let sample ← Sample.ofFields? fields
    let race ← fields.required "race" toUuid?
    let createdAt ← fields.required "created_at" toTimestamp?
    return { sample, race, createdAt }
  | _ => none

end Recorded

/-! ## Races -/

namespace Race

/-- The names of the fields of a race. -/
def fieldNames : List String := [
  "id", "sessionId", "paused", "inProgress", "startedAt", "finishedAt", "car", "carClass",
  "carPerformanceIndex", "track", "bestLap", "raceTime", "position", "distanceTraveled"]

/-- The document of a race. -/
def toJson (r : Race) : Json := .ofMembers [
  ("id", .uuid r.id),
  ("sessionId", .uuid r.sessionId),
  ("paused", .bool r.paused),
  ("inProgress", .bool r.inProgress),
  ("startedAt", .timestamp r.startedAt),
  ("finishedAt", .ofOption (r.finishedAt.map .timestamp)),
  ("car", .int r.car.toInt),
  ("carClass", .int r.carClass.toInt),
  ("carPerformanceIndex", .int r.carPerformanceIndex.toInt),
  ("track", .int r.track.toInt),
  ("bestLap", .single r.bestLap),
  ("raceTime", .single r.raceTime),
  ("position", .nat r.position.toNat),
  ("distanceTraveled", .single r.distanceTraveled)]

/-- Reads a race from its document. A missing finish means that the race has none. -/
def ofJson? (j : Json) : Option Race := do
  let fields ← j.fields? fieldNames
  let id ← fields.required "id" toUuid?
  let sessionId ← fields.required "sessionId" toUuid?
  let paused ← fields.required "paused" toBool?
  let inProgress ← fields.required "inProgress" toBool?
  let startedAt ← fields.required "startedAt" toTimestamp?
  let finishedAt ← fields.optional "finishedAt" toTimestamp?
  let car ← fields.required "car" toInt32?
  let carClass ← fields.required "carClass" toInt32?
  let carPerformanceIndex ← fields.required "carPerformanceIndex" toInt32?
  let track ← fields.required "track" toInt32?
  let bestLap ← fields.required "bestLap" toSingle?
  let raceTime ← fields.required "raceTime" toSingle?
  let position ← fields.required "position" toUInt8?
  let distanceTraveled ← fields.required "distanceTraveled" toSingle?
  return {
    id, sessionId, paused, inProgress, startedAt, finishedAt, car, carClass,
    carPerformanceIndex, track, bestLap, raceTime, position, distanceTraveled }

end Race

namespace Lap

/-- The names of the fields of a lap. -/
def fieldNames : List String := ["lapNumber", "lapTime", "finishedAt", "racePosition", "raceTime"]

/-- The document of a lap. -/
def toJson (l : Lap) : Json := .ofMembers [
  ("lapNumber", .nat l.lapNumber.toNat),
  ("lapTime", .single l.lapTime),
  ("finishedAt", .timestamp l.finishedAt),
  ("racePosition", .nat l.racePosition.toNat),
  ("raceTime", .single l.raceTime)]

/-- Reads a lap from its document. -/
def ofJson? (j : Json) : Option Lap := do
  let fields ← j.fields? fieldNames
  let lapNumber ← fields.required "lapNumber" toUInt16?
  let lapTime ← fields.required "lapTime" toSingle?
  let finishedAt ← fields.required "finishedAt" toTimestamp?
  let racePosition ← fields.required "racePosition" toUInt8?
  let raceTime ← fields.required "raceTime" toSingle?
  return { lapNumber, lapTime, finishedAt, racePosition, raceTime }

end Lap

namespace Event

/-- The document of a race event. -/
def toJson (e : Event) : Json :=
  .ofMembers [("event", .text e.kind.name), ("race", e.race.toJson)]

/-- Reads the name of a kind of event. -/
def kindOfName? : Json → Option EventKind
  | .string (some name) => EventKind.ofName? name
  | _ => none

/-- Reads the kind of an event from its field: its name, or an object with the name alone and no
content. -/
def kindOfField? : Json → Option EventKind
  | .object [(some name, .null)] => EventKind.ofName? name
  | kind => kindOfName? kind

/-- Whether the race stands before the kind of the event. -/
def raceComesFirst (members : List (Option String × Json)) : Bool :=
  match members.find? fun (key, _) => key == some "event" || key == some "race" with
  | some (key, _) => key == some "race"
  | none => false

/-- Reads a race event from its document. -/
def ofJson? (j : Json) : Option Event := do
  match j with
  | .object members =>
    let fields ← objectFields? ["event", "race"] members
    let kind ← fields.required "event" kindOfField?
    let held ← fields "race"
    guard (!raceComesFirst members || held.isPlain (plainDepth - 1))
    let race ← Race.ofJson? held
    return { kind, race }
  | .array [kind, race] =>
    let kind ← kindOfName? kind
    let race ← Race.ofJson? race
    return { kind, race }
  | _ => none

end Event

end RaceIngest
