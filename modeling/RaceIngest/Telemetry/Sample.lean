import RaceIngest.Binary.Single

/-!
# Telemetry samples

A `Sample` is one reading of a simulated car: everything the game reports about it at one moment.
Real quantities are 32-bit words (`Single`), so a sample is exactly what was on the wire and
equality of samples is decidable.

Readings with three axes are `Vec3`, readings per wheel are `Corners`, always in the order front
left, front right, rear left, rear right.
-/

namespace RaceIngest

/-- A reading along the three axes. -/
structure Vec3 where
  x : Single
  y : Single
  z : Single
  deriving DecidableEq, Repr, Inhabited

/-- A reading for each of the four wheels. -/
structure Corners (α : Type) where
  frontLeft : α
  frontRight : α
  rearLeft : α
  rearRight : α
  deriving DecidableEq, Repr, Inhabited

/-- The four readings in wheel order. -/
def Corners.toList {α : Type} (c : Corners α) : List α :=
  [c.frontLeft, c.frontRight, c.rearLeft, c.rearRight]

/-- The same reading for every wheel. -/
def Corners.all {α : Type} (a : α) : Corners α := ⟨a, a, a, a⟩

/-- One telemetry reading, in the order of the wire. -/
structure Sample where
  /-- Zero while the car is not on a track. -/
  isRaceOn : Int32
  /-- Zero in menus and on pause screens. -/
  timestampMs : UInt32
  engineMaxRpm : Single
  engineIdleRpm : Single
  engineCurrentRpm : Single
  acceleration : Vec3
  velocity : Vec3
  angularVelocity : Vec3
  yaw : Single
  pitch : Single
  roll : Single
  normalizedSuspensionTravel : Corners Single
  tireSlipRatio : Corners Single
  wheelRotationSpeed : Corners Single
  wheelOnRumbleStrip : Corners Int32
  wheelInPuddleDepth : Corners Single
  surfaceRumble : Corners Single
  tireSlipAngle : Corners Single
  tireCombinedSlip : Corners Single
  suspensionTravelMeters : Corners Single
  carOrdinal : Int32
  carClass : Int32
  carPerformanceIndex : Int32
  drivetrainType : Int32
  numCylinders : Int32
  position : Vec3
  speed : Single
  power : Single
  torque : Single
  tireTemp : Corners Single
  boost : Single
  fuel : Single
  distanceTraveled : Single
  bestLap : Single
  lastLap : Single
  /-- The clock of the lap being driven; zero on the grid and in formation. -/
  currentLap : Single
  /-- The clock of the race. -/
  currentRaceTime : Single
  lapNumber : UInt16
  racePosition : UInt8
  accel : UInt8
  brake : UInt8
  clutch : UInt8
  handBrake : UInt8
  gear : UInt8
  steer : Int8
  normalizedDrivingLine : Int8
  normalizedAiBrakeDifference : Int8
  tireWear : Corners Single
  trackOrdinal : Int32
  deriving DecidableEq, Repr, Inhabited

namespace Sample

/-- Whether the car is on a track. -/
def onTrack (s : Sample) : Bool := s.isRaceOn != 0

/-- Whether the reading is of a running simulation rather than of a menu. -/
def hasTimestamp (s : Sample) : Bool := s.timestampMs != 0

end Sample

end RaceIngest
