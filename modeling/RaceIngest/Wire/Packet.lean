import RaceIngest.Wire.Cursor

/-!
# Packets

A packet is one telemetry sample on the wire: 331 bytes, the fields of the sample one after the
other. A datagram may be longer, and what follows the packet is ignored; a shorter datagram holds
no packet and is refused before anything is read.

## Main definitions

* `packetSize`, `maxDatagramSize`,
* `Packet.encode`, `Packet.decode`,
* `Packet.fields`, the sequence of reads behind `decode`.
-/

namespace RaceIngest.Wire

/-- The number of bytes of a packet. -/
def packetSize : Nat := 331

/-- The number of bytes of a datagram that are looked at. -/
def maxDatagramSize : Nat := 1024

namespace Packet

/-- Why bytes hold no packet. -/
inductive DecodeError where
  | tooShort (expected actual : Nat)
  | outOfBounds (offset : Nat)
  deriving DecidableEq, Repr

open Scalar in
/-- Reads the fields of a sample in wire order. -/
def fields : Read Sample := do
  let isRaceOn ← i32.read
  let timestampMs ← u32.read
  let engineMaxRpm ← f32.read
  let engineIdleRpm ← f32.read
  let engineCurrentRpm ← f32.read
  let acceleration ← readVec3
  let velocity ← readVec3
  let angularVelocity ← readVec3
  let yaw ← f32.read
  let pitch ← f32.read
  let roll ← f32.read
  let normalizedSuspensionTravel ← readCorners f32
  let tireSlipRatio ← readCorners f32
  let wheelRotationSpeed ← readCorners f32
  let wheelOnRumbleStrip ← readCorners i32
  let wheelInPuddleDepth ← readCorners f32
  let surfaceRumble ← readCorners f32
  let tireSlipAngle ← readCorners f32
  let tireCombinedSlip ← readCorners f32
  let suspensionTravelMeters ← readCorners f32
  let carOrdinal ← i32.read
  let carClass ← i32.read
  let carPerformanceIndex ← i32.read
  let drivetrainType ← i32.read
  let numCylinders ← i32.read
  let position ← readVec3
  let speed ← f32.read
  let power ← f32.read
  let torque ← f32.read
  let tireTemp ← readCorners f32
  let boost ← f32.read
  let fuel ← f32.read
  let distanceTraveled ← f32.read
  let bestLap ← f32.read
  let lastLap ← f32.read
  let currentLap ← f32.read
  let currentRaceTime ← f32.read
  let lapNumber ← u16.read
  let racePosition ← u8.read
  let accel ← u8.read
  let brake ← u8.read
  let clutch ← u8.read
  let handBrake ← u8.read
  let gear ← u8.read
  let steer ← i8.read
  let normalizedDrivingLine ← i8.read
  let normalizedAiBrakeDifference ← i8.read
  let tireWear ← readCorners f32
  let trackOrdinal ← i32.read
  return {
    isRaceOn, timestampMs, engineMaxRpm, engineIdleRpm, engineCurrentRpm,
    acceleration, velocity, angularVelocity, yaw, pitch, roll,
    normalizedSuspensionTravel, tireSlipRatio, wheelRotationSpeed, wheelOnRumbleStrip,
    wheelInPuddleDepth, surfaceRumble, tireSlipAngle, tireCombinedSlip, suspensionTravelMeters,
    carOrdinal, carClass, carPerformanceIndex, drivetrainType, numCylinders,
    position, speed, power, torque, tireTemp, boost, fuel, distanceTraveled,
    bestLap, lastLap, currentLap, currentRaceTime, lapNumber, racePosition,
    accel, brake, clutch, handBrake, gear, steer, normalizedDrivingLine,
    normalizedAiBrakeDifference, tireWear, trackOrdinal }

/-- The sample at the start of a row of bytes. -/
def decode (bytes : List UInt8) : Except DecodeError Sample :=
  if bytes.length < packetSize then .error (.tooShort packetSize bytes.length)
  else
    match (fields.run (.start (bytes.take packetSize))).1 with
    | .ok sample => .ok sample
    | .error failure => .error (.outOfBounds failure.offset)

open Scalar in
/-- The bytes of a sample. -/
def encode (s : Sample) : List UInt8 :=
  List.flatten [
    i32.encode s.isRaceOn, u32.encode s.timestampMs, f32.encode s.engineMaxRpm,
    f32.encode s.engineIdleRpm, f32.encode s.engineCurrentRpm, writeVec3 s.acceleration,
    writeVec3 s.velocity, writeVec3 s.angularVelocity, f32.encode s.yaw, f32.encode s.pitch,
    f32.encode s.roll, writeCorners f32 s.normalizedSuspensionTravel,
    writeCorners f32 s.tireSlipRatio, writeCorners f32 s.wheelRotationSpeed,
    writeCorners i32 s.wheelOnRumbleStrip, writeCorners f32 s.wheelInPuddleDepth,
    writeCorners f32 s.surfaceRumble, writeCorners f32 s.tireSlipAngle,
    writeCorners f32 s.tireCombinedSlip, writeCorners f32 s.suspensionTravelMeters,
    i32.encode s.carOrdinal, i32.encode s.carClass, i32.encode s.carPerformanceIndex,
    i32.encode s.drivetrainType, i32.encode s.numCylinders, writeVec3 s.position,
    f32.encode s.speed, f32.encode s.power, f32.encode s.torque, writeCorners f32 s.tireTemp,
    f32.encode s.boost, f32.encode s.fuel, f32.encode s.distanceTraveled, f32.encode s.bestLap,
    f32.encode s.lastLap, f32.encode s.currentLap, f32.encode s.currentRaceTime,
    u16.encode s.lapNumber, u8.encode s.racePosition, u8.encode s.accel, u8.encode s.brake,
    u8.encode s.clutch, u8.encode s.handBrake, u8.encode s.gear, i8.encode s.steer,
    i8.encode s.normalizedDrivingLine, i8.encode s.normalizedAiBrakeDifference,
    writeCorners f32 s.tireWear, i32.encode s.trackOrdinal]

end Packet

end RaceIngest.Wire
