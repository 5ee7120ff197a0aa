import RaceIngest.Proofs.Wire.Packet

/-!
# The places of the fields in a packet

A packet is read from front to back, and nothing in the reading names a place: a field stands where
the widths of all fields before it put it. This module has the places as a table, one entry for
every scalar of a sample, and proves that reading and table agree.

The link is the writing of a packet, which is the writing of the entries of the table one after the
other (`Packet.encode_eq_flatMap`). That the entries leave no gap is a check of the numbers in the
table (`Packet.spans_table`); everything about places follows from it by induction on the entries
(`Spans.slice_flatMap`). What a scalar is worth is stated in numbers, so that no part of the reader
is needed to say it.

## Main definitions

* `Kind`, the kinds of scalar, with `Kind.toInt` and `Kind.number`: the number that a value stands
  for, and the number that bytes write.
* `Field`, a scalar of a sample and its place; `Spans`, fields without gaps.
* `Packet.table`, the places of all fields.

## Main results

* `Packet.encode_eq_flatMap`: a packet is written along the table.
* `Packet.decoded_at_offsets`: every scalar of a sample is the number at its place.
-/

namespace RaceIngest.Wire

-- Powers are those of the core library, also where algebra is imported.
attribute [local instance (high)] instPowNat

/-! ## Kinds of scalars -/

/-- The kinds of scalar on the wire. -/
inductive Kind where
  | u8
  | i8
  | u16
  | u32
  | i32
  | f32
  deriving DecidableEq, Repr

namespace Kind

/-- The values of a kind. -/
def Value : Kind → Type
  | .u8 => UInt8
  | .i8 => Int8
  | .u16 => UInt16
  | .u32 => UInt32
  | .i32 => Int32
  | .f32 => Single

/-- The encoding of a kind. -/
def scalar : (kind : Kind) → Scalar kind.Value
  | .u8 => Scalar.u8
  | .i8 => Scalar.i8
  | .u16 => Scalar.u16
  | .u32 => Scalar.u32
  | .i32 => Scalar.i32
  | .f32 => Scalar.f32

/-- The number of bytes of a kind. -/
def width : Kind → Nat
  | .u8 | .i8 => 1
  | .u16 => 2
  | .u32 | .i32 | .f32 => 4

/-- Whether the numbers of a kind are in two's complement. -/
def isSigned : Kind → Bool
  | .i8 | .i32 => true
  | .u8 | .u16 | .u32 | .f32 => false

/-- The bits of a value, as a number without a sign. -/
def word : (kind : Kind) → kind.Value → Nat
  | .u8, (a : UInt8) => a.toNat
  | .i8, (a : Int8) => a.toUInt8.toNat
  | .u16, (a : UInt16) => a.toNat
  | .u32, (a : UInt32) => a.toNat
  | .i32, (a : Int32) => a.toUInt32.toNat
  | .f32, (a : Single) => a.bits.toNat

/-- The number that a value stands for. A floating-point word stands for its bits. -/
def toInt : (kind : Kind) → kind.Value → Int
  | .i8, (a : Int8) => a.toInt
  | .i32, (a : Int32) => a.toInt
  | kind, a => kind.word a

/-- The number that bytes write, the least significant first. -/
def number (kind : Kind) (bytes : List UInt8) : Int :=
  if kind.isSigned then (ofLittleEndian bytes : Int).bmod (256 ^ kind.width)
  else ofLittleEndian bytes

theorem width_scalar (kind : Kind) : kind.scalar.width = kind.width := by
  cases kind <;> rfl

theorem word_lt (kind : Kind) (a : kind.Value) : kind.word a < 256 ^ kind.width := by
  cases kind with
  | u8 => exact UInt8.toNat_lt a
  | i8 => exact (Int8.toUInt8 a).toNat_lt
  | u16 => exact UInt16.toNat_lt a
  | u32 => exact UInt32.toNat_lt a
  | i32 => exact (Int32.toUInt32 a).toNat_lt
  | f32 => exact (Single.bits a).toNat_lt

theorem encode_eq (kind : Kind) (a : kind.Value) :
    kind.scalar.encode a = toLittleEndian kind.width (kind.word a) := by
  cases kind <;> rfl

/-- A signed value is its word in two's complement. -/
theorem toInt_eq (kind : Kind) (a : kind.Value) :
    kind.toInt a =
      if kind.isSigned then (kind.word a : Int).bmod (256 ^ kind.width) else kind.word a := by
  cases kind with
  | i8 =>
      have hbits := BitVec.toInt_eq_toNat_bmod (Int8.toBitVec a)
      simp only [isSigned, if_true]
      exact hbits
  | i32 =>
      have hbits := BitVec.toInt_eq_toNat_bmod (Int32.toBitVec a)
      simp only [isSigned, if_true]
      exact hbits
  | u8 | u16 | u32 | f32 => rfl

/-- The bytes of a value write its number. -/
theorem number_encode (kind : Kind) (a : kind.Value) :
    kind.number (kind.scalar.encode a) = kind.toInt a := by
  have hword : ofLittleEndian (kind.scalar.encode a) = kind.word a := by
    rw [kind.encode_eq, ofLittleEndian_toLittleEndian, Nat.mod_eq_of_lt (kind.word_lt a)]
  rw [number, hword, kind.toInt_eq]

/-- Values are told apart by their numbers. -/
theorem toInt_inj {kind : Kind} {a b : kind.Value} (h : kind.toInt a = kind.toInt b) : a = b := by
  cases kind with
  | u8 => exact UInt8.toNat_inj.mp (Int.ofNat_inj.mp h)
  | i8 => exact Int8.toInt_inj.mp h
  | u16 => exact UInt16.toNat_inj.mp (Int.ofNat_inj.mp h)
  | u32 => exact UInt32.toNat_inj.mp (Int.ofNat_inj.mp h)
  | i32 => exact Int32.toInt_inj.mp h
  | f32 =>
      have hbits : Single.bits a = Single.bits b := UInt32.toNat_inj.mp (Int.ofNat_inj.mp h)
      exact congrArg Single.mk hbits

end Kind

/-! ## Fields and their places -/

/-- A scalar of a sample, with the offset of its first byte in a packet. -/
structure Field where
  offset : Nat
  kind : Kind
  get : Sample → kind.Value

namespace Field

/-- The offset behind the last byte. -/
def stop (field : Field) : Nat := field.offset + field.kind.width

/-- The bytes of the field of a sample. -/
def encode (field : Field) (s : Sample) : List UInt8 := field.kind.scalar.encode (field.get s)

/-- The bytes where the field is. -/
def slice (field : Field) (bytes : List UInt8) : List UInt8 :=
  (bytes.drop field.offset).take field.kind.width

@[simp] theorem length_encode (field : Field) (s : Sample) :
    (field.encode s).length = field.kind.width :=
  (field.kind.scalar.length_encode _).trans field.kind.width_scalar

end Field

/-- The fields fill the bytes from one offset up to another, in their order and without gaps. -/
def Spans (start stop : Nat) : List Field → Prop
  | [] => start = stop
  | field :: fields => field.offset = start ∧ Spans field.stop stop fields

instance Spans.instDecidable (start stop : Nat) : (fields : List Field) →
    Decidable (Spans start stop fields)
  | [] => inferInstanceAs (Decidable (start = stop))
  | field :: fields =>
    have := Spans.instDecidable field.stop stop fields
    inferInstanceAs (Decidable (field.offset = start ∧ Spans field.stop stop fields))

namespace Spans

variable {start stop : Nat} {fields : List Field}

theorem start_le_offset (h : Spans start stop fields) :
    ∀ field ∈ fields, start ≤ field.offset := by
  induction fields generalizing start with
  | nil => simp
  | cons first rest ih =>
      obtain ⟨hfirst, hrest⟩ := h
      intro field hfield
      rcases List.mem_cons.mp hfield with rfl | hlater
      · omega
      · have hle := ih hrest field hlater
        unfold Field.stop at hle
        omega

/-- A field ends before the next one begins. -/
theorem pairwise (h : Spans start stop fields) :
    fields.Pairwise fun first second => first.stop ≤ second.offset := by
  induction fields generalizing start with
  | nil => exact List.Pairwise.nil
  | cons first rest ih => exact List.pairwise_cons.mpr ⟨h.2.start_le_offset, ih h.2⟩

theorem start_le_stop (h : Spans start stop fields) : start ≤ stop := by
  induction fields generalizing start with
  | nil => exact Nat.le_of_eq h
  | cons first rest ih =>
      obtain ⟨hfirst, hrest⟩ := h
      have hle := ih hrest
      unfold Field.stop at hle
      omega

theorem stop_le (h : Spans start stop fields) : ∀ field ∈ fields, field.stop ≤ stop := by
  induction fields generalizing start with
  | nil => simp
  | cons first rest ih =>
      intro field hfield
      rcases List.mem_cons.mp hfield with rfl | hlater
      · exact h.2.start_le_stop
      · exact ih h.2 field hlater

/-- Every byte from the one offset up to the other is in a field, and no other byte is. -/
theorem covers_iff (h : Spans start stop fields) (i : Nat) :
    (∃ field ∈ fields, field.offset ≤ i ∧ i < field.stop) ↔ start ≤ i ∧ i < stop := by
  induction fields generalizing start with
  | nil =>
      have hnone : start = stop := h
      simp only [List.not_mem_nil, false_and, exists_false, false_iff]
      omega
  | cons first rest ih =>
      obtain ⟨hfirst, hrest⟩ := h
      have hle := hrest.start_le_stop
      have hbegin : first.offset ≤ first.stop := Nat.le_add_right _ _
      simp only [List.mem_cons, exists_eq_or_imp, ih hrest]
      omega

/-- Where the fields are written one after the other, every one of them is at its place. -/
theorem slice_flatMap (h : Spans start stop fields) (before : List UInt8)
    (hbefore : before.length = start) (s : Sample) :
    ∀ field ∈ fields, field.slice (before ++ fields.flatMap (·.encode s)) = field.encode s := by
  induction fields generalizing start before with
  | nil => simp
  | cons first rest ih =>
      obtain ⟨hfirst, hrest⟩ := h
      intro field hfield
      rw [List.flatMap_cons]
      rcases List.mem_cons.mp hfield with rfl | hlater
      · rw [Field.slice, List.drop_left' (by omega), List.take_left' (field.length_encode s)]
      · have hlength : (before ++ first.encode s).length = first.stop := by
          rw [List.length_append, first.length_encode, Field.stop]
          omega
        rw [← List.append_assoc]
        exact ih hrest _ hlength field hlater

end Spans

/-! ## The table -/

/-- A row of the table: where a part of a sample begins, and of which kind its scalars are. -/
inductive Row where
  | one (offset : Nat) (kind : Kind) (get : Sample → kind.Value)
  /-- A reading along the three axes. -/
  | axes (offset : Nat) (get : Sample → Vec3)
  /-- A reading per wheel, in the order front left, front right, rear left, rear right. -/
  | wheels (offset : Nat) (kind : Kind) (get : Sample → Corners kind.Value)

namespace Row

/-- The fields of a row. -/
def fields : Row → List Field
  | one offset kind get => [⟨offset, kind, get⟩]
  | axes offset get =>
    [⟨offset, .f32, fun s => (get s).x⟩, ⟨offset + 4, .f32, fun s => (get s).y⟩,
      ⟨offset + 8, .f32, fun s => (get s).z⟩]
  | wheels offset kind get =>
    [⟨offset, kind, fun s => (get s).frontLeft⟩,
      ⟨offset + kind.width, kind, fun s => (get s).frontRight⟩,
      ⟨offset + 2 * kind.width, kind, fun s => (get s).rearLeft⟩,
      ⟨offset + 3 * kind.width, kind, fun s => (get s).rearRight⟩]

/-- The bytes of a row of a sample. -/
def encode (row : Row) (s : Sample) : List UInt8 :=
  match row with
  | one _ kind get => kind.scalar.encode (get s)
  | axes _ get => writeVec3 (get s)
  | wheels _ kind get => writeCorners kind.scalar (get s)

theorem flatMap_fields (row : Row) (s : Sample) :
    row.fields.flatMap (·.encode s) = row.encode s := by
  cases row with
  | one offset kind get => simp [fields, encode, Field.encode]
  | axes offset get => simp [fields, encode, Field.encode, writeVec3, Kind.scalar]
  | wheels offset kind get => simp [fields, encode, Field.encode, writeCorners]

end Row

namespace Packet

/-- The rows of the table. -/
def rows : List Row := [
  .one 0 .i32 (·.isRaceOn),
  .one 4 .u32 (·.timestampMs),
  .one 8 .f32 (·.engineMaxRpm),
  .one 12 .f32 (·.engineIdleRpm),
  .one 16 .f32 (·.engineCurrentRpm),
  .axes 20 (·.acceleration),
  .axes 32 (·.velocity),
  .axes 44 (·.angularVelocity),
  .one 56 .f32 (·.yaw),
  .one 60 .f32 (·.pitch),
  .one 64 .f32 (·.roll),
  .wheels 68 .f32 (·.normalizedSuspensionTravel),
  .wheels 84 .f32 (·.tireSlipRatio),
  .wheels 100 .f32 (·.wheelRotationSpeed),
  .wheels 116 .i32 (·.wheelOnRumbleStrip),
  .wheels 132 .f32 (·.wheelInPuddleDepth),
  .wheels 148 .f32 (·.surfaceRumble),
  .wheels 164 .f32 (·.tireSlipAngle),
  .wheels 180 .f32 (·.tireCombinedSlip),
  .wheels 196 .f32 (·.suspensionTravelMeters),
  .one 212 .i32 (·.carOrdinal),
  .one 216 .i32 (·.carClass),
  .one 220 .i32 (·.carPerformanceIndex),
  .one 224 .i32 (·.drivetrainType),
  .one 228 .i32 (·.numCylinders),
  .axes 232 (·.position),
  .one 244 .f32 (·.speed),
  .one 248 .f32 (·.power),
  .one 252 .f32 (·.torque),
  .wheels 256 .f32 (·.tireTemp),
  .one 272 .f32 (·.boost),
  .one 276 .f32 (·.fuel),
  .one 280 .f32 (·.distanceTraveled),
  .one 284 .f32 (·.bestLap),
  .one 288 .f32 (·.lastLap),
  .one 292 .f32 (·.currentLap),
  .one 296 .f32 (·.currentRaceTime),
  .one 300 .u16 (·.lapNumber),
  .one 302 .u8 (·.racePosition),
  .one 303 .u8 (·.accel),
  .one 304 .u8 (·.brake),
  .one 305 .u8 (·.clutch),
  .one 306 .u8 (·.handBrake),
  .one 307 .u8 (·.gear),
  .one 308 .i8 (·.steer),
  .one 309 .i8 (·.normalizedDrivingLine),
  .one 310 .i8 (·.normalizedAiBrakeDifference),
  .wheels 311 .f32 (·.tireWear),
  .one 327 .i32 (·.trackOrdinal)]

/-- The scalars of a sample and their places. -/
def table : List Field := rows.flatMap Row.fields

theorem spans_table : Spans 0 packetSize table := by
  decide

/-- A packet is written along the table. -/
theorem encode_eq_flatMap (s : Sample) : encode s = table.flatMap (·.encode s) :=
  calc encode s = rows.flatMap (·.encode s) := rfl
    _ = rows.flatMap fun row => row.fields.flatMap (·.encode s) := by
        simp only [Row.flatMap_fields]
    _ = table.flatMap (·.encode s) := List.flatMap_assoc.symm

/-- Two samples with the same numbers in all fields are the same: no scalar is missing in the
table. -/
theorem eq_of_table {s t : Sample}
    (h : ∀ field ∈ table, field.kind.toInt (field.get s) = field.kind.toInt (field.get t)) :
    s = t := by
  have hbytes : encode s = encode t := by
    have hfields : ∀ field ∈ table, field.encode s = field.encode t := by
      intro field hfield
      rw [Field.encode, Kind.toInt_inj (h field hfield), Field.encode]
    rw [encode_eq_flatMap, encode_eq_flatMap, List.flatMap_def, List.flatMap_def,
      List.map_congr_left hfields]
  have hs := decode_encode_append s []
  rw [hbytes, decode_encode_append t []] at hs
  exact (Except.ok.inj hs).symm

/-- In the bytes of a packet every field is at its place, whatever follows the packet. -/
theorem slice_eq_encode {s : Sample} {bytes : List UInt8} (h : encode s = bytes.take packetSize) :
    ∀ field ∈ table, field.slice bytes = field.encode s := by
  intro field hfield
  have hstop : field.offset + field.kind.width ≤ packetSize := spans_table.stop_le field hfield
  have hslice := spans_table.slice_flatMap [] rfl s field hfield
  rw [List.nil_append, ← encode_eq_flatMap, h, Field.slice, List.drop_take, List.take_take,
    Nat.min_eq_left (by omega)] at hslice
  exact hslice

/-- Every scalar of a sample is the number that the bytes at its place write, in the order of the
bytes and with the sign of its kind. The places are apart from each other and fill the packet, no
scalar is without one, and what is behind the packet does not matter. -/
theorem decoded_at_offsets :
    (∀ bytes : List UInt8, 331 ≤ bytes.length →
        ∃ s, decode bytes = .ok s ∧ ∀ field ∈ table,
          field.kind.toInt (field.get s) = field.kind.number (field.slice bytes)) ∧
      (∀ s t : Sample,
        (∀ field ∈ table, field.kind.toInt (field.get s) = field.kind.toInt (field.get t)) →
          s = t) ∧
      (table.Pairwise fun first second => first.stop ≤ second.offset) ∧
      (∀ i : Nat, (∃ field ∈ table, field.offset ≤ i ∧ i < field.stop) ↔ i < 331) ∧
      ∀ bytes others : List UInt8, 331 ≤ bytes.length →
        others.take 331 = bytes.take 331 → decode others = decode bytes := by
  refine ⟨?_, fun s t => eq_of_table, spans_table.pairwise, ?_, ?_⟩
  · intro bytes henough
    obtain ⟨s, hdecode, hencode⟩ := exists_decode henough
    refine ⟨s, hdecode, ?_⟩
    intro field hfield
    rw [slice_eq_encode hencode field hfield, Field.encode, Kind.number_encode]
  · intro i
    rw [spans_table.covers_iff]
    unfold packetSize
    omega
  · intro bytes others henough hsame
    have hlength := congrArg List.length hsame
    rw [List.length_take, List.length_take] at hlength
    have hothers : ¬others.length < packetSize := by
      unfold packetSize
      omega
    have hbytes : ¬bytes.length < packetSize := Nat.not_lt.mpr henough
    unfold decode
    rw [if_neg hothers, if_neg hbytes]
    unfold packetSize
    rw [hsame]

/-- In a row of bytes that count up, and over again after 255, the lap has the number 44 + 256 * 45,
the steering is at 52, and the last wheel wears the word of the bytes 67 to 70. -/
theorem decoded_at_offsets_of_counting :
    ∃ s, decode ((List.range 340).map UInt8.ofNat) = .ok s ∧
      s.lapNumber.toNat = 44 + 256 * 45 ∧ s.steer.toInt = 52 ∧
      s.tireWear.rearRight.bits.toNat = 67 + 256 * (68 + 256 * (69 + 256 * 70)) := by
  obtain ⟨hdecoded, -⟩ := decoded_at_offsets
  obtain ⟨s, hdecode, hfields⟩ := hdecoded ((List.range 340).map UInt8.ofNat) (by simp)
  have hlap := hfields ⟨300, .u16, (·.lapNumber)⟩ (List.mem_of_getElem? (i := 75) rfl)
  have hsteer := hfields ⟨308, .i8, (·.steer)⟩ (List.mem_of_getElem? (i := 82) rfl)
  have hwear := hfields ⟨323, .f32, (·.tireWear.rearRight)⟩ (List.mem_of_getElem? (i := 88) rfl)
  refine ⟨s, hdecode, ?_, ?_, ?_⟩
  · exact Int.ofNat_inj.mp (hlap.trans (by decide +kernel))
  · exact hsteer.trans (by decide +kernel)
  · exact Int.ofNat_inj.mp (hwear.trans (by decide +kernel))

end Packet

end RaceIngest.Wire
