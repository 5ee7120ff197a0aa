import RaceIngest.Wire.Scalar

/-!
# Reading and writing along the wire

A `Cursor` is a place in a row of bytes: how many bytes were consumed, and the bytes that are
left. Reads are stateful computations that keep their state when they fail, so a caller may go on
after a failure:

* a scalar read of `width` bytes succeeds exactly when that many are left, and otherwise fails at
  the current position without moving;
* a composite read is a sequence of scalar reads, so when it fails it has consumed the elements
  that were still whole.

Writing is concatenation of encodings; `writeVec3` and `writeCorners` write their elements in
the order in which the composite reads ask for them.
-/

namespace RaceIngest.Wire

/-- A place in a row of bytes. -/
structure Cursor where
  /-- How many bytes were consumed. -/
  position : Nat
  /-- The bytes that are left. -/
  rest : List UInt8
  deriving DecidableEq, Repr

/-- The start of a row of bytes. -/
def Cursor.start (bytes : List UInt8) : Cursor := ⟨0, bytes⟩

/-- The failure of a read: the position at which too few bytes were left. -/
structure OutOfBounds where
  offset : Nat
  deriving DecidableEq, Repr

/-- A read that keeps its place when it fails. -/
abbrev Read (α : Type) := ExceptT OutOfBounds (StateM Cursor) α

/-- Runs a read, giving its result and the place where it ended. -/
def Read.run {α : Type} (read : Read α) (cursor : Cursor) : Except OutOfBounds α × Cursor :=
  ExceptT.run read |>.run cursor

@[simp] theorem Read.run_pure {α : Type} (a : α) (cursor : Cursor) :
    (pure a : Read α).run cursor = (.ok a, cursor) := rfl

/-- A read that depends on another goes on where that one ended, and is not run after a
failure. -/
theorem Read.run_bind {α β : Type} (first : Read α) (next : α → Read β) (cursor : Cursor) :
    (first >>= next).run cursor =
      match first.run cursor with
      | (.ok a, after) => (next a).run after
      | (.error failure, after) => (.error failure, after) := by
  rcases houtcome : first.run cursor with ⟨result, after⟩
  have hunfolded : (ExceptT.run first).run cursor = (result, after) := houtcome
  simp only [Read.run, ExceptT.run_bind, StateT.run_bind, hunfolded]
  cases result <;> rfl

/-- Reads one scalar. -/
def Scalar.read {α : Type} (scalar : Scalar α) : Read α := ExceptT.mk fun cursor =>
  if scalar.width ≤ cursor.rest.length then
    (.ok (scalar.decode (cursor.rest.take scalar.width)),
      ⟨cursor.position + scalar.width, cursor.rest.drop scalar.width⟩)
  else (.error ⟨cursor.position⟩, cursor)

theorem Scalar.run_read_of_le {α : Type} (scalar : Scalar α) (cursor : Cursor)
    (hfits : scalar.width ≤ cursor.rest.length) :
    (scalar.read).run cursor = (.ok (scalar.decode (cursor.rest.take scalar.width)),
      ⟨cursor.position + scalar.width, cursor.rest.drop scalar.width⟩) :=
  if_pos hfits

theorem Scalar.run_read_of_lt {α : Type} (scalar : Scalar α) (cursor : Cursor)
    (hshort : cursor.rest.length < scalar.width) :
    (scalar.read).run cursor = (.error ⟨cursor.position⟩, cursor) :=
  if_neg (Nat.not_le.mpr hshort)

/-- Reading what was just written gives the value back and moves past it. -/
theorem Scalar.run_read_encode {α : Type} (scalar : Scalar α) (position : Nat) (a : α)
    (rest : List UInt8) :
    (scalar.read).run ⟨position, scalar.encode a ++ rest⟩ =
      (.ok a, ⟨position + scalar.width, rest⟩) := by
  have hlength := scalar.length_encode a
  rw [Scalar.run_read_of_le _ _ (by simp [hlength])]
  simp [← hlength, scalar.decode_encode]

/-- Reads three numbers. -/
def readVec3 : Read Vec3 := do
  let x ← Scalar.f32.read
  let y ← Scalar.f32.read
  let z ← Scalar.f32.read
  return ⟨x, y, z⟩

/-- Reads one scalar for every wheel. -/
def readCorners {α : Type} (scalar : Scalar α) : Read (Corners α) := do
  let frontLeft ← scalar.read
  let frontRight ← scalar.read
  let rearLeft ← scalar.read
  let rearRight ← scalar.read
  return ⟨frontLeft, frontRight, rearLeft, rearRight⟩

/-- The bytes of three numbers. -/
def writeVec3 (v : Vec3) : List UInt8 :=
  Scalar.f32.encode v.x ++ Scalar.f32.encode v.y ++ Scalar.f32.encode v.z

/-- The bytes of one scalar for every wheel. -/
def writeCorners {α : Type} (scalar : Scalar α) (c : Corners α) : List UInt8 :=
  scalar.encode c.frontLeft ++ scalar.encode c.frontRight ++
  scalar.encode c.rearLeft ++ scalar.encode c.rearRight

theorem run_readVec3 (position : Nat) (v : Vec3) (rest : List UInt8) :
    readVec3.run ⟨position, writeVec3 v ++ rest⟩ = (.ok v, ⟨position + 12, rest⟩) := by
  simp only [readVec3, writeVec3, Read.run_bind, List.append_assoc, Scalar.run_read_encode,
    Read.run_pure, Scalar.width_f32]

theorem run_readCorners {α : Type} (scalar : Scalar α) (position : Nat) (c : Corners α)
    (rest : List UInt8) :
    (readCorners scalar).run ⟨position, writeCorners scalar c ++ rest⟩ =
      (.ok c, ⟨position + 4 * scalar.width, rest⟩) := by
  simp only [readCorners, writeCorners, Read.run_bind, List.append_assoc, Scalar.run_read_encode,
    Read.run_pure]
  congr 2
  omega

end RaceIngest.Wire
