import RaceIngest.Wire.Cursor

/-!
# Writing along the wire

A `Writer` collects the bytes of the values that are put into it, one behind the other. It is made
with room for some bytes, so that it need not grow while these are written; how much room it was
given is not to be seen from what it wrote. Only so much room as one allocation can have is to be
had. That memory may run out later is left aside.

The composite puts follow the composite reads: the axes in their order, and one value for every
wheel by a put of the caller's choice.
-/

namespace RaceIngest.Wire

-- Powers are those of the core library, also where algebra is imported.
attribute [local instance (high)] instPowNat

/-- The greatest number of bytes that one allocation can have. -/
def maxAllocation : Nat := 2 ^ (63 : Nat) - 1

/-- The bytes that were written so far. -/
structure Writer where
  bytes : List UInt8 := []
  deriving DecidableEq, Repr

namespace Writer

/-- A writer with room for some bytes, unless no allocation can have that many. -/
def withCapacity? (capacity : Nat) : Option Writer :=
  if capacity ≤ maxAllocation then some {} else none

theorem isSome_withCapacity?_iff (capacity : Nat) :
    (withCapacity? capacity).isSome = true ↔ capacity ≤ maxAllocation := by
  simp [withCapacity?]

/-- Writers start with nothing written. -/
theorem eq_of_withCapacity? {capacity : Nat} {writer : Writer}
    (h : withCapacity? capacity = some writer) : writer = {} := by
  unfold withCapacity? at h
  split at h
  · exact (Option.some.inj h).symm
  · cases h

/-- Puts one scalar. -/
def put {α : Type} (scalar : Scalar α) (writer : Writer) (a : α) : Writer :=
  ⟨writer.bytes ++ scalar.encode a⟩

/-- Puts three numbers. -/
def putVec3 (writer : Writer) (v : Vec3) : Writer :=
  ((writer.put .f32 v.x).put .f32 v.y).put .f32 v.z

/-- Puts one value for every wheel. -/
def putCorners {α : Type} (put : Writer → α → Writer) (writer : Writer) (c : Corners α) : Writer :=
  put (put (put (put writer c.frontLeft) c.frontRight) c.rearLeft) c.rearRight

@[simp] theorem bytes_put {α : Type} (scalar : Scalar α) (writer : Writer) (a : α) :
    (writer.put scalar a).bytes = writer.bytes ++ scalar.encode a := rfl

@[simp] theorem bytes_putVec3 (writer : Writer) (v : Vec3) :
    (writer.putVec3 v).bytes = writer.bytes ++ writeVec3 v := by
  simp [putVec3, writeVec3]

@[simp] theorem bytes_putCorners {α : Type} (scalar : Scalar α) (writer : Writer) (c : Corners α) :
    (writer.putCorners (put scalar) c).bytes = writer.bytes ++ writeCorners scalar c := by
  simp [putCorners, writeCorners]

end Writer

end RaceIngest.Wire
