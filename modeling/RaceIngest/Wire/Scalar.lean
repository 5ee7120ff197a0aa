import RaceIngest.Telemetry.Sample

/-!
# Little-endian scalars

The wire carries six kinds of scalar, each in a fixed number of bytes with the least significant
byte first. A `Scalar α` is such an encoding of the type `α` together with its laws: every value is
written in `width` bytes, what is written is read back, and every row of `width` bytes is the
writing of the value read from it. The encodings are therefore bijections between the values of the
type and the rows of `width` bytes; in particular a 32-bit floating-point word travels bit for bit.

## Main definitions

* `toLittleEndian`, `ofLittleEndian`, the two directions on natural numbers,
* `Scalar` with the instances `Scalar.u8`, `i8`, `u16`, `u32`, `i32`, `f32`.
-/

namespace RaceIngest.Wire

-- Powers are those of the core library, also where algebra is imported.
attribute [local instance (high)] instPowNat

/-- The lowest `width` bytes of a number, least significant first. -/
def toLittleEndian : Nat → Nat → List UInt8
  | 0, _ => []
  | width + 1, n => UInt8.ofNat n :: toLittleEndian width (n / 256)

/-- The number whose bytes, least significant first, are given. -/
def ofLittleEndian : List UInt8 → Nat
  | [] => 0
  | b :: bs => b.toNat + 256 * ofLittleEndian bs

@[simp] theorem length_toLittleEndian (width n : Nat) :
    (toLittleEndian width n).length = width := by
  induction width generalizing n with
  | zero => rfl
  | succ width ih => simp [toLittleEndian, ih]

theorem ofLittleEndian_lt (bs : List UInt8) : ofLittleEndian bs < 256 ^ bs.length := by
  induction bs with
  | nil => simp [ofLittleEndian]
  | cons b bs ih =>
      have hlow : b.toNat < 256 := b.toNat_lt
      simp only [ofLittleEndian, List.length_cons, Nat.pow_succ]
      omega

theorem ofLittleEndian_toLittleEndian (width n : Nat) :
    ofLittleEndian (toLittleEndian width n) = n % 256 ^ width := by
  induction width generalizing n with
  | zero => simp [toLittleEndian, ofLittleEndian, Nat.mod_one]
  | succ width ih =>
      rw [toLittleEndian, ofLittleEndian, ih, Nat.pow_succ, Nat.mul_comm (256 ^ width) 256,
        Nat.mod_mul]
      simp

theorem toLittleEndian_ofLittleEndian (bs : List UInt8) :
    toLittleEndian bs.length (ofLittleEndian bs) = bs := by
  induction bs with
  | nil => rfl
  | cons b bs ih =>
      have hlow : b.toNat < 256 := b.toNat_lt
      have htail : (b.toNat + 256 * ofLittleEndian bs) / 256 = ofLittleEndian bs := by omega
      simp only [List.length_cons, toLittleEndian, ofLittleEndian, htail, ih]
      congr 1
      apply UInt8.toNat_inj.mp
      simp

/-- An encoding of a type in a fixed number of bytes that loses nothing in either direction. -/
structure Scalar (α : Type) where
  width : Nat
  encode : α → List UInt8
  decode : List UInt8 → α
  length_encode : ∀ a, (encode a).length = width
  decode_encode : ∀ a, decode (encode a) = a
  encode_decode : ∀ bs, bs.length = width → encode (decode bs) = bs

namespace Scalar

/-- The little-endian encoding of a type whose values are the numbers below `256 ^ width`. -/
def ofNat {α : Type} (width : Nat) (toNat : α → Nat) (ofNat : Nat → α)
    (hofNat : ∀ a, ofNat (toNat a % 256 ^ width) = a)
    (htoNat : ∀ n, n < 256 ^ width → toNat (ofNat n) = n) : Scalar α where
  width := width
  encode a := toLittleEndian width (toNat a)
  decode bs := ofNat (ofLittleEndian bs)
  length_encode _ := length_toLittleEndian _ _
  decode_encode a := by rw [ofLittleEndian_toLittleEndian, hofNat]
  encode_decode bs hlength := by
    subst hlength
    rw [htoNat _ (ofLittleEndian_lt bs), toLittleEndian_ofLittleEndian]

/-- Unsigned bytes. -/
def u8 : Scalar UInt8 :=
  ofNat 1 UInt8.toNat UInt8.ofNat
    (fun a => by apply UInt8.toNat_inj.mp; have := a.toNat_lt; simp)
    (fun n h => by simp; omega)

/-- Unsigned 16-bit numbers. -/
def u16 : Scalar UInt16 :=
  ofNat 2 UInt16.toNat UInt16.ofNat
    (fun a => by apply UInt16.toNat_inj.mp; have := a.toNat_lt; simp)
    (fun n h => by simp; omega)

/-- Unsigned 32-bit numbers. -/
def u32 : Scalar UInt32 :=
  ofNat 4 UInt32.toNat UInt32.ofNat
    (fun a => by apply UInt32.toNat_inj.mp; have := a.toNat_lt; simp)
    (fun n h => by simp; omega)

/-- An encoding carried over along a bijection of types. -/
def map {α β : Type} (scalar : Scalar α) (forth : α → β) (back : β → α)
    (hback : ∀ a, back (forth a) = a) (hforth : ∀ b, forth (back b) = b) : Scalar β where
  width := scalar.width
  encode b := scalar.encode (back b)
  decode bs := forth (scalar.decode bs)
  length_encode _ := scalar.length_encode _
  decode_encode b := by rw [scalar.decode_encode, hforth]
  encode_decode bs hlength := by rw [hback, scalar.encode_decode bs hlength]

/-- Signed bytes, in two's complement. -/
def i8 : Scalar Int8 := u8.map UInt8.toInt8 Int8.toUInt8 (fun _ => rfl) (fun _ => rfl)

/-- Signed 32-bit numbers, in two's complement. -/
def i32 : Scalar Int32 := u32.map UInt32.toInt32 Int32.toUInt32 (fun _ => rfl) (fun _ => rfl)

/-- Floating-point words, bit for bit. -/
def f32 : Scalar Single := u32.map Single.mk Single.bits (fun _ => rfl) (fun _ => rfl)

@[simp] theorem width_u8 : u8.width = 1 := rfl
@[simp] theorem width_i8 : i8.width = 1 := rfl
@[simp] theorem width_u16 : u16.width = 2 := rfl
@[simp] theorem width_u32 : u32.width = 4 := rfl
@[simp] theorem width_i32 : i32.width = 4 := rfl
@[simp] theorem width_f32 : f32.width = 4 := rfl

end Scalar

end RaceIngest.Wire
