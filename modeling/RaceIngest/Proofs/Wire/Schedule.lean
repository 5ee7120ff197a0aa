import RaceIngest.Proofs.Wire.Layout
import RaceIngest.Wire.Writer

/-!
# Schedules of reads and puts

A row of bytes has no marks in it that tell where a value ends and of which kind it is. Whoever
reads it has to ask for the same things, in the same order, as whoever wrote it had put in. Such an
order is a *schedule*, a list of shapes of any length and in any mix: single scalars of the six
kinds, readings along the three axes, and readings per wheel.

Everything about a shape follows from its scalars: `Shape.elements` lists those of a value, the put
of a value appends the encodings of its elements, and the read of the shape takes that many encodings
off. So the one fact about reading that is needed is that a shape is read from the encodings of its
elements, whatever stands behind them (`Shape.run_read_encode`), and a whole schedule follows by
induction on the puts, with the position and the bytes behind as parameters.

## Main definitions

* `Shape`, `Put`, with `Shape.read`, `Writer.putShape`, `Writer.putAll`.
* `Cursor.ask`, `Cursor.askAll`: asking for shapes one after the other, whatever fails.

## Main results

* `Packet.bytes_putAll`: a packet is written by a schedule of puts.
* `Cursor.askAll_puts`: what a cursor answers that is asked for what was put.
* `reader_inverts_writer`: the same for a writer and a cursor.
-/

namespace RaceIngest.Wire

/-! ## Shapes -/

/-- What is put or asked for at once. -/
inductive Shape where
  | one (kind : Kind)
  /-- A reading along the three axes. -/
  | axes
  /-- A reading per wheel. -/
  | wheels (kind : Kind)
  deriving DecidableEq, Repr

namespace Shape

/-- The values of a shape. -/
def Value : Shape → Type
  | one kind => kind.Value
  | axes => Vec3
  | wheels kind => Corners kind.Value

/-- The kind of the scalars of a shape. -/
def kind : Shape → Kind
  | one kind | wheels kind => kind
  | axes => .f32

/-- The number of scalars of a shape. -/
def count : Shape → Nat
  | one _ => 1
  | axes => 3
  | wheels _ => 4

/-- The number of bytes of a shape. -/
def width (shape : Shape) : Nat := shape.count * shape.kind.width

/-- The scalars of a value, in the order of the wire. -/
def elements : (shape : Shape) → shape.Value → List shape.kind.Value
  | one _, a => [a]
  | axes, v => [Vec3.x v, Vec3.y v, Vec3.z v]
  | wheels _, c => Corners.toList c

/-- The bytes of a value. -/
def encode (shape : Shape) (a : shape.Value) : List UInt8 :=
  (shape.elements a).flatMap shape.kind.scalar.encode

/-- Reads a value of a shape. -/
def read : (shape : Shape) → Read shape.Value
  | one kind => kind.scalar.read
  | axes => readVec3
  | wheels kind => readCorners kind.scalar

theorem length_elements (shape : Shape) (a : shape.Value) :
    (shape.elements a).length = shape.count := by
  cases shape <;> rfl

theorem encode_one (kind : Kind) (a : (one kind).Value) :
    (one kind).encode a = kind.scalar.encode a :=
  List.append_nil _

theorem encode_axes (v : axes.Value) : axes.encode v = writeVec3 v := by
  show [Vec3.x v, Vec3.y v, Vec3.z v].flatMap Scalar.f32.encode =
    Scalar.f32.encode (Vec3.x v) ++ Scalar.f32.encode (Vec3.y v) ++ Scalar.f32.encode (Vec3.z v)
  simp only [List.flatMap_cons, List.flatMap_nil, List.append_nil, List.append_assoc]

theorem encode_wheels (kind : Kind) (c : (wheels kind).Value) :
    (wheels kind).encode c = writeCorners kind.scalar c := by
  show (Corners.toList c).flatMap kind.scalar.encode =
    kind.scalar.encode (Corners.frontLeft c) ++ kind.scalar.encode (Corners.frontRight c) ++
      kind.scalar.encode (Corners.rearLeft c) ++ kind.scalar.encode (Corners.rearRight c)
  simp only [Corners.toList, List.flatMap_cons, List.flatMap_nil, List.append_nil,
    List.append_assoc]

@[simp] theorem length_encode (shape : Shape) (a : shape.Value) :
    (shape.encode a).length = shape.width := by
  have hscalar (b : shape.kind.Value) :
      (shape.kind.scalar.encode b).length = shape.kind.width :=
    (shape.kind.scalar.length_encode b).trans shape.kind.width_scalar
  have hsame : (shape.elements a).map (fun b => (shape.kind.scalar.encode b).length) =
      (shape.elements a).map fun _ => shape.kind.width :=
    List.map_congr_left fun b _ => hscalar b
  rw [encode, List.length_flatMap, hsame, List.map_const', List.sum_replicate_nat,
    length_elements, width]

/-- A value is read from its bytes, and what stands behind them is left. -/
theorem run_read_encode (shape : Shape) (position : Nat) (a : shape.Value) (rest : List UInt8) :
    shape.read.run ⟨position, shape.encode a ++ rest⟩ =
      (.ok a, ⟨position + shape.width, rest⟩) := by
  cases shape with
  | one kind =>
      have hwidth : (one kind).width = kind.scalar.width := by
        rw [kind.width_scalar]
        exact Nat.one_mul _
      rw [encode_one, hwidth]
      exact kind.scalar.run_read_encode position a rest
  | axes =>
      rw [encode_axes]
      exact run_readVec3 position a rest
  | wheels kind =>
      have hwidth : (wheels kind).width = 4 * kind.scalar.width := by
        rw [kind.width_scalar]
        rfl
      rw [encode_wheels, hwidth]
      exact run_readCorners kind.scalar position a rest

end Shape

/-! ## Puts -/

/-- A value to be written, with its shape. -/
structure Put where
  shape : Shape
  value : shape.Value

/-- The bytes of a put. -/
def Put.bytes (put : Put) : List UInt8 := put.shape.encode put.value

namespace Writer

/-- Puts a value of any shape. -/
def putShape (writer : Writer) : Put → Writer
  | ⟨.one kind, a⟩ => writer.put kind.scalar a
  | ⟨.axes, v⟩ => writer.putVec3 v
  | ⟨.wheels kind, c⟩ => writer.putCorners (put kind.scalar) c

/-- Puts values one behind the other. -/
def putAll (writer : Writer) (puts : List Put) : Writer := puts.foldl putShape writer

theorem bytes_putShape (writer : Writer) (put : Put) :
    (writer.putShape put).bytes = writer.bytes ++ put.bytes := by
  obtain ⟨shape, value⟩ := put
  show _ = writer.bytes ++ shape.encode value
  cases shape with
  | one kind =>
      rw [Shape.encode_one]
      rfl
  | axes =>
      rw [Shape.encode_axes]
      exact bytes_putVec3 writer value
  | wheels kind =>
      rw [Shape.encode_wheels]
      exact bytes_putCorners kind.scalar writer value

/-- The bytes of a writer are those of its puts, one behind the other. -/
theorem bytes_putAll (writer : Writer) (puts : List Put) :
    (writer.putAll puts).bytes = writer.bytes ++ puts.flatMap Put.bytes := by
  induction puts generalizing writer with
  | nil => exact (List.append_nil _).symm
  | cons put puts ih =>
      have hrest := ih (writer.putShape put)
      rw [bytes_putShape] at hrest
      rw [List.flatMap_cons, ← List.append_assoc]
      exact hrest

end Writer

/-! ## Packets are written by puts -/

/-- The put of a row of a sample. -/
def Row.put (s : Sample) : Row → Put
  | one _ kind get => ⟨.one kind, get s⟩
  | axes _ get => ⟨.axes, get s⟩
  | wheels _ kind get => ⟨.wheels kind, get s⟩

theorem Row.bytes_put (row : Row) (s : Sample) : (row.put s).bytes = row.encode s := by
  cases row with
  | one _ kind get => exact Shape.encode_one kind (get s)
  | axes _ get => exact Shape.encode_axes (get s)
  | wheels _ kind get => exact Shape.encode_wheels kind (get s)

/-- A packet is what a writer holds after a put for every row of the table. -/
theorem Packet.bytes_putAll (s : Sample) :
    (Writer.putAll {} (rows.map (Row.put s))).bytes = encode s := by
  rw [Writer.bytes_putAll, List.flatMap_map]
  simp only [Row.bytes_put]
  rfl

/-! ## Asking -/

/-- The answer to a read: what was asked for, what was read or why nothing was, and the position
afterwards. -/
structure Answer where
  shape : Shape
  result : Except OutOfBounds shape.Value
  position : Nat

namespace Cursor

/-- Asks for a shape. -/
def ask (cursor : Cursor) (shape : Shape) : Answer × Cursor :=
  let (result, after) := shape.read.run cursor
  (⟨shape, result, after.position⟩, after)

/-- Asks for shapes one after the other, going on after failures. -/
def askAll (cursor : Cursor) : List Shape → List Answer × Cursor
  | [] => ([], cursor)
  | shape :: shapes =>
    let (answer, after) := cursor.ask shape
    let (answers, final) := after.askAll shapes
    (answer :: answers, final)

end Cursor

/-- The answers that give puts back from some position on. -/
def Put.answers (position : Nat) : List Put → List Answer
  | [] => []
  | put :: puts =>
    ⟨put.shape, .ok put.value, position + put.bytes.length⟩ ::
      answers (position + put.bytes.length) puts

theorem Put.length_answers (position : Nat) (puts : List Put) :
    (answers position puts).length = puts.length := by
  induction puts generalizing position with
  | nil => rfl
  | cons put puts ih => rw [answers, List.length_cons, ih, List.length_cons]

/-- An answer gives its put back, at the end of all bytes up to this put. -/
theorem Put.getElem?_answers (position : Nat) {i : Nat} {puts : List Put} {put : Put}
    (h : puts[i]? = some put) :
    (answers position puts)[i]? =
      some ⟨put.shape, .ok put.value,
        position + ((puts.take (i + 1)).flatMap Put.bytes).length⟩ := by
  induction puts generalizing position i with
  | nil => cases h
  | cons first puts ih =>
      cases i with
      | zero =>
          obtain rfl : first = put := Option.some.inj h
          simp [answers]
      | succ i =>
          have hrest := ih (position + first.bytes.length) h
          rw [answers, List.getElem?_cons_succ, hrest, List.take_succ_cons, List.flatMap_cons,
            List.length_append, Nat.add_assoc]

/-- A cursor that is asked for what was put gives it back, and leaves what stands behind. -/
theorem Cursor.askAll_puts (position : Nat) (puts : List Put) (rest : List UInt8) :
    askAll ⟨position, puts.flatMap Put.bytes ++ rest⟩ (puts.map Put.shape) =
      (Put.answers position puts, ⟨position + (puts.flatMap Put.bytes).length, rest⟩) := by
  induction puts generalizing position with
  | nil => rfl
  | cons put puts ih =>
      have hread : put.shape.read.run
          ⟨position, put.bytes ++ (puts.flatMap Put.bytes ++ rest)⟩ =
            (.ok put.value, ⟨position + put.bytes.length, puts.flatMap Put.bytes ++ rest⟩) := by
        rw [Put.bytes, Shape.length_encode]
        exact put.shape.run_read_encode position put.value _
      simp only [List.flatMap_cons, List.append_assoc, List.map_cons, askAll, ask, hread, ih,
        Put.answers, List.length_append, Nat.add_assoc]

/-- At the end of the bytes no scalar is read. -/
theorem Kind.run_read_nil (kind : Kind) (position : Nat) :
    kind.scalar.read.run ⟨position, []⟩ = (.error ⟨position⟩, ⟨position, []⟩) := by
  have hwidth : 0 < kind.scalar.width := by cases kind <;> decide
  exact kind.scalar.run_read_of_lt ⟨position, []⟩ hwidth

/-- Reading inverts writing for every schedule. A writer is to be had with any room that one
allocation can have. Whatever is put into it then, of whatever shapes and however often, a cursor
over what was written and over what follows it gives the values back when it is asked for the same
shapes in the same order: bit for bit, and after every read it stands at the number of bytes written
by the puts so far. If nothing follows, the next scalar is out of bounds at that position. -/
theorem reader_inverts_writer :
    (∀ capacity : Nat, (Writer.withCapacity? capacity).isSome = true ↔ capacity ≤ maxAllocation) ∧
      ∀ (capacity : Nat) (writer : Writer), Writer.withCapacity? capacity = some writer →
        ∀ (puts : List Put) (trailing : List UInt8),
          let written := (writer.putAll puts).bytes
          let outcome := (Cursor.start (written ++ trailing)).askAll (puts.map Put.shape)
          outcome.1.length = puts.length ∧
            (∀ (i : Nat) (put : Put), puts[i]? = some put →
              outcome.1[i]? = some ⟨put.shape, .ok put.value,
                (writer.putAll (puts.take (i + 1))).bytes.length⟩) ∧
            outcome.2 = ⟨written.length, trailing⟩ ∧
            (trailing = [] → ∀ kind : Kind, kind.scalar.read.run outcome.2 =
              (.error ⟨written.length⟩, outcome.2)) := by
  refine ⟨Writer.isSome_withCapacity?_iff, ?_⟩
  intro capacity writer hwriter puts trailing
  obtain rfl := Writer.eq_of_withCapacity? hwriter
  have hbytes (puts : List Put) : (Writer.putAll {} puts).bytes = puts.flatMap Put.bytes :=
    Writer.bytes_putAll {} puts
  have houtcome := Cursor.askAll_puts 0 puts trailing
  simp only [Nat.zero_add] at houtcome
  simp only [hbytes, Cursor.start, houtcome]
  refine ⟨Put.length_answers 0 puts, ?_, trivial, ?_⟩
  · intro i put hput
    have hanswer := Put.getElem?_answers 0 hput
    rwa [Nat.zero_add] at hanswer
  · rintro rfl kind
    exact kind.run_read_nil _

/-- A steering of minus one, a number for every wheel and a NaN with a payload, put into a writer
with room for three bytes, are read back, with a byte behind them or without; without, the next byte
is out of bounds. -/
theorem reader_inverts_writer_of_mixed :
    let puts : List Put := [⟨.one .i8, (-1 : Int8)⟩,
      ⟨.wheels .u16, (⟨1, 2, 0x0304, 65535⟩ : Corners UInt16)⟩, ⟨.one .f32, (⟨0xffc00001⟩ : Single)⟩]
    let written := (Writer.putAll {} puts).bytes
    let asked := puts.map Put.shape
    Writer.withCapacity? 3 = some {} ∧
      written = [255, 1, 0, 2, 0, 4, 3, 255, 255, 1, 0, 192, 255] ∧
      ((Cursor.start (written ++ [7])).askAll asked).1[1]? =
        some ⟨.wheels .u16, .ok (⟨1, 2, 0x0304, 65535⟩ : Corners UInt16), 9⟩ ∧
      ((Cursor.start (written ++ [7])).askAll asked).2 = ⟨13, [7]⟩ ∧
      (Scalar.u8.read.run ((Cursor.start (written ++ [])).askAll asked).2).1 = .error ⟨13⟩ := by
  intro puts written asked
  have hwriter : Writer.withCapacity? 3 = some {} := rfl
  obtain ⟨-, hread, hend, -⟩ := reader_inverts_writer.2 3 {} hwriter puts [7]
  obtain ⟨-, -, -, hover⟩ := reader_inverts_writer.2 3 {} hwriter puts []
  exact ⟨hwriter, rfl, hread 1 _ rfl, hend, congrArg Prod.fst (hover rfl .u8)⟩

end RaceIngest.Wire
