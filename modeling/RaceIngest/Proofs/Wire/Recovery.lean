import RaceIngest.Proofs.Wire.Schedule

/-!
# Going on after a failed read

A scalar is read whole or not at all, but a composite read is a sequence of scalar reads, and when
it fails the scalars before the failure stay consumed. Whoever goes on after a failure therefore
stands at a place that depends on the width of the scalars, on their number and on the bytes that
were left, and the next failure depends on that place.

All this is settled by one read, that of a number of scalars of one kind (`Kind.readMany`), since
every shape is read as such a row (`Shape.map_elements_read`). By induction on the number of
scalars, either all of them fit and are read, or the read stops behind the last that fits. What
carries a sequence of reads with any mix of successes and failures is `Cursor.In`: a cursor stands
inside the bytes, and what is left are the bytes from there on.

## Main definitions

* `Cursor.In`: a cursor over some bytes.
* `Cursor.AnswersExactly`: what a cursor does when it is asked for a shape.

## Main results

* `Shape.run_read_of_le`, `Shape.run_read_of_lt`: a shape is read, or how far it was.
* `Cursor.In.askAll`: cursors stay over their bytes and never go back.
* `failures_exact_and_recoverable`: the same for every sequence of reads.
-/

namespace RaceIngest.Wire

/-! ## Rows of scalars -/

/-- The result of a read is mapped with the read, and the place where it ends stays. -/
theorem Read.run_map {α β : Type} (f : α → β) (read : Read α) (cursor : Cursor) :
    (f <$> read).run cursor = ((read.run cursor).1.map f, (read.run cursor).2) := by
  rw [map_eq_pure_bind, Read.run_bind]
  rcases read.run cursor with ⟨_ | _, _⟩ <;> rfl

namespace Kind

theorem width_pos (kind : Kind) : 0 < kind.width := by
  cases kind <;> decide

theorem run_read_of_le (kind : Kind) {position : Nat} {bytes : List UInt8}
    (hfit : kind.width ≤ bytes.length) :
    kind.scalar.read.run ⟨position, bytes⟩ =
      (.ok (kind.scalar.decode (bytes.take kind.width)),
        ⟨position + kind.width, bytes.drop kind.width⟩) := by
  rw [← kind.width_scalar] at hfit ⊢
  exact kind.scalar.run_read_of_le ⟨position, bytes⟩ hfit

theorem run_read_of_lt (kind : Kind) (position : Nat) {bytes : List UInt8}
    (hshort : bytes.length < kind.width) :
    kind.scalar.read.run ⟨position, bytes⟩ = (.error ⟨position⟩, ⟨position, bytes⟩) := by
  rw [← kind.width_scalar] at hshort
  exact kind.scalar.run_read_of_lt ⟨position, bytes⟩ hshort

theorem encode_decode_take (kind : Kind) {bytes : List UInt8} (hfit : kind.width ≤ bytes.length) :
    kind.scalar.encode (kind.scalar.decode (bytes.take kind.width)) = bytes.take kind.width := by
  apply kind.scalar.encode_decode
  rw [kind.width_scalar]
  exact List.length_take_of_le hfit

/-- Reads scalars of one kind, one after the other. -/
def readMany (kind : Kind) : Nat → Read (List kind.Value)
  | 0 => pure []
  | n + 1 => do
    let a ← kind.scalar.read
    let as ← kind.readMany n
    return a :: as

/-- Scalars that fit are read, and what was read writes the bytes it was read from. -/
theorem run_readMany_of_le (kind : Kind) {n : Nat} (position : Nat) {bytes : List UInt8}
    (hfit : n * kind.width ≤ bytes.length) :
    ∃ as, (kind.readMany n).run ⟨position, bytes⟩ =
        (.ok as, ⟨position + n * kind.width, bytes.drop (n * kind.width)⟩) ∧
      as.flatMap kind.scalar.encode = bytes.take (n * kind.width) := by
  induction n generalizing position bytes with
  | zero => exact ⟨[], by simp [readMany], by simp⟩
  | succ n ih =>
      have htotal : (n + 1) * kind.width = kind.width + n * kind.width := by
        rw [Nat.succ_mul, Nat.add_comm]
      rw [htotal] at hfit ⊢
      have hone : kind.width ≤ bytes.length := Nat.le_of_add_right_le hfit
      have hleft : n * kind.width ≤ (bytes.drop kind.width).length := by
        rw [List.length_drop]
        omega
      obtain ⟨as, hrest, hwrite⟩ := ih (position + kind.width) hleft
      refine ⟨kind.scalar.decode (bytes.take kind.width) :: as, ?_, ?_⟩
      · simp only [readMany, Read.run_bind, kind.run_read_of_le hone, hrest, Read.run_pure,
          List.drop_drop, Nat.add_assoc]
      · rw [List.flatMap_cons, kind.encode_decode_take hone, hwrite, ← List.take_add]

/-- When not all scalars fit, those that do are read, and the next is out of bounds behind them. -/
theorem run_readMany_of_lt (kind : Kind) {n whole : Nat} (position : Nat) {bytes : List UInt8}
    (hwhole : whole * kind.width ≤ bytes.length) (hshort : bytes.length < (whole + 1) * kind.width)
    (hless : whole < n) :
    (kind.readMany n).run ⟨position, bytes⟩ =
      (.error ⟨position + whole * kind.width⟩,
        ⟨position + whole * kind.width, bytes.drop (whole * kind.width)⟩) := by
  induction n generalizing whole position bytes with
  | zero => omega
  | succ n ih =>
      have hnext : (whole + 1) * kind.width = kind.width + whole * kind.width := by
        rw [Nat.succ_mul, Nat.add_comm]
      rw [hnext] at hshort
      cases whole with
      | zero =>
          have hnone : bytes.length < kind.width := by omega
          simp only [readMany, Read.run_bind, kind.run_read_of_lt position hnone, Nat.zero_mul,
            Nat.add_zero, List.drop_zero]
      | succ whole =>
          have htotal : (whole + 1) * kind.width = kind.width + whole * kind.width := by
            rw [Nat.succ_mul, Nat.add_comm]
          rw [htotal] at hwhole hshort ⊢
          have hone : kind.width ≤ bytes.length := Nat.le_of_add_right_le hwhole
          have hleft : (bytes.drop kind.width).length = bytes.length - kind.width :=
            List.length_drop
          have hfits : whole * kind.width ≤ (bytes.drop kind.width).length := by omega
          have hends : (bytes.drop kind.width).length < (whole + 1) * kind.width := by omega
          have hrest := ih (position + kind.width) hfits hends (Nat.lt_of_succ_lt_succ hless)
          simp only [readMany, Read.run_bind, kind.run_read_of_le hone, hrest, List.drop_drop,
            Nat.add_assoc]

end Kind

/-! ## Shapes -/

namespace Shape

/-- A shape is read as a row of scalars. -/
theorem map_elements_read (shape : Shape) :
    shape.elements <$> shape.read = shape.kind.readMany shape.count := by
  cases shape with
  | one kind =>
      show (fun a => [a]) <$> kind.scalar.read = _
      simp only [count, Kind.readMany, map_eq_pure_bind, pure_bind]
      rfl
  | axes =>
      show (fun v : Vec3 => [v.x, v.y, v.z]) <$> readVec3 = _
      simp only [readVec3, count, Kind.readMany, map_bind, map_pure, bind_assoc, pure_bind]
      rfl
  | wheels kind =>
      show (fun c : Corners kind.Value => c.toList) <$> readCorners kind.scalar = _
      simp only [readCorners, count, Kind.readMany, map_bind, map_pure, bind_assoc, pure_bind]
      rfl

theorem run_map_elements (shape : Shape) (cursor : Cursor) :
    ((shape.read.run cursor).1.map shape.elements, (shape.read.run cursor).2) =
      (shape.kind.readMany shape.count).run cursor := by
  rw [← Read.run_map, map_elements_read]

/-- A shape that fits is read, and what was read writes the bytes it was read from. -/
theorem run_read_of_le (shape : Shape) {position : Nat} {bytes : List UInt8}
    (hfit : shape.width ≤ bytes.length) :
    ∃ a, shape.read.run ⟨position, bytes⟩ =
        (.ok a, ⟨position + shape.width, bytes.drop shape.width⟩) ∧
      shape.encode a = bytes.take shape.width := by
  obtain ⟨as, hrun, hwrite⟩ := shape.kind.run_readMany_of_le position hfit
  have hrow := (shape.run_map_elements ⟨position, bytes⟩).trans hrun
  rcases hread : shape.read.run ⟨position, bytes⟩ with ⟨failure | a, after⟩
  · rw [hread] at hrow
    cases hrow
  · rw [hread] at hrow
    obtain ⟨helements, hafter⟩ := Prod.mk.inj hrow
    obtain rfl : shape.elements a = as := Except.ok.inj helements
    obtain rfl : after = _ := hafter
    exact ⟨a, rfl, hwrite⟩

/-- A shape that does not fit is read up to the last of its scalars that does. -/
theorem run_read_of_lt (shape : Shape) {whole : Nat} (position : Nat) {bytes : List UInt8}
    (hwhole : whole * shape.kind.width ≤ bytes.length)
    (hshort : bytes.length < (whole + 1) * shape.kind.width) (hless : whole < shape.count) :
    shape.read.run ⟨position, bytes⟩ =
      (.error ⟨position + whole * shape.kind.width⟩,
        ⟨position + whole * shape.kind.width, bytes.drop (whole * shape.kind.width)⟩) := by
  have hrow := (shape.run_map_elements ⟨position, bytes⟩).trans
    (shape.kind.run_readMany_of_lt position hwhole hshort hless)
  rcases hread : shape.read.run ⟨position, bytes⟩ with ⟨failure | a, after⟩
  · rw [hread] at hrow
    obtain ⟨hfailure, hafter⟩ := Prod.mk.inj hrow
    obtain rfl : failure = _ := Except.error.inj hfailure
    obtain rfl : after = _ := hafter
    rfl
  · rw [hread] at hrow
    cases hrow

/-- How many scalars of a shape fit when not all of them do. -/
theorem exists_whole (shape : Shape) {length : Nat} (hshort : length < shape.width) :
    ∃ whole, whole < shape.count ∧ whole * shape.kind.width ≤ length ∧
      length < (whole + 1) * shape.kind.width := by
  have hpos := shape.kind.width_pos
  refine ⟨length / shape.kind.width, ?_, Nat.div_mul_le_self _ _, ?_⟩
  · exact Nat.div_lt_of_lt_mul (by rwa [Nat.mul_comm])
  · exact Nat.lt_mul_of_div_lt (Nat.lt_succ_self _) hpos

end Shape

/-! ## Cursors over bytes -/

namespace Cursor

/-- A cursor over bytes: it stands inside them, and what is left are the bytes from there on. -/
structure In (bytes : List UInt8) (cursor : Cursor) : Prop where
  position_le : cursor.position ≤ bytes.length
  rest_eq : cursor.rest = bytes.drop cursor.position

theorem in_start (bytes : List UInt8) : (start bytes).In bytes := ⟨Nat.zero_le _, rfl⟩

section Asking

variable {bytes : List UInt8} {cursor : Cursor}

theorem In.eq (h : cursor.In bytes) : cursor = ⟨cursor.position, bytes.drop cursor.position⟩ := by
  rw [← h.rest_eq]

theorem in_advance {position n : Nat} (hfit : position + n ≤ bytes.length) :
    In bytes ⟨position + n, (bytes.drop position).drop n⟩ :=
  ⟨hfit, List.drop_drop⟩

/-- What a shape that fits does. -/
theorem In.run_read_of_le (h : cursor.In bytes) (shape : Shape)
    (hfit : cursor.position + shape.width ≤ bytes.length) :
    ∃ a, shape.read.run cursor =
        (.ok a, ⟨cursor.position + shape.width, (bytes.drop cursor.position).drop shape.width⟩) ∧
      shape.encode a = (bytes.drop cursor.position).take shape.width := by
  have hleft : shape.width ≤ (bytes.drop cursor.position).length := by
    rw [List.length_drop]
    omega
  rw [h.eq]
  exact shape.run_read_of_le hleft

/-- What a shape that does not fit does. -/
theorem In.run_read_of_lt (h : cursor.In bytes) (shape : Shape)
    (hshort : bytes.length < cursor.position + shape.width) :
    ∃ whole, whole < shape.count ∧
      cursor.position + whole * shape.kind.width ≤ bytes.length ∧
      bytes.length < cursor.position + (whole + 1) * shape.kind.width ∧
      shape.read.run cursor = (.error ⟨cursor.position + whole * shape.kind.width⟩,
        ⟨cursor.position + whole * shape.kind.width,
          (bytes.drop cursor.position).drop (whole * shape.kind.width)⟩) := by
  have hplace := h.position_le
  have hleft : (bytes.drop cursor.position).length = bytes.length - cursor.position :=
    List.length_drop
  have hless : (bytes.drop cursor.position).length < shape.width := by omega
  obtain ⟨whole, hcount, hwhole, hnext⟩ := shape.exists_whole hless
  have hread := shape.run_read_of_lt cursor.position hwhole hnext hcount
  rw [← h.eq] at hread
  exact ⟨whole, hcount, by omega, by omega, hread⟩

/-- Asking for a shape leaves the cursor over its bytes and does not go back. -/
theorem In.ask (h : cursor.In bytes) (shape : Shape) :
    (cursor.ask shape).2.In bytes ∧ cursor.position ≤ (cursor.ask shape).2.position := by
  by_cases hfit : cursor.position + shape.width ≤ bytes.length
  · obtain ⟨a, hread, -⟩ := h.run_read_of_le shape hfit
    rw [Cursor.ask, hread]
    exact ⟨in_advance hfit, Nat.le_add_right _ _⟩
  · obtain ⟨whole, -, hwhole, -, hread⟩ := h.run_read_of_lt shape (Nat.lt_of_not_le hfit)
    rw [Cursor.ask, hread]
    exact ⟨in_advance hwhole, Nat.le_add_right _ _⟩

/-- So does asking for shapes one after the other, whichever of them fail. -/
theorem In.askAll (h : cursor.In bytes) (shapes : List Shape) :
    (cursor.askAll shapes).2.In bytes ∧ cursor.position ≤ (cursor.askAll shapes).2.position := by
  induction shapes generalizing cursor with
  | nil => exact ⟨h, Nat.le_refl _⟩
  | cons shape shapes ih =>
      obtain ⟨hnext, hforward⟩ := h.ask shape
      obtain ⟨hfinal, hrest⟩ := ih hnext
      exact ⟨hfinal, Nat.le_trans hforward hrest⟩

end Asking

/-- What a cursor over bytes does when it is asked for a shape. It succeeds exactly when all scalars
of the shape fit, and then it advances by all of them and gives what their bytes write. Otherwise it
advances by as many scalars as fit whole, and is out of bounds where it stands then. -/
structure AnswersExactly (bytes : List UInt8) (cursor : Cursor) (shape : Shape) : Prop where
  ok_iff : (∃ a, (shape.read.run cursor).1 = .ok a) ↔
    cursor.position + shape.count * shape.kind.width ≤ bytes.length
  of_ok : ∀ a, (shape.read.run cursor).1 = .ok a →
    (shape.read.run cursor).2.position = cursor.position + shape.count * shape.kind.width ∧
      shape.encode a =
        (bytes.drop cursor.position).take (shape.count * shape.kind.width)
  of_error : ∀ failure, (shape.read.run cursor).1 = .error failure →
    ∃ whole, whole < shape.count ∧
      cursor.position + whole * shape.kind.width ≤ bytes.length ∧
      bytes.length < cursor.position + (whole + 1) * shape.kind.width ∧
      failure.offset = cursor.position + whole * shape.kind.width ∧
      (shape.read.run cursor).2.position = cursor.position + whole * shape.kind.width

theorem In.answersExactly {bytes : List UInt8} {cursor : Cursor} (h : cursor.In bytes)
    (shape : Shape) : cursor.AnswersExactly bytes shape := by
  by_cases hfit : cursor.position + shape.width ≤ bytes.length
  · obtain ⟨a, hread, hwrite⟩ := h.run_read_of_le shape hfit
    refine { ok_iff := ?_, of_ok := ?_, of_error := ?_ }
    · rw [hread]
      exact iff_of_true ⟨a, rfl⟩ hfit
    · intro b hb
      rw [hread] at hb ⊢
      obtain rfl : a = b := Except.ok.inj hb
      exact ⟨rfl, hwrite⟩
    · intro failure hfailure
      rw [hread] at hfailure
      cases hfailure
  · obtain ⟨whole, hless, hwhole, hnext, hread⟩ :=
      h.run_read_of_lt shape (Nat.lt_of_not_le hfit)
    refine { ok_iff := ?_, of_ok := ?_, of_error := ?_ }
    · rw [hread]
      refine iff_of_false ?_ hfit
      rintro ⟨a, ha⟩
      cases ha
    · intro a ha
      rw [hread] at ha
      cases ha
    · intro failure hfailure
      rw [hread] at hfailure ⊢
      obtain rfl := Except.error.inj hfailure
      exact ⟨whole, hless, hwhole, hnext, rfl, rfl⟩

end Cursor

/-- Failures are exact, and a cursor can go on after them. After any sequence of reads over some
bytes, whichever of them failed, the cursor stands inside the bytes, and no further reads make it go
back. What it does next when it is asked for a shape depends on nothing but its position
(`Cursor.AnswersExactly`); a scalar that does not fit leaves it where it is. And after a failure, a
shape that fits at the place where the failure left the cursor is read from the bytes there. -/
theorem failures_exact_and_recoverable (bytes : List UInt8) (asked : List Shape) :
    let cursor := ((Cursor.start bytes).askAll asked).2
    cursor.position ≤ bytes.length ∧
      (∀ later : List Shape, cursor.position ≤ (cursor.askAll later).2.position) ∧
      (∀ shape : Shape, cursor.AnswersExactly bytes shape) ∧
      (∀ kind : Kind, bytes.length < cursor.position + kind.width →
        kind.scalar.read.run cursor = (.error ⟨cursor.position⟩, cursor)) ∧
      ∀ (failing narrower : Shape) (failure : OutOfBounds),
        (cursor.ask failing).1.result = .error failure →
        failure.offset + narrower.width ≤ bytes.length →
        ∃ a, narrower.read.run (cursor.ask failing).2 =
            (.ok a, ⟨failure.offset + narrower.width,
              bytes.drop (failure.offset + narrower.width)⟩) ∧
          narrower.encode a = (bytes.drop failure.offset).take narrower.width := by
  intro cursor
  have hcursor : cursor.In bytes := ((Cursor.in_start bytes).askAll asked).1
  refine ⟨hcursor.position_le, fun later => (hcursor.askAll later).2, hcursor.answersExactly, ?_, ?_⟩
  · intro kind hshort
    have hleft : (bytes.drop cursor.position).length < kind.width := by
      rw [List.length_drop]
      have hpos := kind.width_pos
      omega
    have hread := kind.run_read_of_lt cursor.position hleft
    rwa [← hcursor.eq] at hread
  · intro failing narrower failure hfailure hfit
    have hstopped := (hcursor.ask failing).1
    have hoffset : (cursor.ask failing).2.position = failure.offset := by
      obtain ⟨whole, -, -, -, hwhere, hplace⟩ :=
        (hcursor.answersExactly failing).of_error failure hfailure
      exact hplace.trans hwhere.symm
    obtain ⟨a, hread, hwrite⟩ := hstopped.run_read_of_le narrower (by omega)
    rw [hoffset, List.drop_drop] at hread
    rw [hoffset] at hwrite
    exact ⟨a, hread, hwrite⟩

/-- Of four numbers of two bytes, seven bytes hold three. The read of all four fails at the sixth
byte, and so does the read of one more, which does not move; but the last byte can still be read. -/
theorem failures_exact_of_seven_bytes :
    let bytes : List UInt8 := [1, 0, 2, 0, 3, 0, 255]
    let cursor := ((Cursor.start bytes).askAll [.wheels .u16]).2
    cursor.position = 6 ∧
      (Kind.scalar .u16).read.run cursor = (.error ⟨6⟩, cursor) ∧
      ∃ a, (Shape.one .i8).read.run (cursor.ask (.one .u16)).2 = (.ok a, ⟨7, []⟩) ∧
        (Shape.one .i8).encode a = [255] := by
  intro bytes cursor
  obtain ⟨-, -, -, hscalar, hnarrower⟩ := failures_exact_and_recoverable bytes [.wheels .u16]
  have hplace : cursor.position = 6 := by decide
  refine ⟨hplace, hscalar .u16 (by decide), ?_⟩
  exact hnarrower (.one .u16) (.one .i8) ⟨6⟩ rfl (by decide)

end RaceIngest.Wire
