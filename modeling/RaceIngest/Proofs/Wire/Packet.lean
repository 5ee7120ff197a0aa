import RaceIngest.Wire.Packet

/-!
# Packets and samples are the same thing

Reading a packet and writing one are two lists of the same fields in the same order. Seen from the
sample, what was written is read back, field after field. Seen from the bytes, a read that finds
enough of them never fails, and what it returns writes them again: `Recovers` says so of a read in
the middle of a packet, where the fields before it were read already, and goes through a sequence of
reads by `Recovers.bind`.

Both together make `encode` a bijection between the samples and the rows of `packetSize` bytes, and
`decode` its inverse, which looks at nothing behind those.

## Main results

* `Packet.run_fields_encode`, `Packet.recovers_fields`: the two directions for the sequence of reads.
* `Packet.decode_inverts_encode`: what `decode` answers for every row of bytes.
-/

namespace RaceIngest.Wire

/-! ## Reads that lose nothing -/

/-- When `width` bytes are left the read consumes them and succeeds, and what it returns is written
as the bytes `before` that were read already, followed by the consumed ones. -/
def Recovers {α : Type} (read : Read α) (width : Nat) (write : α → List UInt8)
    (before : List UInt8) : Prop :=
  ∀ position bytes, width ≤ bytes.length →
    ∃ a, read.run ⟨position, bytes⟩ = (.ok a, ⟨position + width, bytes.drop width⟩) ∧
      write a = before ++ bytes.take width

theorem Recovers.pure {α : Type} {write : α → List UInt8} {before : List UInt8} {a : α}
    (h : write a = before) : Recovers (pure a) 0 write before := by
  intro position bytes _
  exact ⟨a, rfl, by simp [h]⟩

/-- A sequence of reads loses nothing when what the first reads is known to the others as read
before. -/
theorem Recovers.bind {α β : Type} {read : Read α} {next : α → Read β} {width total : Nat}
    {writeFirst : α → List UInt8} {write : β → List UInt8} {before : List UInt8}
    (hfirst : Recovers read width writeFirst []) (hwidth : width ≤ total)
    (hnext : ∀ a, Recovers (next a) (total - width) write (before ++ writeFirst a)) :
    Recovers (read >>= next) total write before := by
  intro position bytes henough
  obtain ⟨a, hrun, hwrite⟩ := hfirst position bytes (by omega)
  have hleft : total - width ≤ (bytes.drop width).length := by
    rw [List.length_drop]
    omega
  obtain ⟨b, hrunNext, hwriteNext⟩ := hnext a (position + width) (bytes.drop width) hleft
  have htotal : width + (total - width) = total := by omega
  refine ⟨b, ?_, ?_⟩
  · rw [Read.run_bind, hrun]
    show (next a).run _ = _
    rw [hrunNext, List.drop_drop, Nat.add_assoc, htotal]
  · calc write b = before ++ bytes.take width ++ (bytes.drop width).take (total - width) := by
          rw [hwriteNext, hwrite, List.nil_append]
      _ = before ++ bytes.take total := by
          rw [List.append_assoc, ← List.take_add, htotal]

theorem Scalar.recovers {α : Type} (scalar : Scalar α) :
    Recovers scalar.read scalar.width scalar.encode [] := by
  intro position bytes henough
  refine ⟨_, scalar.run_read_of_le ⟨position, bytes⟩ henough, ?_⟩
  exact scalar.encode_decode _ (List.length_take_of_le henough)

theorem recovers_readVec3 : Recovers readVec3 12 writeVec3 [] :=
  .bind (Scalar.recovers _) (by decide) fun _ => .bind (Scalar.recovers _) (by decide) fun _ =>
    .bind (Scalar.recovers _) (by decide) fun _ => .pure rfl

theorem recovers_readCorners {α : Type} (scalar : Scalar α) :
    Recovers (readCorners scalar) (4 * scalar.width) (writeCorners scalar) [] := by
  refine .bind scalar.recovers (by omega) fun frontLeft => ?_
  refine .bind scalar.recovers (by omega) fun frontRight => ?_
  refine .bind scalar.recovers (by omega) fun rearLeft => ?_
  refine .bind scalar.recovers (by omega) fun rearRight => ?_
  have hnone : 4 * scalar.width - scalar.width - scalar.width - scalar.width - scalar.width = 0 := by
    omega
  rw [hnone]
  exact .pure rfl

/-! ## Packets -/

namespace Packet

theorem length_encode (s : Sample) : (encode s).length = packetSize := by
  simp [encode, writeVec3, writeCorners, Scalar.length_encode, packetSize]

/-- What was written is read back. -/
theorem run_fields_encode (s : Sample) (position : Nat) (rest : List UInt8) :
    fields.run ⟨position, encode s ++ rest⟩ = (.ok s, ⟨position + packetSize, rest⟩) := by
  simp only [fields, encode, List.flatten_cons, List.flatten_nil, List.append_assoc,
    List.append_nil, Read.run_bind, Scalar.run_read_encode, run_readVec3, run_readCorners,
    Read.run_pure, Scalar.width_u8, Scalar.width_i8, Scalar.width_u16, Scalar.width_u32,
    Scalar.width_i32, Scalar.width_f32]
  rfl

/-- What is read writes the bytes it was read from. -/
theorem recovers_fields : Recovers fields packetSize encode [] := by
  unfold fields
  -- one field after the other; each is as wide as what the fields before it left allows
  repeat first
    | refine .bind (Scalar.recovers _) (by decide) fun _ => ?_
    | refine .bind recovers_readVec3 (by decide) fun _ => ?_
    | refine .bind (recovers_readCorners _) (by decide) fun _ => ?_
  refine .pure ?_
  simp [encode]

/-! ## What `decode` answers -/

theorem decode_of_lt {bytes : List UInt8} (hshort : bytes.length < packetSize) :
    decode bytes = .error (.tooShort packetSize bytes.length) :=
  if_pos hshort

/-- The sample at the start of enough bytes is read, whatever follows it. -/
theorem decode_encode_append (s : Sample) (rest : List UInt8) :
    decode (encode s ++ rest) = .ok s := by
  have henough : ¬(encode s ++ rest).length < packetSize := by
    rw [List.length_append, length_encode]
    omega
  have hpacket : (encode s ++ rest).take packetSize = encode s ++ [] := by
    rw [← length_encode s, List.take_left, List.append_nil]
  unfold decode
  rw [if_neg henough, Cursor.start, hpacket, run_fields_encode]

/-- Enough bytes are a packet, and the sample in it writes the packet again. -/
theorem exists_decode {bytes : List UInt8} (henough : packetSize ≤ bytes.length) :
    ∃ s, decode bytes = .ok s ∧ encode s = bytes.take packetSize := by
  have hlength : (bytes.take packetSize).length = packetSize := List.length_take_of_le henough
  obtain ⟨s, hrun, hwrite⟩ := recovers_fields 0 (bytes.take packetSize) (by omega)
  refine ⟨s, ?_, ?_⟩
  · unfold decode
    rw [if_neg (by omega), Cursor.start, hrun]
  · rw [hwrite, List.nil_append, List.take_take, Nat.min_self]

/-- No read runs out of bytes: those that hold a packet hold all of it. -/
theorem decode_ne_outOfBounds (bytes : List UInt8) (offset : Nat) :
    decode bytes ≠ .error (.outOfBounds offset) := by
  intro houtside
  by_cases hshort : bytes.length < packetSize
  · rw [decode_of_lt hshort] at houtside
    cases houtside
  · obtain ⟨s, hdecode, -⟩ := exists_decode (Nat.le_of_not_lt hshort)
    rw [hdecode] at houtside
    cases houtside

/-- Reading and writing packets invert each other, bit for bit. A written sample is a packet and is
read back, whatever follows it; the first bytes of a row that is long enough are a packet, and what
is read from it writes it again; a shorter row is refused, and nothing else goes wrong. -/
theorem decode_inverts_encode :
    (∀ (s : Sample) (rest : List UInt8),
        (encode s).length = 331 ∧ decode (encode s ++ rest) = .ok s) ∧
      (∀ bytes : List UInt8, 331 ≤ bytes.length →
        ∃ s, decode bytes = .ok s ∧ encode s = bytes.take 331) ∧
      (∀ bytes : List UInt8, bytes.length < 331 →
        decode bytes = .error (.tooShort 331 bytes.length)) ∧
      ∀ (bytes : List UInt8) (offset : Nat), decode bytes ≠ .error (.outOfBounds offset) := by
  refine ⟨?_, ?_, ?_, decode_ne_outOfBounds⟩
  · intro s rest
    exact ⟨length_encode s, decode_encode_append s rest⟩
  · intro bytes henough
    exact exists_decode henough
  · intro bytes hshort
    exact decode_of_lt hshort

/-- A packet of all ones, in which every floating-point word is a NaN with a payload, is read and
written again without its trailing bytes; one byte less is no packet. -/
theorem decode_inverts_encode_of_ones :
    (∃ s, decode (List.replicate 340 255) = .ok s ∧ encode s = List.replicate 331 255) ∧
      decode (List.replicate 330 255) = .error (.tooShort 331 330) := by
  obtain ⟨-, hlong, hshort, -⟩ := decode_inverts_encode
  refine ⟨?_, ?_⟩
  · have henough : 331 ≤ (List.replicate 340 (255 : UInt8)).length := by
      rw [List.length_replicate]
      omega
    have h := hlong _ henough
    rwa [List.take_replicate] at h
  · have hless : (List.replicate 330 (255 : UInt8)).length < 331 := by
      rw [List.length_replicate]
      omega
    have h := hshort _ hless
    rwa [List.length_replicate] at h

end Packet

end RaceIngest.Wire
