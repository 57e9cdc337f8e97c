import SerialLink.Proofs.Clock
import SerialLink.Proofs.Stream

/-!
# Packets over the wire

What is left of a packet on the wire is the packet with its time reduced to the ring (`Packet.reduced`):
that is what the wire form decodes to (`Packet.decode?_encode`), and packets have one wire form exactly if
they agree in it (`Packet.encode_inj`).  The other way round each eight bytes are a wire form, but for
the top bit of the last byte (`Packet.encode_of_decode?`).  Since the wire form always has eight bytes, packets
that are sent one behind the other come out of the stream as they were sent
(`Packet.ofStream_flatMap_encode`).  Together: `Packet.survives_the_wire`.
-/

namespace SerialLink.Packet

/-- Whether the time of a packet is one on the ring. -/
def OnRing (p : Packet) : Prop := p.timestamp.toNat < 2147483648

instance (p : Packet) : Decidable p.OnRing := inferInstanceAs (Decidable (_ < _))

/-- A packet with its time reduced to the ring, whatever its kind. -/
def reduced (p : Packet) : Packet := { p with timestamp := p.timestamp &&& timestampMask }

variable {p q : Packet}

theorem toNat_timestamp_reduced (p : Packet) :
    p.reduced.timestamp.toNat = p.timestamp.toNat % 2147483648 := Clock.toNat_mask p.timestamp

theorem onRing_reduced (p : Packet) : p.reduced.OnRing := by
  rw [OnRing, toNat_timestamp_reduced]
  exact Nat.mod_lt _ (by decide)

/-- A time on the ring is not changed. -/
theorem OnRing.reduced (ring : p.OnRing) : p.reduced = p := by
  have same : p.timestamp &&& timestampMask = p.timestamp := by
    rw [← UInt32.toNat_inj, Clock.toNat_mask]
    exact Nat.mod_eq_of_lt ring
  rw [Packet.reduced, same]

/-! ### There and back -/

theorem decode?_encode (p : Packet) : decode? p.encode = some p.reduced := by
  have time : Bytes.toUInt32 (Bytes.ofUInt32 (p.timestamp &&& timestampMask)) &&& timestampMask =
      p.timestamp &&& timestampMask := by
    rw [Bytes.toUInt32_ofUInt32, mask_mask]
  exact congrArg some (congrArg (Packet.mk p.kind p.b2 p.b3 p.b4) time)

/-- Packets have one wire form exactly if they agree on the ring. -/
theorem encode_inj : p.encode = q.encode ↔ p.reduced = q.reduced := by
  constructor
  · intro same
    have decoded := congrArg decode? same
    rw [decode?_encode, decode?_encode] at decoded
    exact Option.some.inj decoded
  · intro same
    have reads : ∀ r : Packet, r.encode =
        [r.reduced.kind, r.reduced.b2, r.reduced.b3, r.reduced.b4] ++ Bytes.ofUInt32 r.reduced.timestamp :=
      fun _ => rfl
    rw [reads p, reads q, same]

/-- The mask leaves three bytes of a word, and all but the top bit of the last one. -/
theorem ofUInt32_toUInt32_mask (t0 t1 t2 t3 : UInt8) :
    Bytes.ofUInt32 (Bytes.toUInt32 [t0, t1, t2, t3] &&& timestampMask) = [t0, t1, t2, t3 &&& 127] := by
  have mask : Bytes.ofUInt32 timestampMask = [-1, -1, -1, 127] := by decide
  rw [Bytes.ofUInt32_and, Bytes.ofUInt32_toUInt32 rfl, mask]
  simp only [List.zipWith_cons_cons, List.zipWith_nil_left, UInt8.and_neg_one]

/-- Eight bytes are the wire form of what they decode to, but for the top bit of the last byte. -/
theorem encode_of_decode? {wire : Bytes} (decoded : decode? wire = some p) :
    p.encode = wire.modify 7 (· &&& 127) := by
  unfold decode? at decoded
  split at decoded
  · next kind b2 b3 b4 t0 t1 t2 t3 =>
    obtain rfl := Option.some.inj decoded
    have tail : Bytes.ofUInt32 (Bytes.toUInt32 [t0, t1, t2, t3] &&& timestampMask &&& timestampMask) =
        [t0, t1, t2, t3 &&& 127] := by
      rw [mask_mask, ofUInt32_toUInt32_mask]
    exact congrArg ([kind, b2, b3, b4] ++ ·) tail
  · cases decoded

/-- A packet is read exactly from eight bytes. -/
theorem readInto_fst (place : Packet) (wire : Option Bytes) :
    (readInto place wire).1 = true ↔ ∃ b, wire = some b ∧ b.length = size := by
  unfold readInto
  cases wire with
  | none => simp
  | some b =>
    have whole := isSome_decode? b
    cases decoded : decode? b with
    | none =>
      rw [decoded] at whole
      simpa [decoded] using whole.symm
    | some p => simpa [decoded] using length_of_decode? decoded

/-- Whatever else there is to be read, the place stays as it is. -/
theorem readInto_snd {place : Packet} {wire : Option Bytes} (failed : (readInto place wire).1 = false) :
    (readInto place wire).2 = place := by
  unfold readInto at failed ⊢
  split at failed
  · cases failed
  · rfl

/-! ### One behind the other -/

/-- Packets that are sent one behind the other come out of the stream. -/
theorem ofStream_flatMap_encode (packets : List Packet) :
    ofStream (packets.flatMap encode) = packets.map reduced := by
  induction packets with
  | nil => rfl
  | cons p rest ih =>
    rw [List.flatMap_cons, ofStream_append_of_decode? (decode?_encode p), ih, List.map_cons]

/-- Packets on the ring come out as they were sent. -/
theorem ofStream_of_onRing {packets : List Packet} (ring : ∀ p ∈ packets, p.OnRing) :
    ofStream (packets.flatMap encode) = packets := by
  rw [ofStream_flatMap_encode]
  exact (List.map_congr_left fun p mem => (ring p mem).reduced).trans (List.map_id packets)

/-- **A packet survives the wire**, whatever its kind, but for the bit of its time that is not on the ring; and eight
bytes survive being a packet but for that bit.  A packet is read exactly from eight bytes, and anything else leaves
the place as it was.  So packets on the ring have each a wire form of their own, and any number of them, sent one behind
the other, is the stream of which the successive eight bytes are these packets. -/
theorem survives_the_wire (place p : Packet) (wire : Option Bytes) :
    readInto place (some p.encode) = (true, p.reduced) ∧
      p.reduced.timestamp.toNat = p.timestamp.toNat % 2147483648 ∧
      (p.OnRing → p.reduced = p) ∧
      (∀ b, b.length = size → (readInto place (some b)).2.encode = b.modify 7 (· &&& 127)) ∧
      ((readInto place wire).1 = true ↔ ∃ b, wire = some b ∧ b.length = size) ∧
      ((readInto place wire).1 = false → (readInto place wire).2 = place) ∧
      (∀ q : Packet, p.OnRing → q.OnRing → p.encode = q.encode → p = q) ∧
      ∀ packets : List Packet, (∀ q ∈ packets, q.OnRing) →
        ofStream (packets.flatMap encode) = packets ∧
          ∀ n, decode? (((packets.flatMap encode).drop (size * n)).take size) = packets[n]? := by
  refine ⟨?_, toNat_timestamp_reduced p, OnRing.reduced, fun b eight => ?_, readInto_fst place wire, readInto_snd,
    fun q here there same => ?_, fun packets ring => ?_⟩
  · unfold readInto
    rw [Option.bind_some, decode?_encode]
  · -- Eight bytes always make a packet.
    have decoded : (decode? b).isSome := by
      rw [isSome_decode?, eight]
      rfl
    obtain ⟨q, decoded⟩ := Option.isSome_iff_exists.mp decoded
    unfold readInto
    rw [Option.bind_some, decoded]
    exact encode_of_decode? decoded
  · rw [← here.reduced, ← there.reduced]
    exact encode_inj.mp same
  · have stream := ofStream_of_onRing ring
    refine ⟨stream, fun n => ?_⟩
    rw [← getElem?_ofStream, stream]

/-- A packet of an unknown kind at the end of the ring, behind one whose time is beyond it. -/
theorem survives_the_wire_unknown :
    let early : Packet := ⟨104, 1, 129, 0, 0x80000001⟩
    let late : Packet := ⟨200, 7, 8, 9, 0x7fffffff⟩
    (late.OnRing ∧ early.reduced.OnRing) ∧ late.reduced = late ∧ late.encode ≠ early.reduced.encode ∧
      (readInto empty (some [1, 2, 3, 4, 5, 6, 7, 0xff])).2.encode = [1, 2, 3, 4, 5, 6, 7, 0x7f] ∧
      (readInto late none).2 = late ∧
      ofStream ([early.reduced, late].flatMap encode) = [⟨104, 1, 129, 0, 1⟩, late] := by
  intro early late
  have ring : late.OnRing := by decide +kernel
  have front : early.reduced.OnRing := onRing_reduced early
  have small : early.reduced = ⟨104, 1, 129, 0, 1⟩ := by decide
  obtain ⟨_, _, keeps, _, _, failed, apart, behind⟩ := survives_the_wire late late none
  obtain ⟨_, _, _, back, _⟩ := survives_the_wire empty late none
  refine ⟨⟨ring, front⟩, keeps ring, fun same => ?_, back _ rfl, failed rfl, ?_⟩
  · exact absurd (apart early.reduced ring front same) (by decide)
  rw [← small]
  refine (behind [early.reduced, late] fun q mem => ?_).1
  rcases List.mem_cons.mp mem with rfl | mem
  · exact front
  · rw [List.mem_singleton.mp mem]
    exact ring

end SerialLink.Packet
