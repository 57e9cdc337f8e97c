import SerialLink.Failure
import SerialLink.Packet

/-!
# Packets in a stream of bytes

What the bytes that come over a connection amount to, said of all of them at once and not as they are read:
the successive whole packets (`Packet.ofStream`), of which the `n`-th is what the `n`-th eight bytes decode to
(`Packet.getElem?_ofStream`); those of them that are heard, which are all as far as the first one with which
the connection ends (`Packet.heard`); and the failure with which it ends (`Packet.verdict`).  Behind a packet
with which the connection ends more bytes change nothing (`Packet.heard_stream_append`,
`Packet.verdict_append`).
-/

namespace SerialLink.Packet

/-- Why the connection ends with a packet, if it does: the peer speaks another version of the protocol, or
wants to end the connection. -/
def ending? (p : Packet) : Option Failure :=
  match p.kind? with
  | some .version => if (p.b2, p.b3, p.b4) = protocolVersion then none else some .versionMismatch
  | some .wantDisconnect => some .connectionTerminated
  | _ => none

/-- The successive whole packets of a stream.  Fewer than eight bytes at its end are no packet. -/
def ofStream : Bytes → List Packet
  | kind :: b2 :: b3 :: b4 :: t0 :: t1 :: t2 :: t3 :: rest =>
    make kind b2 b3 b4 (Bytes.toUInt32 [t0, t1, t2, t3]) :: ofStream rest
  | _ => []

/-- The packets as far as the first one with which the connection ends, that one included. -/
def heard : List Packet → List Packet
  | [] => []
  | p :: rest => if p.ending?.isSome then [p] else p :: heard rest

/-- Whether there is a packet with which the connection ends. -/
def Ends (packets : List Packet) : Prop := ∃ p ∈ packets, p.ending?.isSome

/-- The failure with which a connection ends over which a stream has come, and then its end. -/
def verdict (stream : Bytes) : Failure :=
  ((ofStream stream).findSome? ending?).getD
    (if stream.length % size = 0 then .connectionTerminated else .malformedPacket)

/-- A connection ends with a packet only over the version of the protocol, or because the peer wants it to
end. -/
theorem ending?_mem {p : Packet} {reason : Failure} (ending : p.ending? = some reason) :
    reason ∈ [.versionMismatch, .connectionTerminated] := by
  unfold ending? at ending
  split at ending
  · split at ending
    · cases ending
    · cases ending
      decide
  · cases ending
    decide
  · cases ending

/-! ### The packets of a stream -/

theorem ofStream_of_short {b : Bytes} (short : b.length < size) : ofStream b = [] := by
  unfold ofStream
  split
  · simp only [List.length_cons, size] at short
    omega
  · rfl

/-- Eight bytes at the front are the first packet. -/
theorem ofStream_append_of_decode? {chunk : Bytes} {p : Packet} (decoded : decode? chunk = some p)
    (rest : Bytes) : ofStream (chunk ++ rest) = p :: ofStream rest := by
  unfold decode? at decoded
  split at decoded
  · cases decoded
    rfl
  · cases decoded

/-- Bytes at whose front there are no eight are fewer than eight. -/
theorem length_lt_size {b : Bytes}
    (short : ∀ kind b2 b3 b4 t0 t1 t2 t3 rest, b = kind :: b2 :: b3 :: b4 :: t0 :: t1 :: t2 :: t3 :: rest →
      False) : b.length < size := by
  match b, short with
  | [], _ | [_], _ | [_, _], _ | [_, _, _], _ | [_, _, _, _], _ | [_, _, _, _, _], _
  | [_, _, _, _, _, _], _ | [_, _, _, _, _, _, _], _ => simp [size]
  | _ :: _ :: _ :: _ :: _ :: _ :: _ :: _ :: _, short => exact absurd rfl (short _ _ _ _ _ _ _ _ _)

/-- A stream may be cut behind whole packets. -/
theorem ofStream_append {a : Bytes} (whole : a.length % size = 0) (b : Bytes) :
    ofStream (a ++ b) = ofStream a ++ ofStream b := by
  induction a using ofStream.induct with
  | case1 kind b2 b3 b4 t0 t1 t2 t3 rest ih =>
    have left : rest.length % size = 0 := by
      simp only [List.length_cons, size] at whole ⊢
      omega
    simp only [List.cons_append, ofStream, ih left]
  | case2 a short =>
    -- Fewer than eight bytes that make up whole packets are none.
    have few := length_lt_size short
    have none : a = [] := List.eq_nil_of_length_eq_zero (by rw [size] at few whole; omega)
    rw [none]
    rfl

/-- Eight bytes behind whole packets are one more packet. -/
theorem ofStream_concat {a chunk : Bytes} {p : Packet} (whole : a.length % size = 0)
    (decoded : decode? chunk = some p) : ofStream (a ++ chunk) = ofStream a ++ [p] := by
  have one := ofStream_append_of_decode? decoded []
  rw [List.append_nil] at one
  rw [ofStream_append whole, one]
  rfl

theorem length_of_decode? {chunk : Bytes} {p : Packet} (decoded : decode? chunk = some p) :
    chunk.length = size := by
  have whole := isSome_decode? chunk
  rw [decoded] at whole
  exact (beq_iff_eq.mp whole.symm)

/-- Wherever a stream is cut, the packets in front of the cut come first. -/
theorem ofStream_prefix (a b : Bytes) : ofStream a <+: ofStream (a ++ b) := by
  have cut : a = a.take (size * (a.length / size)) ++ a.drop (size * (a.length / size)) :=
    (List.take_append_drop _ _).symm
  have rest := Nat.mod_lt a.length (show 0 < size by decide)
  have all := Nat.div_add_mod a.length size
  have front : (a.take (size * (a.length / size))).length = size * (a.length / size) := by
    rw [List.length_take]
    omega
  have whole : (a.take (size * (a.length / size))).length % size = 0 := by
    rw [front, Nat.mul_mod_right]
  have short : (a.drop (size * (a.length / size))).length < size := by
    rw [List.length_drop]
    omega
  rw [cut, List.append_assoc, ofStream_append whole, ofStream_append whole, ofStream_of_short short,
    List.append_nil]
  exact List.prefix_append _ _

/-- **The `n`-th packet is what the `n`-th eight bytes decode to.** -/
theorem getElem?_ofStream (stream : Bytes) (n : Nat) :
    (ofStream stream)[n]? = decode? ((stream.drop (size * n)).take size) := by
  induction stream using ofStream.induct generalizing n with
  | case1 kind b2 b3 b4 t0 t1 t2 t3 rest ih =>
    cases n with
    | zero => rfl
    | succ n => exact ih n
  | case2 stream short =>
    have few := length_lt_size short
    have undecoded : (decode? ((stream.drop (size * n)).take size)).isSome = false := by
      rw [isSome_decode?, beq_eq_false_iff_ne, List.length_take, List.length_drop]
      omega
    rw [ofStream_of_short few, List.getElem?_nil]
    exact (Option.isNone_iff_eq_none.mp (Option.isSome_eq_false_iff.mp undecoded)).symm

/-! ### What is heard of them -/

theorem heard_of_not_ends {a : List Packet} (going : ∀ p ∈ a, p.ending? = none) : heard a = a := by
  induction a with
  | nil => rfl
  | cons p rest ih =>
    have first := going p (List.mem_cons_self ..)
    rw [heard, first, ih fun q mem => going q (List.mem_cons_of_mem p mem)]
    rfl

theorem heard_concat {a : List Packet} (going : ∀ p ∈ a, p.ending? = none) (q : Packet) :
    heard (a ++ [q]) = a ++ [q] := by
  induction a with
  | nil =>
    rw [List.nil_append, heard]
    split <;> rfl
  | cons p rest ih =>
    have first := going p (List.mem_cons_self ..)
    rw [List.cons_append, heard, first, ih fun r mem => going r (List.mem_cons_of_mem p mem)]
    rfl

theorem heard_append_of_ends {a : List Packet} (ends : Ends a) (b : List Packet) :
    heard (a ++ b) = heard a := by
  induction a with
  | nil =>
    obtain ⟨p, mem, _⟩ := ends
    cases mem
  | cons p rest ih =>
    rw [List.cons_append, heard, heard]
    cases first : p.ending?.isSome with
    | true => rfl
    | false =>
      obtain ⟨q, mem, ending⟩ := ends
      have behind : Ends rest := by
        rcases List.mem_cons.mp mem with rfl | mem
        · rw [first] at ending
          cases ending
        · exact ⟨q, mem, ending⟩
      rw [ih behind]

theorem findSome?_append_of_ends {a : List Packet} (ends : Ends a) (b : List Packet) :
    (a ++ b).findSome? ending? = a.findSome? ending? := by
  obtain ⟨p, mem, ending⟩ := ends
  have found : (a.findSome? ending?).isSome := List.findSome?_isSome_iff.mpr ⟨p, mem, ending⟩
  rw [List.findSome?_append]
  cases h : a.findSome? ending? with
  | none => rw [h] at found; cases found
  | some => rfl

theorem findSome?_of_not_ends {a : List Packet} (going : ∀ p ∈ a, p.ending? = none) :
    a.findSome? ending? = none := List.findSome?_eq_none_iff.mpr going

/-- Bytes behind a packet with which the connection ends are not heard. -/
theorem heard_stream_append {stream : Bytes} (ends : Ends (ofStream stream)) (more : Bytes) :
    heard (ofStream (stream ++ more)) = heard (ofStream stream) := by
  obtain ⟨behind, cut⟩ := ofStream_prefix stream more
  rw [← cut, heard_append_of_ends ends]

theorem verdict_append {stream : Bytes} (ends : Ends (ofStream stream)) (more : Bytes) :
    verdict (stream ++ more) = verdict stream := by
  obtain ⟨behind, cut⟩ := ofStream_prefix stream more
  obtain ⟨p, mem, ending⟩ := ends
  have found : ((ofStream stream).findSome? ending?).isSome :=
    List.findSome?_isSome_iff.mpr ⟨p, mem, ending⟩
  obtain ⟨failure, h⟩ := Option.isSome_iff_exists.mp found
  unfold verdict
  rw [← cut, findSome?_append_of_ends ⟨p, mem, ending⟩, h]
  rfl

/-- There are three ways for a stream to end. -/
theorem verdict_mem (stream : Bytes) :
    verdict stream ∈ [.versionMismatch, .connectionTerminated, .malformedPacket] := by
  unfold verdict
  cases found : (ofStream stream).findSome? ending? with
  | some reason =>
    obtain ⟨p, _, ending⟩ := List.exists_of_findSome?_eq_some found
    exact List.mem_append_left [.malformedPacket] (ending?_mem ending)
  | none =>
    rw [Option.getD_none]
    split <;> decide

end SerialLink.Packet
