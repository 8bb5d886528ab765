import KeemashCore.Crc.Basic
import KeemashCore.Mesh.Validators

/-!
# Bursts of bit errors

The loops of `crc16_update` feed a register of sixteen bits, the most significant bit of
each byte first, with a generator that has a constant term.  A packet whose header stands
as it was sent, and whose payload differs in a burst of at most sixteen bits, is rejected.
-/

namespace KeemashCore.Rel

open LittleEndian

/-! ## The loops as a register -/

/-- The generator of `crc16_update` without its leading term. -/
def crc16Poly : BitVec 16 := 0x1021#16

/-- The bits of a byte, the most significant first. -/
def byteBits (byte : UInt8) : List Bool :=
  (List.range 8).map byte.toBitVec.getMsbD

/-- The bits of a byte string. -/
def bitsOf (data : List UInt8) : List Bool :=
  data.flatMap byteBits

@[simp] theorem length_byteBits (byte : UInt8) : (byteBits byte).length = 8 := by
  rw [byteBits, List.length_map, List.length_range]

theorem byteBits_injective : Function.Injective byteBits := by
  intro a b h
  apply UInt8.toBitVec_inj.1
  apply BitVec.eq_of_getMsbD_eq
  intro i hi
  have hbit := congrArg (fun bits => bits[i]?) h
  simpa [byteBits, hi] using hbit

theorem length_bitsOf (data : List UInt8) : (bitsOf data).length = 8 * data.length := by
  induction data with
  | nil => rfl
  | cons byte data ih =>
      rw [bitsOf, List.flatMap_cons, List.length_append, length_byteBits, List.length_cons,
        ← bitsOf, ih]
      omega

theorem bitsOf_injective : Function.Injective bitsOf := by
  intro xs
  induction xs with
  | nil =>
      intro ys h
      have hlength := congrArg List.length h
      rw [length_bitsOf, length_bitsOf, List.length_nil] at hlength
      exact (List.length_eq_zero_iff.1 (by omega)).symm
  | cons x xs ih =>
      intro ys h
      cases ys with
      | nil =>
          have hlength := congrArg List.length h
          rw [length_bitsOf, length_bitsOf, List.length_cons, List.length_nil] at hlength
          omega
      | cons y ys =>
          rw [bitsOf, bitsOf, List.flatMap_cons, List.flatMap_cons] at h
          obtain ⟨hfirst, hrest⟩ := List.append_inj h (by rw [length_byteBits, length_byteBits])
          rw [byteBits_injective hfirst, ih hrest]

theorem crc16Bit_eq : crc16Bit = Crc.step crc16Poly := by
  funext crc
  have hmask : crc &&& 0x8000#16 = if crc.msb then 0x8000#16 else 0#16 := by
    rw [BitVec.msb_eq_getLsbD_last]
    exact BitVec.and_twoPow crc 15
  rw [crc16Bit, Crc.step, hmask]
  cases crc.msb <;> rfl

theorem load_byteBits (byte : UInt8) :
    Crc.load 16 (byteBits byte) = byte.toBitVec.setWidth 16 <<< 8 := by
  apply BitVec.eq_of_getMsbD_eq
  intro i hi
  rw [Crc.getMsbD_load hi, BitVec.getMsbD_shiftLeft, BitVec.getMsbD_setWidth]
  have hplace : i + 8 + 8 - 16 = i := by omega
  by_cases hlow : i < 8
  · rw [List.getD_eq_getElem _ _ (by rwa [length_byteBits])]
    simp [byteBits, hplace]
  · rw [List.getD_eq_default _ _ (by rw [length_byteBits]; omega), hplace,
      BitVec.getMsbD_of_ge _ _ (by omega), Bool.and_false]

theorem crc16Byte_eq (crc : BitVec 16) (byte : UInt8) :
    crc16Byte crc byte = Crc.register crc16Poly crc (byteBits byte) := by
  have hfits : (byteBits byte).length ≤ 16 := by
    rw [length_byteBits]
    decide
  rw [Crc.register_eq_iterate hfits, load_byteBits, length_byteBits, crc16Byte, crc16Bit_eq]

theorem crc16Update_eq (crc : BitVec 16) (data : List UInt8) :
    crc16Update crc data = Crc.register crc16Poly crc (bitsOf data) := by
  induction data generalizing crc with
  | nil => rfl
  | cons byte data ih =>
      rw [bitsOf, List.flatMap_cons, Crc.register_append, ← crc16Byte_eq, ← bitsOf, ← ih]
      rfl

/-! ## Packets with a burst -/

/-- The header is what the first bytes say. -/
theorem WireHdr.read_take (packet : List UInt8) :
    WireHdr.read (packet.take hdrSize) = WireHdr.read packet := by
  have hsize : hdrSize = 26 := rfl
  simp only [WireHdr.read]
  rw [wordAt_take (by omega), wordAt_take (by omega), wordAt_take (by omega),
    wordAt_take (by omega), wordAt_take (by omega), wordAt_take (by omega),
    wordAt_take (by omega), wordAt_take (by omega), wordAt_take (by omega),
    wordAt_take (by omega)]

/-- A packet whose payload has been hit by a burst of at most sixteen bits. -/
structure PayloadBurst (packet packet' : List UInt8) : Prop where
  header_eq : packet'.take hdrSize = packet.take hdrSize
  burst : Crc.Burst 16 (bitsOf (packet.drop hdrSize)) (bitsOf (packet'.drop hdrSize))

theorem packetValid_isSome {packet : List UInt8} (h : (packetValid packet).isSome) :
    hdrSize ≤ packet.length ∧
      packet.length = hdrSize + (WireHdr.read packet).payloadLen.toNat ∧
      packetCrc (WireHdr.read packet) (packet.drop hdrSize) = (WireHdr.read packet).crc16 := by
  rw [packetValid] at h
  split at h
  · cases h
  next hlong =>
    dsimp only at h
    split at h
    · cases h
    next hfields =>
      split at h
      · cases h
      next hcrc =>
        simp only [not_or, not_not] at hfields
        exact ⟨Nat.le_of_not_lt hlong, hfields.2.2.2, not_not.mp hcrc⟩

/-- The CRC of a packet sees a burst in its payload. -/
theorem packetCrc_ne_of_burst (h : WireHdr) {payload payload' : List UInt8}
    (hlength : payload.length = h.payloadLen.toNat)
    (hburst : Crc.Burst 16 (bitsOf payload) (bitsOf payload')) :
    packetCrc h payload ≠ packetCrc h payload' := by
  have hlength' : payload'.length = h.payloadLen.toNat := by
    have hbits := hburst.length_eq
    rw [length_bitsOf, length_bitsOf] at hbits
    omega
  rw [packetCrc, packetCrc, ← hlength, List.take_length, hlength, ← hlength', List.take_length,
    crc16Update_eq _ payload, crc16Update_eq _ payload']
  exact Crc.register_ne_of_burst (by decide) _ hburst

/-- A packet that is accepted is not accepted any more after a burst of at most sixteen
bits in its payload, wherever the burst is. -/
theorem burst_rejected {packet packet' : List UInt8} (hvalid : (packetValid packet).isSome)
    (hburst : PayloadBurst packet packet') : packetValid packet' = none := by
  obtain ⟨hlong, hlength, hcrc⟩ := packetValid_isSome hvalid
  have hread : WireHdr.read packet' = WireHdr.read packet := by
    rw [← WireHdr.read_take packet', hburst.header_eq, WireHdr.read_take]
  have hpayload : (packet.drop hdrSize).length = (WireHdr.read packet).payloadLen.toNat := by
    rw [List.length_drop]
    omega
  have hne := packetCrc_ne_of_burst (WireHdr.read packet) hpayload hburst.burst
  by_contra hsome
  have hvalid' : (packetValid packet').isSome := Option.isSome_iff_ne_none.2 hsome
  obtain ⟨-, -, hcrc'⟩ := packetValid_isSome hvalid'
  rw [hread] at hcrc'
  exact hne (hcrc.trans hcrc'.symm)

/-- A packet with a payload of three bytes. -/
def threeBytes (payload : List UInt8) : List UInt8 :=
  { plainHdr 0x0605040302017#48 typeReliableAck 7#32 3 with
    crc16 := packetCrc (plainHdr 0x0605040302017#48 typeReliableAck 7#32 3)
      [0x41, 0x42, 0x43] }.bytes ++ payload

/-- Bits of all three bytes have changed, the first and the last of sixteen in a row among
them. -/
theorem burst_rejected_threeBytes :
    (packetValid (threeBytes [0x41, 0x42, 0x43])).isSome ∧
      packetValid (threeBytes [0x40, 0xff, 0x41]) = none :=
  ⟨by decide +kernel,
    @burst_rejected (threeBytes [0x41, 0x42, 0x43]) (threeBytes [0x40, 0xff, 0x41])
      (by decide +kernel)
      ⟨by decide +kernel,
        Crc.burst_of_lt 7 (by decide +kernel) (by decide +kernel) (by decide +kernel)⟩⟩

end KeemashCore.Rel
