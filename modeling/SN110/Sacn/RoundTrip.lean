import SN110.Sacn.Parse
import SN110.Sacn.Tx

/-!
# What the sACN transmitter builds, the receiver parses back

`sacn_tx_build_packet` and `sacn_parse` are written separately and share only the offsets.
The section `Fill` reads each field back out of the filled buffer: the stores go up through
the packet, so every later store lies above the field and `load…_store_before` strips it.
`sacnTx_roundTrip` assembles the fields into the round trip.
-/

namespace SN110

open Memory

/-! ## Reading the filled buffer -/

section Fill

variable (tx : SacnTx) (dmxData : List UInt8) (n : Nat) (buf : List UInt8)

@[simp] theorem length_sacnTxFill : (sacnTxFill tx dmxData n buf).length = buf.length := by
  simp [sacnTxFill]

variable {tx dmxData n buf} (hbuf : 126 ≤ buf.length)
include hbuf

/-- The packet starts with the preamble size. -/
theorem load16_sacnTxFill_preamble :
    load16 (sacnTxFill tx dmxData n buf) offPreamble = sacnPreambleSize := by
  simp (disch := decide) only [sacnTxFill, store8, load16_store_before]
  exact load16_store_be16 (by simp; omega)

/-- The ACN identifier stands at its place. -/
theorem load_sacnTxFill_acnId {i : Nat} (hi : i < 12) :
    load (sacnTxFill tx dmxData n buf) (offAcnId + i) = load sacnAcnIdentifier i := by
  have hlen : sacnAcnIdentifier.length = 12 := rfl
  simp (disch := omega) only [sacnTxFill, store8, load_store_before, offAcnId, offRootFlagsLen,
    offRootVector, offCid, offFrameFlagsLen, offFrameVector, offSourceName, offPriority,
    offSyncAddr, offSequence, offOptions, offUniverse, offDmpFlagsLen, offDmpVector,
    offDmpAddrData, offDmpFirstAddr, offDmpAddrInc, offDmpPropCount, offDmpStartCode,
    offDmpDmxData]
  -- what is left is the store of the identifier itself
  rw [load_store_self (by omega) (by omega) (by simp; omega), Nat.add_sub_cancel_left]

/-- The root layer's length is the one of `n` slots. -/
theorem load16_sacnTxFill_rootFlagsLen :
    load16 (sacnTxFill tx dmxData n buf) offRootFlagsLen = flagsLen (rootPduLen n) := by
  simp (disch := decide) only [sacnTxFill, store8, load16_store_before]
  exact load16_store_be16 (by simp; omega)

/-- The root vector is that of E1.31 data. -/
theorem load32_sacnTxFill_rootVector :
    load32 (sacnTxFill tx dmxData n buf) offRootVector = vectorRootE131Data := by
  simp (disch := decide) only [sacnTxFill, store8, load32_store_before]
  exact load32_store_be32 (by simp; omega)

/-- The packet carries the sender's CID. -/
theorem load_sacnTxFill_cid {i : Nat} (hi : i < 16) :
    load (sacnTxFill tx dmxData n buf) (offCid + i) = tx.cid[i] := by
  simp (disch := omega) only [sacnTxFill, store8, load_store_before, offCid, offFrameFlagsLen,
    offFrameVector, offSourceName, offPriority, offSyncAddr, offSequence, offOptions,
    offUniverse, offDmpFlagsLen, offDmpVector, offDmpAddrData, offDmpFirstAddr, offDmpAddrInc,
    offDmpPropCount, offDmpStartCode, offDmpDmxData]
  rw [load_store_self (by omega) (by simp; omega) (by simp; omega), Nat.add_sub_cancel_left,
    load_eq_getElem (by simpa using hi), Vector.getElem_toList]

/-- The framing layer's length is the one of `n` slots. -/
theorem load16_sacnTxFill_frameFlagsLen :
    load16 (sacnTxFill tx dmxData n buf) offFrameFlagsLen = flagsLen (framingPduLen n) := by
  simp (disch := decide) only [sacnTxFill, store8, load16_store_before]
  exact load16_store_be16 (by simp; omega)

/-- The framing vector is that of a data packet. -/
theorem load32_sacnTxFill_frameVector :
    load32 (sacnTxFill tx dmxData n buf) offFrameVector = vectorE131DataPacket := by
  simp (disch := decide) only [sacnTxFill, store8, load32_store_before]
  exact load32_store_be32 (by simp; omega)

/-- The packet carries all 64 bytes of the source name. -/
theorem load_sacnTxFill_sourceName {i : Nat} (hi : i < 64) :
    load (sacnTxFill tx dmxData n buf) (offSourceName + i) = tx.sourceName[i] := by
  simp (disch := omega) only [sacnTxFill, store8, load_store_before, offSourceName, offPriority,
    offSyncAddr, offSequence, offOptions, offUniverse, offDmpFlagsLen, offDmpVector,
    offDmpAddrData, offDmpFirstAddr, offDmpAddrInc, offDmpPropCount, offDmpStartCode,
    offDmpDmxData]
  rw [load_store_self (by omega) (by simp; omega) (by simp; omega), Nat.add_sub_cancel_left,
    load_eq_getElem (by simpa using hi), Vector.getElem_toList]

/-- The packet carries the sender's priority. -/
theorem load_sacnTxFill_priority :
    load (sacnTxFill tx dmxData n buf) offPriority = tx.priority := by
  simp (disch := decide) only [sacnTxFill, load_store_before, load_store8_before]
  exact load_store8 (by simp; omega)

/-- The packet carries the sender's sequence number. -/
theorem load_sacnTxFill_sequence :
    load (sacnTxFill tx dmxData n buf) offSequence = tx.sequence := by
  simp (disch := decide) only [sacnTxFill, load_store_before, load_store8_before]
  exact load_store8 (by simp; omega)

/-- The packet carries the sender's universe. -/
theorem load16_sacnTxFill_universe :
    load16 (sacnTxFill tx dmxData n buf) offUniverse = tx.dmxUniverse := by
  simp (disch := decide) only [sacnTxFill, store8, load16_store_before]
  exact load16_store_be16 (by simp; omega)

/-- The DMP layer's length is the one of `n` slots. -/
theorem load16_sacnTxFill_dmpFlagsLen :
    load16 (sacnTxFill tx dmxData n buf) offDmpFlagsLen = flagsLen (dmpPduLen n) := by
  simp (disch := decide) only [sacnTxFill, store8, load16_store_before]
  exact load16_store_be16 (by simp; omega)

/-- The DMP vector is that of set property. -/
theorem load_sacnTxFill_dmpVector :
    load (sacnTxFill tx dmxData n buf) offDmpVector = vectorDmpSetProperty := by
  simp (disch := decide) only [sacnTxFill, load_store_before, load_store8_before]
  exact load_store8 (by simp; omega)

/-- The property count is the start code and the slots. -/
theorem load16_sacnTxFill_propCount :
    load16 (sacnTxFill tx dmxData n buf) offDmpPropCount = UInt16.ofNat (1 + n) := by
  simp (disch := decide) only [sacnTxFill, store8, load16_store_before]
  exact load16_store_be16 (by simp; omega)

/-- The start code is 0. -/
theorem load_sacnTxFill_startCode :
    load (sacnTxFill tx dmxData n buf) offDmpStartCode = 0 := by
  simp (disch := decide) only [sacnTxFill, load_store_before]
  exact load_store8 (by simp; omega)

omit hbuf in
/-- The slots stand behind the start code, in order. -/
theorem load_sacnTxFill_dmxData {i : Nat} (hi : i < n) (hdata : n ≤ dmxData.length)
    (hbuf : 126 + n ≤ buf.length) :
    load (sacnTxFill tx dmxData n buf) (offDmpDmxData + i) = dmxData[i] := by
  rw [sacnTxFill, load_store_self (by omega) (by simp; omega) (by simp; omega),
    Nat.add_sub_cancel_left, load_eq_getElem (by simp; omega), List.getElem_take]

/-- The parser's comparison of the identifier succeeds. -/
theorem acnIdMatches_sacnTxFill : acnIdMatches (sacnTxFill tx dmxData n buf) = true := by
  rw [acnIdMatches, List.all_eq_true]
  intro i hi
  rw [List.mem_range] at hi
  rw [load_sacnTxFill_acnId hbuf hi, beq_self_eq_true]

end Fill

/-! ## Lengths -/

/-- The PDU length a flags-and-length field announces: its low 12 bits. -/
def pduLength (buf : List UInt8) (off : Nat) : Nat := (load16 buf off).toNat % 4096

/-- The low twelve bits of flags and length are the length. -/
theorem flagsLen_low12 {len : Nat} (h : len < 4096) : (flagsLen len).toNat % 4096 = len := by
  have hor : (0x7000 ||| len) % 2 ^ 12 = len := by
    rw [Nat.or_mod_two_pow, Nat.mod_eq_of_lt (show len < 2 ^ 12 from h)]
    simp
  -- the flags take the top four bits, so the `|` stays within 16
  have hlt : 0x7000 ||| len < 2 ^ 16 :=
    Nat.or_lt_two_pow (by decide) (by omega)
  rw [flagsLen, UInt16.toNat_ofNat', Nat.mod_eq_of_lt hlt]
  exact hor

/-- A property count of `1 + n` in a datagram of `126 + n` bytes announces `n` channels. -/
theorem sacnDmxLen_of_exact {n : Nat} (hn : n ≤ 512) :
    sacnDmxLen (UInt16.ofNat (1 + n)) (126 + n : Nat) = UInt16.ofNat n := by
  have hpred : UInt16.ofNat (1 + n) - 1 = UInt16.ofNat n := by
    apply UInt16.toNat_inj.mp
    simp only [UInt16.toNat_sub, UInt16.toNat_ofNat']
    simp
    omega
  have hle : ¬ UInt16.ofNat n > 512 := by
    rw [gt_iff_lt, UInt16.lt_iff_toNat_lt, UInt16.toNat_ofNat']
    simp
    omega
  have hval : (UInt16.ofNat n).toNat = n := by
    rw [UInt16.toNat_ofNat']
    omega
  simp only [sacnDmxLen, hpred, if_neg hle, hval]
  -- the datagram ends exactly behind the last channel: nothing is cut
  rw [if_neg (by simp only [offDmpDmxData]; omega)]

/-! ## The builder's result -/

theorem totalLen_eq (n : Nat) : 16 + rootPduLen n = 126 + n := by
  simp only [rootPduLen, framingPduLen, dmpPduLen]
  omega

/-- With room for it the packet is built and its length returned. -/
theorem sacnTxBuildPacket_of_fits {tx : SacnTx} {dmxData : List UInt8} {n : Nat} {bufSize : Int}
    (hn : n ≤ 512) (hfit : 126 + n ≤ bufSize) :
    sacnTxBuildPacket tx dmxData n bufSize =
      (((126 + n : Nat) : Int), sacnTxFill tx dmxData n (List.replicate (126 + n) 0)) := by
  simp only [sacnTxBuildPacket, if_neg (show ¬ n > 512 by omega), totalLen_eq]
  rw [if_neg (by omega)]

/-- With less room nothing is written, and -1 returned. -/
theorem sacnTxBuildPacket_of_short {tx : SacnTx} {dmxData : List UInt8} {n : Nat} {bufSize : Int}
    (hn : n ≤ 512) (hshort : bufSize < 126 + n) :
    sacnTxBuildPacket tx dmxData n bufSize = (-1, []) := by
  simp only [sacnTxBuildPacket, if_neg (show ¬ n > 512 by omega), totalLen_eq]
  rw [if_pos (by omega)]

/-! ## The parser on a built packet -/

/-- `sacn_parse` accepts the filled packet and copies every field out of it. -/
theorem sacnParse_sacnTxFill {tx : SacnTx} {dmxData buf : List UInt8} {n : Nat} (hn : n ≤ 512)
    (hdata : n ≤ dmxData.length) (pkt : SacnPacket)
    (hfill : buf = sacnTxFill tx dmxData n (List.replicate (126 + n) 0)) :
    sacnParse buf ((126 + n : Nat) : Int) pkt =
      (0, { cid := tx.cid
            sourceName := tx.sourceName
            priority := tx.priority
            sequence := tx.sequence
            dmxUniverse := tx.dmxUniverse
            options := load buf offOptions
            startCode := 0
            dmxData := Vector.ofFn fun i : Fin 512 =>
              if h : i.val < n then dmxData[i.val] else pkt.dmxData[i]
            dmxLength := UInt16.ofNat n }) := by
  have hbuf : 126 ≤ (List.replicate (126 + n) (0 : UInt8)).length := by simp
  have hprop : load16 buf offDmpPropCount = UInt16.ofNat (1 + n) := by
    rw [hfill, load16_sacnTxFill_propCount hbuf]
  have hpos : ¬ UInt16.ofNat (1 + n) < 1 := by
    rw [UInt16.lt_iff_toNat_lt, UInt16.toNat_ofNat']
    simp
    omega
  have hlen : (UInt16.ofNat n).toNat = n := by
    rw [UInt16.toNat_ofNat']
    omega
  have hcid : (Vector.ofFn fun i : Fin 16 => load buf (offCid + i)) = tx.cid := by
    apply Vector.ext
    intro i hi
    rw [Vector.getElem_ofFn, hfill, load_sacnTxFill_cid hbuf hi]
  have hname : (Vector.ofFn fun i : Fin 64 =>
      if i.val = 63 then 0 else load buf (offSourceName + i)) = tx.sourceName := by
    apply Vector.ext
    intro i hi
    rw [Vector.getElem_ofFn]
    -- the parser puts a NUL at byte 63, where the transmitter's name has one
    by_cases h63 : i = 63
    · subst h63
      rw [if_pos rfl, tx.sourceName_nul]
    · rw [if_neg h63, hfill, load_sacnTxFill_sourceName hbuf hi]
  have hdmx : (Vector.ofFn fun i : Fin 512 =>
      if i.val < n then load buf (offDmpDmxData + i) else pkt.dmxData.get i) =
      Vector.ofFn fun i : Fin 512 => if h : i.val < n then dmxData[i.val] else pkt.dmxData[i] := by
    apply Vector.ext
    intro i hi
    rw [Vector.getElem_ofFn, Vector.getElem_ofFn]
    by_cases h : i < n
    · rw [if_pos h, dif_pos h, hfill, load_sacnTxFill_dmxData h hdata (by simp)]
    · rw [if_neg h, dif_neg h]
      rfl
  have hpreamble : load16 buf offPreamble = sacnPreambleSize := by
    rw [hfill, load16_sacnTxFill_preamble hbuf]
  have hacn : acnIdMatches buf = true := by
    rw [hfill, acnIdMatches_sacnTxFill hbuf]
  have hroot : load32 buf offRootVector = vectorRootE131Data := by
    rw [hfill, load32_sacnTxFill_rootVector hbuf]
  have hdmp : load buf offDmpVector = vectorDmpSetProperty := by
    rw [hfill, load_sacnTxFill_dmpVector hbuf]
  have hprio : load buf offPriority = tx.priority := by
    rw [hfill, load_sacnTxFill_priority hbuf]
  have hseq : load buf offSequence = tx.sequence := by
    rw [hfill, load_sacnTxFill_sequence hbuf]
  have huni : load16 buf offUniverse = tx.dmxUniverse := by
    rw [hfill, load16_sacnTxFill_universe hbuf]
  have hstart : load buf offDmpStartCode = 0 := by
    rw [hfill, load_sacnTxFill_startCode hbuf]
  have hmin : ¬ ((126 + n : Nat) : Int) < sacnMinPacketLen := by
    simp only [sacnMinPacketLen]
    omega
  -- the tests are passed in the parser's order, then the record is the fields read above
  unfold sacnParse
  rw [if_neg hmin, if_neg (not_not_intro hpreamble), if_neg (by rw [hacn]; decide),
    if_neg (not_not_intro hroot)]
  simp only [hdmp, ne_eq, not_true_eq_false, if_false, hprop, if_neg hpos,
    sacnDmxLen_of_exact hn, hlen, hcid, hname, hdmx, hprio, hseq, huni, hstart]

/-- The first `n` channels come from the payload; what follows them is the old record's. -/
theorem take_parsed_slots {dmxData : List UInt8} {n : Nat} (hn : n ≤ 512)
    (hdata : n ≤ dmxData.length) (held : Slots) :
    (Vector.ofFn fun i : Fin 512 => if h : i.val < n then dmxData[i.val] else held[i]).toList.take n
      = dmxData.take n := by
  apply List.ext_getElem
  · rw [List.length_take, List.length_take, Vector.length_toList]
    omega
  · intro i hi hi'
    have hin : i < n := by
      rw [List.length_take] at hi
      omega
    simp [hin]

/-- **Encode, then decode.** For every transmitter state and every payload of at most 512
bytes, a large enough buffer receives a packet of exactly `126 + n` bytes whose three length
fields reach to its end and which `sacn_parse` reads back unchanged; a smaller buffer is
refused. -/
theorem sacnTx_roundTrip (tx : SacnTx) (dmxData : List UInt8) (n : Nat) (hn : n ≤ 512)
    (hdata : n ≤ dmxData.length) (bufSize : Int) (pkt : SacnPacket) :
    (126 + n ≤ bufSize →
      let out := sacnTxBuildPacket tx dmxData n bufSize
      let res := sacnParse out.2 out.1 pkt
      (out.1 = 126 + n ∧ out.2.length = 126 + n) ∧
      (pduLength out.2 offRootFlagsLen = out.2.length - offRootFlagsLen ∧
        pduLength out.2 offFrameFlagsLen = out.2.length - offFrameFlagsLen ∧
        pduLength out.2 offDmpFlagsLen = out.2.length - offDmpFlagsLen) ∧
      res.1 = 0 ∧ res.2.cid = tx.cid ∧ res.2.sourceName = tx.sourceName ∧
      res.2.priority = tx.priority ∧ res.2.sequence = tx.sequence ∧
      res.2.dmxUniverse = tx.dmxUniverse ∧ res.2.startCode = 0 ∧
      res.2.dmxLength.toNat = n ∧ res.2.dmxData.toList.take n = dmxData.take n) ∧
    (bufSize < 126 + n → (sacnTxBuildPacket tx dmxData n bufSize).1 = -1) := by
  refine ⟨fun hfit => ?_, fun hshort => by rw [sacnTxBuildPacket_of_short hn hshort]⟩
  obtain ⟨buf, hfill⟩ : ∃ buf, buf = sacnTxFill tx dmxData n (List.replicate (126 + n) 0) :=
    ⟨_, rfl⟩
  -- from here on the packet is a variable, so that no rewriting goes into its stores
  have hbuf : 126 ≤ (List.replicate (126 + n) (0 : UInt8)).length := by simp
  have hout : buf.length = 126 + n := by simp [hfill]
  rw [sacnTxBuildPacket_of_fits hn hfit, ← hfill]
  simp only [sacnParse_sacnTxFill hn hdata pkt hfill, hout]
  refine ⟨⟨by omega, trivial⟩, ⟨?_, ?_, ?_⟩, ?_⟩
  · rw [pduLength, hfill, load16_sacnTxFill_rootFlagsLen hbuf, flagsLen_low12] <;>
      simp only [rootPduLen, framingPduLen, dmpPduLen, offRootFlagsLen] <;> omega
  · rw [pduLength, hfill, load16_sacnTxFill_frameFlagsLen hbuf, flagsLen_low12] <;>
      simp only [framingPduLen, dmpPduLen, offFrameFlagsLen] <;> omega
  · rw [pduLength, hfill, load16_sacnTxFill_dmpFlagsLen hbuf, flagsLen_low12] <;>
      simp only [dmpPduLen, offDmpFlagsLen] <;> omega
  · have hlen : (UInt16.ofNat n).toNat = n := by
      rw [UInt16.toNat_ofNat']
      omega
    exact ⟨trivial, trivial, trivial, trivial, trivial, trivial, trivial, hlen,
      take_parsed_slots hn hdata pkt.dmxData⟩

/-- A transmitter on universe 7, as `sacn_tx_init` leaves it but for the CID. -/
def sampleTx : SacnTx where
  sequence := 99
  dmxUniverse := 7
  cid := Vector.replicate 16 0xBB
  sourceName := Vector.replicate 64 0
  priority := 150
  sourceName_nul := nul_replicate

/-- A packet record before the first datagram. -/
def blankSacnPacket : SacnPacket where
  cid := Vector.replicate 16 0
  sourceName := Vector.replicate 64 0
  priority := 0
  sequence := 0
  dmxUniverse := 0
  options := 0
  startCode := 0
  dmxData := Vector.replicate 512 0
  dmxLength := 0

/-- Two slots built into the sender's buffer and parsed again. -/
theorem sacnTx_roundTrip_two_slots :
    let out := sacnTxBuildPacket sampleTx [255, 128] 2 638
    let res := sacnParse out.2 out.1 blankSacnPacket
    out.1 = 128 ∧ res.1 = 0 ∧ res.2.dmxUniverse = 7 ∧ res.2.dmxData.toList.take 2 = [255, 128] := by
  obtain ⟨hfits, -⟩ := sacnTx_roundTrip sampleTx [255, 128] 2 (by decide) (by decide) 638
    blankSacnPacket
  obtain ⟨⟨hret, -⟩, -, hok, -, -, -, -, huni, -, -, hdata⟩ := hfits (by decide)
  exact ⟨hret, hok, huni, hdata⟩

end SN110
