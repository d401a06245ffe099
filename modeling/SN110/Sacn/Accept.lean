import SN110.Sacn.RoundTrip

/-!
# What the sACN parser accepts

An E1.31 data packet has a vector in each of its three layers and a priority of at most
`SACN_MAX_PRIORITY`. `sacn_parse` looks at the vectors of the root and the DMP layer only.

* `packetFields_sacnRead`: an accepted packet is read field by field.
* `parsesExactly_iff`: where the parser accepts what it should.
-/

namespace SN110

open Memory

/-- `SACN_MAX_PRIORITY`. -/
abbrev sacnMaxPriority : UInt8 := 200

/-- What a datagram has to be to carry slots. -/
structure E131DataPacket (buf : List UInt8) : Prop where
  long : 126 ≤ buf.length
  preamble : load16 buf offPreamble = sacnPreambleSize
  acnId : acnIdMatches buf = true
  rootVector : load32 buf offRootVector = vectorRootE131Data
  frameVector : load32 buf offFrameVector = vectorE131DataPacket
  dmpVector : load buf offDmpVector = vectorDmpSetProperty
  propCount : 1 ≤ load16 buf offDmpPropCount
  priority : load buf offPriority ≤ sacnMaxPriority

/-- The record holds the fields of the packet. The source name is a text: its last byte is the
NUL. -/
structure PacketFields (buf : List UInt8) (pkt : SacnPacket) : Prop where
  cid : ∀ i : Fin 16, pkt.cid[i] = load buf (offCid + i)
  sourceName : ∀ i : Fin 64, pkt.sourceName[i]
    = if i.val = 63 then 0 else load buf (offSourceName + i)
  priority : pkt.priority = load buf offPriority
  sequence : pkt.sequence = load buf offSequence
  dmxUniverse : pkt.dmxUniverse = load16 buf offUniverse
  options : pkt.options = load buf offOptions
  startCode : pkt.startCode = load buf offDmpStartCode
  dmxLength : pkt.dmxLength.toNat
    = min (min ((load16 buf offDmpPropCount).toNat - 1) 512) (buf.length - 126)
  dmxData : ∀ i : Fin 512, i.val < pkt.dmxLength.toNat →
    pkt.dmxData[i] = load buf (offDmpDmxData + i)

/-- The parser accepts the E1.31 data packets and no other datagram, and reads all their fields. -/
structure ParsesExactly (buf : List UInt8) (pkt : SacnPacket) : Prop where
  accepts : (sacnParse buf buf.length pkt).1 = 0 ↔ E131DataPacket buf
  reads : (sacnParse buf buf.length pkt).1 = 0 →
    PacketFields buf (sacnParse buf buf.length pkt).2

/-! ## The fields -/

/-- The length is cut three times: to the property count, to a universe and to the datagram. -/
theorem toNat_sacnDmxLen {propCount : UInt16} {n : Nat} (hprop : ¬ propCount < 1)
    (hmin : 126 ≤ n) (hmax : n < 65536) :
    (sacnDmxLen propCount n).toNat = min (min (propCount.toNat - 1) 512) (n - 126) := by
  rw [UInt16.lt_iff_toNat_lt] at hprop
  have hone : (1 : UInt16).toNat = 1 := rfl
  -- the first two cuts
  have hcut : (if propCount - 1 > 512 then 512 else propCount - 1).toNat
      = min (propCount.toNat - 1) 512 := by
    have hpred : (propCount - 1).toNat = propCount.toNat - 1 :=
      UInt16.toNat_sub_of_le _ _ (UInt16.le_iff_toNat_le.mpr (by omega))
    have h512 : (512 : UInt16).toNat = 512 := rfl
    split_ifs with hlarge
    · rw [gt_iff_lt, UInt16.lt_iff_toNat_lt, hpred] at hlarge
      omega
    · rw [gt_iff_lt, UInt16.lt_iff_toNat_lt, hpred] at hlarge
      omega
  unfold sacnDmxLen
  simp only [offDmpDmxData]
  generalize (if propCount - 1 > 512 then 512 else propCount - 1) = dmxLen at hcut ⊢
  split_ifs with hlong
  · -- a length of at most 512 is left of a datagram that is too short for it
    rw [UInt16.ofInt, UInt16.toNat_ofNat']
    omega
  · omega

/-- What is read from an accepted packet are its fields. -/
theorem packetFields_sacnRead {buf : List UInt8} (h : SacnAccepted buf buf.length)
    (hlen : buf.length < 65536) (pkt : SacnPacket) :
    PacketFields buf (sacnRead buf buf.length pkt) where
  cid i := Vector.getElem_ofFn _
  sourceName i := Vector.getElem_ofFn _
  priority := rfl
  sequence := rfl
  dmxUniverse := rfl
  options := rfl
  startCode := rfl
  dmxLength := by
    have hlong := h.long
    exact toNat_sacnDmxLen h.propCount (by simp only [sacnMinPacketLen] at hlong; omega) hlen
  dmxData i hi := by
    have hdata : (sacnRead buf buf.length pkt).dmxData[i] = _ := Vector.getElem_ofFn _
    rw [hdata]
    exact if_pos hi

/-! ## What is accepted -/

/-- The parser leaves out the framing vector and the priority. -/
theorem e131DataPacket_iff (buf : List UInt8) :
    E131DataPacket buf ↔
      SacnAccepted buf buf.length ∧ load32 buf offFrameVector = vectorE131DataPacket ∧
        load buf offPriority ≤ sacnMaxPriority := by
  have hlong : 126 ≤ buf.length ↔ ¬ (buf.length : Int) < sacnMinPacketLen := by
    simp only [sacnMinPacketLen]
    omega
  have hprop : 1 ≤ load16 buf offDmpPropCount ↔ ¬ load16 buf offDmpPropCount < 1 :=
    UInt16.not_lt.symm
  constructor
  · intro h
    exact ⟨⟨hlong.mp h.long, h.preamble, h.acnId, h.rootVector, h.dmpVector,
      hprop.mp h.propCount⟩, h.frameVector, h.priority⟩
  · rintro ⟨h, hframe, hpriority⟩
    exact ⟨hlong.mpr h.long, h.preamble, h.acnId, h.rootVector, hframe, h.dmpVector,
      hprop.mpr h.propCount, hpriority⟩

/-- `sacn_parse` returns 0 exactly for an accepted packet. -/
theorem sacnParse_accepts_iff (buf : List UInt8) (len : Int) (pkt : SacnPacket) :
    (sacnParse buf len pkt).1 = 0 ↔ SacnAccepted buf len := by
  constructor
  · exact accepted_of_sacnParse
  · intro h
    rw [sacnParse_accepted h]

/-- **Where the parser accepts what it should**: unless a datagram passes its tests with another
framing vector or a priority out of range. -/
theorem parsesExactly_iff (buf : List UInt8) (pkt : SacnPacket) (hlen : buf.length ≤ 638) :
    ParsesExactly buf pkt ↔
      (SacnAccepted buf buf.length → load32 buf offFrameVector = vectorE131DataPacket ∧
        load buf offPriority ≤ sacnMaxPriority) := by
  constructor
  · intro h haccepted
    have hret := (sacnParse_accepts_iff buf buf.length pkt).mpr haccepted
    exact ((e131DataPacket_iff buf).mp (h.accepts.mp hret)).2
  · intro h
    refine ⟨?_, fun hret => ?_⟩
    · rw [sacnParse_accepts_iff, e131DataPacket_iff]
      exact ⟨fun haccepted => ⟨haccepted, h haccepted⟩, And.left⟩
    · have haccepted := accepted_of_sacnParse hret
      rw [sacnParse_accepted haccepted]
      exact packetFields_sacnRead haccepted (by omega) pkt

/-- What the transmitter builds with a priority: one slot at full. -/
def fullSlotPacket (priority : UInt8) : List UInt8 :=
  sacnTxFill { sampleTx with priority := priority } [255] 1 (List.replicate 127 0)

/-- The example packet has one slot. -/
theorem length_fullSlotPacket (priority : UInt8) : (fullSlotPacket priority).length = 127 := by
  unfold fullSlotPacket
  rw [length_sacnTxFill, List.length_replicate]

/-- It is accepted, whatever its priority. -/
theorem accepted_fullSlotPacket (priority : UInt8) :
    SacnAccepted (fullSlotPacket priority) (fullSlotPacket priority).length := by
  rw [length_fullSlotPacket]
  have hparse := sacnParse_sacnTxFill (by decide : 1 ≤ 512) (by decide : 1 ≤ [(255 : UInt8)].length)
    blankSacnPacket (rfl : fullSlotPacket priority = _)
  exact accepted_of_sacnParse (congrArg Prod.fst hparse)

/-- It has the priority given. -/
theorem priority_fullSlotPacket (priority : UInt8) :
    load (fullSlotPacket priority) offPriority = priority :=
  load_sacnTxFill_priority (by simp)

/-- It has the data packet's framing vector. -/
theorem frameVector_fullSlotPacket (priority : UInt8) :
    load32 (fullSlotPacket priority) offFrameVector = vectorE131DataPacket :=
  load32_sacnTxFill_frameVector (by simp)

/-- With priority 100 it is parsed exactly: accepted, with all its fields read. -/
theorem parsesExactly_fullSlotPacket : ParsesExactly (fullSlotPacket 100) blankSacnPacket := by
  refine (parsesExactly_iff _ _ (by rw [length_fullSlotPacket]; decide)).mpr fun _ => ?_
  rw [frameVector_fullSlotPacket, priority_fullSlotPacket]
  decide

/-- A priority of 201 is accepted. -/
theorem highPriority_accepted :
    (fullSlotPacket 201).length ≤ 638 ∧
      (sacnParse (fullSlotPacket 201) (fullSlotPacket 201).length blankSacnPacket).1 = 0 ∧
      ¬ ParsesExactly (fullSlotPacket 201) blankSacnPacket := by
  have hlen : (fullSlotPacket 201).length ≤ 638 := by
    rw [length_fullSlotPacket]
    decide
  refine ⟨hlen, (sacnParse_accepts_iff _ _ _).mpr (accepted_fullSlotPacket 201), fun h => ?_⟩
  have hpriority := ((e131DataPacket_iff _).mp (h.accepts.mp
    ((sacnParse_accepts_iff _ _ _).mpr (accepted_fullSlotPacket 201)))).2.2
  rw [priority_fullSlotPacket] at hpriority
  exact absurd hpriority (by decide)

end SN110
