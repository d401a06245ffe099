import SN110.Sacn.RoundTrip
import SN110.Minilib.Text

/-!
# The test sender's packet builder (`sacn_sender.py`)

`build_sacn_packet` puts a packet together from its fields, with PDU lengths of its own.
`sacn_tx_build_packet` is said to be compatible with it. Both packets are a `sacnWire`, and they
differ in the lengths they give it.

* `sacnTxFill_cleared` and `buildSacnPacket_eq`: the two packets as fields in a row.
* `buildSacnPacket_ne`: the packets are never equal, and what the difference is.
-/

namespace SN110

open Memory

/-- A data packet with full-size fields, one behind the other, and these flags-and-length words. -/
def sacnWire (rootLen framingLen dmpLen : UInt16) (cid sourceName : List UInt8)
    (priority sequence : UInt8) (dmxUniverse : UInt16) (slots : List UInt8) : List UInt8 :=
  be16 sacnPreambleSize ++ be16 0 ++ sacnAcnIdentifier ++
    be16 rootLen ++ be32 vectorRootE131Data ++ cid ++
    be16 framingLen ++ be32 vectorE131DataPacket ++ sourceName ++ [priority] ++ be16 0 ++
    [sequence] ++ [0] ++ be16 dmxUniverse ++
    be16 dmpLen ++ [vectorDmpSetProperty] ++ [0xA1] ++ be16 0 ++ be16 1 ++
    be16 (UInt16.ofNat (1 + slots.length)) ++ [0] ++ slots

/-- A packet of the sender has 126 bytes before its slots. -/
theorem length_sacnWire {cid sourceName slots : List UInt8} (hcid : cid.length = 16)
    (hname : sourceName.length = 64) (rootLen framingLen dmpLen : UInt16)
    (priority sequence : UInt8) (dmxUniverse : UInt16) :
    (sacnWire rootLen framingLen dmpLen cid sourceName priority sequence dmxUniverse slots).length
      = 126 + slots.length := by
  have hid : sacnAcnIdentifier.length = 12 := rfl
  unfold sacnWire
  simp only [List.length_append]
  simp only [length_be16, length_be32, List.length_singleton]
  rw [hid, hcid, hname]

/-- What `sacn_tx_build_packet` stores, as fields in a row. -/
theorem sacnTxFill_cleared (tx : SacnTx) {dmxData : List UInt8} {n : Nat}
    (h : n ≤ dmxData.length) :
    sacnTxFill tx dmxData n (List.replicate (126 + n) 0)
      = sacnWire (flagsLen (rootPduLen n)) (flagsLen (framingPduLen n)) (flagsLen (dmpPduLen n))
          tx.cid.toList tx.sourceName.toList tx.priority tx.sequence tx.dmxUniverse
          (dmxData.take n) := by
  have hslots : (dmxData.take n).length = n := List.length_take_of_le h
  -- the stores, each with its place
  obtain ⟨fields, hfields⟩ : ∃ fields : List (Nat × List UInt8), fields =
    [(offPreamble, be16 sacnPreambleSize), (offPostamble, be16 0), (offAcnId, sacnAcnIdentifier),
      (offRootFlagsLen, be16 (flagsLen (rootPduLen n))), (offRootVector, be32 vectorRootE131Data),
      (offCid, tx.cid.toList), (offFrameFlagsLen, be16 (flagsLen (framingPduLen n))),
      (offFrameVector, be32 vectorE131DataPacket), (offSourceName, tx.sourceName.toList),
      (offPriority, [tx.priority]), (offSyncAddr, be16 0), (offSequence, [tx.sequence]),
      (offOptions, [0]), (offUniverse, be16 tx.dmxUniverse),
      (offDmpFlagsLen, be16 (flagsLen (dmpPduLen n))), (offDmpVector, [vectorDmpSetProperty]),
      (offDmpAddrData, [0xA1]), (offDmpFirstAddr, be16 0), (offDmpAddrInc, be16 1),
      (offDmpPropCount, be16 (UInt16.ofNat (1 + n))), (offDmpStartCode, [0]),
      (offDmpDmxData, dmxData.take n)] := ⟨_, rfl⟩
  have hfill : ∀ buf, sacnTxFill tx dmxData n buf
      = fields.foldl (fun buf field => store buf field.1 field.2) buf := by
    intro buf
    unfold sacnTxFill
    rw [hfields]
    simp only [List.foldl_cons, List.foldl_nil, store8]
  have hrow : InRow ([] : List UInt8).length fields := by
    have hid : sacnAcnIdentifier.length = 12 := rfl
    rw [hfields]
    simp only [InRow, length_be16, length_be32, Vector.length_toList, List.length_singleton,
      List.length_nil, hid]
    decide
  have hwire : fields.flatMap Prod.snd
      = sacnWire (flagsLen (rootPduLen n)) (flagsLen (framingPduLen n)) (flagsLen (dmpPduLen n))
          tx.cid.toList tx.sourceName.toList tx.priority tx.sequence tx.dmxUniverse
          (dmxData.take n) := by
    rw [hfields]
    unfold sacnWire
    simp only [hslots, List.flatMap_cons, List.flatMap_nil, List.append_assoc, List.append_nil]
  have hlen : (fields.flatMap Prod.snd).length = 126 + n := by
    rw [hwire, length_sacnWire Vector.length_toList Vector.length_toList, hslots]
  have hstored := foldl_store_inRow hrow (Nat.le_of_eq hlen)
  rw [hlen, Nat.sub_self, List.replicate_zero, List.append_nil, List.nil_append, List.nil_append,
    hwire] at hstored
  rw [hfill, hstored]

/-! ## `sacn_sender.py` -/

/-- `struct.pack('>B', n)`; no result is a `struct.error`. -/
def packB (n : Int) : Option (List UInt8) :=
  if 0 ≤ n ∧ n < 2 ^ 8 then some [UInt8.ofNat n.toNat] else none

/-- `struct.pack('>H', n)`. -/
def packH (n : Int) : Option (List UInt8) :=
  if 0 ≤ n ∧ n < 2 ^ 16 then some (be16 (UInt16.ofNat n.toNat)) else none

/-- `struct.pack('>I', n)`. -/
def packI (n : Int) : Option (List UInt8) :=
  if 0 ≤ n ∧ n < 2 ^ 32 then some (be32 (UInt32.ofNat n.toNat)) else none

/-- `s.ljust(width, b'\x00')`. -/
def ljust (s : List UInt8) (width : Nat) : List UInt8 :=
  s ++ List.replicate (width - s.length) 0

/-- The sender's CID. -/
def senderCid : List UInt8 :=
  [0x53, 0x4e, 0x31, 0x31, 0x30, 0x54, 0x65, 0x73, 0x74, 0, 0, 0, 0, 0, 0, 0x01]

/-- `build_sacn_packet`, on the counter `_seq[0]`: the counter afterwards and the packet. -/
def buildSacnPacket (seq : Nat) (dmxUniverse : Int) (dmxData : List UInt8) (priority : Int)
    (sourceName : String) : Nat × Option (List UInt8) :=
  let seq := (seq + 1) &&& 0xFF
  let sourceNameBytes := ljust (sourceName.toUTF8.data.toList.take 63) 64
  let dmxWithStart := [0] ++ ljust (dmxData.take 512) 512
  let dmpLength : Nat := 0x7000 ||| (11 + dmxWithStart.length)
  let framingLength : Nat := 0x7000 ||| (77 + 11 + dmxWithStart.length)
  let rootLength : Nat := 0x7000 ||| (22 + 77 + 11 + dmxWithStart.length)
  (seq, do
    -- root layer
    let preamble := (← packH 0x0010) ++ (← packH 0x0000)
    let acnId : List UInt8 := [0x41, 0x53, 0x43, 0x2d, 0x45, 0x31, 0x2e, 0x31, 0x37, 0, 0, 0]
    let rootVector ← packI 0x00000004
    let rootLayer := preamble ++ acnId ++ (← packH rootLength) ++ rootVector ++ senderCid
    -- framing layer
    let framingVector ← packI 0x00000002
    let framingLayer := (← packH framingLength) ++ framingVector ++ sourceNameBytes ++
      (← packB priority) ++ (← packH 0) ++ (← packB seq) ++ (← packB 0) ++ (← packH dmxUniverse)
    -- DMP layer
    let dmpVector ← packB 0x02
    let dmpLayer := (← packH dmpLength) ++ dmpVector ++ (← packB 0xA1) ++ (← packH 0x0000) ++
      (← packH 0x0001) ++ (← packH dmxWithStart.length) ++ dmxWithStart
    return rootLayer ++ framingLayer ++ dmpLayer)

/-- `B` packs a byte. -/
theorem packB_eq (n : UInt8) : packB n.toNat = some [n] := by
  have hlt := n.toNat_lt
  unfold packB
  rw [if_pos (by omega), Int.toNat_natCast, UInt8.ofNat_toNat]

/-- `H` packs a 16-bit value, its high byte first. -/
theorem packH_eq {n : Nat} (h : n < 2 ^ 16) : packH n = some (be16 (UInt16.ofNat n)) := by
  unfold packH
  rw [if_pos (by omega), Int.toNat_natCast]

/-- A text that fits is padded to the width. -/
theorem length_ljust {s : List UInt8} {width : Nat} (h : s.length ≤ width) :
    (ljust s width).length = width := by
  rw [ljust, List.length_append, List.length_replicate]
  omega

/-- The bytes of the sender's packet: always 512 slots, and lengths one too large. -/
theorem buildSacnPacket_eq (seq : Nat) (dmxUniverse : UInt16) {dmxData : List UInt8}
    (hdata : dmxData.length ≤ 512) (priority : UInt8) {sourceName : String}
    (hname : sourceName.toUTF8.size ≤ 63) :
    buildSacnPacket seq dmxUniverse.toNat dmxData priority.toNat sourceName
      = ((seq + 1) % 256,
          some (sacnWire (flagsLen 623) (flagsLen 601) (flagsLen 524) senderCid
            (ljust sourceName.toUTF8.data.toList 64) priority (UInt8.ofNat (seq + 1)) dmxUniverse
            (ljust dmxData 512))) := by
  have hseq : (seq + 1) &&& 0xFF = (UInt8.ofNat (seq + 1)).toNat := by
    rw [UInt8.toNat_ofNat']
    exact Nat.and_two_pow_sub_one_eq_mod (seq + 1) 8
  have hslots : (ljust dmxData 512).length = 512 := length_ljust hdata
  have htake : sourceName.toUTF8.data.toList.take 63 = sourceName.toUTF8.data.toList :=
    List.take_of_length_le (by simpa using hname)
  have hUniverse := packH_eq dmxUniverse.toNat_lt
  rw [UInt16.ofNat_toNat] at hUniverse
  unfold buildSacnPacket
  simp only [hseq, htake, List.take_of_length_le hdata, List.length_append, hslots, hUniverse,
    packB_eq]
  -- the constants are packed, and the three layers are one list
  refine Prod.ext (by rw [UInt8.toNat_ofNat']) (congrArg some ?_)
  have hcount : be16 (UInt16.ofNat (1 + (ljust dmxData 512).length)) = [0x02, 0x01] := by
    rw [hslots]
    rfl
  unfold sacnWire
  rw [hcount]
  simp only [List.append_assoc]
  rfl

/-! ## The two packets -/

/-- A transmitter that stands for the sender: the same CID, name, priority and universe, and the
sequence number that the sender's next packet carries. -/
structure SameSource (tx : SacnTx) (seq : Nat) (dmxUniverse : UInt16) (priority : UInt8)
    (sourceName : String) : Prop where
  cid : tx.cid.toList = senderCid
  name : tx.sourceName.toList = ljust sourceName.toUTF8.data.toList 64
  priority : tx.priority = priority
  sequence : tx.sequence.toNat = (seq + 1) % 256
  dmxUniverse : tx.dmxUniverse = dmxUniverse

/-- The sender's packet is the one the transmitter writes for the payload filled up with zeros. -/
def BuildersAgree (tx : SacnTx) (bufSize : Int) (seq : Nat) (dmxUniverse : UInt16)
    (dmxData : List UInt8) (priority : UInt8) (sourceName : String) : Prop :=
  (buildSacnPacket seq dmxUniverse.toNat dmxData priority.toNat sourceName).2
    = some (sacnTxBuildPacket tx (ljust dmxData 512) 512 bufSize).2

/-- Two packets with different length words differ in these words. -/
theorem load_sacnWire {cid sourceName slots : List UInt8} (hcid : cid.length = 16)
    (hname : sourceName.length = 64) (rootLen framingLen dmpLen : UInt16)
    (priority sequence : UInt8) (dmxUniverse : UInt16) (i : Nat) :
    load (sacnWire rootLen framingLen dmpLen cid sourceName priority sequence dmxUniverse slots) i
      = if i = 16 ∨ i = 17 then load (be16 rootLen) (i - 16)
        else if i = 38 ∨ i = 39 then load (be16 framingLen) (i - 38)
        else if i = 115 ∨ i = 116 then load (be16 dmpLen) (i - 115)
        else load (sacnWire 0 0 0 cid sourceName priority sequence dmxUniverse slots) i := by
  -- what stands before the three words, between them and behind them
  obtain ⟨front, hfront⟩ : ∃ front, front =
    be16 sacnPreambleSize ++ be16 0 ++ sacnAcnIdentifier := ⟨_, rfl⟩
  obtain ⟨root, hroot⟩ : ∃ root, root = be32 vectorRootE131Data ++ cid := ⟨_, rfl⟩
  obtain ⟨framing, hframing⟩ : ∃ framing, framing =
    be32 vectorE131DataPacket ++ sourceName ++ [priority] ++ be16 0 ++ [sequence] ++ [0] ++
      be16 dmxUniverse := ⟨_, rfl⟩
  obtain ⟨dmp, hdmp⟩ : ∃ dmp, dmp = [vectorDmpSetProperty] ++ [0xA1] ++ be16 0 ++ be16 1 ++
    be16 (UInt16.ofNat (1 + slots.length)) ++ [0] ++ slots := ⟨_, rfl⟩
  have hsplit : ∀ r f d : UInt16,
      sacnWire r f d cid sourceName priority sequence dmxUniverse slots
        = front ++ (be16 r ++ (root ++ (be16 f ++ (framing ++ (be16 d ++ dmp))))) := by
    intro r f d
    rw [hfront, hroot, hframing, hdmp]
    unfold sacnWire
    simp only [List.append_assoc]
  have hf : front.length = 16 := by rw [hfront]; rfl
  have hr : root.length = 20 := by
    rw [hroot, List.length_append, length_be32, hcid]
  have hm : framing.length = 75 := by
    rw [hframing]
    simp only [List.length_append]
    rw [hname]
    rfl
  rw [hsplit, hsplit]
  simp only [load_append, hf, hr, hm, length_be16, Nat.sub_sub, Nat.reduceAdd]
  split_ifs <;> first | omega | rfl

section

variable {tx : SacnTx} {seq : Nat} {dmxUniverse : UInt16} {dmxData : List UInt8} {priority : UInt8}
  {sourceName : String} {bufSize : Int}

/-- Both packets as a `sacnWire` of the sender's fields. -/
theorem packets_eq (same : SameSource tx seq dmxUniverse priority sourceName)
    (hdata : dmxData.length ≤ 512) (hname : sourceName.toUTF8.size ≤ 63) (hbuf : 638 ≤ bufSize) :
    ∃ wire : UInt16 → UInt16 → UInt16 → List UInt8,
      (buildSacnPacket seq dmxUniverse.toNat dmxData priority.toNat sourceName).2
        = some (wire (flagsLen 623) (flagsLen 601) (flagsLen 524)) ∧
      sacnTxBuildPacket tx (ljust dmxData 512) 512 bufSize
        = (638, wire (flagsLen 622) (flagsLen 600) (flagsLen 523)) ∧
      (∀ r f d, (wire r f d).length = 638) ∧
      ∀ r f d i, load (wire r f d) i
        = if i = 16 ∨ i = 17 then load (be16 r) (i - 16)
          else if i = 38 ∨ i = 39 then load (be16 f) (i - 38)
          else if i = 115 ∨ i = 116 then load (be16 d) (i - 115)
          else load (wire 0 0 0) i := by
  have hslots : (ljust dmxData 512).length = 512 := length_ljust hdata
  have hnameLength : (ljust sourceName.toUTF8.data.toList 64).length = 64 :=
    length_ljust (Nat.le_succ_of_le hname)
  have hsequence : tx.sequence = UInt8.ofNat (seq + 1) := by
    apply UInt8.toNat_inj.mp
    rw [same.sequence, UInt8.toNat_ofNat']
  refine ⟨fun r f d => sacnWire r f d senderCid (ljust sourceName.toUTF8.data.toList 64) priority
    (UInt8.ofNat (seq + 1)) dmxUniverse (ljust dmxData 512), ?_, ?_, fun r f d => ?_,
    fun r f d => ?_⟩
  · rw [buildSacnPacket_eq seq dmxUniverse hdata priority hname]
  · rw [sacnTxBuildPacket_of_fits (Nat.le_refl 512) (by omega),
      sacnTxFill_cleared tx (Nat.le_of_eq hslots.symm), same.cid, same.name, same.priority,
      hsequence, same.dmxUniverse, List.take_of_length_le (Nat.le_of_eq hslots)]
    rfl
  · rw [length_sacnWire rfl hnameLength, hslots]
  · exact load_sacnWire rfl hnameLength r f d priority _ dmxUniverse

/-- In each of the three length words the sender's low byte is one more. -/
theorem packets_differ (same : SameSource tx seq dmxUniverse priority sourceName)
    (hdata : dmxData.length ≤ 512) (hname : sourceName.toUTF8.size ≤ 63) (hbuf : 638 ≤ bufSize) :
    ∃ sent built,
      (buildSacnPacket seq dmxUniverse.toNat dmxData priority.toNat sourceName).2 = some sent ∧
      sacnTxBuildPacket tx (ljust dmxData 512) 512 bufSize = (638, built) ∧
      sent.length = 638 ∧ built.length = 638 ∧
      ∀ i, load sent i = load built i + (if i = 17 ∨ i = 39 ∨ i = 116 then 1 else 0) := by
  obtain ⟨wire, hsent, hbuilt, hlength, hload⟩ := packets_eq same hdata hname hbuf
  refine ⟨_, _, hsent, hbuilt, hlength _ _ _, hlength _ _ _, fun i => ?_⟩
  rw [hload, hload (flagsLen 622)]
  by_cases hroot : i = 16 ∨ i = 17
  · rw [if_pos hroot, if_pos hroot]
    rcases hroot with rfl | rfl <;> decide
  · rw [if_neg hroot, if_neg hroot]
    by_cases hframing : i = 38 ∨ i = 39
    · rw [if_pos hframing, if_pos hframing]
      rcases hframing with rfl | rfl <;> decide
    · rw [if_neg hframing, if_neg hframing]
      by_cases hdmp : i = 115 ∨ i = 116
      · rw [if_pos hdmp, if_pos hdmp]
        rcases hdmp with rfl | rfl <;> decide
      · -- outside the length words the packets are the same
        rw [if_neg hdmp, if_neg hdmp, if_neg (by omega), UInt8.add_zero]

/-- Packets that differ in the three length bytes are not the same. -/
theorem not_buildersAgree {sent built : List UInt8}
    (hsent :
      (buildSacnPacket seq dmxUniverse.toNat dmxData priority.toNat sourceName).2 = some sent)
    (hbuilt : sacnTxBuildPacket tx (ljust dmxData 512) 512 bufSize = (638, built))
    (hdiffer : ∀ i, load sent i = load built i + (if i = 17 ∨ i = 39 ∨ i = 116 then 1 else 0)) :
    ¬ BuildersAgree tx bufSize seq dmxUniverse dmxData priority sourceName := by
  intro hagree
  unfold BuildersAgree at hagree
  rw [hsent, hbuilt, Option.some.injEq] at hagree
  have hlast := hdiffer 17
  rw [hagree, if_pos (by decide)] at hlast
  exact absurd hlast (by simp)

/-- **The packets are never equal**: in each of the three length words the sender's low byte is one
more than the transmitter's. All their other bytes are the same. -/
theorem buildSacnPacket_ne (same : SameSource tx seq dmxUniverse priority sourceName)
    (hdata : dmxData.length ≤ 512) (hname : sourceName.toUTF8.size ≤ 63) (hbuf : 638 ≤ bufSize) :
    ¬ BuildersAgree tx bufSize seq dmxUniverse dmxData priority sourceName ∧
      ∃ sent built,
        (buildSacnPacket seq dmxUniverse.toNat dmxData priority.toNat sourceName).2 = some sent ∧
        sacnTxBuildPacket tx (ljust dmxData 512) 512 bufSize = (638, built) ∧
        sent.length = 638 ∧ built.length = 638 ∧
        ∀ i, load sent i = load built i + (if i = 17 ∨ i = 39 ∨ i = 116 then 1 else 0) := by
  obtain ⟨sent, built, hsent, hbuilt, hrest⟩ := packets_differ same hdata hname hbuf
  exact ⟨not_buildersAgree hsent hbuilt hrest.2.2, sent, built, hsent, hbuilt, hrest⟩

end

/-- A transmitter with the sender's fields. -/
def senderTx : SacnTx where
  sequence := 1
  dmxUniverse := 1
  cid := ⟨senderCid.toArray, rfl⟩
  sourceName := Vector.ofFn fun i : Fin 64 =>
    if i.val < 63 then load (ascii "SN110 Test") i else 0
  priority := 100
  sourceName_nul := nul_firstBytes (ascii "SN110 Test")

/-- The transmitter has the sender's CID, name, priority and universe. -/
theorem senderTx_same : SameSource senderTx 0 1 100 "SN110 Test" :=
  ⟨rfl, by decide, rfl, rfl, rfl⟩

/-- The packets of the identify pattern differ in three bytes, each by one. -/
theorem buildSacnPacket_ne_identify :
    ¬ BuildersAgree senderTx 638 0 1 [255, 128, 64] 100 "SN110 Test" ∧
      ∃ sent built,
        (buildSacnPacket 0 (1 : UInt16).toNat [255, 128, 64] (100 : UInt8).toNat "SN110 Test").2
          = some sent ∧
        sacnTxBuildPacket senderTx (ljust [255, 128, 64] 512) 512 638 = (638, built) ∧
        sent.length = 638 ∧ built.length = 638 ∧
        ∀ i, load sent i = load built i + (if i = 17 ∨ i = 39 ∨ i = 116 then 1 else 0) :=
  buildSacnPacket_ne senderTx_same (by decide) (by decide) (by decide)

/-- The packet of the sender's defaults and no channels. -/
theorem defaultPacket_differs : ¬ BuildersAgree senderTx 638 0 1 [] 100 "SN110 Test" := by
  obtain ⟨sent, built, hsent, hbuilt, hrest⟩ :=
    @packets_differ senderTx 0 1 [] 100 "SN110 Test" 638 senderTx_same (by decide) (by decide)
      (by decide)
  exact not_buildersAgree hsent hbuilt hrest.2.2

end SN110
