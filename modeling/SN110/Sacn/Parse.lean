import SN110.Sacn.Packet

/-!
# The sACN receiver's parser (`sacn_parse`)
-/

namespace SN110

open Memory

/-- `memcmp(buf + OFF_ACN_ID, SACN_ACN_IDENTIFIER, SACN_ACN_IDENTIFIER_LEN) == 0`. -/
def acnIdMatches (buf : List UInt8) : Bool :=
  (List.range 12).all fun i => load buf (offAcnId + i) == load sacnAcnIdentifier i

/-- `dmx_len` of `sacn_parse`: the property count without its start code, cut to a universe
and to what the datagram holds. The comparison is with `(uint16_t)len`. -/
def sacnDmxLen (propCount : UInt16) (len : Int) : UInt16 :=
  let dmxLen := propCount - 1
  let dmxLen := if dmxLen > 512 then 512 else dmxLen
  -- the cast wraps a `len` of 65536 and more
  if ((offDmpDmxData + dmxLen.toNat : Nat) : Int) > len % 65536 then
    UInt16.ofInt (len - offDmpDmxData)
  else dmxLen

/-- `sacn_parse`: the return value and the packet as the call leaves it. A rejected datagram
may already have overwritten some fields of `pkt`. -/
def sacnParse (buf : List UInt8) (len : Int) (pkt : SacnPacket) : Int × SacnPacket :=
  if len < sacnMinPacketLen then (-1, pkt)
  else if load16 buf offPreamble ≠ sacnPreambleSize then (-1, pkt)
  else if acnIdMatches buf = false then (-1, pkt)
  else if load32 buf offRootVector ≠ vectorRootE131Data then (-1, pkt)
  else
    -- the header fields are copied before the DMP layer is looked at
    let pkt := { pkt with
      cid := Vector.ofFn fun i : Fin 16 => load buf (offCid + i)
      sourceName := Vector.ofFn fun i : Fin 64 =>
        if i.val = 63 then 0 else load buf (offSourceName + i)
      priority := load buf offPriority
      sequence := load buf offSequence
      options := load buf offOptions
      dmxUniverse := load16 buf offUniverse }
    if load buf offDmpVector ≠ vectorDmpSetProperty then (-1, pkt)
    else
      let propCount := load16 buf offDmpPropCount
      if propCount < 1 then (-1, pkt)
      else
        let dmxLen := sacnDmxLen propCount len
        (0, { pkt with
          startCode := load buf offDmpStartCode
          dmxData := Vector.ofFn fun i : Fin 512 =>
            if i.val < dmxLen.toNat then load buf (offDmpDmxData + i) else pkt.dmxData.get i
          dmxLength := dmxLen })

/-! ## What the parser accepts -/

/-- The tests of `sacn_parse`. -/
structure SacnAccepted (buf : List UInt8) (len : Int) : Prop where
  long : ¬ len < sacnMinPacketLen
  preamble : load16 buf offPreamble = sacnPreambleSize
  acnId : acnIdMatches buf = true
  rootVector : load32 buf offRootVector = vectorRootE131Data
  dmpVector : load buf offDmpVector = vectorDmpSetProperty
  propCount : ¬ load16 buf offDmpPropCount < 1

/-- The packet read from an accepted datagram. Only the slots behind the last one keep what the
record held. -/
def sacnRead (buf : List UInt8) (len : Int) (pkt : SacnPacket) : SacnPacket where
  cid := Vector.ofFn fun i : Fin 16 => load buf (offCid + i)
  sourceName := Vector.ofFn fun i : Fin 64 =>
    if i.val = 63 then 0 else load buf (offSourceName + i)
  priority := load buf offPriority
  sequence := load buf offSequence
  dmxUniverse := load16 buf offUniverse
  options := load buf offOptions
  startCode := load buf offDmpStartCode
  dmxData := Vector.ofFn fun i : Fin 512 =>
    if i.val < (sacnDmxLen (load16 buf offDmpPropCount) len).toNat then
      load buf (offDmpDmxData + i)
    else pkt.dmxData.get i
  dmxLength := sacnDmxLen (load16 buf offDmpPropCount) len

theorem sacnParse_accepted {buf : List UInt8} {len : Int} (h : SacnAccepted buf len)
    (pkt : SacnPacket) : sacnParse buf len pkt = (0, sacnRead buf len pkt) := by
  unfold sacnParse
  rw [if_neg h.long, if_neg (not_not_intro h.preamble), if_neg (by simp [h.acnId]),
    if_neg (not_not_intro h.rootVector)]
  simp only
  rw [if_neg (not_not_intro h.dmpVector), if_neg h.propCount]
  rfl

theorem sacnParse_refused {buf : List UInt8} {len : Int} (h : ¬ SacnAccepted buf len)
    (pkt : SacnPacket) : (sacnParse buf len pkt).1 = -1 := by
  by_contra hret
  -- a call that passes every test has the datagram accepted
  refine h ?_
  unfold sacnParse at hret
  by_cases hlong : len < sacnMinPacketLen
  · rw [if_pos hlong] at hret
    exact absurd rfl hret
  rw [if_neg hlong] at hret
  by_cases hpreamble : load16 buf offPreamble ≠ sacnPreambleSize
  · rw [if_pos hpreamble] at hret
    exact absurd rfl hret
  rw [if_neg hpreamble] at hret
  by_cases hacn : acnIdMatches buf = false
  · rw [if_pos hacn] at hret
    exact absurd rfl hret
  rw [if_neg hacn] at hret
  by_cases hroot : load32 buf offRootVector ≠ vectorRootE131Data
  · rw [if_pos hroot] at hret
    exact absurd rfl hret
  rw [if_neg hroot] at hret
  simp only at hret
  by_cases hdmp : load buf offDmpVector ≠ vectorDmpSetProperty
  · rw [if_pos hdmp] at hret
    exact absurd rfl hret
  rw [if_neg hdmp] at hret
  by_cases hprop : load16 buf offDmpPropCount < 1
  · rw [if_pos hprop] at hret
    exact absurd rfl hret
  exact {
    long := hlong
    preamble := not_not.mp hpreamble
    acnId := by simpa using hacn
    rootVector := not_not.mp hroot
    dmpVector := not_not.mp hdmp
    propCount := hprop }

theorem accepted_of_sacnParse {buf : List UInt8} {len : Int} {pkt : SacnPacket}
    (h : (sacnParse buf len pkt).1 = 0) : SacnAccepted buf len := by
  by_contra hrefused
  rw [sacnParse_refused hrefused] at h
  exact absurd h (by decide)

end SN110
