import SN110.Common
import SN110.Lib.Memory

/-!
# sACN packets (`sacn.h`, `sacn_internal.h`, `sacn_tx.h`)

Offsets, constants and the two records of the sACN code: the parsed packet of the receiver
and the state of the transmitter. The transmitter's `sock_fd` is left out: building a packet
does not use it. `SacnTx` carries the NUL that `sacn_tx_init` stores in the last byte of the
source name.
-/

namespace SN110

/-! ## Packet offsets -/

@[simp] abbrev offPreamble : Nat := 0
@[simp] abbrev offPostamble : Nat := 2
@[simp] abbrev offAcnId : Nat := 4
@[simp] abbrev offRootFlagsLen : Nat := 16
@[simp] abbrev offRootVector : Nat := 18
@[simp] abbrev offCid : Nat := 22
@[simp] abbrev offFrameFlagsLen : Nat := 38
@[simp] abbrev offFrameVector : Nat := 40
@[simp] abbrev offSourceName : Nat := 44
@[simp] abbrev offPriority : Nat := 108
@[simp] abbrev offSyncAddr : Nat := 109
@[simp] abbrev offSequence : Nat := 111
@[simp] abbrev offOptions : Nat := 112
@[simp] abbrev offUniverse : Nat := 113
@[simp] abbrev offDmpFlagsLen : Nat := 115
@[simp] abbrev offDmpVector : Nat := 117
@[simp] abbrev offDmpAddrData : Nat := 118
@[simp] abbrev offDmpFirstAddr : Nat := 119
@[simp] abbrev offDmpAddrInc : Nat := 121
@[simp] abbrev offDmpPropCount : Nat := 123
@[simp] abbrev offDmpStartCode : Nat := 125
@[simp] abbrev offDmpDmxData : Nat := 126

@[simp] abbrev sacnMinPacketLen : Nat := 126
abbrev sacnMaxPacketLen : Nat := 638

/-! ## Constants -/

abbrev sacnPreambleSize : UInt16 := 0x0010
abbrev vectorRootE131Data : UInt32 := 4
abbrev vectorE131DataPacket : UInt32 := 2
abbrev vectorDmpSetProperty : UInt8 := 2

/-- `SACN_TIMEOUT_MS`: a source is considered lost after 2.5 s. -/
abbrev sacnTimeoutMs : UInt32 := 2500

/-- `SACN_ACN_IDENTIFIER`: `"ASC-E1.17\0\0\0"`. -/
def sacnAcnIdentifier : List UInt8 :=
  [0x41, 0x53, 0x43, 0x2D, 0x45, 0x31, 0x2E, 0x31, 0x37, 0, 0, 0]

/-! ## Records -/

/-- `sacn_packet_t`. -/
structure SacnPacket where
  cid : Vector UInt8 16
  sourceName : Vector UInt8 64
  priority : UInt8
  sequence : UInt8
  dmxUniverse : UInt16
  options : UInt8
  startCode : UInt8
  dmxData : Slots
  dmxLength : UInt16

/-- `sacn_tx_t`. -/
structure SacnTx where
  sequence : UInt8
  dmxUniverse : UInt16
  cid : Vector UInt8 16
  sourceName : Vector UInt8 64
  priority : UInt8
  sourceName_nul : sourceName[63] = 0

/-- `strncpy` of 63 characters into a field of zeros leaves the last byte of the field. -/
theorem nul_firstBytes (name : List UInt8) :
    (Vector.ofFn fun i : Fin 64 => if i.val < 63 then Memory.load name i else 0)[63] = 0 := by
  rw [Vector.getElem_ofFn]
  rfl

theorem nul_replicate : (Vector.replicate 64 (0 : UInt8))[63] = 0 := Vector.getElem_replicate _

end SN110
