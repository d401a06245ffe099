import SN110.Sacn.Packet

/-!
# The sACN transmitter's packet builder (`sacn_tx_build_packet`)
-/

namespace SN110

open Memory

/-- `dmp_pdu_len`: flags and length, vector, address type, first address, increment, count,
then the start code and the channels. -/
def dmpPduLen (dmxLen : Nat) : Nat := 10 + (1 + dmxLen)

/-- `framing_pdu_len`: the framing header and the DMP PDU. -/
def framingPduLen (dmxLen : Nat) : Nat := 77 + dmpPduLen dmxLen

/-- `root_pdu_len`: the root header and the framing PDU. -/
def rootPduLen (dmxLen : Nat) : Nat := 22 + framingPduLen dmxLen

/-- `0x7000 | len`, as `write_u16_be` receives it. -/
def flagsLen (len : Nat) : UInt16 := UInt16.ofNat (0x7000 ||| len)

/-- The stores of `sacn_tx_build_packet` into a buffer cleared by `memset`, in order. -/
def sacnTxFill (tx : SacnTx) (dmxData : List UInt8) (dmxLen : Nat) (buf : List UInt8) :
    List UInt8 :=
  -- root layer
  let buf := store buf offPreamble (be16 sacnPreambleSize)
  let buf := store buf offPostamble (be16 0)
  let buf := store buf offAcnId sacnAcnIdentifier
  let buf := store buf offRootFlagsLen (be16 (flagsLen (rootPduLen dmxLen)))
  let buf := store buf offRootVector (be32 vectorRootE131Data)
  let buf := store buf offCid tx.cid.toList
  -- framing layer
  let buf := store buf offFrameFlagsLen (be16 (flagsLen (framingPduLen dmxLen)))
  let buf := store buf offFrameVector (be32 vectorE131DataPacket)
  let buf := store buf offSourceName tx.sourceName.toList
  let buf := store8 buf offPriority tx.priority
  let buf := store buf offSyncAddr (be16 0)
  let buf := store8 buf offSequence tx.sequence
  let buf := store8 buf offOptions 0
  let buf := store buf offUniverse (be16 tx.dmxUniverse)
  -- DMP layer
  let buf := store buf offDmpFlagsLen (be16 (flagsLen (dmpPduLen dmxLen)))
  let buf := store8 buf offDmpVector vectorDmpSetProperty
  let buf := store8 buf offDmpAddrData 0xA1
  let buf := store buf offDmpFirstAddr (be16 0)
  let buf := store buf offDmpAddrInc (be16 1)
  let buf := store buf offDmpPropCount (be16 (UInt16.ofNat (1 + dmxLen)))
  let buf := store8 buf offDmpStartCode 0
  store buf offDmpDmxData (dmxData.take dmxLen)

/-- `sacn_tx_build_packet`: the return value and the bytes it leaves at the start of the
output buffer (none when it refuses). -/
def sacnTxBuildPacket (tx : SacnTx) (dmxData : List UInt8) (dmxLen : Nat) (bufSize : Int) :
    Int × List UInt8 :=
  let dmxLen := if dmxLen > dmxUniverseSize then dmxUniverseSize else dmxLen
  let totalLen := 16 + rootPduLen dmxLen
  if bufSize < totalLen then (-1, [])
  else (totalLen, sacnTxFill tx dmxData dmxLen (List.replicate totalLen 0))

end SN110
