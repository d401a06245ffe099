import SN110.Common

/-!
# ShowNet packets (`shownet.h`)

`shownet_receive` bounds `dmx_length` on both of its paths (the RLE decoder stops at 512
slots, the raw copy is cut to 512), so the record carries the bound.
-/

namespace SN110

/-- `SHOWNET_MAX_SLOTS`: 36 universes of 512 slots. -/
abbrev shownetMaxSlots : Nat := 18432

/-- `shownet_packet_t`. -/
structure ShownetPacket where
  netSlot : UInt16
  dmxData : Slots
  dmxLength : UInt16
  dmxLength_le : dmxLength.toNat ≤ dmxUniverseSize

end SN110
