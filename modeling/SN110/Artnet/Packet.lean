import SN110.Common

/-!
# Art-Net packets (`artnet.h`)
-/

namespace SN110

/-- `artnet_dmx_packet_t`. -/
structure ArtnetDmxPacket where
  sequence : UInt8
  physical : UInt8
  dmxUniverse : UInt16
  dmxData : Slots
  dmxLength : UInt16

end SN110
