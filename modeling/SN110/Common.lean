import Mathlib.Logic.Function.Basic
import Mathlib.Data.List.TakeWhile
import Mathlib.Data.Fintype.Pi

/-!
# Shared data (`common.h`)

The constants and records every part of the firmware uses. The C `char` arrays that hold
text are `CString`s: the bytes before the terminating NUL, with the proof that they fit.
`source_ip` of `dmx_frame_t` is left out, since no function reads or writes it. The C field
`universe` is `dmxUniverse` here, the plain word being a keyword.
-/

namespace SN110

abbrev dmxUniverseSize : Nat := 512
abbrev dmxMaxPorts : Nat := 2

/-- The 512 channel levels of one universe. -/
abbrev Slots := Vector UInt8 dmxUniverseSize

/-- An index into the two-element port arrays. -/
abbrev Port := Fin dmxMaxPorts

/-- For the numerals of type `Port`. -/
instance (priority := high) neZero_dmxMaxPorts : @NeZero Nat Zero.ofOfNat0 dmxMaxPorts :=
  ⟨by decide⟩

/-! ## `ADDR_MODE_*`, `LCD_BACKLIGHT_*`, `PROTO_*`, `DMX_MODE_*` -/

abbrev addrModeStatic : UInt8 := 0
abbrev addrModeDhcp : UInt8 := 1
abbrev addrModeDhcpStatic : UInt8 := 2
abbrev addrModeSentinel : UInt8 := 255

abbrev lcdBacklightOff : UInt8 := 0
abbrev lcdBacklightOn : UInt8 := 1
abbrev lcdBacklightAuto : UInt8 := 2

abbrev protoNone : Int := 0
abbrev protoSacn : Int := 1
abbrev protoArtnet : Int := 2
abbrev protoShownet : Int := 3

abbrev dmxModeOff : Int := 0
abbrev dmxModeTx : Int := 1
abbrev dmxModeRx : Int := 2

/-! ## Text in fixed arrays -/

/-- The text in a `char [size]`: the bytes before its NUL. -/
structure CString (size : Nat) where
  text : List UInt8
  length_lt : text.length < size
  no_nul : 0 ∉ text
deriving DecidableEq

@[ext] theorem CString.ext_text {size : Nat} {a b : CString size} (h : a.text = b.text) :
    a = b := by
  cases a
  cases b
  cases h
  rfl

/-- `strncpy(dst, src, size - 1)` into an array whose last byte is already NUL. -/
def CString.strncpy (size : Nat) (hsize : 0 < size) (src : List UInt8) : CString size where
  text := (src.takeWhile (· ≠ 0)).take (size - 1)
  length_lt := by
    rw [List.length_take]
    omega
  no_nul := by
    intro hmem
    have h := List.mem_takeWhile_imp (List.mem_of_mem_take hmem)
    simp at h

/-- `sizeof(hostname)` of `node_config_t` and `sizeof(label)` of `port_config_t` are positive. -/
theorem hostnameSize_pos : 0 < 16 := by decide

theorem labelSize_pos : 0 < 9 := by decide

/-! ## Records -/

/-- `dmx_frame_t`. -/
structure DmxFrame where
  data : Slots
  length : UInt16
  priority : UInt8
  sequence : UInt8
  lastUpdateMs : UInt32
deriving DecidableEq

/-- A frame after `memset(…, 0, …)`. -/
def DmxFrame.zero : DmxFrame where
  data := Vector.replicate dmxUniverseSize 0
  length := 0
  priority := 0
  sequence := 0
  lastUpdateMs := 0

/-- `port_config_t`. -/
structure PortConfig where
  mode : Int
  protocol : Int
  dmxUniverse : UInt16
  label : CString 9
deriving DecidableEq

/-- `node_config_t`. -/
structure NodeConfig where
  hostname : CString 16
  ipAddr : UInt32
  netmask : UInt32
  gateway : UInt32
  mac : Vector UInt8 6
  ports : Port → PortConfig
  activeProtocol : Int
  dmxHoldTime : UInt16
  addrMode : UInt8
  lcdContrast : UInt8
  lcdBacklight : UInt8
  dmxSlotMonitor : Port → UInt16
deriving DecidableEq

/-- `memcpy(dst, src, len)` between two slot arrays. -/
def memcpySlots (dst src : Slots) (len : Nat) : Slots :=
  Vector.ofFn fun i => if i.val < len then src.get i else dst.get i

@[simp] theorem getElem_memcpySlots (dst src : Slots) (len : Nat) (i : Nat)
    (hi : i < dmxUniverseSize) :
    (memcpySlots dst src len)[i] = if i < len then src[i] else dst[i] := by
  rw [memcpySlots, Vector.getElem_ofFn]
  rfl

end SN110
