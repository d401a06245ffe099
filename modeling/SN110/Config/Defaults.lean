import SN110.Minilib.Text

/-!
# The default configuration (`config.c`)
-/

namespace SN110

/-- `config_defaults`. -/
def configDefaults : NodeConfig where
  hostname := CString.strncpy 16 hostnameSize_pos (ascii "SN110")
  ipAddr := 0
  netmask := 0
  gateway := 0
  mac := Vector.replicate 6 0
  ports := fun
    | 0 => { mode := dmxModeTx, protocol := protoSacn, dmxUniverse := 1,
             label := CString.strncpy 9 labelSize_pos [] }
    | 1 => { mode := dmxModeTx, protocol := protoSacn, dmxUniverse := 2,
             label := CString.strncpy 9 labelSize_pos [] }
  activeProtocol := protoSacn
  dmxHoldTime := 5
  addrMode := addrModeSentinel
  lcdContrast := 128
  lcdBacklight := lcdBacklightOn
  dmxSlotMonitor := fun _ => 0

end SN110
