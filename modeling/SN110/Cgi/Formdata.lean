import SN110.Config.Load
import SN110.Lib.Parts

/-!
# Form data (`cgi_parse.h`)

The body of a POST is taken a pair at a time: a name of at most 63 bytes up to `=`, a value of at
most 191 bytes up to `&`. `formPair_lt` says that every pair takes something, so the loop comes to
the end of the body.
-/

namespace SN110

open Parts

abbrev percent : UInt8 := 37
abbrev ampersand : UInt8 := 38
abbrev plus : UInt8 := 43

/-! ## Decoding -/

/-- The byte that `%XX` at the start of a text stands for, and the text after it. -/
def percentByte : List UInt8 → Option (UInt8 × List UInt8)
  | c :: h :: l :: rest =>
    if c = percent then
      match hexDigit h, hexDigit l with
      | some hi, some lo => some (UInt8.ofNat (16 * hi + lo), rest)
      | _, _ => none
    else none
  | _ => none

/-- The loop of `url_decode` with room for `room` more bytes. -/
def urlDecodeFrom : Nat → List UInt8 → List UInt8
  | 0, _ => []
  | _ + 1, [] => []
  | room + 1, c :: rest =>
    -- a `%` without two hex digits stands for itself
    match percentByte (c :: rest) with
    | some (b, rest') => b :: urlDecodeFrom room rest'
    | none => (if c = plus then space else c) :: urlDecodeFrom room rest

/-- `url_decode`: what is in `dst` before the final NUL. `%00` writes a NUL of its own. -/
def urlDecode (src : List UInt8) (maxlen : Nat) : List UInt8 := urlDecodeFrom (maxlen - 1) src

/-! ## The pairs of a body -/

/-- The rest of a text behind a separator, if it stands there. -/
def skipByte (sep : UInt8) : List UInt8 → List UInt8
  | [] => []
  | c :: rest => if c = sep then rest else c :: rest

/-- The text up to a separator, at most `room` bytes of it, and the rest behind the separator. -/
def takeField (sep : UInt8) (room : Nat) (body : List UInt8) : List UInt8 × List UInt8 :=
  let field := (body.takeWhile (· ≠ sep)).take room
  (field, skipByte sep (body.drop field.length))

/-- One round of `parse_formdata`'s loop: the name, the raw value and the rest of the body. -/
def formPair (body : List UInt8) : List UInt8 × List UInt8 × List UInt8 :=
  let key := takeField equals 63 body
  let raw := takeField ampersand 191 key.2
  (key.1, raw.1, raw.2)

/-- Skipping a separator leaves no more than there was. -/
theorem length_skipByte_le (sep : UInt8) (s : List UInt8) : (skipByte sep s).length ≤ s.length := by
  cases s with
  | nil => exact le_rfl
  | cons c rest =>
    show (if c = sep then rest else c :: rest).length ≤ (c :: rest).length
    split_ifs
    · exact Nat.le_succ _
    · exact le_rfl

/-- Taking a field leaves no more than there was. -/
theorem length_takeField_le (sep : UInt8) (room : Nat) (body : List UInt8) :
    (takeField sep room body).2.length ≤ body.length := by
  refine (length_skipByte_le sep _).trans ?_
  rw [List.length_drop]
  exact Nat.sub_le _ _

/-- With room for a byte, taking a field of something leaves less. -/
theorem length_takeField_lt (sep : UInt8) {room : Nat} (hroom : 0 < room) {body : List UInt8}
    (h : body ≠ []) : (takeField sep room body).2.length < body.length := by
  obtain ⟨c, rest, rfl⟩ := List.exists_cons_of_ne_nil h
  by_cases hc : c = sep
  · -- the field is empty, and the separator is skipped
    subst hc
    unfold takeField
    simp [skipByte]
  · have hfield : 0 < (((c :: rest).takeWhile (· ≠ sep)).take room).length := by
      rw [List.takeWhile_cons_of_pos (by simpa using hc), List.length_take, List.length_cons]
      omega
    refine (length_skipByte_le sep _).trans_lt ?_
    rw [List.length_drop, List.length_cons]
    omega

/-- Every round takes something from the body. -/
theorem formPair_lt {body : List UInt8} (h : body ≠ []) :
    (formPair body).2.2.length < body.length :=
  (length_takeField_le ampersand 191 _).trans_lt (length_takeField_lt equals (by decide) h)

/-- The pairs that the loop takes from a body, with their decoded values. -/
def formPairs (body : List UInt8) : List (List UInt8 × List UInt8) :=
  if _h : body = [] then []
  else
    ((formPair body).1, cstr (urlDecode (formPair body).2.1 192)) :: formPairs (formPair body).2.2
termination_by body.length
decreasing_by exact formPair_lt _h

theorem formPairs_nil : formPairs [] = [] := by
  rw [formPairs]
  rfl

/-- A body has a name, a decoded value and the pairs of the rest. -/
theorem formPairs_of_ne_nil {body : List UInt8} (h : body ≠ []) :
    formPairs body = ((formPair body).1, cstr (urlDecode (formPair body).2.1 192))
      :: formPairs (formPair body).2.2 := by
  rw [formPairs, dif_neg h]

section

variable {sep : UInt8} {room : Nat} {s : List UInt8}

/-- A field that fits is taken up to its separator, which is skipped. -/
theorem takeField_sep (hsep : sep ∉ s) (hroom : s.length ≤ room) (rest : List UInt8) :
    takeField sep room (s ++ sep :: rest) = (s, rest) := by
  unfold takeField
  simp only [takeWhile_append_sep hsep, List.take_of_length_le hroom, List.drop_left]
  exact Prod.ext rfl (if_pos rfl)

/-- The last field is taken as a whole. -/
theorem takeField_end (hsep : sep ∉ s) (hroom : s.length ≤ room) :
    takeField sep room s = (s, []) := by
  unfold takeField
  simp only [takeWhile_of_notMem hsep, List.take_of_length_le hroom, List.drop_length]
  rfl

end

section

variable {name value : List UInt8} (hname : equals ∉ name ∧ name.length ≤ 63)
  (hvalue : ampersand ∉ value ∧ value.length ≤ 191)

include hname hvalue

/-- A pair that fits the buffers is taken whole. -/
theorem formPairs_cons (rest : List UInt8) :
    formPairs (name ++ equals :: (value ++ ampersand :: rest))
      = (name, cstr (urlDecode value 192)) :: formPairs rest := by
  have hkey := takeField_sep hname.1 hname.2 (value ++ ampersand :: rest)
  have hraw := takeField_sep hvalue.1 hvalue.2 rest
  rw [formPairs_of_ne_nil (by simp)]
  simp only [formPair, hkey, hraw]

/-- So is the last one. -/
theorem formPairs_last :
    formPairs (name ++ equals :: value) = [(name, cstr (urlDecode value 192))] := by
  have hkey := takeField_sep hname.1 hname.2 value
  have hraw := takeField_end hvalue.1 hvalue.2
  rw [formPairs_of_ne_nil (by simp)]
  simp only [formPair, hkey, hraw, formPairs_nil]

end

/-! ## The fields of the form -/

/-- The names that `parse_formdata` compares with. -/
inductive FormField where
  | hostname
  | ipaddr
  | netmask
  | gateway
  | protocol
  | portMode (port : Port)
  | portUniverse (port : Port)
  | portLabel (port : Port)
  | dmxHoldTime
  | addrMode
  | lcdContrast
  | lcdBacklight
  | slotMonitor (port : Port)
deriving DecidableEq

/-- The name as it stands in the form. -/
def FormField.name : FormField → List UInt8
  | .hostname => ascii "hostname"
  | .ipaddr => ascii "ipaddr"
  | .netmask => ascii "netmask"
  | .gateway => ascii "gateway"
  | .protocol => ascii "protocol"
  | .portMode 0 => ascii "port0_mode"
  | .portMode 1 => ascii "port1_mode"
  | .portUniverse 0 => ascii "port0_universe"
  | .portUniverse 1 => ascii "port1_universe"
  | .portLabel 0 => ascii "port0_label"
  | .portLabel 1 => ascii "port1_label"
  | .dmxHoldTime => ascii "dmx_hold_time"
  | .addrMode => ascii "addr_mode"
  | .lcdContrast => ascii "lcd_contrast"
  | .lcdBacklight => ascii "lcd_backlight"
  | .slotMonitor 0 => ascii "slot_monitor_0"
  | .slotMonitor 1 => ascii "slot_monitor_1"

/-- The names in the order in which they are compared. -/
def formFields : List FormField :=
  [.hostname, .ipaddr, .netmask, .gateway, .protocol, .portMode 0, .portMode 1, .portUniverse 0,
    .portUniverse 1, .portLabel 0, .portLabel 1, .dmxHoldTime, .addrMode, .lcdContrast,
    .lcdBacklight, .slotMonitor 0, .slotMonitor 1]

/-- `_clamp`. -/
def clamp (val lo hi : Int) : Int := if val < lo then lo else if val > hi then hi else val

/-- What a value does to its field. -/
def applyField (cfg : NodeConfig) (val : List UInt8) : FormField → NodeConfig
  | .hostname => { cfg with hostname := CString.strncpy 16 hostnameSize_pos val }
  | .ipaddr => { cfg with ipAddr := parseIp val }
  | .netmask => { cfg with netmask := parseIp val }
  | .gateway => { cfg with gateway := parseIp val }
  | .protocol => { cfg with activeProtocol := parseProtocol val }
  | .portMode i => { cfg with
      ports := Function.update cfg.ports i { cfg.ports i with mode := parseMode val } }
  | .portUniverse i => { cfg with
      ports := Function.update cfg.ports i
        { cfg.ports i with dmxUniverse := UInt16.ofInt (clamp (atoi val) 1 63999) } }
  | .portLabel i => { cfg with
      ports := Function.update cfg.ports i
        { cfg.ports i with label := CString.strncpy 9 labelSize_pos val } }
  | .dmxHoldTime => { cfg with dmxHoldTime := UInt16.ofInt (clamp (atoi val) 0 300) }
  | .addrMode => { cfg with addrMode := parseAddrMode val }
  | .lcdContrast => { cfg with lcdContrast := UInt8.ofInt (clamp (atoi val) 0 255) }
  | .lcdBacklight => { cfg with lcdBacklight := parseBacklight val }
  | .slotMonitor i => { cfg with
      dmxSlotMonitor :=
        Function.update cfg.dmxSlotMonitor i (UInt16.ofInt (clamp (atoi val) 0 512)) }

/-- What a pair does: nothing, if its name is not one of the form's. -/
def applyPair (cfg : NodeConfig) (pair : List UInt8 × List UInt8) : NodeConfig :=
  match formFields.find? fun field => pair.1 == field.name with
  | some field => applyField cfg pair.2 field
  | none => cfg

/-- The addresses are zeroed in DHCP mode. -/
def zeroDhcpAddresses (cfg : NodeConfig) : NodeConfig :=
  if cfg.addrMode = addrModeDhcp then { cfg with ipAddr := 0, netmask := 0, gateway := 0 } else cfg

/-- `parse_formdata`. -/
def parseFormdata (body : List UInt8) (cfg : NodeConfig) : NodeConfig :=
  zeroDhcpAddresses ((formPairs (cstr body)).foldl applyPair cfg)

end SN110
