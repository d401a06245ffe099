import SN110.Config.Keys
import SN110.Minilib.Sscanf

/-!
# Values (`config.c`)

What each value syntax of the file means and how it is written: addresses, port modes, protocols,
address modes, the backlight. Each pair comes with the theorem that a written value is read back.
-/

namespace SN110

/-! ## Reading -/

/-- `parse_ip`. -/
def parseIp (str : List UInt8) : UInt32 :=
  match sscanf dottedFormat str with
  | [.number a, .number b, .number c, .number d] =>
    if a > 255 ∨ b > 255 ∨ c > 255 ∨ d > 255 then 0
    else (a <<< 24) ||| (b <<< 16) ||| (c <<< 8) ||| d
  | _ => 0

/-- The value of one hex digit. -/
def hexDigit (c : UInt8) : Option Nat :=
  if 48 ≤ c ∧ c ≤ 57 then some (c.toNat - 48)
  else if 97 ≤ c ∧ c ≤ 102 then some (c.toNat - 97 + 10)
  else if 65 ≤ c ∧ c ≤ 70 then some (c.toNat - 65 + 10)
  else none

/-- `_parse_hex_byte`: the value of one or two hex digits, and the text after them. -/
def parseHexByte : List UInt8 → Option Nat × List UInt8
  | [] => (none, [])
  | c :: s =>
    match hexDigit c with
    | none => (none, c :: s)
    | some hi =>
      match s with
      | [] => (some hi, [])
      | d :: rest =>
        match hexDigit d with
        | none => (some hi, d :: rest)
        | some lo => (some (hi * 16 + lo), rest)

/-- The rounds of `parse_mac`'s loop from byte `i` on. What has been stored stays stored when a
later byte fails. -/
def parseMacFrom : List (Fin 6) → List UInt8 → Vector UInt8 6 → Int × Vector UInt8 6
  | [], _, mac => (0, mac)
  | i :: is, p, mac =>
    match parseHexByte p with
    | (none, _) => (-1, mac)
    | (some val, rest) =>
      let mac := mac.set i (UInt8.ofNat val)
      -- a colon must follow each byte but the last
      if i.val < 5 then
        match rest with
        | 58 :: rest => parseMacFrom is rest mac
        | _ => (-1, mac)
      else parseMacFrom is rest mac

/-- `parse_mac`. -/
def parseMac (str : List UInt8) (mac : Vector UInt8 6) : Int × Vector UInt8 6 :=
  parseMacFrom [0, 1, 2, 3, 4, 5] str mac

/-- `parse_mode`. -/
def parseMode (str : List UInt8) : Int :=
  if str = ascii "tx" ∨ str = ascii "TX" then dmxModeTx
  else if str = ascii "rx" ∨ str = ascii "RX" then dmxModeRx
  else if str = ascii "off" ∨ str = ascii "OFF" then dmxModeOff
  else dmxModeTx

/-- `parse_protocol`. -/
def parseProtocol (str : List UInt8) : Int :=
  if str = ascii "sacn" ∨ str = ascii "sACN" then protoSacn
  else if str = ascii "artnet" ∨ str = ascii "Art-Net" then protoArtnet
  else if str = ascii "shownet" ∨ str = ascii "ShowNet" then protoShownet
  else protoNone

/-- `parse_addr_mode`. -/
def parseAddrMode (str : List UInt8) : UInt8 :=
  if str = ascii "dhcp" then addrModeDhcp
  else if str = ascii "static" then addrModeStatic
  else if str = ascii "dhcp_static" then addrModeDhcpStatic
  else addrModeStatic

/-- `parse_backlight`. -/
def parseBacklight (str : List UInt8) : UInt8 :=
  if str = ascii "off" then lcdBacklightOff
  else if str = ascii "on" then lcdBacklightOn
  else if str = ascii "auto" then lcdBacklightAuto
  else lcdBacklightOn

/-! ## Writing -/

/-- `backlight_name`. -/
def backlightName (mode : UInt8) : List UInt8 :=
  if mode = lcdBacklightOff then ascii "off"
  else if mode = lcdBacklightOn then ascii "on"
  else if mode = lcdBacklightAuto then ascii "auto"
  else ascii "on"

/-- `addr_mode_name`. -/
def addrModeName (mode : UInt8) : List UInt8 :=
  if mode = addrModeDhcp then ascii "dhcp"
  else if mode = addrModeStatic then ascii "static"
  else if mode = addrModeDhcpStatic then ascii "dhcp_static"
  else ascii "static"

/-- `mode_name`. -/
def modeName (mode : Int) : List UInt8 :=
  if mode = dmxModeTx then ascii "tx"
  else if mode = dmxModeRx then ascii "rx"
  else if mode = dmxModeOff then ascii "off"
  else ascii "tx"

/-- `protocol_name`. -/
def protocolName (proto : Int) : List UInt8 :=
  if proto = protoSacn then ascii "sacn"
  else if proto = protoArtnet then ascii "artnet"
  else if proto = protoShownet then ascii "shownet"
  else ascii "none"

/-- `"%u.%u.%u.%u"` of the bytes of an address. -/
def dotted (ip : UInt32) : List UInt8 :=
  utoa ((ip >>> 24) &&& 0xFF).toNat ++ 46 :: utoa ((ip >>> 16) &&& 0xFF).toNat ++
    46 :: utoa ((ip >>> 8) &&& 0xFF).toNat ++ 46 :: utoa (ip &&& 0xFF).toNat

/-- `"%02X:%02X:%02X:%02X:%02X:%02X"` of a hardware address. -/
def colonHex (mac : Vector UInt8 6) : List UInt8 :=
  hexByte mac[0] ++ 58 :: hexByte mac[1] ++ 58 :: hexByte mac[2] ++ 58 :: hexByte mac[3] ++
    58 :: hexByte mac[4] ++ 58 :: hexByte mac[5]

/-! ## What is read -/

/-- Whatever the text, a protocol is one of the four. -/
theorem parseProtocol_mem (v : List UInt8) :
    parseProtocol v = protoNone ∨ parseProtocol v = protoSacn ∨ parseProtocol v = protoArtnet ∨
      parseProtocol v = protoShownet := by
  unfold parseProtocol
  split_ifs <;> decide

/-- Whatever the text, a mode is one of the three. -/
theorem parseMode_mem (v : List UInt8) :
    parseMode v = dmxModeOff ∨ parseMode v = dmxModeTx ∨ parseMode v = dmxModeRx := by
  unfold parseMode
  split_ifs <;> decide

/-- Whatever the text, an address mode is one of the three. -/
theorem parseAddrMode_mem (v : List UInt8) :
    parseAddrMode v = addrModeStatic ∨ parseAddrMode v = addrModeDhcp ∨
      parseAddrMode v = addrModeDhcpStatic := by
  unfold parseAddrMode
  split_ifs <;> decide

/-- Whatever the text, a backlight mode is one of the three. -/
theorem parseBacklight_mem (v : List UInt8) :
    parseBacklight v = lcdBacklightOff ∨ parseBacklight v = lcdBacklightOn ∨
      parseBacklight v = lcdBacklightAuto := by
  unfold parseBacklight
  split_ifs <;> decide

/-! ## Written values are read back -/

/-- A mode is read back from its name. -/
theorem parseMode_modeName {mode : Int}
    (h : mode = dmxModeOff ∨ mode = dmxModeTx ∨ mode = dmxModeRx) :
    parseMode (modeName mode) = mode := by
  rcases h with rfl | rfl | rfl <;> decide

/-- A protocol is read back from its name. -/
theorem parseProtocol_protocolName {proto : Int}
    (h : proto = protoNone ∨ proto = protoSacn ∨ proto = protoArtnet ∨ proto = protoShownet) :
    parseProtocol (protocolName proto) = proto := by
  rcases h with rfl | rfl | rfl | rfl <;> decide

/-- An address mode is read back from its name. -/
theorem parseAddrMode_addrModeName {mode : UInt8}
    (h : mode = addrModeStatic ∨ mode = addrModeDhcp ∨ mode = addrModeDhcpStatic) :
    parseAddrMode (addrModeName mode) = mode := by
  rcases h with rfl | rfl | rfl <;> decide

/-- A backlight mode is no more than `LCD_BACKLIGHT_AUTO`. -/
theorem parseBacklight_le (str : List UInt8) : parseBacklight str ≤ lcdBacklightAuto := by
  unfold parseBacklight
  split_ifs <;> decide

/-- The backlight is read back exactly when it is one of the three modes. -/
theorem parseBacklight_backlightName (mode : UInt8) :
    parseBacklight (backlightName mode) = mode ↔ mode ≤ lcdBacklightAuto := by
  constructor
  · intro h
    rw [← h]
    exact parseBacklight_le _
  · intro h
    -- above `auto` the name written is `on`, so only the three modes come back
    have hmode : mode = 0 ∨ mode = 1 ∨ mode = 2 := by
      have hle : mode.toNat ≤ 2 := UInt8.le_iff_toNat_le.mp h
      rcases (by omega : mode.toNat = 0 ∨ mode.toNat = 1 ∨ mode.toNat = 2) with h | h | h
      · exact Or.inl (UInt8.toNat_inj.mp h)
      · exact Or.inr (Or.inl (UInt8.toNat_inj.mp h))
      · exact Or.inr (Or.inr (UInt8.toNat_inj.mp h))
    rcases hmode with rfl | rfl | rfl <;> decide

/-- An octet of an address is below 256. -/
theorem octet_lt (ip : UInt32) : (ip &&& 0xFF).toNat < 256 := by
  rw [UInt32.toNat_and]
  exact Nat.lt_succ_of_le Nat.and_le_right

/-- `%u` takes the digits and goes on behind them. -/
theorem sscanf_unsigned {s rest : List UInt8} (hne : s ≠ []) (hdigits : ∀ c ∈ s, isDigit c = true)
    (hrest : ∀ c ∈ rest.head?, isDigit c = false) (fmt : List Directive) :
    sscanf (.unsigned :: fmt) (s ++ rest)
      = .number (UInt32.ofNat (digitsValue s)) :: sscanf fmt rest := by
  have hvalue := decimalValue_append hdigits hrest
  have hdrop : (s ++ rest).dropWhile isDigit = rest := by
    rw [List.dropWhile_append_of_pos hdigits]
    cases rest with
    | nil => rfl
    | cons d u => simp [hrest d rfl]
  obtain ⟨c, t, rfl⟩ := List.exists_cons_of_ne_nil hne
  show (if isDigit c = true then _ else _) = _
  rw [if_pos (hdigits c List.mem_cons_self)]
  show .number (decimalValue (c :: t ++ rest)) :: sscanf fmt ((c :: t ++ rest).dropWhile isDigit)
    = _
  rw [hvalue, hdrop]

/-- A text of digits with a dot or nothing behind it does not go on as a number. -/
theorem head?_dot (s : List UInt8) : ∀ c ∈ (46 :: s).head?, isDigit c = false := by
  intro c hc
  obtain rfl : 46 = c := by simpa using hc
  decide

/-- **The four conversions of a dotted text** give the numbers modulo `2 ^ 32`. -/
theorem sscanf_dottedFormat {a b c d : List UInt8} (ha : a ≠ [] ∧ ∀ x ∈ a, isDigit x = true)
    (hb : b ≠ [] ∧ ∀ x ∈ b, isDigit x = true) (hc : c ≠ [] ∧ ∀ x ∈ c, isDigit x = true)
    (hd : d ≠ [] ∧ ∀ x ∈ d, isDigit x = true) :
    sscanf dottedFormat (a ++ 46 :: b ++ 46 :: c ++ 46 :: d)
      = [.number (UInt32.ofNat (digitsValue a)), .number (UInt32.ofNat (digitsValue b)),
        .number (UInt32.ofNat (digitsValue c)), .number (UInt32.ofNat (digitsValue d))] := by
  have hpoint : ∀ (fmt : List Directive) (s : List UInt8),
      sscanf (.literal 46 :: fmt) (46 :: s) = sscanf fmt s := fun _ _ => if_pos rfl
  -- each number ends at the dot its literal then takes; the last one ends the text
  unfold dottedFormat
  simp only [List.append_assoc, List.cons_append]
  rw [sscanf_unsigned ha.1 ha.2 (head?_dot _), hpoint, sscanf_unsigned hb.1 hb.2 (head?_dot _),
    hpoint, sscanf_unsigned hc.1 hc.2 (head?_dot _), hpoint, ← List.append_nil d,
    sscanf_unsigned hd.1 hd.2 (by simp), List.append_nil, sscanf_nil]

/-- The four conversions of a dotted address give its octets. -/
theorem sscanf_dotted (ip : UInt32) :
    sscanf dottedFormat (dotted ip)
      = [.number ((ip >>> 24) &&& 0xFF), .number ((ip >>> 16) &&& 0xFF),
        .number ((ip >>> 8) &&& 0xFF), .number (ip &&& 0xFF)] := by
  have hlt : ∀ x : UInt32, (x &&& 0xFF).toNat < 10 ^ 10 := fun x =>
    (octet_lt x).trans (by decide)
  have hnumber : ∀ x : UInt32, utoa (x &&& 0xFF).toNat ≠ [] ∧
      ∀ c ∈ utoa (x &&& 0xFF).toNat, isDigit c = true := fun x =>
    ⟨utoa_ne_nil (hlt x), isDigit_of_mem_utoa (hlt x)⟩
  have hvalue : ∀ x : UInt32, UInt32.ofNat (digitsValue (utoa (x &&& 0xFF).toNat)) = x &&& 0xFF :=
    fun x => by rw [digitsValue_utoa (hlt x), UInt32.ofNat_toNat]
  unfold dotted
  rw [sscanf_dottedFormat (hnumber _) (hnumber _) (hnumber _) (hnumber _)]
  simp only [hvalue]

/-- The low byte's mask, bit by bit. -/
theorem getLsbD_mask (i : Nat) : (255#32).getLsbD i = decide (i < 8) := by
  rw [show (255#32) = BitVec.ofNat 32 (2 ^ 8 - 1) from rfl, BitVec.getLsbD_ofNat,
    Nat.testBit_two_pow_sub_one]
  by_cases h : i < 8
  · simp [h, show i < 32 by omega]
  · simp [h]

/-- The four octets of an address make it up. -/
theorem octets_join (ip : UInt32) :
    (((ip >>> 24) &&& 0xFF) <<< 24) ||| (((ip >>> 16) &&& 0xFF) <<< 16)
      ||| (((ip >>> 8) &&& 0xFF) <<< 8) ||| (ip &&& 0xFF) = ip := by
  apply UInt32.toBitVec_inj.mp
  show (((ip.toBitVec >>> 24) &&& 255#32) <<< 24) ||| (((ip.toBitVec >>> 16) &&& 255#32) <<< 16)
    ||| (((ip.toBitVec >>> 8) &&& 255#32) <<< 8) ||| (ip.toBitVec &&& 255#32) = ip.toBitVec
  apply BitVec.eq_of_getLsbD_eq
  intro i hi
  simp only [BitVec.getLsbD_or, BitVec.getLsbD_shiftLeft, BitVec.getLsbD_and,
    BitVec.getLsbD_ushiftRight, getLsbD_mask]
  -- bit `i` comes from the octet it lies in
  rcases (by omega : i < 8 ∨ (8 ≤ i ∧ i < 16) ∨ (16 ≤ i ∧ i < 24) ∨ 24 ≤ i) with h | h | h | h
  · simp [h, hi, show i < 16 by omega, show i < 24 by omega]
  · simp [h, hi, show ¬ i < 8 by omega, show i < 24 by omega, show i - 8 < 8 by omega,
      show 8 + (i - 8) = i by omega]
  · simp [h, hi, show ¬ i < 8 by omega, show ¬ i < 16 by omega, show ¬ i - 8 < 8 by omega,
      show i - 16 < 8 by omega, show 16 + (i - 16) = i by omega]
  · simp [hi, show ¬ i < 8 by omega, show ¬ i < 16 by omega, show ¬ i < 24 by omega,
      show ¬ i - 8 < 8 by omega, show ¬ i - 16 < 8 by omega, show i - 24 < 8 by omega,
      show 24 + (i - 24) = i by omega]

/-- An address is read back from its dotted form. -/
theorem parseIp_dotted (ip : UInt32) : parseIp (dotted ip) = ip := by
  have hle : ∀ x : UInt32, ¬ (x &&& 0xFF) > 255 := by
    intro x
    rw [gt_iff_lt, UInt32.lt_iff_toNat_lt]
    have := octet_lt x
    show ¬ 255 < (x &&& 0xFF).toNat
    omega
  unfold parseIp
  rw [sscanf_dotted]
  dsimp only
  rw [if_neg (by simp [hle]), octets_join]

/-- A hexadecimal digit is read back from its character. -/
theorem hexDigit_hexChar {n : Nat} (h : n < 16) : hexDigit (hexChar n) = some n := by
  revert n
  decide

/-- A byte is read back from its two hexadecimal digits. -/
theorem parseHexByte_hexByte (b : UInt8) (rest : List UInt8) :
    parseHexByte (hexByte b ++ rest) = (some b.toNat, rest) := by
  have hb := b.toNat_lt
  have hhi := hexDigit_hexChar (show b.toNat / 16 < 16 by omega)
  have hlo := hexDigit_hexChar (show b.toNat % 16 < 16 by omega)
  show parseHexByte (hexChar (b.toNat / 16) :: hexChar (b.toNat % 16) :: rest) = _
  simp only [parseHexByte, hhi, hlo]
  rw [Nat.div_add_mod']

/-- A MAC address is read back from its text. -/
theorem parseMac_colonHex (mac old : Vector UInt8 6) : parseMac (colonHex mac) old = (0, mac) := by
  unfold parseMac colonHex
  simp only [List.append_assoc, List.cons_append]
  simp only [parseMacFrom, parseHexByte_hexByte]
  -- the last byte has nothing behind it
  rw [← List.append_nil (hexByte mac[5]), parseHexByte_hexByte]
  refine Prod.ext rfl (Vector.ext fun i hi => ?_)
  rcases (by omega : i = 0 ∨ i = 1 ∨ i = 2 ∨ i = 3 ∨ i = 4 ∨ i = 5) with
    rfl | rfl | rfl | rfl | rfl | rfl
  all_goals simp

end SN110
