import SN110.Config.AddressText
import SN110.Config.Buffers

/-!
# `format_key` on its buffer

`format_key` as it runs: `snprintf` reads the key's format and puts the line into a buffer of
`CONFIG_MAX_LINE` bytes.

* `Prints` says what a format makes of its arguments, one directive at a time.
* `formatKeyInto_eq`: the buffer holds `formatKey` as a C string, whatever it held before.
-/

namespace SN110

open Checked

/-! ## The code -/

/-- The arguments for the six bytes of a hardware address. -/
def byteArgs (mac : Vector UInt8 6) : List PrintArg := mac.toList.map fun b => .word b.toUInt32

/-- The format that `format_key` gives `snprintf` for a key, and the arguments behind it. -/
def keyFormat (config : NodeConfig) : Key → List UInt8 × List PrintArg
  | .nodeaddr =>
    if config.addrMode = addrModeDhcp ∨ config.ipAddr = 0 then (ascii "nodeaddr = 0\n", [])
    else (ascii "nodeaddr = %u.%u.%u.%u\n", octetArgs config.ipAddr)
  | .hostname => (ascii "hostname = %s\n", [.string (some config.hostname.text)])
  | .macaddr => (ascii "macaddr = %02X:%02X:%02X:%02X:%02X:%02X\n", byteArgs config.mac)
  | .netmask => (ascii "netmask = %u.%u.%u.%u\n", octetArgs config.netmask)
  | .gateway => (ascii "gateway = %u.%u.%u.%u\n", octetArgs config.gateway)
  | .protocol =>
    (ascii "protocol = %s\n", [.string (some (protocolName config.activeProtocol))])
  | .dmxHoldtime => (ascii "dmx_holdtime = %d\n", [.word config.dmxHoldTime.toUInt32])
  | .sacnUniverse 0 =>
    (ascii "sacn_universe_0 = %d\n", [.word (config.ports 0).dmxUniverse.toUInt32])
  | .sacnUniverse 1 =>
    (ascii "sacn_universe_1 = %d\n", [.word (config.ports 1).dmxUniverse.toUInt32])
  | .dmxPortMode 0 =>
    (ascii "dmx_port0_mode = %s\n", [.string (some (modeName (config.ports 0).mode))])
  | .dmxPortMode 1 =>
    (ascii "dmx_port1_mode = %s\n", [.string (some (modeName (config.ports 1).mode))])
  | .dmxLabel 0 => (ascii "dmx1_label = %s\n", [.string (some (config.ports 0).label.text)])
  | .dmxLabel 1 => (ascii "dmx2_label = %s\n", [.string (some (config.ports 1).label.text)])
  | .addrMode => (ascii "addr_mode = %s\n", [.string (some (addrModeName config.addrMode))])
  | .lcdContrast => (ascii "lcd_contrast = %d\n", [.word config.lcdContrast.toUInt32])
  | .lcdBacklight =>
    (ascii "lcd_backlight = %s\n", [.string (some (backlightName config.lcdBacklight))])
  | .dmxSlotMonitor 0 =>
    (ascii "dmx_slot_monitor_0 = %d\n", [.word (config.dmxSlotMonitor 0).toUInt32])
  | .dmxSlotMonitor 1 =>
    (ascii "dmx_slot_monitor_1 = %d\n", [.word (config.dmxSlotMonitor 1).toUInt32])

/-- `format_key(fmtbuf, sizeof(fmtbuf), key, config)`. -/
def formatKeyInto (fmtbuf : Vector UInt8 256) (config : NodeConfig) (key : Key) :
    Except Fault (Vector UInt8 256 × Int) :=
  vsnprintf fmtbuf 256 (keyFormat config key).1 (keyFormat config key).2

/-! ## What a format prints -/

/-- The format is made of directives that take the arguments, and prints the text. -/
def Prints (fmt : List UInt8) (args : List PrintArg) (text : List UInt8) : Prop :=
  ∃ pieces : List FormatPiece, fmt = pieces.flatMap FormatPiece.text ∧
    (∀ q ∈ pieces, q.Readable) ∧ ArgsMatch pieces args ∧ expansion pieces args = text

theorem prints_nil : Prints [] [] [] := ⟨[], rfl, List.forall_mem_nil _, trivial, rfl⟩

section

variable {fmt : List UInt8} {args : List PrintArg} {text : List UInt8}

/-- Characters that are no `%` stand for themselves. -/
theorem Prints.literal (h : Prints fmt args text) {s : List UInt8} (hs : 37 ∉ s) :
    Prints (s ++ fmt) args (s ++ text) := by
  induction s with
  | nil => exact h
  -- no character of the text is a `%`, so each is a piece of its own
  | cons c s ih =>
    obtain ⟨pieces, hfmt, hread, hmatch, htext⟩ := ih fun hmem => hs (List.mem_cons_of_mem c hmem)
    refine ⟨.literal c :: pieces, ?_, List.forall_mem_cons.mpr ⟨?_, hread⟩, hmatch, ?_⟩
    · rw [List.cons_append, hfmt]
      rfl
    · exact fun hc => hs (hc ▸ List.mem_cons_self)
    · rw [List.cons_append, ← htext]
      rfl

/-- `%s`. -/
theorem Prints.string (h : Prints fmt args text) (s : List UInt8) :
    Prints (ascii "%s" ++ fmt) (.string (some s) :: args) (s ++ text) := by
  obtain ⟨pieces, hfmt, hread, hmatch, htext⟩ := h
  refine ⟨.string :: pieces, ?_, List.forall_mem_cons.mpr ⟨trivial, hread⟩, hmatch, ?_⟩
  · rw [hfmt]
    rfl
  · rw [← htext]
    rfl

/-- `%d` of a number that is not negative. -/
theorem Prints.int (h : Prints fmt args text) {val : UInt32} (hval : val.toNat < 2 ^ 31) :
    Prints (ascii "%d" ++ fmt) (.word val :: args) (utoa val.toNat ++ text) := by
  obtain ⟨pieces, hfmt, hread, hmatch, htext⟩ := h
  -- below 2^31 the number is not negative as an `int`
  have hsigned : signedText val.toInt32.toInt = utoa val.toNat := by
    have hint : val.toInt32.toInt = val.toNat := by
      rw [← UInt32.ofNat_toNat (x := val), UInt32.toInt32_ofNat', Int32.toInt_ofNat_of_lt hval,
        UInt32.ofNat_toNat]
    rw [hint, signedText, if_neg (by omega), Int.natAbs_natCast, List.nil_append,
      radixText_ten (by omega)]
  refine ⟨.int :: pieces, ?_, List.forall_mem_cons.mpr ⟨trivial, hread⟩, hmatch, ?_⟩
  · rw [hfmt]
    rfl
  · rw [expansion, hsigned, htext]

/-- `%u`. -/
theorem Prints.unsigned (h : Prints fmt args text) (val : UInt32) :
    Prints (ascii "%u" ++ fmt) (.word val :: args) (utoa val.toNat ++ text) := by
  obtain ⟨pieces, hfmt, hread, hmatch, htext⟩ := h
  have hnumber : padded false 0 (radixText 10 false val.toNat) = utoa val.toNat := by
    rw [radixText_ten (Nat.lt_trans val.toNat_lt (by decide)), padded, Nat.zero_sub]
    rfl
  refine ⟨.number .u false none :: pieces, ?_,
    List.forall_mem_cons.mpr ⟨(fun w hw => by cases hw), hread⟩, hmatch, ?_⟩
  · rw [hfmt]
    rfl
  · rw [← hnumber, ← htext]
    rfl

/-- `%02X` of a byte. -/
theorem Prints.hexByte (h : Prints fmt args text) (b : UInt8) :
    Prints (ascii "%02X" ++ fmt) (.word b.toUInt32 :: args) (SN110.hexByte b ++ text) := by
  obtain ⟨pieces, hfmt, hread, hmatch, htext⟩ := h
  -- two digits, for each of the 256 bytes
  have hdigits : ∀ high < 16, ∀ low < 16, padded true 2 (radixText 16 true (16 * high + low))
      = [hexChar high, hexChar low] := by decide
  have hbyte := hdigits (b.toNat / 16) (by have hlt := b.toNat_lt; omega) (b.toNat % 16) (by omega)
  rw [Nat.div_add_mod] at hbyte
  refine ⟨.number .X true (some 2) :: pieces, ?_,
    List.forall_mem_cons.mpr ⟨fun w hw => ?_, hread⟩, hmatch, ?_⟩
  · rw [hfmt]
    rfl
  · cases hw
    decide
  · rw [← htext, SN110.hexByte, ← hbyte]
    rfl

/-- An address. -/
theorem Prints.dotted (h : Prints fmt args text) (ip : UInt32) :
    Prints (ascii "%u.%u.%u.%u" ++ fmt) (octetArgs ip ++ args) (SN110.dotted ip ++ text) := by
  have hdot : (37 : UInt8) ∉ ([46] : List UInt8) := by decide
  have hprints := ((((((h.unsigned (ip &&& 0xFF)).literal hdot).unsigned
    ((ip >>> 8) &&& 0xFF)).literal hdot).unsigned ((ip >>> 16) &&& 0xFF)).literal hdot).unsigned
      ((ip >>> 24) &&& 0xFF)
  have hfmt : ascii "%u.%u.%u.%u"
      = ascii "%u" ++ ([46] ++ (ascii "%u" ++ ([46] ++ (ascii "%u" ++ ([46] ++ ascii "%u"))))) := by
    decide
  rw [hfmt, SN110.dotted, octetArgs]
  simpa only [List.append_assoc, List.cons_append, List.nil_append] using hprints

/-- A hardware address. -/
theorem Prints.colonHex (h : Prints fmt args text) (mac : Vector UInt8 6) :
    Prints (ascii "%02X:%02X:%02X:%02X:%02X:%02X" ++ fmt)
      (byteArgs mac ++ args) (SN110.colonHex mac ++ text) := by
  have hbytes : mac.toList = [mac[0], mac[1], mac[2], mac[3], mac[4], mac[5]] := by
    apply List.ext_getElem
    · rw [Vector.length_toList]
      rfl
    · intro i hi hi'
      rw [Vector.getElem_toList]
      rw [Vector.length_toList] at hi
      interval_cases i <;> rfl
  have hcolon : (37 : UInt8) ∉ ([58] : List UInt8) := by decide
  -- from the last byte to the first, since `Prints` grows at the front
  have hprints := ((((((((((h.hexByte mac[5]).literal hcolon).hexByte mac[4]).literal
    hcolon).hexByte mac[3]).literal hcolon).hexByte mac[2]).literal hcolon).hexByte
      mac[1]).literal hcolon).hexByte mac[0]
  have hfmt : ascii "%02X:%02X:%02X:%02X:%02X:%02X"
      = ascii "%02X" ++ ([58] ++ (ascii "%02X" ++ ([58] ++ (ascii "%02X" ++ ([58] ++
        (ascii "%02X" ++ ([58] ++ (ascii "%02X" ++ ([58] ++ ascii "%02X"))))))))) := by
    decide
  rw [hfmt, SN110.colonHex, byteArgs, hbytes]
  simpa only [List.map_cons, List.map_nil, List.append_assoc, List.cons_append, List.nil_append]
    using hprints

end

/-! ## The line of a key -/

theorem percent_notMem_name : ∀ key : Key, 37 ∉ key.name := by
  rw [Key.forall_iff]
  decide

/-- A format with the key, ` = `, the format of a value and a newline. -/
theorem prints_keyLine {config : NodeConfig} {key : Key} {fmt : List UInt8} {value : String}
    {args : List PrintArg} (hfmt : fmt = key.name ++ (ascii " = " ++ (ascii value ++ [lf])))
    (h : Prints (ascii value ++ [lf]) args (formatValue config key ++ [lf])) :
    Prints fmt args (keyLine config key) := by
  rw [hfmt]
  exact Prints.literal (Prints.literal h (show 37 ∉ ascii " = " by decide))
    (percent_notMem_name key)

theorem keyFormat_prints (config : NodeConfig) (key : Key) :
    Prints (keyFormat config key).1 (keyFormat config key).2 (keyLine config key) := by
  have hend : Prints [lf] [] [lf] := @Prints.literal [] [] [] prints_nil [lf] (by decide)
  have hword : ∀ n : UInt16, n.toUInt32.toNat < 2 ^ 31 := fun n => by
    rw [UInt16.toNat_toUInt32]
    exact Nat.lt_trans n.toNat_lt (by decide)
  have hbyte : config.lcdContrast.toUInt32.toNat < 2 ^ 31 := by
    rw [UInt8.toNat_toUInt32]
    exact Nat.lt_trans config.lcdContrast.toNat_lt (by decide)
  -- each key with the format that `format_key` has for it
  cases key with
  | nodeaddr =>
    by_cases hdhcp : config.addrMode = addrModeDhcp ∨ config.ipAddr = 0
    · rw [keyFormat, if_pos hdhcp]
      refine @prints_keyLine _ _ _ "0" _ (by decide) ?_
      rw [formatValue, if_pos hdhcp]
      exact hend.literal (by decide)
    · rw [keyFormat, if_neg hdhcp]
      refine @prints_keyLine _ _ _ "%u.%u.%u.%u" _ rfl ?_
      rw [formatValue, if_neg hdhcp]
      exact hend.dotted config.ipAddr
  | hostname => exact @prints_keyLine _ _ _ "%s" _ rfl (hend.string _)
  | macaddr =>
    refine @prints_keyLine _ _ _ "%02X:%02X:%02X:%02X:%02X:%02X" _ rfl ?_
    have hmac := hend.colonHex config.mac
    rwa [List.append_nil] at hmac
  | netmask => exact @prints_keyLine _ _ _ "%u.%u.%u.%u" _ rfl (hend.dotted _)
  | gateway => exact @prints_keyLine _ _ _ "%u.%u.%u.%u" _ rfl (hend.dotted _)
  | protocol => exact @prints_keyLine _ _ _ "%s" _ rfl (hend.string _)
  | dmxHoldtime => exact @prints_keyLine _ _ _ "%d" _ rfl (hend.int (hword _))
  | sacnUniverse i =>
    revert i
    exact Fin.forall_fin_two.mpr ⟨@prints_keyLine _ _ _ "%d" _ rfl (hend.int (hword _)),
      @prints_keyLine _ _ _ "%d" _ rfl (hend.int (hword _))⟩
  | dmxPortMode i =>
    revert i
    exact Fin.forall_fin_two.mpr ⟨@prints_keyLine _ _ _ "%s" _ rfl (hend.string _),
      @prints_keyLine _ _ _ "%s" _ rfl (hend.string _)⟩
  | dmxLabel i =>
    revert i
    exact Fin.forall_fin_two.mpr ⟨@prints_keyLine _ _ _ "%s" _ rfl (hend.string _),
      @prints_keyLine _ _ _ "%s" _ rfl (hend.string _)⟩
  | addrMode => exact @prints_keyLine _ _ _ "%s" _ rfl (hend.string _)
  | lcdContrast => exact @prints_keyLine _ _ _ "%d" _ rfl (hend.int hbyte)
  | lcdBacklight => exact @prints_keyLine _ _ _ "%s" _ rfl (hend.string _)
  | dmxSlotMonitor i =>
    revert i
    exact Fin.forall_fin_two.mpr ⟨@prints_keyLine _ _ _ "%d" _ rfl (hend.int (hword _)),
      @prints_keyLine _ _ _ "%d" _ rfl (hend.int (hword _))⟩

/-- **`format_key`** leaves the line in the buffer, as a C string. -/
theorem formatKeyInto_eq (fmtbuf : Vector UInt8 256) (config : NodeConfig) (key : Key) :
    ∃ stored n, formatKeyInto fmtbuf config key = .ok (stored, n) ∧
      HoldsText stored 0 (formatKey config key) := by
  obtain ⟨pieces, hfmt, hread, hmatch, htext⟩ := keyFormat_prints config key
  have hlength := length_keyLine_le config key
  -- no line is cut by the 256 bytes
  have hfits : (keyLine config key).length < (256 : UInt32).toNat :=
    Nat.lt_of_le_of_lt hlength (by decide)
  have hprint := @vsnprintf_of_fits 256 fmtbuf 256 (by decide) (by decide) pieces _ hread hmatch
    (by rwa [htext]) (by rw [htext]; omega)
  rw [← hfmt, htext, ← formatKey_eq] at hprint
  refine ⟨_, _, hprint, ?_⟩
  have hholds := @holdsText_overlay 256 fmtbuf (formatKey config key)
    (by rw [formatKey_eq]; omega)
  rwa [cstr_of_no_nul (by rw [formatKey_eq]; exact keyLine_no_nul config key)] at hholds

end SN110
