import SN110.Config.Load

/-!
# Formatting (`format_key`)

Every key is written `key = value` on a line of its own, through `snprintf` into a buffer of
`CONFIG_MAX_LINE` bytes.
-/

namespace SN110

/-- The value `format_key` writes for a key. -/
def formatValue (config : NodeConfig) : Key → List UInt8
  | .nodeaddr =>
    if config.addrMode = addrModeDhcp ∨ config.ipAddr = 0 then ascii "0" else dotted config.ipAddr
  | .hostname => config.hostname.text
  | .macaddr => colonHex config.mac
  | .netmask => dotted config.netmask
  | .gateway => dotted config.gateway
  | .protocol => protocolName config.activeProtocol
  | .dmxHoldtime => utoa config.dmxHoldTime.toNat
  | .sacnUniverse i => utoa (config.ports i).dmxUniverse.toNat
  | .dmxPortMode i => modeName (config.ports i).mode
  | .dmxLabel i => (config.ports i).label.text
  | .addrMode => addrModeName config.addrMode
  | .lcdContrast => utoa config.lcdContrast.toNat
  | .lcdBacklight => backlightName config.lcdBacklight
  | .dmxSlotMonitor i => utoa (config.dmxSlotMonitor i).toNat

/-- The whole text of a key's line. -/
def keyLine (config : NodeConfig) (key : Key) : List UInt8 :=
  key.name ++ (space :: equals :: space :: (formatValue config key ++ [lf]))

/-- `format_key`, into a buffer of 256 bytes. Every line fits it as a whole (`formatKey_eq`), and so
`snprintf` has nothing to cut off. -/
def formatKey (config : NodeConfig) (key : Key) : List UInt8 :=
  (keyLine config key).take maxPiece

/-! ## The texts in a configuration -/

/-- The hostname and the labels hold no line end. -/
def CleanText (config : NodeConfig) : Prop :=
  (∀ c ∈ config.hostname.text, c ≠ lf ∧ c ≠ cr) ∧
    ∀ i, ∀ c ∈ (config.ports i).label.text, c ≠ lf ∧ c ≠ cr

instance (config : NodeConfig) : Decidable (CleanText config) := by
  unfold CleanText
  infer_instance

/-- A byte that a value may hold. -/
structure Plain (c : UInt8) : Prop where
  ne_nul : c ≠ 0
  ne_lf : c ≠ lf
  ne_cr : c ≠ cr

instance (c : UInt8) : Decidable (Plain c) :=
  decidable_of_iff (c ≠ 0 ∧ c ≠ lf ∧ c ≠ cr)
    ⟨fun ⟨hnul, hlf, hcr⟩ => ⟨hnul, hlf, hcr⟩, fun h => ⟨h.ne_nul, h.ne_lf, h.ne_cr⟩⟩

section Bytes

variable {P : UInt8 → Prop}

/-- What holds of the digits and the dot holds of the bytes of an address. -/
theorem forall_mem_dotted (hdigit : ∀ c, isDigit c = true → P c) (hdot : P 46) (ip : UInt32) :
    ∀ c ∈ dotted ip, P c := by
  have hlt : ∀ x : UInt32, (x &&& 0xFF).toNat < 10 ^ 10 := fun x =>
    (octet_lt x).trans (by decide)
  intro c hc
  unfold dotted at hc
  simp only [List.mem_append, List.mem_cons] at hc
  rcases hc with ((hc | rfl | hc) | rfl | hc) | rfl | hc
  all_goals first
    | exact hdot
    | exact hdigit c (isDigit_of_mem_utoa (hlt _) c hc)

/-- An octet has at most three digits. -/
theorem length_utoa_octet : ∀ n < 256, (utoa n).length ≤ 3 := by
  decide +kernel

/-- A dotted address has at most 15 characters. -/
theorem length_dotted_le (ip : UInt32) : (dotted ip).length ≤ 15 := by
  have hoctet : ∀ x : UInt32, (utoa (x &&& 0xFF).toNat).length ≤ 3 := fun x =>
    length_utoa_octet _ (octet_lt x)
  have h1 := hoctet (ip >>> 24)
  have h2 := hoctet (ip >>> 16)
  have h3 := hoctet (ip >>> 8)
  have h4 := hoctet ip
  unfold dotted
  simp only [List.length_append, List.length_cons]
  omega

/-- What holds of the hex digits and the colon holds of the bytes of a MAC address. -/
theorem forall_mem_colonHex (hhex : ∀ n < 16, P (hexChar n)) (hcolon : P 58)
    (mac : Vector UInt8 6) : ∀ c ∈ colonHex mac, P c := by
  have hbyte : ∀ b : UInt8, ∀ c ∈ hexByte b, P c := by
    intro b c hc
    have hb := b.toNat_lt
    rcases List.mem_pair.mp hc with rfl | rfl
    · exact hhex _ (by omega)
    · exact hhex _ (by omega)
  intro c hc
  unfold colonHex at hc
  simp only [List.mem_append, List.mem_cons] at hc
  rcases hc with ((((hc | rfl | hc) | rfl | hc) | rfl | hc) | rfl | hc) | rfl | hc
  all_goals first
    | exact hcolon
    | exact hbyte _ c hc

end Bytes

/-- A digit may stand in a line. -/
theorem plain_of_isDigit {c : UInt8} (h : isDigit c = true) : Plain c :=
  ⟨ne_of_isDigit h (by decide), ne_of_isDigit h (by decide), ne_of_isDigit h (by decide)⟩

/-- So may a whole number. -/
theorem plain_utoa {n : Nat} (h : n < 10 ^ 10) : ∀ c ∈ utoa n, Plain c := fun c hc =>
  plain_of_isDigit (isDigit_of_mem_utoa h c hc)

/-- So may a dotted address. -/
theorem plain_dotted (ip : UInt32) : ∀ c ∈ dotted ip, Plain c :=
  forall_mem_dotted (fun _ => plain_of_isDigit) (by decide) ip

/-- So may a MAC address in hexadecimal. -/
theorem plain_colonHex (mac : Vector UInt8 6) : ∀ c ∈ colonHex mac, Plain c :=
  forall_mem_colonHex (by decide) (by decide) mac

/-- The names the firmware writes for its enumerations. -/
def enumNames : List (List UInt8) :=
  [ascii "0", ascii "tx", ascii "rx", ascii "off", ascii "sacn", ascii "artnet", ascii "shownet",
    ascii "none", ascii "dhcp", ascii "static", ascii "dhcp_static", ascii "on", ascii "auto"]

/-- The name of a mode is one of the fixed names, also for a mode that is none. -/
theorem modeName_mem (mode : Int) : modeName mode ∈ enumNames := by
  unfold modeName
  split_ifs <;> decide

/-- The name of a protocol is one of the fixed names. -/
theorem protocolName_mem (proto : Int) : protocolName proto ∈ enumNames := by
  unfold protocolName
  split_ifs <;> decide

/-- The name of an address mode is one of the fixed names. -/
theorem addrModeName_mem (mode : UInt8) : addrModeName mode ∈ enumNames := by
  unfold addrModeName
  split_ifs <;> decide

/-- The name of a backlight mode is one of the fixed names. -/
theorem backlightName_mem (mode : UInt8) : backlightName mode ∈ enumNames := by
  unfold backlightName
  split_ifs <;> decide

/-- A value is one of the configuration's texts, a number, an address or the name of an
enumeration. Every fact about all values is proved along these cases. -/
theorem formatValue_cases {P : List UInt8 → Prop} (config : NodeConfig)
    (hhost : P config.hostname.text) (hlabel : ∀ i, P (config.ports i).label.text)
    (hnumber : ∀ n < 10 ^ 10, P (utoa n)) (hdotted : ∀ ip, P (dotted ip))
    (hmac : ∀ mac, P (colonHex mac)) (henum : ∀ s ∈ enumNames, P s) (key : Key) :
    P (formatValue config key) := by
  have h16 : ∀ n : UInt16, n.toNat < 10 ^ 10 := fun n => n.toNat_lt.trans (by decide)
  have h8 : ∀ n : UInt8, n.toNat < 10 ^ 10 := fun n => n.toNat_lt.trans (by decide)
  cases key with
  -- the address is written as 0 in DHCP mode and when there is none
  | nodeaddr =>
    show P (if config.addrMode = addrModeDhcp ∨ config.ipAddr = 0 then ascii "0"
      else dotted config.ipAddr)
    split_ifs
    · exact henum _ (by decide)
    · exact hdotted _
  | hostname => exact hhost
  | macaddr => exact hmac _
  | netmask => exact hdotted _
  | gateway => exact hdotted _
  | protocol => exact henum _ (protocolName_mem _)
  | dmxHoldtime => exact hnumber _ (h16 _)
  | sacnUniverse i => exact hnumber _ (h16 _)
  | dmxPortMode i => exact henum _ (modeName_mem _)
  | dmxLabel i => exact hlabel i
  | addrMode => exact henum _ (addrModeName_mem _)
  | lcdContrast => exact hnumber _ (h8 _)
  | lcdBacklight => exact henum _ (backlightName_mem _)
  | dmxSlotMonitor i => exact hnumber _ (h16 _)

/-- No value of a clean configuration ends its line early or cuts the text short. -/
theorem formatValue_plain {config : NodeConfig} (h : CleanText config) (key : Key) :
    ∀ c ∈ formatValue config key, Plain c := by
  have htext : ∀ {n : Nat} (t : CString n), (∀ c ∈ t.text, c ≠ lf ∧ c ≠ cr) →
      ∀ c ∈ t.text, Plain c := fun t ht c hc =>
    ⟨fun hzero => t.no_nul (hzero ▸ hc), (ht c hc).1, (ht c hc).2⟩
  refine formatValue_cases (P := fun v => ∀ c ∈ v, Plain c) config (htext _ h.1)
    (fun i => htext _ (h.2 i)) (fun n hn => plain_utoa hn) plain_dotted plain_colonHex
    (by decide) key

/-- No value takes more than 43 of the 256 bytes of `format_key`. -/
theorem length_formatValue_le (config : NodeConfig) (key : Key) :
    (formatValue config key).length ≤ 43 := by
  -- the longest is an address: four numbers of ten digits and three dots
  refine formatValue_cases (P := fun v => v.length ≤ 43) config ?_ ?_ ?_ ?_ ?_ (by decide) key
  · have := config.hostname.length_lt
    omega
  · intro i
    have := (config.ports i).label.length_lt
    omega
  · intro n _
    have := length_utoa_le n
    omega
  · intro ip
    unfold dotted
    simp only [List.length_append, List.length_cons]
    have h1 := length_utoa_le ((ip >>> 24) &&& 0xFF).toNat
    have h2 := length_utoa_le ((ip >>> 16) &&& 0xFF).toNat
    have h3 := length_utoa_le ((ip >>> 8) &&& 0xFF).toNat
    have h4 := length_utoa_le (ip &&& 0xFF).toNat
    omega
  · intro mac
    unfold colonHex hexByte
    simp

/-- A value has no NUL: every text in it was read up to its own. -/
theorem formatValue_no_nul (config : NodeConfig) (key : Key) : 0 ∉ formatValue config key := by
  have hplain : ∀ s : List UInt8, (∀ c ∈ s, Plain c) → 0 ∉ s := fun s hs hzero =>
    (hs 0 hzero).ne_nul rfl
  exact formatValue_cases (P := fun v => 0 ∉ v) config config.hostname.no_nul
    (fun i => (config.ports i).label.no_nul) (fun n hn => hplain _ (plain_utoa hn))
    (fun ip => hplain _ (plain_dotted ip)) (fun mac => hplain _ (plain_colonHex mac))
    (by decide) key

/-! ## The lines -/

/-- A line is the name, the value, ` = ` and the line end. -/
theorem length_keyLine (config : NodeConfig) (key : Key) :
    (keyLine config key).length = key.name.length + (formatValue config key).length + 4 := by
  unfold keyLine
  simp only [List.length_append, List.length_cons, List.length_nil]
  omega

/-- So no line that is written for a key is longer than 65 bytes. -/
theorem length_keyLine_le (config : NodeConfig) (key : Key) :
    (keyLine config key).length ≤ 65 := by
  have hname := key.length_name_le
  have hvalue := length_formatValue_le config key
  rw [length_keyLine]
  omega

/-- `snprintf` never cuts a key's line. -/
theorem formatKey_eq (config : NodeConfig) (key : Key) :
    formatKey config key = keyLine config key :=
  List.take_of_length_le ((length_keyLine_le config key).trans (by decide))

/-- A line is its text and the line end behind it. -/
theorem keyLine_eq_concat (config : NodeConfig) (key : Key) :
    keyLine config key
      = (key.name ++ (space :: equals :: space :: formatValue config key)) ++ [lf] := by
  simp [keyLine]

/-- Every line ends in a line end. -/
theorem keyLine_getLast (config : NodeConfig) (key : Key) :
    (keyLine config key).getLast? = some lf := by
  rw [keyLine_eq_concat, List.getLast?_concat]

/-- No line is empty. -/
theorem keyLine_ne_nil (config : NodeConfig) (key : Key) : keyLine config key ≠ [] := by
  unfold keyLine
  simp

/-- The line without its newline. -/
theorem keyLine_dropLast (config : NodeConfig) (key : Key) :
    (keyLine config key).dropLast
      = key.name ++ (space :: equals :: space :: formatValue config key) := by
  rw [keyLine_eq_concat, List.dropLast_concat]

/-- No line has a NUL. -/
theorem keyLine_no_nul (config : NodeConfig) (key : Key) : 0 ∉ keyLine config key := by
  intro h
  unfold keyLine at h
  simp only [List.mem_append, List.mem_cons, List.not_mem_nil, or_false] at h
  rcases h with h | h | h | h | h | h
  · exact (Key.nameByte h).ne_nul rfl
  · exact absurd h (by decide)
  · exact absurd h (by decide)
  · exact absurd h (by decide)
  · exact formatValue_no_nul config key h
  · exact absurd h (by decide)

/-- A key's line with a clean value is one closed piece. -/
theorem keyLine_isPiece {config : NodeConfig} (h : CleanText config) (key : Key) :
    Pieces.IsPiece lf maxPiece (keyLine config key) ∧
      Pieces.Closed lf maxPiece (keyLine config key) := by
  refine ⟨⟨keyLine_ne_nil config key, (length_keyLine_le config key).trans (by decide), ?_⟩,
    Or.inl (keyLine_getLast config key)⟩
  rw [keyLine_dropLast]
  simp only [List.mem_append, List.mem_cons, not_or]
  exact ⟨fun hmem => (Key.nameByte hmem).ne_lf rfl, by decide, by decide, by decide,
    fun hmem => (formatValue_plain h key lf hmem).ne_lf rfl⟩

/-- A text without blanks has none at its ends. -/
theorem trimmed_of_forall {s : List UInt8} (h : ∀ c ∈ s, isBlank c = false) : Trimmed s :=
  ⟨fun c hc => h c (List.mem_of_mem_head? hc), fun c hc => h c (List.mem_of_getLast? hc)⟩

/-- A line with a key's name before the `=` is accepted, also after some blanks and whatever its
value is. -/
theorem scanLine_blanks_name (key : Key) {bs : List UInt8} (hbs : ∀ c ∈ bs, isBlank c = true)
    (hroom : bs.length + key.name.length + 1 ≤ 63) {value : List UInt8} (hnul : 0 ∉ value) :
    scanLine (bs ++ (key.name ++ (space :: equals :: space :: value)))
      = some (key.name, trim (spanNoneOf 191 [lf, cr] (space :: value))) := by
  -- the line starts with a blank or with the name, so it is no comment and not empty
  have hhead : ∀ c ∈ (bs ++ (key.name ++ (space :: equals :: space :: value))).head?,
      c ≠ hash ∧ c ≠ lf ∧ c ≠ cr := by
    intro c hc
    cases bs with
    | nil =>
      rw [List.nil_append, List.head?_append_of_ne_nil _ key.name_ne_nil] at hc
      have hbyte := Key.nameByte (List.mem_of_mem_head? hc)
      exact ⟨hbyte.ne_hash, hbyte.ne_lf, hbyte.ne_cr⟩
    | cons b bs =>
      obtain rfl : b = c := by simpa using hc
      have := hbs b List.mem_cons_self
      refine ⟨?_, ?_, ?_⟩ <;> rintro rfl <;> exact absurd this (by decide)
  rw [scanLine_eq_some]
  refine ⟨⟨fun he => (hhead _ he).1 rfl, fun he => (hhead _ he).2.1 rfl,
    fun he => (hhead _ he).2.2 rfl⟩, bs ++ (key.name ++ [space]), space :: value,
    ?_, ?_, ?_, ?_, ?_, ?_, rfl⟩
  · rw [cstr_of_no_nul]
    · simp only [List.append_assoc, List.singleton_append]
    · simp only [List.mem_append, List.mem_cons, not_or]
      exact ⟨fun hmem => absurd (hbs 0 hmem) (by decide),
        fun hmem => (Key.nameByte hmem).ne_nul rfl, by decide, by decide, by decide, hnul⟩
  · simp only [List.mem_append, List.mem_singleton, not_or]
    exact ⟨fun hmem => absurd (hbs equals hmem) (by decide),
      key.equals_notMem_name, by decide⟩
  · simp
  · simp only [List.length_append, List.length_singleton]
    omega
  · unfold spanNoneOf
    rw [List.takeWhile_cons, if_pos (by decide)]
    exact List.cons_ne_nil _ _
  · rw [trim_blanks_append hbs, trim_append_blanks (by decide), trim_of_trimmed]
    exact trimmed_of_forall fun c hc => (Key.nameByte hc).not_blank

/-- What is read back of a value behind a blank, up to the end of its line. -/
theorem trim_span_concat {v : List UInt8} (h : ∀ c ∈ v, c ≠ lf ∧ c ≠ cr) (hlen : v.length < 191) :
    trim (spanNoneOf 191 [lf, cr] (space :: (v ++ [lf]))) = trim v := by
  have hspan : spanNoneOf 191 [lf, cr] (space :: (v ++ [lf])) = space :: v := by
    refine spanNoneOf_append (p := space :: v) ?_ ?_ ?_
    · intro c hc
      rcases List.mem_cons.mp hc with rfl | hc
      · decide
      · simp [(h c hc).1, (h c hc).2]
    · rw [List.length_cons]
      omega
    · simp
  rw [hspan]
  have hblank : ∀ c ∈ [space], isBlank c = true := by decide
  exact trim_blanks_append hblank v

/-- **A written line is read back** as its key and its trimmed value, also after some blanks. -/
theorem lineSets_blanks_keyLine {config : NodeConfig} (h : CleanText config) (key : Key)
    {bs : List UInt8} (hbs : ∀ c ∈ bs, isBlank c = true)
    (hroom : bs.length + key.name.length + 1 ≤ 63) :
    lineSets (bs ++ keyLine config key) = some (key, trim (formatValue config key)) := by
  have hnul : 0 ∉ formatValue config key ++ [lf] := by
    rw [List.mem_append, not_or]
    exact ⟨formatValue_no_nul config key, by decide⟩
  have hvalue := formatValue_plain h key
  have hlen := length_formatValue_le config key
  have hscan := scanLine_blanks_name key hbs hroom hnul
  rw [trim_span_concat (fun c hc => ⟨(hvalue c hc).ne_lf, (hvalue c hc).ne_cr⟩) (by omega)] at hscan
  exact lineSets_eq_some.mpr hscan

/-- Read back, the line of a key sets that key, to its value without the blanks around it. -/
theorem lineSets_keyLine {config : NodeConfig} (h : CleanText config) (key : Key) :
    lineSets (keyLine config key) = some (key, trim (formatValue config key)) :=
  lineSets_blanks_keyLine h key (List.forall_mem_nil _) (by
    have := key.length_name_le
    rw [List.length_nil]
    omega)

/-! ## Reading a value back -/

/-- The configurations the file can hold: texts without line ends or blanks at their ends, and
enumerations that have a name. -/
structure Persistable (config : NodeConfig) : Prop where
  clean : CleanText config
  hostname : Trimmed config.hostname.text
  label : ∀ i, Trimmed (config.ports i).label.text
  mode : ∀ i, (config.ports i).mode = dmxModeOff ∨ (config.ports i).mode = dmxModeTx ∨
    (config.ports i).mode = dmxModeRx
  protocol : config.activeProtocol = protoNone ∨ config.activeProtocol = protoSacn ∨
    config.activeProtocol = protoArtnet ∨ config.activeProtocol = protoShownet
  addrMode : config.addrMode = addrModeStatic ∨ config.addrMode = addrModeDhcpStatic ∨
    (config.addrMode = addrModeDhcp ∧ config.ipAddr = 0)

/-- The fields that the loading code clamps are within their bounds. -/
def InRange (config : NodeConfig) : Prop :=
  config.lcdBacklight ≤ lcdBacklightAuto ∧ ∀ i, config.dmxSlotMonitor i ≤ 512

instance (config : NodeConfig) : Decidable (InRange config) := by
  unfold InRange
  infer_instance

/-- A persistable configuration's values have no blanks around them. -/
theorem formatValue_trimmed {config : NodeConfig} (h : Persistable config) (key : Key) :
    Trimmed (formatValue config key) := by
  have hdigit : ∀ c, isDigit c = true → isBlank c = false := fun _ => isBlank_of_isDigit
  -- but for the texts, no value holds a blank at all
  exact formatValue_cases (P := Trimmed) config h.hostname h.label
    (fun n hn => trimmed_of_forall fun c hc => hdigit c (isDigit_of_mem_utoa hn c hc))
    (fun ip => trimmed_of_forall (forall_mem_dotted hdigit (by decide) ip))
    (fun mac => trimmed_of_forall (forall_mem_colonHex (by decide) (by decide) mac))
    (by decide) key

/-- A 16-bit number is read back as itself. -/
theorem atoi_utoa_uint16 (n : UInt16) : atoi (utoa n.toNat) = n.toNat :=
  atoi_utoa (n.toNat_lt.trans (by decide))

/-- Storing an `int` into a `uint16_t` keeps it modulo 2^16. -/
theorem toNat_ofInt_uint16 (v : Int) : ((UInt16.ofInt v).toNat : Int) = v % 2 ^ 16 := by
  rw [UInt16.ofInt, UInt16.toNat_ofNat']
  show (((v % 2 ^ 16).toNat % 2 ^ 16 : Nat) : Int) = v % 2 ^ 16
  omega

/-- Storing an `int` into a `uint8_t` keeps it modulo 2^8. -/
theorem toNat_ofInt_uint8 (v : Int) : ((UInt8.ofInt v).toNat : Int) = v % 2 ^ 8 := by
  rw [UInt8.ofInt, UInt8.toNat_ofNat']
  show (((v % 2 ^ 8).toNat % 2 ^ 8 : Nat) : Int) = v % 2 ^ 8
  omega

/-- A 16-bit number survives the way through `int`. -/
theorem ofInt_toNat_uint16 (n : UInt16) : UInt16.ofInt n.toNat = n := by
  apply UInt16.toNat_inj.mp
  have hlt := n.toNat_lt
  have hval := toNat_ofInt_uint16 n.toNat
  omega

/-- An 8-bit number survives the way through `int`. -/
theorem ofInt_toNat_uint8 (n : UInt8) : UInt8.ofInt n.toNat = n := by
  apply UInt8.toNat_inj.mp
  have hlt := n.toNat_lt
  have hval := toNat_ofInt_uint8 n.toNat
  omega

/-- The slot monitor is read back exactly when it is a slot of a universe. -/
theorem clampSlot_eq_iff (n : UInt16) :
    (if (n.toNat : Int) < 0 then 0 else if (n.toNat : Int) > 512 then 512
      else UInt16.ofInt n.toNat) = n ↔ n ≤ 512 := by
  rw [if_neg (by omega), UInt16.le_iff_toNat_le]
  show _ ↔ n.toNat ≤ 512
  -- past 512 the value read is 512
  split_ifs with hgt
  · constructor
    · rintro rfl
      exact le_rfl
    · intro hle
      omega
  · rw [ofInt_toNat_uint16]
    exact ⟨fun _ => by omega, fun _ => rfl⟩

/-- The key's field is read back within its bounds. -/
def KeyInRange (config : NodeConfig) : Key → Prop
  | .lcdBacklight => config.lcdBacklight ≤ lcdBacklightAuto
  | .dmxSlotMonitor i => config.dmxSlotMonitor i ≤ 512
  | _ => True

/-- A configuration is in range when each of its keys is. -/
theorem inRange_iff (config : NodeConfig) : InRange config ↔ ∀ key, KeyInRange config key := by
  constructor
  · intro h key
    cases key with
    | lcdBacklight => exact h.1
    | dmxSlotMonitor i => exact h.2 i
    | _ => trivial
  · exact fun h => ⟨h .lcdBacklight, fun i => h (.dmxSlotMonitor i)⟩

/-- **A written value is read back**, whatever the configuration it is read into, exactly when it
is within the bounds of its field. -/
theorem agrees_applyKey_formatValue {config : NodeConfig} (h : Persistable config)
    (c : NodeConfig) (key : Key) :
    Agrees (applyKey c (trim (formatValue config key)) key) config key ↔
      KeyInRange config key := by
  rw [trim_of_trimmed (formatValue_trimmed h key)]
  cases key with
  | nodeaddr =>
    refine iff_of_true ?_ trivial
    show (if formatValue config .nodeaddr = ascii "0" then 0
      else parseIp (formatValue config .nodeaddr)) = config.ipAddr
    -- `0` is written in DHCP mode too, where a persistable address is 0
    have hzero : config.addrMode = addrModeDhcp ∨ config.ipAddr = 0 → config.ipAddr = 0 := by
      rintro (hdhcp | hip)
      · rcases h.addrMode with hmode | hmode | ⟨_, hip⟩
        · rw [hmode] at hdhcp; cases hdhcp
        · rw [hmode] at hdhcp; cases hdhcp
        · exact hip
      · exact hip
    unfold formatValue
    by_cases hip : config.addrMode = addrModeDhcp ∨ config.ipAddr = 0
    · rw [if_pos hip, if_pos rfl, hzero hip]
    · rw [if_neg hip, parseIp_dotted]
      split_ifs with hdot
      · -- a dotted address is not `0`: it would be read back as 0
        have := congrArg parseIp hdot
        rw [parseIp_dotted] at this
        rw [this]
        decide
      · rfl
  | hostname =>
    refine iff_of_true ?_ trivial
    exact CString.ext_text (strncpy_text (by decide) config.hostname.no_nul
      config.hostname.length_lt)
  | macaddr =>
    refine iff_of_true ?_ trivial
    show (parseMac (colonHex config.mac) c.mac).2 = config.mac
    rw [parseMac_colonHex]
  | netmask => exact iff_of_true (parseIp_dotted _) trivial
  | gateway => exact iff_of_true (parseIp_dotted _) trivial
  | protocol => exact iff_of_true (parseProtocol_protocolName h.protocol) trivial
  | dmxHoldtime =>
    refine iff_of_true ?_ trivial
    show UInt16.ofInt (atoi (utoa config.dmxHoldTime.toNat)) = config.dmxHoldTime
    rw [atoi_utoa_uint16, ofInt_toNat_uint16]
  | sacnUniverse i =>
    refine iff_of_true ?_ trivial
    simp only [Agrees, applyKey, formatValue, Function.update_self, atoi_utoa_uint16,
      ofInt_toNat_uint16]
  | dmxPortMode i =>
    refine iff_of_true ?_ trivial
    simp only [Agrees, applyKey, formatValue, Function.update_self]
    exact parseMode_modeName (h.mode i)
  | dmxLabel i =>
    refine iff_of_true ?_ trivial
    simp only [Agrees, applyKey, formatValue, Function.update_self]
    exact CString.ext_text (strncpy_text (by decide) (config.ports i).label.no_nul
      (config.ports i).label.length_lt)
  | addrMode =>
    refine iff_of_true (parseAddrMode_addrModeName ?_) trivial
    rcases h.addrMode with hmode | hmode | ⟨hmode, _⟩
    · exact Or.inl hmode
    · exact Or.inr (Or.inr hmode)
    · exact Or.inr (Or.inl hmode)
  | lcdContrast =>
    refine iff_of_true ?_ trivial
    have hlt := config.lcdContrast.toNat_lt
    have hatoi : atoi (utoa config.lcdContrast.toNat) = config.lcdContrast.toNat :=
      atoi_utoa (hlt.trans (by decide))
    simp only [Agrees, applyKey, formatValue, hatoi]
    rw [if_neg (by omega), if_neg (by omega), ofInt_toNat_uint8]
  | lcdBacklight => exact parseBacklight_backlightName config.lcdBacklight
  | dmxSlotMonitor i =>
    simp only [Agrees, applyKey, formatValue, Function.update_self, atoi_utoa_uint16, KeyInRange]
    exact clampSlot_eq_iff _

end SN110
