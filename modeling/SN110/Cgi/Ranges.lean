import SN110.Cgi.Fields

/-!
# Ranges

What values the fields of a configuration may have, after loading and after a POST. Every value that
`parse_formdata` stores is in range (`fieldInRange_parseFormdata`), and so are those of
`config_load` but for the universes and the hold time, which it takes from `atoi` as they are: 16
bits of them are stored.

`configInRange_iff` says for which files everything is in range.
-/

namespace SN110

/-! ## The ranges -/

/-- The key's field has a value that the firmware knows. -/
def FieldInRange (cfg : NodeConfig) : Key → Prop
  | .hostname => cfg.hostname.text.length < 16 ∧ 0 ∉ cfg.hostname.text
  | .dmxLabel i => (cfg.ports i).label.text.length < 9 ∧ 0 ∉ (cfg.ports i).label.text
  | .protocol => cfg.activeProtocol = protoNone ∨ cfg.activeProtocol = protoSacn ∨
      cfg.activeProtocol = protoArtnet ∨ cfg.activeProtocol = protoShownet
  | .dmxHoldtime => cfg.dmxHoldTime ≤ 300
  | .sacnUniverse i => 1 ≤ (cfg.ports i).dmxUniverse ∧ (cfg.ports i).dmxUniverse ≤ 63999
  | .dmxPortMode i => (cfg.ports i).mode = dmxModeOff ∨ (cfg.ports i).mode = dmxModeTx ∨
      (cfg.ports i).mode = dmxModeRx
  | .addrMode => cfg.addrMode = addrModeStatic ∨ cfg.addrMode = addrModeDhcp ∨
      cfg.addrMode = addrModeDhcpStatic
  | .lcdBacklight => cfg.lcdBacklight = lcdBacklightOff ∨ cfg.lcdBacklight = lcdBacklightOn ∨
      cfg.lcdBacklight = lcdBacklightAuto
  | .dmxSlotMonitor i => cfg.dmxSlotMonitor i ≤ 512
  | .nodeaddr | .netmask | .gateway | .macaddr | .lcdContrast => True

/-- Whether a key is in range is decided by its own value. -/
theorem FieldInRange.congr {a b : NodeConfig} {key : Key} (h : Agrees a b key) :
    FieldInRange a key ↔ FieldInRange b key := by
  cases key <;> simp only [FieldInRange] <;> simp only [Agrees] at h <;> rw [h]

/-- The fields that hold a number. -/
inductive NumField where
  | portUniverse (port : Port)
  | dmxHoldTime
  | lcdContrast
  | slotMonitor (port : Port)

def NumField.field : NumField → FormField
  | .portUniverse i => .portUniverse i
  | .dmxHoldTime => .dmxHoldTime
  | .lcdContrast => .lcdContrast
  | .slotMonitor i => .slotMonitor i

/-- The number stored. -/
def NumField.value (cfg : NodeConfig) : NumField → Int
  | .portUniverse i => (cfg.ports i).dmxUniverse.toNat
  | .dmxHoldTime => cfg.dmxHoldTime.toNat
  | .lcdContrast => cfg.lcdContrast.toNat
  | .slotMonitor i => (cfg.dmxSlotMonitor i).toNat

def NumField.lo : NumField → Int
  | .portUniverse _ => 1
  | _ => 0

def NumField.hi : NumField → Int
  | .portUniverse _ => 63999
  | .dmxHoldTime => 300
  | .lcdContrast => 255
  | .slotMonitor _ => 512

/-- The clamped value of a text, or the number from before if there is no text. -/
def NumField.clamped (num : NumField) (text : Option (List UInt8)) (old : Int) : Int :=
  (text.map fun v => clamp (atoi v) num.lo num.hi).getD old

/-- Everything is in range, after loading the file and after applying the body, and every number
is the clamped value of the last text for it. -/
structure ConfigInRange (file : Option (List UInt8)) (body : List UInt8) : Prop where
  loaded : ∀ key, FieldInRange (configLoad file).2 key
  posted : ∀ key, FieldInRange (parseFormdata body (configLoad file).2) key
  loadedNumber : ∀ num : NumField, num.value (configLoad file).2
    = num.clamped (keyText file num.field.key) (num.value configDefaults)
  postedNumber : ∀ num : NumField, num.value (parseFormdata body (configLoad file).2)
    = num.clamped (formText body num.field)
        (num.clamped (keyText file num.field.key) (num.value configDefaults))

/-! ## Numbers -/

section

variable {lo hi : Int}

/-- A clamped value is within the bounds. -/
theorem clamp_mem (v : Int) (h : lo ≤ hi) : lo ≤ clamp v lo hi ∧ clamp v lo hi ≤ hi := by
  unfold clamp
  split_ifs <;> omega

/-- The value keeps its clamped value when 16 bits of it are taken: it is in range, or its low 16
bits are the bound it is beyond. -/
def KeptInRange (lo hi v : Int) : Prop :=
  (lo ≤ v ∧ v ≤ hi) ∨ (v < lo ∧ v % 2 ^ 16 = lo) ∨ (hi < v ∧ v % 2 ^ 16 = hi)

/-- Storing a value modulo 2^16 clamps it exactly when it is in range or wraps to the same
bound. -/
theorem emod_eq_clamp_iff (hlo : 0 ≤ lo) (hle : lo ≤ hi) (hhi : hi < 2 ^ 16) (v : Int) :
    v % 2 ^ 16 = clamp v lo hi ↔ KeptInRange lo hi v := by
  unfold KeptInRange clamp
  split_ifs <;> omega

/-- A clamped value is stored as it is. -/
theorem toNat_ofInt_clamp_uint16 (hlo : 0 ≤ lo) (hle : lo ≤ hi) (hhi : hi < 2 ^ 16) (v : Int) :
    ((UInt16.ofInt (clamp v lo hi)).toNat : Int) = clamp v lo hi := by
  have hmem := clamp_mem v hle
  rw [toNat_ofInt_uint16]
  omega

end

/-- The value of a numeric field is decided by its key. -/
theorem NumField.value_congr {a b : NodeConfig} {num : NumField} (h : Agrees a b num.field.key) :
    num.value a = num.value b := by
  cases num with
  | portUniverse i => exact congrArg (fun n : UInt16 => (n.toNat : Int)) h
  | dmxHoldTime => exact congrArg (fun n : UInt16 => (n.toNat : Int)) h
  | lcdContrast => exact congrArg (fun n : UInt8 => (n.toNat : Int)) h
  | slotMonitor i => exact congrArg (fun n : UInt16 => (n.toNat : Int)) h

/-- `parse_formdata` clamps all the numbers. -/
theorem value_applyField (num : NumField) (cfg : NodeConfig) (val : List UInt8) :
    num.value (applyField cfg val num.field) = clamp (atoi val) num.lo num.hi := by
  cases num with
  | portUniverse i =>
    simp only [NumField.field, applyField, NumField.value, Function.update_self]
    exact toNat_ofInt_clamp_uint16 (by decide) (by decide) (by decide) _
  | dmxHoldTime => exact toNat_ofInt_clamp_uint16 (by decide) (by decide) (by decide) _
  | lcdContrast =>
    have hmem := clamp_mem (atoi val) (show (0 : Int) ≤ 255 by decide)
    show ((UInt8.ofInt (clamp (atoi val) 0 255)).toNat : Int) = clamp (atoi val) 0 255
    rw [toNat_ofInt_uint8]
    omega
  | slotMonitor i =>
    simp only [NumField.field, applyField, NumField.value, Function.update_self]
    exact toNat_ofInt_clamp_uint16 (by decide) (by decide) (by decide) _

/-- The bounds of each numeric field are those of a 16-bit variable at most. -/
theorem NumField.bounds (num : NumField) : 0 ≤ num.lo ∧ num.lo ≤ num.hi ∧ num.hi < 2 ^ 16 := by
  cases num <;> simp [NumField.lo, NumField.hi]

/-- No number is an address, the MAC address or the address mode. -/
theorem NumField.key_ne (num : NumField) :
    (num.field.key ≠ .nodeaddr ∧ num.field.key ≠ .netmask ∧ num.field.key ≠ .gateway) ∧
      num.field.key ≠ .macaddr ∧ num.field.key ≠ .addrMode := by
  cases num <;> simp [NumField.field, FormField.key]

/-- The numbers that `config_load` does not clamp. -/
def NumField.Unclamped : NumField → Prop
  | .portUniverse _ | .dmxHoldTime => True
  | .lcdContrast | .slotMonitor _ => False

/-- A key the loader does not clamp is stored modulo 2^16. -/
theorem value_applyKey_unclamped {num : NumField} (h : num.Unclamped) (config : NodeConfig)
    (v : List UInt8) : num.value (applyKey config v num.field.key) = atoi v % 2 ^ 16 := by
  cases num with
  | portUniverse i =>
    simp only [NumField.field, FormField.key, applyKey, NumField.value, Function.update_self]
    exact toNat_ofInt_uint16 _
  | dmxHoldTime => exact toNat_ofInt_uint16 _
  | lcdContrast => cases h
  | slotMonitor i => cases h

/-- A key the loader clamps is stored clamped. -/
theorem value_applyKey_clamped {num : NumField} (h : ¬ num.Unclamped) (config : NodeConfig)
    (v : List UInt8) :
    num.value (applyKey config v num.field.key) = clamp (atoi v) num.lo num.hi := by
  cases num with
  | portUniverse i => exact absurd trivial h
  | dmxHoldTime => exact absurd trivial h
  -- the loader clamps the contrast and the monitored slot, the other two it does not
  | lcdContrast =>
    show ((if atoi v < 0 then 0 else if atoi v > 255 then 255
      else UInt8.ofInt (atoi v) : UInt8).toNat : Int)
        = if atoi v < 0 then 0 else if atoi v > 255 then 255 else atoi v
    split_ifs
    · rfl
    · rfl
    · rw [toNat_ofInt_uint8]
      omega
  | slotMonitor i =>
    simp only [NumField.field, FormField.key, applyKey, NumField.value, Function.update_self]
    show _ = if atoi v < 0 then (0 : Int) else if atoi v > 512 then 512 else atoi v
    split_ifs
    · rfl
    · rfl
    · rw [toNat_ofInt_uint16]
      omega

/-! ## Fields -/

/-- A 16-bit value equal to a clamped one is within the bounds. -/
theorem uint16_mem_of_value (lo hi : Nat) (hle : lo ≤ hi) {n : UInt16} {v : Int}
    (h : (n.toNat : Int) = clamp v lo hi) : lo ≤ n.toNat ∧ n.toNat ≤ hi := by
  have hmem := clamp_mem v (show (lo : Int) ≤ hi by omega)
  omega

/-- A number that is a clamped value is in range. -/
theorem fieldInRange_of_clamped {cfg : NodeConfig} {num : NumField} {v : Int}
    (h : num.value cfg = clamp v num.lo num.hi) : FieldInRange cfg num.field.key := by
  cases num with
  | portUniverse i =>
    obtain ⟨hlo, hhi⟩ := uint16_mem_of_value 1 63999 (by decide) h
    exact ⟨UInt16.le_iff_toNat_le.mpr hlo, UInt16.le_iff_toNat_le.mpr hhi⟩
  | dmxHoldTime =>
    exact UInt16.le_iff_toNat_le.mpr (uint16_mem_of_value 0 300 (by decide) h).2
  | lcdContrast => trivial
  | slotMonitor i =>
    exact UInt16.le_iff_toNat_le.mpr (uint16_mem_of_value 0 512 (by decide) h).2

/-- A text copied by `strncpy` fits its field and has no NUL. -/
theorem fieldInRange_strncpy {size : Nat} (hsize : 0 < size) (v : List UInt8) :
    (CString.strncpy size hsize v).text.length < size ∧ 0 ∉ (CString.strncpy size hsize v).text :=
  ⟨(CString.strncpy size hsize v).length_lt, (CString.strncpy size hsize v).no_nul⟩

/-- **What the form stores is in range.** -/
theorem fieldInRange_applyField (cfg : NodeConfig) (val : List UInt8) (field : FormField) :
    FieldInRange (applyField cfg val field) field.key := by
  -- an address is never out of range, an enumeration is one of its names
  cases field with
  | hostname => exact fieldInRange_strncpy (by decide) val
  | ipaddr => trivial
  | netmask => trivial
  | gateway => trivial
  | protocol => exact parseProtocol_mem val
  | portMode i =>
    simp only [FormField.key, FieldInRange, applyField, Function.update_self]
    exact parseMode_mem val
  | portUniverse i => exact fieldInRange_of_clamped (value_applyField (.portUniverse i) cfg val)
  | portLabel i =>
    simp only [FormField.key, FieldInRange, applyField, Function.update_self]
    exact fieldInRange_strncpy (by decide) val
  | dmxHoldTime => exact fieldInRange_of_clamped (value_applyField .dmxHoldTime cfg val)
  | addrMode => exact parseAddrMode_mem val
  | lcdContrast => trivial
  | lcdBacklight => exact parseBacklight_mem val
  | slotMonitor i => exact fieldInRange_of_clamped (value_applyField (.slotMonitor i) cfg val)

/-- What the file stores is, but for the numbers that are not clamped. -/
theorem fieldInRange_applyKey {key : Key} (huniverse : ∀ i, key ≠ .sacnUniverse i)
    (hhold : key ≠ .dmxHoldtime) (config : NodeConfig) (v : List UInt8) :
    FieldInRange (applyKey config v key) key := by
  cases key with
  | hostname => exact fieldInRange_strncpy (by decide) v
  | nodeaddr => trivial
  | macaddr => trivial
  | netmask => trivial
  | gateway => trivial
  | protocol => exact parseProtocol_mem v
  | dmxPortMode i =>
    simp only [FieldInRange, applyKey, Function.update_self]
    exact parseMode_mem v
  -- the two numbers the loader does not clamp are left out
  | sacnUniverse i => exact absurd rfl (huniverse i)
  | dmxLabel i =>
    simp only [FieldInRange, applyKey, Function.update_self]
    exact fieldInRange_strncpy (by decide) v
  | dmxHoldtime => exact absurd rfl hhold
  | addrMode => exact parseAddrMode_mem v
  | lcdContrast => trivial
  | lcdBacklight => exact parseBacklight_mem v
  | dmxSlotMonitor i =>
    exact fieldInRange_of_clamped (@value_applyKey_clamped (.slotMonitor i) id config v)

/-! ## A POST -/

/-- Every key but the MAC address is set by a field of the form. -/
theorem exists_field {key : Key} (h : key ≠ .macaddr) : ∃ field : FormField, field.key = key := by
  have hall : ∀ key ∈ managedKeys, key ≠ .macaddr → ∃ field ∈ formFields, field.key = key := by
    decide
  obtain ⟨field, -, hkey⟩ := hall key (mem_managedKeys key) h
  exact ⟨field, hkey⟩

/-- The zeroed addresses have no range. -/
theorem fieldInRange_zeroDhcpAddresses (cfg : NodeConfig) (key : Key) :
    FieldInRange (zeroDhcpAddresses cfg) key ↔ FieldInRange cfg key := by
  unfold zeroDhcpAddresses
  split_ifs
  · cases key <;> exact Iff.rfl
  · exact Iff.rfl

/-- **A POST keeps everything in range.** -/
theorem fieldInRange_parseFormdata {cfg : NodeConfig} {key : Key} (h : FieldInRange cfg key)
    (body : List UInt8) : FieldInRange (parseFormdata body cfg) key := by
  rw [parseFormdata_eq, fieldInRange_zeroDhcpAddresses]
  by_cases hmac : key = .macaddr
  · subst hmac
    trivial
  · obtain ⟨field, rfl⟩ := exists_field hmac
    rw [FieldInRange.congr (agrees_postedFields field body cfg)]
    -- the field has the value of its last pair, or the one from before
    cases formText body field with
    | none => exact h
    | some val => exact fieldInRange_applyField cfg val field

/-- The form stores a number clamped, or leaves it where the body has none. -/
theorem value_parseFormdata (num : NumField) (body : List UInt8) (cfg : NodeConfig) :
    num.value (parseFormdata body cfg)
      = num.clamped (formText body num.field) (num.value cfg) := by
  obtain ⟨⟨hip, hmask, hgateway⟩, -⟩ := num.key_ne
  have hzero : Agrees (parseFormdata body cfg) (postedFields body cfg) num.field.key :=
    agrees_zeroDhcpAddresses hip hmask hgateway _
  rw [NumField.value_congr (hzero.trans (agrees_postedFields num.field body cfg))]
  cases formText body num.field with
  | none => rfl
  | some val => exact value_applyField num cfg val

/-! ## Loading -/

/-- The loader stores the number of the last line that sets the key. -/
theorem value_configLoad (num : NumField) (file : Option (List UInt8)) :
    num.value (configLoad file).2
      = num.value (withText configDefaults (keyText file num.field.key) num.field.key) :=
  NumField.value_congr (agrees_configLoad num.key_ne.2.1 num.key_ne.2.2 file)

/-- The loaded number is the clamped one exactly when the loader clamps it or it was in range. -/
theorem loadedNumber_iff (num : NumField) (file : Option (List UInt8)) :
    num.value (configLoad file).2
        = num.clamped (keyText file num.field.key) (num.value configDefaults) ↔
      (num.Unclamped → ∀ v ∈ keyText file num.field.key, KeptInRange num.lo num.hi (atoi v)) := by
  rw [value_configLoad]
  cases keyText file num.field.key with
  | none => exact iff_of_true rfl (fun _ v hv => by cases hv)
  | some v =>
    show num.value (applyKey configDefaults v num.field.key) = clamp (atoi v) num.lo num.hi ↔ _
    by_cases hun : num.Unclamped
    · obtain ⟨hlo, hle, hhi⟩ := num.bounds
      rw [value_applyKey_unclamped hun, emod_eq_clamp_iff hlo hle hhi]
      exact ⟨fun h _ w hw => by cases hw; exact h, fun h => h hun v rfl⟩
    · exact iff_of_true (value_applyKey_clamped hun configDefaults v) (fun h => absurd h hun)

/-- Every default but the address mode is in range. -/
theorem fieldInRange_configDefaults {key : Key} (h : key ≠ .addrMode) :
    FieldInRange configDefaults key := by
  cases key with
  | addrMode => exact absurd rfl h
  | hostname => exact fieldInRange_strncpy (by decide) _
  | dmxLabel i =>
    unfold FieldInRange
    revert i
    decide
  | sacnUniverse i =>
    unfold FieldInRange
    revert i
    decide
  | dmxPortMode i =>
    unfold FieldInRange
    revert i
    decide
  | dmxSlotMonitor i =>
    unfold FieldInRange
    revert i
    decide
  | _ =>
    unfold FieldInRange
    decide

/-- Every loaded field is in range that is not an unclamped number or the address mode. -/
theorem fieldInRange_loaded {key : Key} (hmode : key ≠ .addrMode)
    (huniverse : ∀ i, key ≠ .sacnUniverse i) (hhold : key ≠ .dmxHoldtime)
    (file : Option (List UInt8)) : FieldInRange (configLoad file).2 key := by
  by_cases hmac : key = .macaddr
  · subst hmac
    trivial
  rw [FieldInRange.congr (agrees_configLoad hmac hmode file)]
  cases keyText file key with
  | none => exact fieldInRange_configDefaults hmode
  | some v => exact fieldInRange_applyKey huniverse hhold configDefaults v

/-- A file that can be opened gives an address mode. -/
theorem fieldInRange_addrMode (content : List UInt8) :
    FieldInRange (configLoad (some content)).2 .addrMode := by
  unfold FieldInRange
  rw [addrMode_configLoad]
  cases keyText (some content) .addrMode with
  | some v => exact parseAddrMode_mem v
  | none =>
    dsimp only
    split_ifs
    · exact Or.inr (Or.inl rfl)
    · exact Or.inl rfl

/-- A loaded number that is its clamped value is in range. -/
theorem fieldInRange_number {num : NumField} {file : Option (List UInt8)}
    (h : num.value (configLoad file).2
      = num.clamped (keyText file num.field.key) (num.value configDefaults)) :
    FieldInRange (configLoad file).2 num.field.key := by
  cases htext : keyText file num.field.key with
  | none =>
    have hload := agrees_configLoad num.key_ne.2.1 num.key_ne.2.2 file
    rw [htext] at hload
    exact (FieldInRange.congr hload).mpr (fieldInRange_configDefaults num.key_ne.2.2)
  | some v =>
    rw [htext] at h
    exact fieldInRange_of_clamped h

/-- Every loaded field is in range if the numbers are clamped values. -/
theorem fieldInRange_configLoad {content : List UInt8}
    (hnumber : ∀ num : NumField, num.value (configLoad (some content)).2
      = num.clamped (keyText (some content) num.field.key) (num.value configDefaults))
    (key : Key) : FieldInRange (configLoad (some content)).2 key := by
  cases key with
  | addrMode => exact fieldInRange_addrMode content
  | sacnUniverse i => exact fieldInRange_number (hnumber (.portUniverse i))
  | dmxHoldtime => exact fieldInRange_number (hnumber .dmxHoldTime)
  | _ => exact fieldInRange_loaded (by simp) (by simp) (by simp) (some content)

/-- **Everything is in range** for exactly the files that can be opened and in which the last
universes and the last hold time keep their clamped values when 16 bits are stored. -/
theorem configInRange_iff (file : Option (List UInt8)) (body : List UInt8) :
    ConfigInRange file body ↔
      file.isSome ∧ (∀ i, ∀ v ∈ keyText file (.sacnUniverse i), KeptInRange 1 63999 (atoi v)) ∧
        ∀ v ∈ keyText file .dmxHoldtime, KeptInRange 0 300 (atoi v) := by
  constructor
  · intro h
    refine ⟨?_, fun i => ?_, ?_⟩
    · -- a file that cannot be opened leaves the address mode's default
      cases file with
      | some content => rfl
      | none => exact absurd (h.loaded .addrMode) (by unfold FieldInRange; decide)
    · exact (loadedNumber_iff (.portUniverse i) file).mp (h.loadedNumber _) trivial
    · exact (loadedNumber_iff .dmxHoldTime file).mp (h.loadedNumber _) trivial
  · rintro ⟨hopen, huniverse, hhold⟩
    -- conversely, the loader's numbers are in range and the form clamps its own
    obtain ⟨content, rfl⟩ := Option.isSome_iff_exists.mp hopen
    have hnumber : ∀ num : NumField, num.value (configLoad (some content)).2
        = num.clamped (keyText (some content) num.field.key) (num.value configDefaults) := by
      intro num
      rw [loadedNumber_iff]
      intro hun
      cases num with
      | portUniverse i => exact huniverse i
      | dmxHoldTime => exact hhold
      | lcdContrast => cases hun
      | slotMonitor i => cases hun
    have hloaded := fieldInRange_configLoad hnumber
    exact
      { loaded := hloaded
        posted := fun key => fieldInRange_parseFormdata (hloaded key) body
        loadedNumber := hnumber
        postedNumber := fun num => by rw [value_parseFormdata, hnumber] }

/-- A universe below the first one. -/
def universeZeroFile : List UInt8 := ascii "sacn_universe_0 = 0" ++ [lf]

/-- It is loaded as it is. -/
theorem universeZeroFile_loaded : ¬ ConfigInRange (some universeZeroFile) [] := by
  intro h
  have huniverse : ((configLoad (some universeZeroFile)).2.ports 0).dmxUniverse = 0 := by decide
  have hone := (h.loaded (.sacnUniverse 0)).1
  rw [huniverse] at hone
  exact absurd hone (by decide)

end SN110
