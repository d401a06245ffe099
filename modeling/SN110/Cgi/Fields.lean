import SN110.Cgi.Formdata
import SN110.Config.Settings

/-!
# What a posted value does

Every field of the form stands for one key of the configuration, and only the MAC address has no
field. A field of the configuration that `parse_formdata` leaves is decided by the last pair with
the field's name; the addresses are then zeroed in DHCP mode.
-/

namespace SN110

open Assign

/-- The key whose value the field sets. -/
def FormField.key : FormField → Key
  | .hostname => .hostname
  | .ipaddr => .nodeaddr
  | .netmask => .netmask
  | .gateway => .gateway
  | .protocol => .protocol
  | .portMode i => .dmxPortMode i
  | .portUniverse i => .sacnUniverse i
  | .portLabel i => .dmxLabel i
  | .dmxHoldTime => .dmxHoldtime
  | .addrMode => .addrMode
  | .lcdContrast => .lcdContrast
  | .lcdBacklight => .lcdBacklight
  | .slotMonitor i => .dmxSlotMonitor i

theorem mem_formFields (field : FormField) : field ∈ formFields := by
  cases field with
  | portMode i => revert i; decide
  | portUniverse i => revert i; decide
  | portLabel i => revert i; decide
  | slotMonitor i => revert i; decide
  | _ => decide

/-- No two fields have one name. -/
theorem FormField.name_injective {a b : FormField} (h : a.name = b.name) : a = b := by
  have hall : ∀ a ∈ formFields, ∀ b ∈ formFields, a.name = b.name → a = b := by decide
  exact hall a (mem_formFields a) b (mem_formFields b) h

/-- Every name has six characters or more. -/
theorem FormField.length_name_ge (field : FormField) : 6 ≤ field.name.length := by
  have hall : ∀ field ∈ formFields, 6 ≤ field.name.length := by decide
  exact hall field (mem_formFields field)

/-- No name is empty. -/
theorem FormField.name_ne_nil (field : FormField) : field.name ≠ [] := by
  have hge := field.length_name_ge
  intro hnil
  rw [hnil] at hge
  cases hge

/-- No name has an `=`, and every name fits its 64 bytes. -/
theorem FormField.name_fits (field : FormField) : equals ∉ field.name ∧ field.name.length ≤ 63 := by
  have hall : ∀ field ∈ formFields, equals ∉ field.name ∧ field.name.length ≤ 63 := by decide
  exact hall field (mem_formFields field)

/-- No name has a NUL. -/
theorem FormField.no_nul_name (field : FormField) : 0 ∉ field.name := by
  have hall : ∀ field ∈ formFields, 0 ∉ field.name := by decide
  exact hall field (mem_formFields field)

/-- No two fields set one key. -/
theorem FormField.key_injective {a b : FormField} (h : a.key = b.key) : a = b := by
  have hall : ∀ a ∈ formFields, ∀ b ∈ formFields, a.key = b.key → a = b := by decide
  exact hall a (mem_formFields a) b (mem_formFields b) h

/-- No field sets the MAC address. -/
theorem FormField.key_ne_macaddr (field : FormField) : field.key ≠ .macaddr := by
  cases field <;> exact fun h => by cases h

/-- The table finds a field under its own name and under no other. -/
theorem find_formFields {name : List UInt8} {field : FormField} :
    (formFields.find? fun field => name == field.name) = some field ↔ name = field.name := by
  constructor
  · intro h
    simpa using List.find?_some h
  · rintro rfl
    cases hfind : formFields.find? fun field' => field.name == field'.name with
    | none => simpa using List.find?_eq_none.mp hfind field (mem_formFields field)
    | some field' =>
      have hname : field.name = field'.name := by simpa using List.find?_some hfind
      rw [FormField.name_injective hname]

/-! ## One pair, one field -/

/-- A field leaves every other key as it was. -/
theorem agrees_applyField_of_ne {field : FormField} {key : Key} (h : key ≠ field.key)
    (cfg : NodeConfig) (val : List UInt8) : Agrees (applyField cfg val field) cfg key := by
  cases field <;> cases key <;> first
    | rfl
    | exact absurd rfl h
    | exact Function.update_of_ne (fun hport => h (by rw [hport]; rfl)) _ _
    | -- two fields of the port array: of different ports, or different fields of one
      simp only [Agrees, applyField, Function.update_apply]
      split_ifs with hport
      · subst hport
        first
          | rfl
          | exact absurd rfl h
      · rfl

/-- What a value sets a field to does not depend on the configuration. -/
theorem agrees_applyField_applyField (field : FormField) (a b : NodeConfig) (val : List UInt8) :
    Agrees (applyField a val field) (applyField b val field) field.key := by
  cases field <;> first
    | rfl
    | simp only [Agrees, FormField.key, applyField, Function.update_self]

/-! ## The fields after all pairs -/

/-- The value of a pair with the field's name. -/
def valueFor (field : FormField) (pair : List UInt8 × List UInt8) : Option (List UInt8) :=
  if pair.1 = field.name then some pair.2 else none

/-- The value that the body gives the field last. -/
def formText (body : List UInt8) (field : FormField) : Option (List UInt8) :=
  last (valueFor field) (formPairs (cstr body))

/-- The configuration after `parse_formdata`'s loop. -/
def postedFields (body : List UInt8) (cfg : NodeConfig) : NodeConfig :=
  (formPairs (cstr body)).foldl applyPair cfg

/-- What a field is after a value has been posted for it, or not. -/
def withValue (cfg : NodeConfig) (text : Option (List UInt8)) (field : FormField) : NodeConfig :=
  text.elim cfg fun val => applyField cfg val field

/-- A pair with a field's name sets that field. -/
theorem applyPair_of_name {pair : List UInt8 × List UInt8} {field : FormField}
    (h : pair.1 = field.name) (cfg : NodeConfig) :
    applyPair cfg pair = applyField cfg pair.2 field := by
  unfold applyPair
  rw [find_formFields.mpr h]

/-- A pair with no field's name does nothing. -/
theorem applyPair_of_ne {pair : List UInt8 × List UInt8}
    (h : ∀ field : FormField, pair.1 ≠ field.name) (cfg : NodeConfig) :
    applyPair cfg pair = cfg := by
  unfold applyPair
  rw [List.find?_eq_none.mpr fun field _ => by simpa using h field]

/-- A pair leaves the keys of other fields as they were. -/
theorem agrees_applyPair_of_ne {pair : List UInt8 × List UInt8} {key : Key}
    (h : ∀ field : FormField, field.key = key → pair.1 ≠ field.name) (cfg : NodeConfig) :
    Agrees (applyPair cfg pair) cfg key := by
  unfold applyPair
  cases hfind : formFields.find? fun field => pair.1 == field.name with
  | none => exact Agrees.refl cfg key
  | some field =>
    have hname := find_formFields.mp hfind
    exact agrees_applyField_of_ne (fun heq => h field heq.symm hname) cfg pair.2

/-- **The last pair with its name** decides a field. -/
theorem agrees_applyPairs (field : FormField) (pairs : List (List UInt8 × List UInt8))
    (cfg : NodeConfig) :
    Agrees (pairs.foldl applyPair cfg) (withValue cfg (last (valueFor field) pairs) field)
      field.key := by
  -- a pair with the field's name sets it whatever it was, the others leave it
  refine foldl_related (agrees_equivalence field.key) applyPair
    (fun cfg val => applyField cfg val field) (fun s s' pair v hpair => ?_)
    (fun s pair hpair => ?_) cfg pairs
  · unfold valueFor at hpair
    split_ifs at hpair with hname
    cases hpair
    rw [applyPair_of_name hname]
    exact agrees_applyField_applyField field s s' pair.2
  · unfold valueFor at hpair
    split_ifs at hpair with hname
    refine agrees_applyPair_of_ne (fun field' hkey hname' => hname ?_) s
    rw [hname', FormField.key_injective hkey]

/-- What the body sets for a field is the last text posted for it, and nothing where none is. -/
theorem agrees_postedFields (field : FormField) (body : List UInt8) (cfg : NodeConfig) :
    Agrees (postedFields body cfg) (withValue cfg (formText body field) field) field.key :=
  agrees_applyPairs field (formPairs (cstr body)) cfg

/-- The form has no field for the MAC address. -/
theorem mac_applyPairs (pairs : List (List UInt8 × List UInt8)) (cfg : NodeConfig) :
    (pairs.foldl applyPair cfg).mac = cfg.mac := by
  induction pairs generalizing cfg with
  | nil => rfl
  | cons pair pairs ih =>
    rw [List.foldl_cons, ih]
    have hskip : Agrees (applyPair cfg pair) cfg .macaddr :=
      agrees_applyPair_of_ne (fun field hkey => absurd hkey field.key_ne_macaddr) cfg
    exact hskip

/-- No body changes the MAC address. -/
theorem mac_postedFields (body : List UInt8) (cfg : NodeConfig) :
    (postedFields body cfg).mac = cfg.mac := mac_applyPairs (formPairs (cstr body)) cfg

/-- Nor one for the protocol of a port. -/
theorem protocol_applyField (c : NodeConfig) (v : List UInt8) (field : FormField) (i : Port) :
    ((applyField c v field).ports i).protocol = (c.ports i).protocol := by
  cases field with
  | portMode j =>
    simp only [applyField, Function.update_apply]
    split_ifs with h
    · rw [h]
    · rfl
  | portUniverse j =>
    simp only [applyField, Function.update_apply]
    split_ifs with h
    · rw [h]
    · rfl
  | portLabel j =>
    simp only [applyField, Function.update_apply]
    split_ifs with h
    · rw [h]
    · rfl
  | _ => rfl

/-- No form field sets a port's protocol. -/
theorem protocol_applyPairs (pairs : List (List UInt8 × List UInt8)) (cfg : NodeConfig) (i : Port) :
    ((pairs.foldl applyPair cfg).ports i).protocol = (cfg.ports i).protocol := by
  induction pairs generalizing cfg with
  | nil => rfl
  | cons pair pairs ih =>
    rw [List.foldl_cons, ih]
    unfold applyPair
    cases formFields.find? fun field => pair.1 == field.name with
    | none => rfl
    | some field => exact protocol_applyField cfg pair.2 field i

/-! ## The zeroing -/

theorem parseFormdata_eq (body : List UInt8) (cfg : NodeConfig) :
    parseFormdata body cfg = zeroDhcpAddresses (postedFields body cfg) := rfl

/-- Without DHCP no address is zeroed. -/
theorem zeroDhcpAddresses_of_ne {cfg : NodeConfig} (h : cfg.addrMode ≠ addrModeDhcp) :
    zeroDhcpAddresses cfg = cfg := if_neg h

/-- Zeroing keeps the address mode. -/
theorem addrMode_zeroDhcpAddresses (cfg : NodeConfig) :
    (zeroDhcpAddresses cfg).addrMode = cfg.addrMode := by
  unfold zeroDhcpAddresses
  split_ifs <;> rfl

/-- The three addresses are all that the zeroing touches. -/
theorem agrees_zeroDhcpAddresses {key : Key} (hip : key ≠ .nodeaddr) (hmask : key ≠ .netmask)
    (hgateway : key ≠ .gateway) (cfg : NodeConfig) : Agrees (zeroDhcpAddresses cfg) cfg key := by
  unfold zeroDhcpAddresses
  split_ifs
  · cases key <;> first
      | rfl
      | contradiction
  · exact Agrees.refl cfg key

/-- The fields that are zeroed in DHCP mode. -/
def addressFields : List FormField := [.ipaddr, .netmask, .gateway]

/-- Every key but the MAC address is set by a field of the form. -/
theorem key_cases (key : Key) : key = .macaddr ∨ ∃ field : FormField, field.key = key := by
  cases key with
  | macaddr => exact Or.inl rfl
  | nodeaddr => exact Or.inr ⟨.ipaddr, rfl⟩
  | hostname => exact Or.inr ⟨.hostname, rfl⟩
  | netmask => exact Or.inr ⟨.netmask, rfl⟩
  | gateway => exact Or.inr ⟨.gateway, rfl⟩
  | protocol => exact Or.inr ⟨.protocol, rfl⟩
  | dmxHoldtime => exact Or.inr ⟨.dmxHoldTime, rfl⟩
  | sacnUniverse i => exact Or.inr ⟨.portUniverse i, rfl⟩
  | dmxPortMode i => exact Or.inr ⟨.portMode i, rfl⟩
  | dmxLabel i => exact Or.inr ⟨.portLabel i, rfl⟩
  | addrMode => exact Or.inr ⟨.addrMode, rfl⟩
  | lcdContrast => exact Or.inr ⟨.lcdContrast, rfl⟩
  | lcdBacklight => exact Or.inr ⟨.lcdBacklight, rfl⟩
  | dmxSlotMonitor i => exact Or.inr ⟨.slotMonitor i, rfl⟩

/-- The zeroing leaves a field alone, unless it is an address and the mode is DHCP. -/
theorem agrees_zeroed {field : FormField} {cfg : NodeConfig}
    (h : field ∈ addressFields → cfg.addrMode ≠ addrModeDhcp) :
    Agrees (zeroDhcpAddresses cfg) cfg field.key := by
  by_cases haddress : field ∈ addressFields
  · rw [zeroDhcpAddresses_of_ne (h haddress)]
    exact Agrees.refl cfg field.key
  · have hnot : field ≠ .ipaddr ∧ field ≠ .netmask ∧ field ≠ .gateway := by
      simpa [addressFields] using haddress
    exact agrees_zeroDhcpAddresses (fun hkey => hnot.1 (@FormField.key_injective _ .ipaddr hkey))
      (fun hkey => hnot.2.1 (@FormField.key_injective _ .netmask hkey))
      (fun hkey => hnot.2.2 (@FormField.key_injective _ .gateway hkey)) cfg

/-- In DHCP mode the addresses are all zero. -/
theorem agrees_of_dhcp {a b : NodeConfig} (ha : a.addrMode = addrModeDhcp)
    (hb : b.addrMode = addrModeDhcp) {field : FormField} (h : field ∈ addressFields) :
    Agrees (zeroDhcpAddresses a) (zeroDhcpAddresses b) field.key := by
  unfold zeroDhcpAddresses
  rw [if_pos ha, if_pos hb]
  simp only [addressFields, List.mem_cons, List.not_mem_nil, or_false] at h
  rcases h with rfl | rfl | rfl <;> rfl

/-- Zeroing keeps the MAC address. -/
theorem mac_zeroDhcpAddresses (cfg : NodeConfig) : (zeroDhcpAddresses cfg).mac = cfg.mac := by
  unfold zeroDhcpAddresses
  split_ifs <;> rfl

/-- Zeroing keeps the ports. -/
theorem ports_zeroDhcpAddresses (cfg : NodeConfig) : (zeroDhcpAddresses cfg).ports = cfg.ports := by
  unfold zeroDhcpAddresses
  split_ifs <;> rfl

/-- **Two lists of pairs make the same configuration** exactly when they leave every field the same,
the addresses only where they are not zeroed. -/
theorem zeroed_applyPairs_eq_iff (cfg : NodeConfig)
    (pairs pairs' : List (List UInt8 × List UInt8)) :
    zeroDhcpAddresses (pairs.foldl applyPair cfg) = zeroDhcpAddresses (pairs'.foldl applyPair cfg) ↔
      ∀ field : FormField,
        (field ∈ addressFields →
          (withValue cfg (last (valueFor .addrMode) pairs) .addrMode).addrMode ≠ addrModeDhcp) →
        Agrees (withValue cfg (last (valueFor field) pairs) field)
          (withValue cfg (last (valueFor field) pairs') field) field.key := by
  have hfield : ∀ field, Agrees (pairs.foldl applyPair cfg)
      (withValue cfg (last (valueFor field) pairs) field) field.key := fun field =>
    agrees_applyPairs field pairs cfg
  have hfield' : ∀ field, Agrees (pairs'.foldl applyPair cfg)
      (withValue cfg (last (valueFor field) pairs') field) field.key := fun field =>
    agrees_applyPairs field pairs' cfg
  have hmac := mac_applyPairs pairs cfg
  have hmac' := mac_applyPairs pairs' cfg
  have hprotocol := protocol_applyPairs pairs cfg
  have hprotocol' := protocol_applyPairs pairs' cfg
  have hmode : (pairs.foldl applyPair cfg).addrMode
      = (withValue cfg (last (valueFor .addrMode) pairs) .addrMode).addrMode := hfield .addrMode
  -- from here on only what the fields, the MAC address and the protocols are is used
  generalize pairs.foldl applyPair cfg = c at *
  generalize pairs'.foldl applyPair cfg = c' at *
  rw [← hmode]
  constructor
  · intro heq field haddress
    -- zeroing keeps the mode, so both sides zero or neither does
    have hmodes : c.addrMode = c'.addrMode := by
      rw [← addrMode_zeroDhcpAddresses c, heq, addrMode_zeroDhcpAddresses]
    have hzero := agrees_zeroed haddress
    have hzero' := agrees_zeroed (hmodes ▸ haddress)
    rw [heq] at hzero
    exact (hfield field).symm.trans (hzero.symm.trans (hzero'.trans (hfield' field)))
  · intro hsame
    have hagrees : ∀ field : FormField, (field ∈ addressFields → c.addrMode ≠ addrModeDhcp) →
        Agrees c c' field.key := fun field haddress =>
      (hfield field).trans ((hsame field haddress).trans (hfield' field).symm)
    have hmodes : c.addrMode = c'.addrMode :=
      hagrees .addrMode (fun haddress => absurd haddress (by decide))
    refine eq_of_agrees (fun key => ?_) (fun i => ?_)
    · rcases key_cases key with rfl | ⟨field, rfl⟩
      · show (zeroDhcpAddresses c).mac = (zeroDhcpAddresses c').mac
        rw [mac_zeroDhcpAddresses, mac_zeroDhcpAddresses, hmac, hmac']
      · by_cases haddress : field ∈ addressFields → c.addrMode ≠ addrModeDhcp
        · have hzero' := agrees_zeroed (hmodes ▸ haddress)
          exact (agrees_zeroed haddress).trans ((hagrees field haddress).trans hzero'.symm)
        · -- an address, and zero in both
          rw [Classical.not_imp, not_not] at haddress
          exact agrees_of_dhcp haddress.2 (hmodes ▸ haddress.2) haddress.1
    · rw [ports_zeroDhcpAddresses, ports_zeroDhcpAddresses, hprotocol, hprotocol']

end SN110
