import SN110.Minilib.Text

/-!
# The configuration keys (`config.c`)

`managed_keys` and `strand_keys`. The keys that come once for each port are one constructor.
-/

namespace SN110

/-- The keys of the configuration file that the firmware manages. -/
inductive Key where
  | nodeaddr
  | hostname
  | macaddr
  | netmask
  | gateway
  | protocol
  | dmxHoldtime
  | sacnUniverse (port : Port)
  | dmxPortMode (port : Port)
  | dmxLabel (port : Port)
  | addrMode
  | lcdContrast
  | lcdBacklight
  | dmxSlotMonitor (port : Port)
deriving DecidableEq

/-- The key as it stands in the file. -/
def Key.name : Key → List UInt8
  | .nodeaddr => ascii "nodeaddr"
  | .hostname => ascii "hostname"
  | .macaddr => ascii "macaddr"
  | .netmask => ascii "netmask"
  | .gateway => ascii "gateway"
  | .protocol => ascii "protocol"
  | .dmxHoldtime => ascii "dmx_holdtime"
  | .sacnUniverse 0 => ascii "sacn_universe_0"
  | .sacnUniverse 1 => ascii "sacn_universe_1"
  | .dmxPortMode 0 => ascii "dmx_port0_mode"
  | .dmxPortMode 1 => ascii "dmx_port1_mode"
  | .dmxLabel 0 => ascii "dmx1_label"
  | .dmxLabel 1 => ascii "dmx2_label"
  | .addrMode => ascii "addr_mode"
  | .lcdContrast => ascii "lcd_contrast"
  | .lcdBacklight => ascii "lcd_backlight"
  | .dmxSlotMonitor 0 => ascii "dmx_slot_monitor_0"
  | .dmxSlotMonitor 1 => ascii "dmx_slot_monitor_1"

/-- `managed_keys`. -/
def managedKeys : List Key :=
  [.nodeaddr, .hostname, .macaddr, .netmask, .gateway, .protocol, .dmxHoldtime, .sacnUniverse 0,
    .sacnUniverse 1, .dmxPortMode 0, .dmxPortMode 1, .dmxLabel 0, .dmxLabel 1, .addrMode,
    .lcdContrast, .lcdBacklight, .dmxSlotMonitor 0, .dmxSlotMonitor 1]

/-- `strand_keys`: the keys safe to write with `nodecfg put`. -/
def strandKeys : List Key :=
  [.nodeaddr, .hostname, .macaddr, .netmask, .gateway, .protocol, .dmxHoldtime, .sacnUniverse 0,
    .sacnUniverse 1, .dmxPortMode 0, .dmxPortMode 1, .dmxLabel 0]

/-- The key of the list that a text equals, by `strcmp` with each. -/
def findKey (keys : List Key) (k : List UInt8) : Option Key :=
  keys.find? fun key => k == key.name

/-- The table of the saver has every key. -/
theorem mem_managedKeys (key : Key) : key ∈ managedKeys := by
  cases key with
  | sacnUniverse port => revert port; decide
  | dmxPortMode port => revert port; decide
  | dmxLabel port => revert port; decide
  | dmxSlotMonitor port => revert port; decide
  | _ => decide

theorem Key.forall_iff {P : Key → Prop} : (∀ key, P key) ↔ ∀ key ∈ managedKeys, P key :=
  ⟨fun h key _ => h key, fun h key => h key (mem_managedKeys key)⟩

/-! ## What the names are like -/

/-- A byte that stands for itself in a key. -/
structure NameByte (c : UInt8) : Prop where
  ne_nul : c ≠ 0
  ne_lf : c ≠ lf
  ne_cr : c ≠ cr
  ne_equals : c ≠ equals
  ne_hash : c ≠ hash
  not_blank : isBlank c = false

/-- No key has an empty name. -/
theorem Key.name_ne_nil (key : Key) : key.name ≠ [] := by
  revert key
  rw [Key.forall_iff]
  decide

/-- No name is longer than 18 bytes. -/
theorem Key.length_name_le (key : Key) : key.name.length ≤ 18 := by
  revert key
  rw [Key.forall_iff]
  decide

/-- A name has no byte that ends a line, separates or is blank. -/
theorem Key.nameByte {key : Key} {c : UInt8} (hc : c ∈ key.name) : NameByte c := by
  have hall : ∀ key : Key, ∀ c ∈ key.name,
      c ≠ 0 ∧ c ≠ lf ∧ c ≠ cr ∧ c ≠ equals ∧ c ≠ hash ∧ isBlank c = false := by
    rw [Key.forall_iff]
    decide
  obtain ⟨hnul, hlf, hcr, hequals, hhash, hblank⟩ := hall key c hc
  exact ⟨hnul, hlf, hcr, hequals, hhash, hblank⟩

/-- No name has an `=` in it. -/
theorem Key.equals_notMem_name (key : Key) : equals ∉ key.name :=
  fun hmem => (Key.nameByte hmem).ne_equals rfl

/-- No name ends another one. -/
theorem Key.eq_of_suffix {a b : Key} (h : a.name <:+ b.name) : a = b := by
  have hall : ∀ a ∈ managedKeys, ∀ b ∈ managedKeys, a.name <:+ b.name → a = b := by decide
  exact hall a (mem_managedKeys a) b (mem_managedKeys b) h

/-- No two keys have one name. -/
theorem Key.name_injective {a b : Key} (h : a.name = b.name) : a = b :=
  Key.eq_of_suffix (h ▸ List.suffix_refl _)

/-- `findKey` finds the key of the list that has the name. -/
theorem findKey_eq_some {keys : List Key} {k : List UInt8} {key : Key} :
    findKey keys k = some key ↔ key ∈ keys ∧ k = key.name := by
  unfold findKey
  constructor
  · intro h
    exact ⟨List.mem_of_find?_eq_some h, by simpa using List.find?_some h⟩
  · rintro ⟨hmem, rfl⟩
    cases hfind : keys.find? fun key' => key.name == key'.name with
    | none => simpa using List.find?_eq_none.mp hfind key hmem
    | some key' =>
      have hname : key.name = key'.name := by simpa using List.find?_some hfind
      rw [Key.name_injective hname]

/-- It finds none when no key of the list has the name. -/
theorem findKey_eq_none {keys : List Key} {k : List UInt8} :
    findKey keys k = none ↔ ∀ key ∈ keys, k ≠ key.name := by
  unfold findKey
  simp

end SN110
