import SN110.Config.Parse
import SN110.Config.Defaults
import SN110.Lib.Pieces

/-!
# Loading (`config_load`)

`fgets` takes the file in pieces of at most 255 bytes, a newline ending a piece early. A piece
that the line scan accepts, with a key the firmware manages, sets that key's field.
-/

namespace SN110

open Pieces

/-- `CONFIG_MAX_LINE - 1`: what `fgets` takes at most, and what the saving code cuts a line to. -/
abbrev maxPiece : Nat := 255

/-- The pieces in which the configuration code sees a text. -/
def linePieces (s : List UInt8) : List (List UInt8) := pieces lf maxPiece s

/-- The scan of a line: comments and empty lines are skipped, and the others must have a key and
a value, both trimmed. -/
def scanLine (line : List UInt8) : Option (List UInt8 × List UInt8) :=
  if line.head? = some hash ∨ line.head? = some lf ∨ line.head? = some cr then none
  else
    -- `sscanf(line, ...) == 2`
    match sscanf keyValueFormat (cstr line) with
    | [.text key, .text value] => some (trim key, trim value)
    | _ => none

/-- `config_load`'s chain of `strcmp`s: what a value does to the field of its key. -/
def applyKey (config : NodeConfig) (v : List UInt8) : Key → NodeConfig
  | .nodeaddr => { config with ipAddr := if v = ascii "0" then 0 else parseIp v }
  | .hostname => { config with hostname := CString.strncpy 16 hostnameSize_pos v }
  | .macaddr => { config with mac := (parseMac v config.mac).2 }
  | .netmask => { config with netmask := parseIp v }
  | .gateway => { config with gateway := parseIp v }
  | .protocol => { config with activeProtocol := parseProtocol v }
  | .dmxHoldtime => { config with dmxHoldTime := UInt16.ofInt (atoi v) }
  | .sacnUniverse i => { config with
      ports := Function.update config.ports i
        { config.ports i with dmxUniverse := UInt16.ofInt (atoi v) } }
  | .dmxLabel i => { config with
      ports := Function.update config.ports i
        { config.ports i with label := CString.strncpy 9 labelSize_pos v } }
  | .dmxPortMode i => { config with
      ports := Function.update config.ports i { config.ports i with mode := parseMode v } }
  | .addrMode => { config with addrMode := parseAddrMode v }
  | .lcdContrast =>
    let val := atoi v
    { config with lcdContrast := if val < 0 then 0 else if val > 255 then 255 else UInt8.ofInt val }
  | .lcdBacklight => { config with lcdBacklight := parseBacklight v }
  | .dmxSlotMonitor i =>
    let val := atoi v
    { config with
      dmxSlotMonitor := Function.update config.dmxSlotMonitor i
        (if val < 0 then 0 else if val > 512 then 512 else UInt16.ofInt val) }

/-- The managed key that a line sets, and the value it sets it to. -/
def lineSets (line : List UInt8) : Option (Key × List UInt8) :=
  match scanLine line with
  | none => none
  | some (k, v) => (findKey managedKeys k).map fun key => (key, v)

/-- One round of `config_load`'s loop. -/
def loadLine (config : NodeConfig) (line : List UInt8) : NodeConfig :=
  match lineSets line with
  | none => config
  | some (key, v) => applyKey config v key

/-- The address mode of a file that does not set one. -/
def inferAddrMode (config : NodeConfig) : NodeConfig :=
  if config.addrMode = addrModeSentinel then
    { config with addrMode := if config.ipAddr = 0 then addrModeDhcp else addrModeStatic }
  else config

/-- `config_load`, on the contents of the file or `none` if it cannot be opened. -/
def configLoad : Option (List UInt8) → Int × NodeConfig
  | none => (-1, configDefaults)
  | some content => (0, inferAddrMode ((linePieces content).foldl loadLine configDefaults))

/-! ## The line scan -/

/-- **What a line has to be for the scan to accept it.** -/
theorem scanLine_eq_some {line k v : List UInt8} :
    scanLine line = some (k, v) ↔
      (line.head? ≠ some hash ∧ line.head? ≠ some lf ∧ line.head? ≠ some cr) ∧
      ∃ key rest, cstr line = key ++ equals :: rest ∧ equals ∉ key ∧ key ≠ [] ∧
        key.length ≤ 63 ∧ spanNoneOf 191 [lf, cr] rest ≠ [] ∧ k = trim key ∧
        v = trim (spanNoneOf 191 [lf, cr] rest) := by
  unfold scanLine
  by_cases hhead : line.head? = some hash ∨ line.head? = some lf ∨ line.head? = some cr
  · rw [if_pos hhead]
    simp only [reduceCtorEq, false_iff]
    rintro ⟨⟨h1, h2, h3⟩, -⟩
    rcases hhead with h | h | h
    · exact h1 h
    · exact h2 h
    · exact h3 h
  · rw [if_neg hhead]
    rw [not_or, not_or] at hhead
    constructor
    · intro h
      refine ⟨hhead, ?_⟩
      -- the scan returns 2 exactly when it gives two texts
      split at h
      · rename_i key value hscan
        obtain ⟨rfl, rfl⟩ := Prod.mk.inj (Option.some.inj h)
        obtain ⟨rest, hline, hkey, hne, hlen, rfl, hvalue⟩ := (sscanf_keyValue _ _ _).mp hscan
        exact ⟨key, rest, hline, hkey, hne, hlen, hvalue, rfl, rfl⟩
      · cases h
    · rintro ⟨-, key, rest, hline, hkey, hne, hlen, hvalue, rfl, rfl⟩
      have hscan := (sscanf_keyValue (cstr line) key _).mpr
        ⟨rest, hline, hkey, hne, hlen, rfl, hvalue⟩
      rw [hscan]

theorem lineSets_eq_some {line v : List UInt8} {key : Key} :
    lineSets line = some (key, v) ↔ scanLine line = some (key.name, v) := by
  unfold lineSets
  cases hscan : scanLine line with
  | none => simp
  | some kv =>
    obtain ⟨k, v'⟩ := kv
    constructor
    · intro h
      obtain ⟨key', hfind, heq⟩ := Option.map_eq_some_iff.mp h
      obtain ⟨rfl, rfl⟩ := Prod.mk.inj heq
      obtain ⟨-, rfl⟩ := findKey_eq_some.mp hfind
      rfl
    · intro h
      obtain ⟨rfl, rfl⟩ := Prod.mk.inj (Option.some.inj h)
      exact Option.map_eq_some_iff.mpr
        ⟨key, findKey_eq_some.mpr ⟨mem_managedKeys key, rfl⟩, rfl⟩

/-! ## One line, one field -/

/-- Two configurations have the same value for a key. -/
def Agrees (a b : NodeConfig) : Key → Prop
  | .nodeaddr => a.ipAddr = b.ipAddr
  | .hostname => a.hostname = b.hostname
  | .macaddr => a.mac = b.mac
  | .netmask => a.netmask = b.netmask
  | .gateway => a.gateway = b.gateway
  | .protocol => a.activeProtocol = b.activeProtocol
  | .dmxHoldtime => a.dmxHoldTime = b.dmxHoldTime
  | .sacnUniverse i => (a.ports i).dmxUniverse = (b.ports i).dmxUniverse
  | .dmxPortMode i => (a.ports i).mode = (b.ports i).mode
  | .dmxLabel i => (a.ports i).label = (b.ports i).label
  | .addrMode => a.addrMode = b.addrMode
  | .lcdContrast => a.lcdContrast = b.lcdContrast
  | .lcdBacklight => a.lcdBacklight = b.lcdBacklight
  | .dmxSlotMonitor i => a.dmxSlotMonitor i = b.dmxSlotMonitor i

instance (a b : NodeConfig) (key : Key) : Decidable (Agrees a b key) :=
  match key with
  | .nodeaddr => inferInstanceAs (Decidable (a.ipAddr = b.ipAddr))
  | .hostname => inferInstanceAs (Decidable (a.hostname = b.hostname))
  | .macaddr => inferInstanceAs (Decidable (a.mac = b.mac))
  | .netmask => inferInstanceAs (Decidable (a.netmask = b.netmask))
  | .gateway => inferInstanceAs (Decidable (a.gateway = b.gateway))
  | .protocol => inferInstanceAs (Decidable (a.activeProtocol = b.activeProtocol))
  | .dmxHoldtime => inferInstanceAs (Decidable (a.dmxHoldTime = b.dmxHoldTime))
  | .sacnUniverse i =>
    inferInstanceAs (Decidable ((a.ports i).dmxUniverse = (b.ports i).dmxUniverse))
  | .dmxPortMode i => inferInstanceAs (Decidable ((a.ports i).mode = (b.ports i).mode))
  | .dmxLabel i => inferInstanceAs (Decidable ((a.ports i).label = (b.ports i).label))
  | .addrMode => inferInstanceAs (Decidable (a.addrMode = b.addrMode))
  | .lcdContrast => inferInstanceAs (Decidable (a.lcdContrast = b.lcdContrast))
  | .lcdBacklight => inferInstanceAs (Decidable (a.lcdBacklight = b.lcdBacklight))
  | .dmxSlotMonitor i => inferInstanceAs (Decidable (a.dmxSlotMonitor i = b.dmxSlotMonitor i))

theorem Agrees.refl (config : NodeConfig) (key : Key) : Agrees config config key := by
  cases key <;> rfl

theorem Agrees.trans {a b c : NodeConfig} {key : Key} (h : Agrees a b key)
    (h' : Agrees b c key) : Agrees a c key := by
  cases key <;> exact Eq.trans h h'

theorem Agrees.symm {a b : NodeConfig} {key : Key} (h : Agrees a b key) : Agrees b a key := by
  cases key <;> exact Eq.symm h

/-- The keys, and the protocol of each port, make up a configuration. -/
theorem eq_of_agrees {a b : NodeConfig} (h : ∀ key, Agrees a b key)
    (hprotocol : ∀ i, (a.ports i).protocol = (b.ports i).protocol) : a = b := by
  have hport : ∀ p q : PortConfig, p.mode = q.mode → p.protocol = q.protocol →
      p.dmxUniverse = q.dmxUniverse → p.label = q.label → p = q := by
    rintro ⟨⟩ ⟨⟩ hmode hproto huniverse hlabel
    rw [PortConfig.mk.injEq]
    exact ⟨hmode, hproto, huniverse, hlabel⟩
  have hports : a.ports = b.ports := funext fun i =>
    hport _ _ (h (.dmxPortMode i)) (hprotocol i) (h (.sacnUniverse i)) (h (.dmxLabel i))
  cases a
  cases b
  rw [NodeConfig.mk.injEq]
  exact ⟨h .hostname, h .nodeaddr, h .netmask, h .gateway, h .macaddr, hports, h .protocol,
    h .dmxHoldtime, h .addrMode, h .lcdContrast, h .lcdBacklight,
    funext fun i => h (.dmxSlotMonitor i)⟩

/-- Setting one key leaves the others alone. -/
theorem agrees_applyKey_of_ne {key key' : Key} (h : key' ≠ key) (config : NodeConfig)
    (v : List UInt8) : Agrees (applyKey config v key) config key' := by
  cases key <;> cases key' <;> first
    | rfl
    | exact absurd rfl h
    | exact Function.update_of_ne (fun hport => h (by rw [hport])) _ _
    | -- two fields of the port array: of different ports, or different fields of one
      simp only [Agrees, applyKey, Function.update_apply]
      split_ifs with hport
      · subst hport
        first
          | rfl
          | exact absurd rfl h
      · rfl

end SN110
