import SN110.Config.OpenTail

/-!
# Saving and loading again

`config_load` of what `config_save` has written, over any old file.

* `agrees_foldl_settings`: a run of settings that holds a key leaves the key with the
  configuration's value, if that is within the bounds the loading code keeps.
* `agrees_configLoad_savedConfig`: so does loading the saved file, key by key.
* `roundTrip_iff`: which configurations come back over an old file with a harmless end.
* `not_roundTrip_of_not_tailOk`: any other old file loses a key of some configuration.
-/

namespace SN110

/-- What `config_save` and then `config_load` have to keep: all the keys. -/
def RoundTrip (writable : Bool) (file : Option (List UInt8)) (config : NodeConfig) : Prop :=
  (configSave writable file config).1 = 0 →
    (configLoad (configSave writable file config).2).1 = 0 ∧
      ∀ key, Agrees (configLoad (configSave writable file config).2).2 config key

/-! ## Loading is applying the settings -/

/-- A setting applied to a configuration. -/
def applySetting (config : NodeConfig) (kv : Key × List UInt8) : NodeConfig :=
  applyKey config kv.2 kv.1

/-- Loading line by line is applying the settings of the text in order. -/
theorem foldl_loadLine (s : List UInt8) (config : NodeConfig) :
    (linePieces s).foldl loadLine config = (settings s).foldl applySetting config := by
  unfold settings
  induction linePieces s generalizing config with
  | nil => rfl
  | cons line lines ih =>
    rw [List.foldl_cons, ih, List.filterMap_cons]
    unfold loadLine
    cases lineSets line with
    | none => rfl
    | some kv => rfl

/-- Loading a file applies its settings to the defaults and then fills in the address mode. -/
theorem configLoad_some (s : List UInt8) :
    configLoad (some s)
      = (0, inferAddrMode ((settings s).foldl applySetting configDefaults)) := by
  rw [← foldl_loadLine]
  rfl

theorem configLoad_snd (s : List UInt8) :
    (configLoad (some s)).2 = inferAddrMode ((settings s).foldl applySetting configDefaults) :=
  congrArg Prod.snd (configLoad_some s)

/-- The inference touches the address mode only. -/
theorem agrees_inferAddrMode_of_ne {key : Key} (h : key ≠ .addrMode) (config : NodeConfig) :
    Agrees (inferAddrMode config) config key := by
  unfold inferAddrMode
  split_ifs
  · cases key <;> first
      | exact absurd rfl h
      | rfl
  · cases key <;> first
      | exact absurd rfl h
      | rfl
  · exact Agrees.refl config key

theorem inferAddrMode_of_ne {config : NodeConfig} (h : config.addrMode ≠ addrModeSentinel) :
    inferAddrMode config = config := if_neg h

/-- Settings of other keys leave a key alone. -/
theorem agrees_foldl_of_notMem {key : Key} {kvs : List (Key × List UInt8)}
    (h : ∀ kv ∈ kvs, kv.1 ≠ key) (config : NodeConfig) :
    Agrees (kvs.foldl applySetting config) config key := by
  induction kvs generalizing config with
  | nil => exact Agrees.refl config key
  | cons kv kvs ih =>
    rw [List.forall_mem_cons] at h
    exact (ih h.2 _).trans (agrees_applyKey_of_ne h.1.symm config kv.2)

/-- **A run of a configuration's settings** gives every key in it the configuration's value, if
that is within its bounds. -/
theorem agrees_foldl_settings {config : NodeConfig} (h : Persistable config) {key : Key}
    {ks : List Key} (hmem : key ∈ ks) (c : NodeConfig) :
    Agrees ((ks.map (setting config)).foldl applySetting c) config key ↔
      KeyInRange config key := by
  -- the last setting of the key decides
  induction ks using List.reverseRecOn with
  | nil => cases hmem
  | append_singleton ks key' ih =>
    rw [List.map_append, List.foldl_append]
    show Agrees (applyKey _ (trim (formatValue config key')) key') config key ↔ _
    by_cases heq : key = key'
    · subst heq
      exact agrees_applyKey_formatValue h _ key
    · have hframe := agrees_applyKey_of_ne heq
        ((ks.map (setting config)).foldl applySetting c) (trim (formatValue config key'))
      have hks : key ∈ ks := by
        rcases List.mem_append.mp hmem with hks | hks
        · exact hks
        · exact absurd (List.mem_singleton.mp hks) heq
      rw [← ih hks]
      exact ⟨hframe.symm.trans, hframe.trans⟩

/-! ## Old files with a harmless end -/

/-- **Loading the saved file** gives a key its value back exactly when it is within its bounds. -/
theorem agrees_configLoad_savedConfig {config : NodeConfig} {old : List UInt8}
    (h : Persistable config) (htail : TailOk managedKeys false old) (key : Key) :
    Agrees (configLoad (some (savedConfig config old))).2 config key ↔ KeyInRange config key := by
  have hall : ∀ key, key ∈ writtenKeys managedKeys false old ++ missingKeys managedKeys false old :=
    fun key => mem_writtenKeys_append_missingKeys (mem_managedKeys key)
  rw [configLoad_snd]
  unfold savedConfig
  rw [settings_savedText_of_tailOk managesLines_config h.clean htail]
  -- the address mode has been read, so nothing is inferred
  have hmode : _ = config.addrMode :=
    (agrees_foldl_settings h (hall .addrMode) configDefaults).mpr trivial
  rw [inferAddrMode_of_ne]
  · exact agrees_foldl_settings h (hall key) configDefaults
  · intro hsentinel
    have hbad : config.addrMode = addrModeSentinel := hmode.symm.trans hsentinel
    rcases h.addrMode with hm | hm | ⟨hm, -⟩ <;> rw [hm] at hbad <;> cases hbad

/-- A persistable configuration makes the round trip exactly when its numbers are in range. -/
theorem roundTrip_iff {config : NodeConfig} {file : Option (List UInt8)}
    (h : Persistable config) (htail : TailOk managedKeys false (file.getD [])) :
    RoundTrip true file config ↔ InRange config := by
  have hkey := agrees_configLoad_savedConfig h htail
  rw [inRange_iff]
  constructor
  · intro hround key
    exact (hkey key).mp ((hround rfl).2 key)
  · intro hrange _
    exact ⟨rfl, fun key => (hkey key).mpr (hrange key)⟩

/-! ## Old files whose end loses a key -/

/-- A configuration in which no key has its default value and no value holds an `=`. -/
def siteConfig : NodeConfig where
  hostname := CString.strncpy 16 hostnameSize_pos (ascii "stage")
  ipAddr := 0xC0A80047
  netmask := 0xFFFFFF00
  gateway := 0xC0A80001
  mac := Vector.replicate 6 7
  ports := fun _ => { mode := dmxModeRx, protocol := protoArtnet, dmxUniverse := 9,
                      label := CString.strncpy 9 labelSize_pos (ascii "front") }
  activeProtocol := protoArtnet
  dmxHoldTime := 30
  addrMode := addrModeDhcpStatic
  lcdContrast := 90
  lcdBacklight := lcdBacklightAuto
  dmxSlotMonitor := fun _ => 1

/-- The example configuration can be held by a file. -/
theorem persistable_siteConfig : Persistable siteConfig where
  clean := by decide
  hostname := by decide
  label := by decide
  mode := by decide
  protocol := by decide
  addrMode := by decide

theorem inRange_siteConfig : InRange siteConfig := by decide

/-- The example configuration differs from the defaults in every key. -/
theorem not_agrees_configDefaults (key : Key) : ¬ Agrees configDefaults siteConfig key := by
  revert key
  rw [Key.forall_iff]
  decide

/-- The key's line as the value of the key: what an open tail that ends with `=` makes of it. -/
def lostValue (key : Key) : List UInt8 :=
  trim (key.name ++ (space :: equals :: space :: formatValue siteConfig key))

/-- Run together with an open line, a key of the example configuration has one value. -/
theorem joinedValue_siteConfig {key : Key} {w : List UInt8} (h : JoinedValue siteConfig key w) :
    w = lostValue key := by
  have hcount : ∀ key, (formatValue siteConfig key).count equals = 0 := by
    rw [Key.forall_iff]
    decide
  rcases h with heq | hlt
  · exact heq
  · rw [hcount] at hlt
    exact absurd hlt (Nat.not_lt_zero _)

/-- But for the MAC address, what a value sets a field to does not depend on the field. -/
theorem agrees_applyKey_applyKey {key : Key} (h : key ≠ .macaddr) (a b : NodeConfig)
    (v : List UInt8) : Agrees (applyKey a v key) (applyKey b v key) key := by
  cases key <;> first
    | exact absurd rfl h
    | rfl
    | simp only [Agrees, applyKey, Function.update_self]

/-- That value is not the one saved, so applying it does not bring the key back. -/
theorem not_agrees_applyKey_lostValue {c : NodeConfig} {key : Key}
    (h : ¬ Agrees c siteConfig key) : ¬ Agrees (applyKey c (lostValue key) key) siteConfig key := by
  by_cases hmac : key = .macaddr
  · -- the line does not begin with a hex digit, and the address stays as it was
    subst hmac
    exact h
  · have hdefault : ∀ key, key ≠ .macaddr →
        ¬ Agrees (applyKey configDefaults (lostValue key) key) siteConfig key := by
      rw [Key.forall_iff]
      decide
    exact fun hagrees => hdefault key hmac
      ((agrees_applyKey_applyKey hmac configDefaults c (lostValue key)).trans hagrees)

/-- Nor does applying it any number of times, between settings of other keys. -/
theorem not_agrees_foldl_lost {key : Key} {kvs : List (Key × List UInt8)}
    (hkvs : ∀ w, (key, w) ∈ kvs → w = lostValue key) {c : NodeConfig}
    (h : ¬ Agrees c siteConfig key) : ¬ Agrees (kvs.foldl applySetting c) siteConfig key := by
  induction kvs generalizing c with
  | nil => exact h
  | cons kv kvs ih =>
    obtain ⟨key', w⟩ := kv
    refine ih (fun w hw => hkvs w (List.mem_cons_of_mem _ hw)) ?_
    show ¬ Agrees (applyKey c w key') siteConfig key
    -- a setting of the key sets it to the lost value, any other leaves it alone
    by_cases heq : key = key'
    · subst heq
      rw [hkvs w List.mem_cons_self]
      exact not_agrees_applyKey_lostValue h
    · exact fun hagrees => h ((agrees_applyKey_of_ne heq c w).symm.trans hagrees)

/-- The inference gives no `dhcp_static`. -/
theorem not_agrees_inferAddrMode {c : NodeConfig} {key : Key} (h : ¬ Agrees c siteConfig key) :
    ¬ Agrees (inferAddrMode c) siteConfig key := by
  by_cases hkey : key = .addrMode
  · subst hkey
    intro hmode
    change (inferAddrMode c).addrMode = addrModeDhcpStatic at hmode
    unfold inferAddrMode at hmode
    split_ifs at hmode
    · cases hmode
    · cases hmode
    · exact h hmode
  · exact fun hagrees => h ((agrees_inferAddrMode_of_ne hkey c).symm.trans hagrees)

/-- **Any other old file loses a key**: `siteConfig` is not loaded as it was saved. -/
theorem not_roundTrip_of_not_tailOk {old : List UInt8}
    (htail : ¬ TailOk managedKeys false old) : ¬ RoundTrip true (some old) siteConfig := by
  obtain ⟨key, -, hlost⟩ := exists_lost_of_not_tailOk managesLines_config htail
  have hkvs : ∀ w, (key, w) ∈ settings (savedConfig siteConfig old) → w = lostValue key :=
    fun w hw => joinedValue_siteConfig (hlost siteConfig persistable_siteConfig.clean w hw)
  intro hround
  -- the default stays, or the lost value takes its place: neither is the one saved
  have hagrees := (hround rfl).2 key
  rw [configSave_writable, configLoad_snd] at hagrees
  exact not_agrees_inferAddrMode (not_agrees_foldl_lost hkvs (not_agrees_configDefaults key))
    hagrees

/-! ## The round trip -/

/-- **Save and load again.** Over every old file with a harmless end, exactly the configurations
within the bounds of the loading code come back. -/
theorem saveLoad_roundTrip (writable : Bool) (file : Option (List UInt8)) (config : NodeConfig)
    (h : Persistable config) (htail : TailOk managedKeys false (file.getD [])) :
    RoundTrip writable file config ↔ (writable = true → InRange config) := by
  cases writable with
  | false =>
    -- the file cannot be written, and the call says so
    refine iff_of_true (fun hret => ?_) (fun hw => Bool.noConfusion hw)
    change (-1 : Int) = 0 at hret
    exact absurd hret (by decide)
  | true =>
    rw [roundTrip_iff h htail]
    exact ⟨fun hrange _ => hrange, fun hrange => hrange rfl⟩

/-- The example configuration makes the round trip over a file with a key of its own. -/
theorem saveLoad_roundTrip_siteConfig :
    RoundTrip true (some (ascii "boottest = 1" ++ [lf])) siteConfig :=
  (saveLoad_roundTrip true _ siteConfig persistable_siteConfig (by decide)).mpr
    fun _ => inRange_siteConfig

/-- `siteConfig` with a slot monitor past the last slot. -/
def farSlotConfig : NodeConfig := { siteConfig with dmxSlotMonitor := fun _ => 600 }

/-- A slot monitor past the last slot is clamped when it is read, and a last line without its
newline takes the first appended key with it. -/
theorem farSlotConfig_clamped :
    (Persistable farSlotConfig ∧ ¬ RoundTrip true none farSlotConfig) ∧
      Persistable siteConfig ∧ ¬ RoundTrip true (some (ascii "boottest = 1")) siteConfig := by
  have hpersistable : Persistable farSlotConfig :=
    { persistable_siteConfig with }
  refine ⟨⟨hpersistable, ?_⟩, persistable_siteConfig, not_roundTrip_of_not_tailOk (by decide)⟩
  rw [roundTrip_iff hpersistable (by decide)]
  decide

end SN110
