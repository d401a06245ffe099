import SN110.Config.StrandFile

/-!
# Loading the file from the node's flash

At the next boot `config_load` reads what `config_save_strand` has written. The Strand keys leave
out `addr_mode`, which is inferred from the address, and the second port's label, which is not.

* `agrees_configLoad_iff`: what is loaded of the file is what its settings of Strand keys say.
* `agrees_strandKeys_whole_iff` and `agrees_strandKeys_cut_iff`: what is loaded for each of the
  twelve keys, and what a line that joins a cut name spoils.
* `strandReproduces_iff`: the configurations that come back.

## How a key comes back

A value that is written and read again is the value, or the one that its name stands for: the modes
and the protocol are written by name, and a number without a name is written as another's. That is
`namedConfig`, and a configuration that is clean comes back exactly when it is its own named one and
the label that is not written is empty. What a line that joins a cut name does to this is kept
apart, in `CutHarmless`.
-/

namespace SN110

/-! ## What is loaded -/

/-- The configurations that the file for the flash is for: texts without line ends or blanks at
their ends, and an address mode that can be inferred from the address. -/
structure StrandConfig (config : NodeConfig) : Prop where
  clean : CleanText config
  hostname : Trimmed config.hostname.text
  label : ∀ i, Trimmed (config.ports i).label.text
  addrMode : config.addrMode = addrModeStatic ∧ config.ipAddr ≠ 0 ∨
    config.addrMode = addrModeDhcp ∧ config.ipAddr = 0

/-- The port modes and the protocol have a name of their own in the file. -/
structure Named (config : NodeConfig) : Prop where
  mode : ∀ i, (config.ports i).mode = dmxModeOff ∨ (config.ports i).mode = dmxModeTx ∨
    (config.ports i).mode = dmxModeRx
  protocol : config.activeProtocol = protoNone ∨ config.activeProtocol = protoSacn ∨
    config.activeProtocol = protoArtnet ∨ config.activeProtocol = protoShownet

/-- The configuration with the modes and the protocol that their names stand for. -/
def namedConfig (config : NodeConfig) : NodeConfig :=
  { config with
    activeProtocol := parseProtocol (protocolName config.activeProtocol)
    ports := fun i =>
      { config.ports i with mode := parseMode (modeName (config.ports i).mode) } }

section

variable {config : NodeConfig}

/-- The named configuration has enumerations with a name only. -/
theorem named_namedConfig (config : NodeConfig) : Named (namedConfig config) :=
  ⟨fun i => parseMode_mem (modeName (config.ports i).mode),
    parseProtocol_mem (protocolName config.activeProtocol)⟩

/-- A mode's name is the name of the mode it stands for. -/
theorem modeName_parseMode (mode : Int) :
    modeName (parseMode (modeName mode)) = modeName mode := by
  have hname : modeName mode = ascii "tx" ∨ modeName mode = ascii "rx"
      ∨ modeName mode = ascii "off" := by
    unfold modeName
    split_ifs <;> decide
  rcases hname with h | h | h <;> rw [h] <;> decide

/-- A protocol's name, read and written again, is the same name. -/
theorem protocolName_parseProtocol (proto : Int) :
    protocolName (parseProtocol (protocolName proto)) = protocolName proto := by
  have hname : protocolName proto = ascii "sacn" ∨ protocolName proto = ascii "artnet"
      ∨ protocolName proto = ascii "shownet" ∨ protocolName proto = ascii "none" := by
    unfold protocolName
    split_ifs <;> decide
  rcases hname with h | h | h | h <;> rw [h] <;> decide

/-- The named configuration is written with the same values. -/
theorem formatValue_namedConfig (config : NodeConfig) (key : Key) :
    formatValue (namedConfig config) key = formatValue config key := by
  cases key with
  | dmxPortMode i => exact modeName_parseMode (config.ports i).mode
  | protocol => exact protocolName_parseProtocol config.activeProtocol
  | _ => rfl

/-- The named form of a strand configuration can be held by a file. -/
theorem persistable_namedConfig (h : StrandConfig config) : Persistable (namedConfig config) where
  clean := h.clean
  hostname := h.hostname
  label := h.label
  mode := (named_namedConfig config).mode
  protocol := (named_namedConfig config).protocol
  addrMode := h.addrMode.elim (fun hstatic => Or.inl hstatic.1) fun hdhcp => Or.inr (Or.inr hdhcp)

/-- The modes and the protocol that are read have a name. -/
theorem Named.apply {c : NodeConfig} (h : Named c) (kv : Key × List UInt8) :
    Named (applySetting c kv) := by
  -- a mode or the protocol is set to a value with a name or left as it was
  constructor
  · intro i
    by_cases hkey : kv.1 = .dmxPortMode i
    · have hset : ((applySetting c kv).ports i).mode = parseMode kv.2 := by
        unfold applySetting
        rw [hkey]
        simp only [applyKey, Function.update_self]
      rw [hset]
      exact parseMode_mem kv.2
    · have hkeep : ((applySetting c kv).ports i).mode = (c.ports i).mode :=
        agrees_applyKey_of_ne (Ne.symm hkey) c kv.2
      rw [hkeep]
      exact h.mode i
  · by_cases hkey : kv.1 = .protocol
    · have hset : (applySetting c kv).activeProtocol = parseProtocol kv.2 := by
        unfold applySetting
        rw [hkey]
        rfl
      rw [hset]
      exact parseProtocol_mem kv.2
    · have hkeep : (applySetting c kv).activeProtocol = c.activeProtocol :=
        agrees_applyKey_of_ne (Ne.symm hkey) c kv.2
      rw [hkeep]
      exact h.protocol

/-- Settings leave enumerations with a name only. -/
theorem named_foldl (kvs : List (Key × List UInt8)) {c : NodeConfig} (h : Named c) :
    Named (kvs.foldl applySetting c) := by
  induction kvs generalizing c with
  | nil => exact h
  | cons kv kvs ih => exact ih (h.apply kv)

theorem named_configDefaults : Named configDefaults := ⟨by decide, by decide⟩

/-- So a configuration that comes back has them. -/
theorem named_of_agrees {c : NodeConfig} (h : Named c)
    (hall : ∀ key ∈ strandKeys, Agrees c config key) : Named config := by
  have hmode : ∀ i, (c.ports i).mode = (config.ports i).mode :=
    fun i => hall (.dmxPortMode i) (by revert i; decide)
  have hprotocol : c.activeProtocol = config.activeProtocol := hall .protocol (by decide)
  exact ⟨fun i => hmode i ▸ h.mode i, hprotocol ▸ h.protocol⟩

/-- Only the modes and the protocol can differ, and these are Strand keys. -/
theorem agrees_namedConfig_iff :
    (∀ key ∈ strandKeys, Agrees (namedConfig config) config key) ↔ Named config := by
  refine ⟨named_of_agrees (named_namedConfig config), ?_⟩
  rintro ⟨hmode, hprotocol⟩ key -
  cases key with
  | dmxPortMode i => exact parseMode_modeName (hmode i)
  | protocol => exact parseProtocol_protocolName hprotocol
  | _ => rfl

end

/-! ## What comes back -/

/-- What the file has to hold: the Strand keys, the second port's label and the address mode. -/
def flashKeys : List Key := strandKeys ++ [.dmxLabel 1, .addrMode]

/-- An accepted file is loaded as the configuration it was written from. -/
def StrandReproduces (writable : Bool) (file : Option (List UInt8)) (config : NodeConfig) : Prop :=
  (configSaveStrand writable file config).1 = 0 →
    (configLoad (configSaveStrand writable file config).2).1 = 0 ∧
      ∀ key ∈ flashKeys, Agrees (configLoad (configSaveStrand writable file config).2).2 config key

/-- Settings of Strand keys only leave `addr_mode` to be inferred from the address, and the second
port's label empty. -/
theorem agrees_configLoad_iff {config : NodeConfig} (h : StrandConfig config) {text : List UInt8}
    (hkeys : ∀ kv ∈ settings text, kv.1 ∈ strandKeys) :
    (∀ key ∈ flashKeys, Agrees (configLoad (some text)).2 config key) ↔
      (∀ key ∈ strandKeys,
        Agrees ((settings text).foldl applySetting configDefaults) config key) ∧
      (config.ports 1).label.text = [] := by
  -- the file sets keys of its list only, so the second port's label is the default
  have hother : ∀ key ∉ strandKeys,
      Agrees ((settings text).foldl applySetting configDefaults) configDefaults key :=
    fun key hkey => agrees_foldl_of_notMem
      (fun kv hkv (heq : kv.1 = key) => hkey (heq ▸ hkeys kv hkv)) configDefaults
  have hne : ∀ key ∈ strandKeys, key ≠ .addrMode := by decide
  rw [configLoad_snd]
  generalize (settings text).foldl applySetting configDefaults = c at hother ⊢
  have hlabel : Agrees (inferAddrMode c) configDefaults (.dmxLabel 1) :=
    (agrees_inferAddrMode_of_ne (by decide) c).trans (hother (.dmxLabel 1) (by decide))
  constructor
  · intro hall
    refine ⟨fun key hkey => ?_, ?_⟩
    · exact (agrees_inferAddrMode_of_ne (hne key hkey) c).symm.trans
        (hall key (List.mem_append_left _ hkey))
    · have hagrees : _ = (config.ports 1).label :=
        hlabel.symm.trans (hall (.dmxLabel 1) (by decide))
      rw [← hagrees]
      rfl
  · rintro ⟨hall, hempty⟩ key hkey
    rcases List.mem_append.mp hkey with hstrand | hkey
    · exact (agrees_inferAddrMode_of_ne (hne key hstrand) c).trans (hall key hstrand)
    · rcases List.mem_pair.mp hkey with rfl | rfl
      · exact Eq.trans hlabel (CString.ext_text hempty.symm)
      · -- the mode is inferred as it was
        have hsentinel : c.addrMode = addrModeSentinel := hother .addrMode (by decide)
        have hip : c.ipAddr = config.ipAddr := hall .nodeaddr (by decide)
        show (inferAddrMode c).addrMode = config.addrMode
        unfold inferAddrMode
        rw [if_pos hsentinel, hip]
        rcases h.addrMode with ⟨hstatic, hnonzero⟩ | ⟨hdhcp, hzero⟩
        · rw [if_neg hnonzero, hstatic]
        · rw [if_pos hzero, hdhcp]

/-! ## The line that joins a cut name -/

/-- What the first missing key's line spoils where it joins a cut name is in the configuration as
it is loaded then. -/
structure CutHarmless (config : NodeConfig) (old tail : List UInt8) (key : Key) : Prop where
  /-- The key is left at its default. -/
  missing : tail ≠ key.cut → Agrees configDefaults config key
  /-- Behind its own cut name the key is set to its line. -/
  own : tail = key.cut → Agrees (applyKey configDefaults (lineText config key) key) config key
  /-- A key that another line has set is set to the line. -/
  written : ∀ key' ∈ writtenKeys strandKeys true old, tail = key'.cut →
    Agrees (applyKey config (lineText config key) key') config key'

/-- No line joins a cut name, or it does no harm. -/
def TailHarmless (config : NodeConfig) (old : List UInt8) : Prop :=
  ∀ tail ∈ openTail strandKeys true old, ∀ key ∈ (missingKeys strandKeys true old).head?,
    CutHarmless config old tail key

/-- Two configurations that agree in a key still do when both are given the same text for it. -/
theorem Agrees.apply {a b : NodeConfig} {key : Key} (h : Agrees a b key) (v : List UInt8) :
    Agrees (applyKey a v key) (applyKey b v key) key := by
  by_cases hmac : key = .macaddr
  · subst hmac
    have hsame : a.mac = b.mac := h
    show (parseMac v a.mac).2 = (parseMac v b.mac).2
    rw [hsame]
  · exact agrees_applyKey_applyKey hmac a b v

/-- Given a text for a key, the named configuration and the original agree in it. -/
theorem agrees_applyKey_namedConfig (config : NodeConfig) (v : List UInt8) (key : Key) :
    Agrees (applyKey (namedConfig config) v key) (applyKey config v key) key := by
  by_cases hmac : key = .macaddr
  · subst hmac
    rfl
  · exact agrees_applyKey_applyKey hmac _ _ v

/-- The named configuration makes the same settings. -/
theorem setting_namedConfig (config : NodeConfig) :
    setting (namedConfig config) = setting config :=
  funext fun key => by
    unfold setting
    rw [formatValue_namedConfig]

/-- The Strand keys have no bounds of their own. -/
theorem agrees_foldl_namedConfig {config : NodeConfig} (h : StrandConfig config) {key : Key}
    {ks : List Key} (hks : ∀ key ∈ ks, key ∈ strandKeys) (hmem : key ∈ ks) (c : NodeConfig) :
    Agrees ((ks.map (setting config)).foldl applySetting c) (namedConfig config) key := by
  have hrange : ∀ key ∈ strandKeys, ∀ c, KeyInRange c key := by
    simp [strandKeys, KeyInRange]
  rw [← setting_namedConfig]
  exact (agrees_foldl_settings (persistable_namedConfig h) hmem c).mpr (hrange key (hks key hmem) _)

/-- Settings of other keys leave a key as it was. -/
theorem agrees_foldl_setting_of_notMem {config : NodeConfig} {key : Key} {ks : List Key}
    (hmem : key ∉ ks) (c : NodeConfig) :
    Agrees ((ks.map (setting config)).foldl applySetting c) c key := by
  refine agrees_foldl_of_notMem (fun kv hkv => ?_) c
  obtain ⟨key', hkey', rfl⟩ := List.mem_map.mp hkv
  rintro rfl
  exact hmem hkey'

/-- The joined line sets the key that is cut behind its `=`, and no other. -/
theorem agrees_foldl_cut {tail w : List UInt8} {key₀ : Key} (hcut : tail <+: key₀.cut)
    (c : NodeConfig) (key : Key) :
    Agrees ((if tail = key₀.cut then [(key₀, w)] else []).foldl applySetting c)
      (if tail = key.cut then applyKey c w key else c) key := by
  by_cases hkey : tail = key.cut
  · have hmem : equals ∈ tail := by
      rw [hkey]
      exact List.mem_append_right _ (by decide)
    have heq := eq_cut_of_equals_mem hcut hmem
    obtain rfl := Key.cut_injective (heq.symm.trans hkey)
    rw [if_pos heq, if_pos heq]
    exact Agrees.refl _ _
  · rw [if_neg hkey]
    refine agrees_foldl_of_notMem (fun kv hkv => ?_) c
    split_ifs at hkv with heq
    · obtain rfl := List.mem_singleton.mp hkv
      rintro rfl
      exact hkey heq
    · cases hkv

section

variable {config : NodeConfig} {file : Option (List UInt8)} {tail : List UInt8} {key : Key}
  {rest : List Key}

/-- **The settings of the new file**, where a line joins a cut name. -/
theorem settings_savedStrand_cut (h : StrandConfig config) {old : List UInt8} {key₀ : Key}
    (hopen : openTail strandKeys true old = some tail)
    (hmissing : missingKeys strandKeys true old = key :: rest) (hcut : tail <+: key₀.cut) :
    settings (savedStrand config old)
      = (writtenKeys strandKeys true old).map (setting config)
        ++ (if tail = key₀.cut then [(key₀, lineText config key)] else [])
        ++ rest.map (setting config) := by
  unfold savedStrand
  rw [settings_savedText_open managesLines_strand h.clean hopen hmissing,
    settings_cut h.clean hopen hcut]

/-- What is loaded for a key that no appended line sets. -/
theorem agrees_savedStrand_cut (h : StrandConfig config) {old : List UInt8} {key₀ key' : Key}
    (hopen : openTail strandKeys true old = some tail)
    (hmissing : missingKeys strandKeys true old = key :: rest) (hcut : tail <+: key₀.cut)
    (hrest : key' ∉ rest) {a : NodeConfig}
    (hbefore : Agrees (((writtenKeys strandKeys true old).map (setting config)).foldl applySetting
      configDefaults) a key') :
    Agrees ((settings (savedStrand config old)).foldl applySetting configDefaults)
      (if tail = key'.cut then applyKey a (lineText config key) key' else a) key' := by
  rw [settings_savedStrand_cut h hopen hmissing hcut, List.foldl_append, List.foldl_append]
  refine (agrees_foldl_setting_of_notMem hrest _).trans ((agrees_foldl_cut hcut _ key').trans ?_)
  split_ifs
  · exact hbefore.apply _
  · exact hbefore

/-- **What comes back where a line joins a cut name.** -/
theorem agrees_strandKeys_cut_iff (h : StrandConfig config) {old : List UInt8} {key₀ : Key}
    (hopen : openTail strandKeys true old = some tail)
    (hmissing : missingKeys strandKeys true old = key :: rest) (hcut : tail <+: key₀.cut) :
    (∀ key ∈ strandKeys,
        Agrees ((settings (savedStrand config old)).foldl applySetting configDefaults) config key) ↔
      Named config ∧ CutHarmless config old tail key := by
  have hnodup : (key :: rest).Nodup := hmissing ▸ managesLines_strand.nodup.filter _
  have hlost : ∀ key' ∈ key :: rest,
      key' ∈ strandKeys ∧ key' ∉ writtenKeys strandKeys true old := by
    intro key' hkey'
    rw [← hmissing] at hkey'
    exact ⟨(List.mem_filter.mp hkey').1, notMem_writtenKeys_of_missing hkey'⟩
  -- the key itself, and the keys that another line has set before
  have hkey := agrees_savedStrand_cut h hopen hmissing hcut (List.nodup_cons.mp hnodup).1
    (agrees_foldl_setting_of_notMem (hlost key List.mem_cons_self).2 configDefaults)
  have hwritten : ∀ key' ∈ writtenKeys strandKeys true old,
      Agrees ((settings (savedStrand config old)).foldl applySetting configDefaults)
        (if tail = key'.cut then applyKey (namedConfig config) (lineText config key) key'
          else namedConfig config) key' := by
    intro key' hkey'
    refine agrees_savedStrand_cut h hopen hmissing hcut (fun hrest => ?_)
      (agrees_foldl_namedConfig h (fun _ => mem_keys_of_writtenKeys) hkey' configDefaults)
    exact (hlost key' (List.mem_cons_of_mem key hrest)).2 hkey'
  constructor
  · intro hall
    refine ⟨named_of_agrees (named_foldl _ named_configDefaults) hall, ?_, ?_, ?_⟩
    · intro hne
      rw [if_neg hne] at hkey
      exact hkey.symm.trans (hall key (hlost key List.mem_cons_self).1)
    · intro heq
      rw [if_pos heq] at hkey
      exact hkey.symm.trans (hall key (hlost key List.mem_cons_self).1)
    · intro key' hkey' heq
      have hset := hwritten key' hkey'
      rw [if_pos heq] at hset
      exact (agrees_applyKey_namedConfig config _ key').symm.trans
        (hset.symm.trans (hall key' (mem_keys_of_writtenKeys hkey')))
  · rintro ⟨hnamed, hharmless⟩ key' hstrand
    have hname := agrees_namedConfig_iff.mpr hnamed key' hstrand
    have hmem : key' ∈ writtenKeys strandKeys true old ++ missingKeys strandKeys true old :=
      mem_writtenKeys_append_missingKeys hstrand
    rw [hmissing, List.mem_append, List.mem_cons] at hmem
    rcases hmem with hkey' | rfl | hrest
    · refine (hwritten key' hkey').trans ?_
      split_ifs with heq
      · exact (agrees_applyKey_namedConfig config _ key').trans (hharmless.written key' hkey' heq)
      · exact hname
    · refine hkey.trans ?_
      split_ifs with heq
      · exact hharmless.own heq
      · exact hharmless.missing heq
    · -- the other appended lines are read last
      rw [settings_savedStrand_cut h hopen hmissing hcut, List.foldl_append]
      exact (agrees_foldl_namedConfig h (fun k hk => (hlost k (List.mem_cons_of_mem _ hk)).1) hrest
        _).trans hname

/-- What comes back where no line joins a cut name. -/
theorem agrees_strandKeys_whole_iff (h : StrandConfig config) {old : List UInt8}
    (htail : openTail strandKeys true old = none ∨ missingKeys strandKeys true old = []) :
    (∀ key ∈ strandKeys,
        Agrees ((settings (savedStrand config old)).foldl applySetting configDefaults) config key) ↔
      Named config := by
  have hloaded : ∀ key ∈ strandKeys,
      Agrees ((settings (savedStrand config old)).foldl applySetting configDefaults)
        (namedConfig config) key := by
    intro key hkey
    unfold savedStrand
    rw [settings_savedText managesLines_strand h.clean htail]
    refine agrees_foldl_namedConfig h (fun key' hkey' => ?_)
      (mem_writtenKeys_append_missingKeys hkey) configDefaults
    rcases List.mem_append.mp hkey' with hwritten | hmissing
    · exact mem_keys_of_writtenKeys hwritten
    · exact (List.mem_filter.mp hmissing).1
  rw [← agrees_namedConfig_iff]
  exact ⟨fun hall key hkey => (hloaded key hkey).symm.trans (hall key hkey),
    fun hnamed key hkey => (hloaded key hkey).trans (hnamed key hkey)⟩

/-- Only Strand keys are set. -/
theorem mem_strandKeys_of_settings (hfile : StrandFile file) (h : StrandConfig config) :
    ∀ kv ∈ settings (savedStrand config (file.getD [])), kv.1 ∈ strandKeys := by
  have hset : ∀ ks : List Key, (∀ key ∈ ks, key ∈ strandKeys) →
      ∀ kv ∈ ks.map (setting config), kv.1 ∈ strandKeys := by
    intro ks hks kv hkv
    obtain ⟨key, hkey, rfl⟩ := List.mem_map.mp hkv
    exact hks key hkey
  have hwritten : ∀ key ∈ writtenKeys strandKeys true (file.getD []), key ∈ strandKeys :=
    fun _ => mem_keys_of_writtenKeys
  have hmissingKeys : ∀ key ∈ missingKeys strandKeys true (file.getD []), key ∈ strandKeys :=
    fun _ hkey => (List.mem_filter.mp hkey).1
  -- only an open tail could bring in another key, and it is the beginning of a strand key's line
  cases hopen : openTail strandKeys true (file.getD []) with
  | none =>
    unfold savedStrand
    rw [settings_savedText managesLines_strand h.clean (Or.inl hopen)]
    exact hset _ (List.forall_mem_append.mpr ⟨hwritten, hmissingKeys⟩)
  | some tail =>
    cases hmissing : missingKeys strandKeys true (file.getD []) with
    | nil =>
      unfold savedStrand
      rw [settings_savedText managesLines_strand h.clean (Or.inr hmissing), hmissing,
        List.append_nil]
      exact hset _ hwritten
    | cons key rest =>
      obtain ⟨key₀, hkey₀, hcut⟩ := exists_cut_of_openTail hfile hopen
      rw [hmissing, List.forall_mem_cons] at hmissingKeys
      rw [settings_savedStrand_cut h hopen hmissing hcut, List.forall_mem_append,
        List.forall_mem_append]
      refine ⟨⟨hset _ hwritten, fun kv hkv => ?_⟩, hset _ hmissingKeys.2⟩
      split_ifs at hkv with heq
      · obtain rfl := List.mem_singleton.mp hkv
        exact hkey₀
      · cases hkv

/-- **What comes back** over a previous file. -/
theorem reproduces_savedStrand_iff (hfile : StrandFile file) (h : StrandConfig config) :
    (∀ key ∈ flashKeys,
        Agrees (configLoad (some (savedStrand config (file.getD [])))).2 config key) ↔
      Named config ∧ (config.ports 1).label.text = [] ∧ TailHarmless config (file.getD []) := by
  rw [agrees_configLoad_iff h (mem_strandKeys_of_settings hfile h)]
  unfold TailHarmless
  -- without an open tail, or with nothing to append behind it, the whole list is read back
  cases hopen : openTail strandKeys true (file.getD []) with
  | none =>
    rw [agrees_strandKeys_whole_iff h (Or.inl hopen)]
    exact ⟨fun ⟨hnamed, hempty⟩ => ⟨hnamed, hempty, fun _ htail => by cases htail⟩,
      fun ⟨hnamed, hempty, _⟩ => ⟨hnamed, hempty⟩⟩
  | some tail =>
    cases hmissing : missingKeys strandKeys true (file.getD []) with
    | nil =>
      rw [agrees_strandKeys_whole_iff h (Or.inr hmissing)]
      exact ⟨fun ⟨hnamed, hempty⟩ => ⟨hnamed, hempty, fun _ _ _ hkey => by cases hkey⟩,
        fun ⟨hnamed, hempty, _⟩ => ⟨hnamed, hempty⟩⟩
    | cons key rest =>
      obtain ⟨key₀, -, hcut⟩ := exists_cut_of_openTail hfile hopen
      rw [agrees_strandKeys_cut_iff h hopen hmissing hcut]
      constructor
      · rintro ⟨⟨hnamed, hharmless⟩, hempty⟩
        refine ⟨hnamed, hempty, fun tail' htail' key' hkey' => ?_⟩
        obtain rfl := Option.some.inj htail'
        obtain rfl := Option.some.inj hkey'
        exact hharmless
      · rintro ⟨hnamed, hempty, hall⟩
        exact ⟨⟨hnamed, hall tail rfl key rfl⟩, hempty⟩

end

/-- **What the flash gives back**: the configurations whose second label is empty, which is what
it is loaded as, and whose modes and protocol have a name, where no line joins a cut name or does no
harm there. -/
theorem strandReproduces_iff (writable : Bool) (file : Option (List UInt8)) (config : NodeConfig)
    (hfile : StrandFile file) (h : StrandConfig config) :
    StrandReproduces writable file config ↔
      (writable = true → savedSize strandKeys true config (file.getD []) ≤ strandMaxSize →
        Named config ∧ (config.ports 1).label.text = [] ∧ TailHarmless config (file.getD [])) := by
  have hlen : (savedStrand config (file.getD [])).length
      = savedSize strandKeys true config (file.getD []) :=
    length_savedText strandKeys true config (file.getD [])
  unfold StrandReproduces
  cases writable with
  -- a save that could not open the file returns -1, and nothing is asked of it
  | false =>
    refine iff_of_true (fun hret => ?_) (fun hw => Bool.noConfusion hw)
    change (-1 : Int) = 0 at hret
    exact absurd hret (by decide)
  | true =>
    rw [configSaveStrand_writable, hlen]
    dsimp only
    by_cases hsize : savedSize strandKeys true config (file.getD []) ≤ strandMaxSize
    · rw [if_neg (by omega)]
      have hiff := reproduces_savedStrand_iff hfile h
      exact ⟨fun hrep _ _ => hiff.mp (hrep rfl).2,
        fun hcond _ => ⟨rfl, hiff.mpr (hcond rfl hsize)⟩⟩
    · -- the file is refused
      rw [if_pos (by omega)]
      exact iff_of_true (fun hret => absurd hret (by decide)) (fun _ hle => absurd hle hsize)

/-- A configuration with an address of its own and a label for the first port only. -/
def oneLabelConfig : NodeConfig :=
  { siteConfig with
    addrMode := addrModeStatic
    ports := fun i => { siteConfig.ports i with
      label := if i = 0 then (siteConfig.ports 0).label else (configDefaults.ports 1).label } }

/-- The same configuration with a label for both ports. -/
def twoLabelConfig : NodeConfig := { siteConfig with addrMode := addrModeStatic }

/-- The example configuration is one a strand file is made from. -/
theorem strandConfig_twoLabelConfig : StrandConfig twoLabelConfig :=
  ⟨by decide, by decide, by decide, by decide⟩

/-- A configuration with a label on the first port only is brought back as a whole. -/
theorem strandReproduces_oneLabelConfig : StrandReproduces true none oneLabelConfig :=
  (strandReproduces_iff true none oneLabelConfig strandFile_none
    ⟨by decide, by decide, by decide, by decide⟩).mpr
    fun _ _ => ⟨⟨by decide, by decide⟩, by decide, fun _ htail => by cases htail⟩

/-- The second port's label is lost. -/
theorem secondLabel_lost :
    StrandFile none ∧ StrandConfig twoLabelConfig ∧
      (configSaveStrand true none twoLabelConfig).1 = 0 ∧
      ¬ StrandReproduces true none twoLabelConfig := by
  have haccept : (configSaveStrand true none twoLabelConfig).1 = 0 := by
    have hlen : (savedStrand twoLabelConfig []).length = _ :=
      length_savedText strandKeys true twoLabelConfig []
    rw [configSaveStrand_writable, Option.getD_none, hlen]
    decide
  refine ⟨strandFile_none, strandConfig_twoLabelConfig, haccept, fun hrep => ?_⟩
  have hall := (hrep haccept).2
  rw [configSaveStrand_writable] at hall
  have hiff := reproduces_savedStrand_iff strandFile_none strandConfig_twoLabelConfig
  have hlabel := (hiff.mp hall).2.1
  exact absurd hlabel (by decide)

end SN110
