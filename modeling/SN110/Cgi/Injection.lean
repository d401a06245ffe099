import SN110.Cgi.Flash
import SN110.Cgi.Ranges
import SN110.Config.SavedKeys

/-!
# Lines from a POST

The hostname and the labels are written to the file as they are posted, and the file is read by
lines. A line end in one of them starts a line of its own.

`cannotInject_iff` says which posted texts leave the file's keys alone: those whose further lines
are no settings, or settings of an unmanaged key that the file has anyway.
-/

namespace SN110

/-- The configuration that a POST saves. -/
def savedByPost (env : CgiEnv) (body old : List UInt8) : NodeConfig :=
  parseFormdata body (cgiLoad env (some old))

/-- The protocol, the addresses, the modes and the universes. -/
def guardedKeys : List Key :=
  [.protocol, .nodeaddr, .netmask, .gateway, .macaddr, .addrMode, .dmxPortMode 0, .dmxPortMode 1,
    .sacnUniverse 0, .sacnUniverse 1]

/-- The new file has one line for each managed key and no key that the old one had not, and it gives
the configuration back. -/
structure KeepsKeys (config : NodeConfig) (old new : List UInt8) : Prop where
  once : ∀ key : Key, (fileKeys new).count key.name = 1
  known : ∀ k ∈ fileKeys new, (∃ key : Key, k = key.name) ∨ k ∈ fileKeys old
  loaded : ∀ key ∈ guardedKeys, Agrees (configLoad (some new)).2 config key

/-- A POST injects no lines. -/
def CannotInject (env : CgiEnv) (body old : List UInt8) : Prop :=
  ∀ writable new, configSave writable (some old) (savedByPost env body old) = (0, some new) →
    KeepsKeys (savedByPost env body old) old new

/-- The text that the body gives a field last, as its array takes it. -/
def postedText (body : List UInt8) (field : FormField) (size : Nat) (hsize : 0 < size) :
    List UInt8 :=
  (CString.strncpy size hsize ((formText body field).getD [])).text

def postedTexts (body : List UInt8) : List (List UInt8) :=
  [postedText body .hostname 16 (by decide), postedText body (.portLabel 0) 9 (by decide),
    postedText body (.portLabel 1) 9 (by decide)]

/-- The lines of the posted texts behind their first ones are no settings, or settings of an
unmanaged key that the old file has. -/
def NoInjection (body old : List UInt8) : Prop :=
  ∀ text ∈ postedTexts body, ∀ kv ∈ furtherScans text,
    (∀ key ∈ managedKeys, kv.1 ≠ key.name) ∧ kv.1 ∈ fileKeys old

/-! ## The texts of the configuration -/

/-- A value without line end makes no further line. -/
theorem furtherScans_of_no_lf {v : List UInt8} (h : lf ∉ v) : furtherScans v = [] := by
  unfold furtherScans
  rw [furtherLines_plain h]
  rfl

/-- The value of a loaded setting holds no line end. -/
theorem lf_notMem_of_keyText {file : Option (List UInt8)} {key : Key} {v : List UInt8}
    (h : keyText file key = some v) : lf ∉ v := by
  obtain ⟨kv, hkv, hset⟩ := Assign.exists_of_last h
  unfold settingFor at hset
  split_ifs at hset
  obtain rfl := Option.some.inj hset
  obtain ⟨line, -, hline⟩ := List.mem_filterMap.mp hkv
  obtain ⟨-, k, rest, -, -, -, -, -, -, hvalue⟩ :=
    scanLine_eq_some.mp (lineSets_eq_some.mp (show lineSets line = some (kv.1, kv.2) from hline))
  intro hmem
  obtain ⟨front, back, htrim, -⟩ := exists_trim_eq (spanNoneOf 191 [lf, cr] rest)
  have hspan : lf ∈ spanNoneOf 191 [lf, cr] rest := by
    rw [htrim, ← hvalue]
    exact List.mem_append_left _ (List.mem_append_right _ hmem)
  have hnot := List.mem_takeWhile_imp (List.mem_of_mem_take hspan)
  exact absurd hnot (by decide)

/-- The CGI program starts from what the file has, but for the MAC address. -/
theorem agrees_cgiLoad {key : Key} (h : key ≠ .macaddr) (env : CgiEnv)
    (file : Option (List UInt8)) :
    Agrees (cgiLoad env file) (configLoad file).2 key := by
  unfold cgiLoad
  dsimp only
  split_ifs
  · cases key <;> first
      | rfl
      | contradiction
  · exact Agrees.refl _ key

/-- Cutting a value to its buffer brings in no line end. -/
theorem lf_notMem_strncpy {size : Nat} (hsize : 0 < size) {v : List UInt8} (h : lf ∉ v) :
    lf ∉ (CString.strncpy size hsize v).text := fun hmem =>
  h ((List.takeWhile_prefix _).subset (List.mem_of_mem_take hmem))

section

variable {field : FormField} {size : Nat} (hsize : 0 < size)

/-- A field that holds a text: its value is stored by `strncpy`, from the form and from the file. -/
structure TextField (field : FormField) (size : Nat) (hsize : 0 < size) : Prop where
  not_address : field.key ≠ .nodeaddr ∧ field.key ≠ .netmask ∧ field.key ≠ .gateway
  not_mode : field.key ≠ .macaddr ∧ field.key ≠ .addrMode
  form : ∀ c v, formatValue (applyField c v field) field.key = (CString.strncpy size hsize v).text
  file : ∀ c v, formatValue (applyKey c v field.key) field.key = (CString.strncpy size hsize v).text
  value : ∀ a b, Agrees a b field.key → formatValue a field.key = formatValue b field.key
  default : lf ∉ formatValue configDefaults field.key

/-- The hostname is a text of 16 bytes. -/
theorem textField_hostname : TextField .hostname 16 (by decide) where
  not_address := by decide
  not_mode := by decide
  form _ _ := rfl
  file _ _ := rfl
  value _ _ h := congrArg CString.text h
  default := by decide

/-- A port's label is a text of nine bytes. -/
theorem textField_portLabel (i : Port) : TextField (.portLabel i) 9 (by decide) where
  not_address := by simp [FormField.key]
  not_mode := by simp [FormField.key]
  form _ _ := by simp only [FormField.key, formatValue, applyField, Function.update_self]
  file _ _ := by simp only [FormField.key, formatValue, applyKey, Function.update_self]
  value _ _ h := congrArg CString.text h
  default := by
    revert i
    decide

/-- **Only a posted text has further lines.** -/
theorem furtherScans_savedByPost {hsize : 0 < size} (hf : TextField field size hsize)
    (env : CgiEnv) (body old : List UInt8) :
    furtherScans (formatValue (savedByPost env body old) field.key)
      = furtherScans (postedText body field size hsize) := by
  obtain ⟨hip, hmask, hgateway⟩ := hf.not_address
  have hposted : Agrees (savedByPost env body old) _ field.key :=
    (agrees_zeroDhcpAddresses hip hmask hgateway _).trans
      (agrees_postedFields field body (cgiLoad env (some old)))
  unfold postedText
  rw [hf.value _ _ hposted]
  cases formText body field with
  | some v =>
    show furtherScans (formatValue (applyField _ v field) field.key) = _
    rw [hf.form]
    rfl
  | none =>
    -- the text is the loaded one, or the default
    have hload : Agrees (cgiLoad env (some old)) _ field.key :=
      (agrees_cgiLoad hf.not_mode.1 env (some old)).trans
        (agrees_configLoad hf.not_mode.1 hf.not_mode.2 (some old))
    show furtherScans (formatValue (cgiLoad env (some old)) field.key) = _
    rw [hf.value _ _ hload,
      furtherScans_of_no_lf
        (lf_notMem_strncpy hsize (v := (none : Option (List UInt8)).getD []) (by simp))]
    refine furtherScans_of_no_lf ?_
    cases hkey : keyText (some old) field.key with
    | none => exact hf.default
    | some v =>
      show lf ∉ formatValue (applyKey configDefaults v field.key) field.key
      rw [hf.file]
      exact lf_notMem_strncpy hsize (lf_notMem_of_keyText hkey)

end

/-- The keys that hold a text. -/
def Key.IsText : Key → Prop
  | .hostname | .dmxLabel _ => True
  | _ => False

/-- The configuration with its texts cleared. -/
def withoutTexts (config : NodeConfig) : NodeConfig where
  hostname := CString.strncpy 16 hostnameSize_pos []
  ipAddr := config.ipAddr
  netmask := config.netmask
  gateway := config.gateway
  mac := config.mac
  ports := fun i => { config.ports i with label := CString.strncpy 9 labelSize_pos [] }
  activeProtocol := config.activeProtocol
  dmxHoldTime := config.dmxHoldTime
  addrMode := config.addrMode
  lcdContrast := config.lcdContrast
  lcdBacklight := config.lcdBacklight
  dmxSlotMonitor := config.dmxSlotMonitor

/-- Leaving the texts out changes no other value. -/
theorem formatValue_withoutTexts {key : Key} (h : ¬ key.IsText) (config : NodeConfig) :
    formatValue (withoutTexts config) key = formatValue config key := by
  cases key <;> first
    | rfl
    | exact absurd trivial h

/-- Leaving the texts out changes no other key. -/
theorem agrees_withoutTexts {key : Key} (h : ¬ key.IsText) (config : NodeConfig) :
    Agrees (withoutTexts config) config key := by
  cases key <;> first
    | rfl
    | exact absurd trivial h

/-- Without its texts a configuration has no line end in a value. -/
theorem cleanText_withoutTexts (config : NodeConfig) : CleanText (withoutTexts config) := by
  have hempty : ∀ c : UInt8, c ∈ ([] : List UInt8) → c ≠ lf ∧ c ≠ cr := fun c hc => by cases hc
  exact ⟨hempty, fun _ => hempty⟩

/-- No other value has a line end. -/
theorem formatValue_plain_of_not_text {key : Key} (h : ¬ key.IsText) (config : NodeConfig) :
    ∀ c ∈ formatValue config key, c ≠ lf ∧ c ≠ cr := by
  rw [← formatValue_withoutTexts h]
  intro c hc
  have hplain := formatValue_plain (cleanText_withoutTexts config) key c hc
  exact ⟨hplain.ne_lf, hplain.ne_cr⟩

/-- What is written of the further lines is what has been posted. -/
theorem forall_furtherScans_iff (env : CgiEnv) (body old : List UInt8)
    (P : List UInt8 × List UInt8 → Prop) :
    (∀ key, ∀ kv ∈ furtherScans (formatValue (savedByPost env body old) key), P kv) ↔
      ∀ text ∈ postedTexts body, ∀ kv ∈ furtherScans text, P kv := by
  have hhost : furtherScans (formatValue (savedByPost env body old) .hostname) = _ :=
    furtherScans_savedByPost textField_hostname env body old
  have hlabel : ∀ i, furtherScans (formatValue (savedByPost env body old) (.dmxLabel i)) = _ :=
    fun i => furtherScans_savedByPost (textField_portLabel i) env body old
  unfold postedTexts
  simp only [List.forall_mem_cons]
  constructor
  · intro h
    exact ⟨hhost ▸ h .hostname, hlabel 0 ▸ h (.dmxLabel 0), hlabel 1 ▸ h (.dmxLabel 1),
      List.forall_mem_nil _⟩
  · rintro ⟨hposted, hzero, hone, -⟩ key
    -- a value that is no text has no line end, so nothing further is scanned in it
    by_cases htext : key.IsText
    · cases key with
      | hostname => exact hhost ▸ hposted
      | dmxLabel i =>
        rw [hlabel i]
        match i with
        | 0 => exact hzero
        | 1 => exact hone
      | _ => cases htext
    · have hplain := formatValue_plain_of_not_text htext (savedByPost env body old)
      rw [furtherScans_of_no_lf fun hmem => (hplain lf hmem).1 rfl]
      exact List.forall_mem_nil _

/-! ## Loading what was saved -/

/-- A field of the configuration saved is in range, if it is in the file. -/
theorem fieldInRange_savedByPost {key : Key} (hmac : key ≠ .macaddr) (env : CgiEnv)
    (body : List UInt8) {old : List UInt8} (h : FieldInRange (configLoad (some old)).2 key) :
    FieldInRange (savedByPost env body old) key :=
  fieldInRange_parseFormdata ((FieldInRange.congr (agrees_cgiLoad hmac env (some old))).mpr h) body

/-- In DHCP mode the form leaves no address. -/
theorem ipAddr_of_dhcp {cfg : NodeConfig} (h : (zeroDhcpAddresses cfg).addrMode = addrModeDhcp) :
    (zeroDhcpAddresses cfg).ipAddr = 0 := by
  rw [addrMode_zeroDhcpAddresses] at h
  unfold zeroDhcpAddresses
  rw [if_pos h]

/-- But for the texts, what a post saves is read back. -/
theorem persistable_savedByPost (env : CgiEnv) (body old : List UInt8) :
    Persistable (withoutTexts (savedByPost env body old)) where
  clean := cleanText_withoutTexts _
  hostname := show Trimmed [] by decide
  label _ := show Trimmed [] by decide
  mode i := by
    -- in DHCP mode the form has zeroed the address, as the file format asks
    have hkey : Key.dmxPortMode i ≠ .addrMode := by simp
    have hmode : FieldInRange (savedByPost env body old) (.dmxPortMode i) :=
      fieldInRange_savedByPost (by simp) env body
        (fieldInRange_loaded hkey (by simp) (by simp) (some old))
    exact hmode
  protocol := by
    have hprotocol : FieldInRange (savedByPost env body old) .protocol :=
      fieldInRange_savedByPost (by decide) env body
        (fieldInRange_loaded (by decide) (by simp) (by decide) (some old))
    exact hprotocol
  addrMode := by
    have hmode : FieldInRange (savedByPost env body old) .addrMode :=
      fieldInRange_savedByPost (by decide) env body (fieldInRange_addrMode old)
    rcases hmode with hmode | hmode | hmode
    · exact Or.inl hmode
    · exact Or.inr (Or.inr ⟨hmode, ipAddr_of_dhcp hmode⟩)
    · exact Or.inr (Or.inl hmode)

/-- A guarded key's value is read back as it was. -/
theorem agrees_applyKey_savedByPost {key : Key} (h : key ∈ guardedKeys) (env : CgiEnv)
    (body old : List UInt8) (c : NodeConfig) :
    Agrees (applyKey c (trim (formatValue (savedByPost env body old) key)) key)
      (savedByPost env body old) key := by
  have hguard : ∀ key ∈ guardedKeys, ¬ key.IsText ∧ ∀ config, KeyInRange config key := by
    simp [guardedKeys, Key.IsText, KeyInRange]
  obtain ⟨htext, hrange⟩ := hguard key h
  have hread := (agrees_applyKey_formatValue (persistable_savedByPost env body old) c key).mpr
    (hrange _)
  rw [formatValue_withoutTexts htext] at hread
  exact hread.trans (agrees_withoutTexts htext _)

/-- The keys guarded are none of the texts. -/
theorem not_text_of_guarded {key : Key} (h : key ∈ guardedKeys) : ¬ key.IsText := by
  have hguard : ∀ key ∈ guardedKeys, ¬ key.IsText := by simp [guardedKeys, Key.IsText]
  exact hguard key h

/-- **The guarded keys are loaded as they were saved**, if no further line sets a key. -/
theorem agrees_configLoad_savedByPost {env : CgiEnv} {body old : List UInt8}
    (htail : TailOk managedKeys false old)
    (hfurther : ∀ key, furtherSettings (savedByPost env body old) key = []) {key : Key}
    (h : key ∈ guardedKeys) :
    Agrees (configLoad (some (savedConfig (savedByPost env body old) old))).2
      (savedByPost env body old) key := by
  have hread : ∀ {key}, key ∈ guardedKeys →
      Agrees ((settings (savedConfig (savedByPost env body old) old)).foldl applySetting
        configDefaults) (savedByPost env body old) key := fun hkey =>
    agrees_savedConfig htail hfurther (formatValue_plain_of_not_text (not_text_of_guarded hkey) _)
      (agrees_applyKey_savedByPost hkey env body old)
  -- the address mode has been read, so nothing is inferred
  have hkey : Key.addrMode ∈ guardedKeys := by decide
  have hmode : _ = (savedByPost env body old).addrMode := hread hkey
  rw [configLoad_snd, inferAddrMode_of_ne]
  · exact hread h
  · rw [hmode]
    intro hsentinel
    have hbad := (persistable_savedByPost env body old).addrMode
    change (savedByPost env body old).addrMode = _ ∨ (savedByPost env body old).addrMode = _ ∨
      (savedByPost env body old).addrMode = _ ∧ _ at hbad
    rw [hsentinel] at hbad
    rcases hbad with hbad | hbad | ⟨hbad, -⟩ <;> cases hbad

/-! ## Which bodies inject nothing -/

/-- A post injects nothing exactly when the keys of the saved file are kept. -/
theorem cannotInject_iff_keepsKeys (env : CgiEnv) (body old : List UInt8) :
    CannotInject env body old ↔
      KeepsKeys (savedByPost env body old) old (savedConfig (savedByPost env body old) old) := by
  unfold CannotInject
  constructor
  · exact fun h => h true _ (configSave_writable (some old) _)
  · intro h writable new heq
    cases writable with
    | false =>
      have hret : (-1 : Int) = 0 := (Prod.mk.inj heq).1
      exact absurd hret (by decide)
    | true =>
      rw [configSave_writable, Option.getD_some] at heq
      rwa [← Option.some.inj (Prod.mk.inj heq).2]

/-- A text with a newline at its end, and without a NUL, has a harmless end. -/
theorem tailOk_of_newline {old : List UInt8} (hlen : old.length ≤ 2047) (hnul : 0 ∉ old)
    (hlast : old = [] ∨ old.getLast? = some lf) (keys : List Key) (skip : Bool) :
    TailOk keys skip old := by
  have htext : existingText old = old := by
    unfold existingText
    rw [List.take_of_length_le hlen, cstr_of_no_nul hnul]
  have hopen : openTail keys skip old = none := by
    cases hopen : openTail keys skip old with
    | none => rfl
    | some tail =>
      -- the open tail would be the end of the text
      obtain ⟨hget, -, hnot⟩ := openTail_eq_some hopen
      have hflat : (linePieces old).flatten = old := Pieces.flatten_pieces (by decide) old
      rw [htext] at hget
      obtain ⟨front, hfront⟩ := List.getLast?_eq_some_iff.mp hget
      have hne : tail ≠ [] := (isPiece_of_openTail hopen).ne_nil
      rw [hfront, List.flatten_append, List.flatten_singleton] at hflat
      refine absurd (Or.inl ?_) hnot
      rw [← hflat, List.getLast?_append_of_ne_nil _ hne] at hlast
      exact hlast.resolve_left (by simp [hne])
  unfold TailOk
  rw [hopen]
  trivial

/-- **Which POSTs inject no lines**, over a file of at most 2047 bytes that has no managed key twice
and whose end is harmless. -/
theorem cannotInject_iff (env : CgiEnv) (body old : List UInt8) (hlen : old.length ≤ 2047)
    (honce : ∀ key : Key, (fileKeys old).count key.name ≤ 1)
    (htail : TailOk managedKeys false old) :
    CannotInject env body old ↔ NoInjection body old := by
  have hcount := count_fileKeys_savedConfig (savedByPost env body old) htail
    (count_writtenKeys_le hlen honce)
  rw [cannotInject_iff_keepsKeys]
  unfold NoInjection
  rw [← forall_furtherScans_iff env body old]
  constructor
  · intro h key kv hkv
    have hmem : kv ∈ scans (savedConfig (savedByPost env body old) old) := by
      have hline : kv ∈ scans (keyLine (savedByPost env body old) key) := by
        rw [scans_keyLine_alone]
        exact List.mem_cons_of_mem _ hkv
      exact mem_scans_savedConfig htail hline
    have hunmanaged : ∀ key ∈ managedKeys, kv.1 ≠ key.name := by
      rintro key' - hname
      -- the key would stand once for itself and once more
      have hone := h.once key'
      rw [hcount, Nat.add_eq_left, List.count_eq_zero] at hone
      refine hone (List.mem_flatMap.mpr ⟨key, ?_, ?_⟩)
      · exact mem_writtenKeys_append_missingKeys (mem_managedKeys key)
      · refine List.mem_map.mpr ⟨(key', kv.2), ?_, rfl⟩
        exact List.mem_filterMap.mpr ⟨kv, hkv, managed_eq_some.mpr (Prod.ext hname rfl)⟩
    refine ⟨hunmanaged, (h.known kv.1 (List.mem_map_of_mem hmem)).resolve_left ?_⟩
    rintro ⟨key', hname⟩
    exact hunmanaged key' (mem_managedKeys key') hname
  · intro h
    have hfurther : ∀ key, furtherSettings (savedByPost env body old) key = [] := by
      intro key
      refine List.filterMap_eq_nil_iff.mpr fun kv hkv => ?_
      unfold managed
      rw [findKey_eq_none.mpr (h key kv hkv).1]
      rfl
    refine ⟨fun key => ?_, fun k hk => ?_, fun key hkey => ?_⟩
    · have hnone : ∀ key, (furtherSettings (savedByPost env body old) key).map Prod.fst = [] :=
        fun key => by rw [hfurther key, List.map_nil]
      rw [hcount, List.flatMap_eq_nil_iff.mpr fun key _ => hnone key]
      rfl
    · obtain ⟨kv, hkv, rfl⟩ := List.mem_map.mp hk
      rcases key_of_mem_scans_savedConfig hlen htail hkv with hold | ⟨key, hname | hmem⟩
      · exact Or.inr hold
      · exact Or.inl ⟨key, hname⟩
      · exact Or.inr (h key kv hmem).2
    · exact agrees_configLoad_savedByPost htail hfurther hkey

/-- What a body with one pair posts. -/
theorem formText_single {field : FormField} {value : List UInt8}
    (hvalue : ampersand ∉ value ∧ value.length ≤ 191) (hnul : 0 ∉ value) (field' : FormField) :
    formText (field.name ++ equals :: value) field'
      = if field = field' then some (cstr (urlDecode value 192)) else none := by
  have hno : 0 ∉ field.name ++ equals :: value := by
    simp only [List.mem_append, List.mem_cons, not_or]
    exact ⟨field.no_nul_name, by decide, hnul⟩
  unfold formText
  rw [cstr_of_no_nul hno, formPairs_last field.name_fits hvalue]
  by_cases hfield : field = field'
  · subst hfield
    simp [Assign.last, valueFor]
  · have hname : field.name ≠ field'.name := fun h => hfield (FormField.name_injective h)
    simp [Assign.last, valueFor, hfield, hname]

/-- A body with a hostname posts no labels. -/
theorem postedTexts_hostname {value : List UInt8} (hvalue : ampersand ∉ value ∧ value.length ≤ 191)
    (hnul : 0 ∉ value) :
    postedTexts (FormField.hostname.name ++ equals :: value)
      = [(CString.strncpy 16 hostnameSize_pos (cstr (urlDecode value 192))).text, [], []] := by
  unfold postedTexts postedText
  rw [formText_single hvalue hnul, formText_single hvalue hnul, formText_single hvalue hnul]
  rfl

/-- A file with one setting of the firmware and one of the node's. -/
def sacnFile : List UInt8 := ascii "protocol = sacn" ++ [lf] ++ ascii "boottest = 1" ++ [lf]

/-- The example file has each key once at most. -/
theorem sacnFile_once : ∀ key : Key, (fileKeys sacnFile).count key.name ≤ 1 := by
  rw [Key.forall_iff]
  decide

/-- The example file ends in a line end, so its tail is closed. -/
theorem sacnFile_tailOk : TailOk managedKeys false sacnFile :=
  tailOk_of_newline (by decide) (by decide) (Or.inr (by decide)) managedKeys false

/-- The line that the hostname makes sets a key that the file has anyway. -/
theorem cannotInject_boottest :
    CannotInject quietEnv (FormField.hostname.name ++ equals :: ascii "a%0Aboottest=2")
      sacnFile := by
  refine (cannotInject_iff quietEnv _ sacnFile (by decide) sacnFile_once sacnFile_tailOk).mpr ?_
  unfold NoInjection
  rw [postedTexts_hostname (by decide) (by decide)]
  decide

/-- The hostname `a`, a line end and `protocol=x`. -/
def protocolBody : List UInt8 := FormField.hostname.name ++ equals :: ascii "a%0Aprotocol=x"

/-- The file is left with two lines for the protocol. -/
theorem protocolBody_injects :
    sacnFile.length ≤ 2047 ∧ (∀ line ∈ Lines.lines lf sacnFile,
        line.getLast? = some lf ∧ line.length < 256) ∧
      (∀ key : Key, (fileKeys sacnFile).count key.name ≤ 1) ∧
      ¬ CannotInject quietEnv protocolBody sacnFile := by
  refine ⟨by decide, by decide, sacnFile_once, fun h => ?_⟩
  have hkeeps := (cannotInject_iff_keepsKeys quietEnv protocolBody sacnFile).mp h
  -- the line of the hostname is followed by one that sets the protocol
  have hfurther : (.protocol, ascii "x") ∈ furtherSettings
      (savedByPost quietEnv protocolBody sacnFile) .hostname := by
    have htext : furtherScans (formatValue _ .hostname) = _ :=
      furtherScans_savedByPost textField_hostname quietEnv protocolBody sacnFile
    have hposted : postedText protocolBody .hostname 16 (by decide)
        = (CString.strncpy 16 hostnameSize_pos
          (cstr (urlDecode (ascii "a%0Aprotocol=x") 192))).text := by
      unfold postedText protocolBody
      rw [formText_single (by decide) (by decide)]
      rfl
    unfold furtherSettings
    rw [htext, hposted]
    decide
  have hone := hkeeps.once .protocol
  rw [count_fileKeys_savedConfig _ sacnFile_tailOk
    (count_writtenKeys_le (by decide) sacnFile_once), Nat.add_eq_left, List.count_eq_zero] at hone
  exact hone (List.mem_flatMap.mpr ⟨.hostname,
    mem_writtenKeys_append_missingKeys (mem_managedKeys .hostname),
    List.mem_map_of_mem hfurther⟩)

end SN110
