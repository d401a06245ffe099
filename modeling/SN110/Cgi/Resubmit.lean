import SN110.Cgi.Controls
import SN110.Cgi.Ranges
import SN110.Cgi.Body

/-!
# Saving the unedited page

Every value on the page is read back by `parse_formdata` as the value it was made from, if the
universes, the hold time and the slot monitors are within the bounds of the form. A field of which
nothing is submitted stays as it is.

`parseFormdata_submitted`: so a loaded configuration stays as it is, but for the addresses in DHCP
mode, which `parse_formdata` zeroes, and an address mode that has not been read.
-/

namespace SN110

/-! ## Posting it -/

/-- A submitted field: its value fits the form parser, which makes of it what the target has. -/
structure Kept (target : NodeConfig) (field : FormField × List UInt8) : Prop where
  no_nul : 0 ∉ field.2
  length_le : field.2.length ≤ 63
  agrees : ∀ c, Agrees (applyField c field.2 field.1) target field.1.key

/-- A kept field fits the form parser. -/
theorem Kept.fits {target : NodeConfig} {field : FormField × List UInt8} (h : Kept target field) :
    FitsForm (named field) :=
  ⟨field.1.name_fits, ⟨field.1.no_nul_name, h.no_nul⟩, h.length_le⟩

section

variable {target : NodeConfig} {field : FormField}

/-- A text field is kept when `strncpy` gives it back. -/
theorem kept_text {size : Nat} (hsize : 0 < size) (hle : size ≤ 64) (text : CString size)
    (h : ∀ c, CString.strncpy size hsize text.text = text →
      Agrees (applyField c text.text field) target field.key) :
    Kept target (field, text.text) where
  no_nul := text.no_nul
  length_le := by
    have hlt := text.length_lt
    show text.text.length ≤ 63
    omega
  agrees c := h c (CString.ext_text (strncpy_text hsize text.no_nul text.length_lt))

/-- An address is kept when its dotted form is parsed back. -/
theorem kept_dotted (ip : UInt32)
    (h : ∀ c v, parseIp v = ip → Agrees (applyField c v field) target field.key) :
    Kept target (field, dotted ip) where
  no_nul hmem := (plain_dotted ip 0 hmem).ne_nul rfl
  length_le := (length_dotted_le ip).trans (by decide)
  agrees c := h c _ (parseIp_dotted ip)

/-- A number is kept when its digits are read back by `atoi`. -/
theorem kept_utoa {n : Nat} (hn : n < 2 ^ 31)
    (h : ∀ c v, atoi v = n → Agrees (applyField c v field) target field.key) :
    Kept target (field, utoa n) where
  no_nul hmem := (plain_utoa (hn.trans (by decide)) 0 hmem).ne_nul rfl
  length_le := (length_utoa_le n).trans (by decide)
  agrees c := h c _ (atoi_utoa hn)

/-- A group of radio buttons is kept when the checked one is; otherwise it submits nothing. -/
theorem kept_radioField {value : List UInt8} (hvalue : 0 ∉ value ∧ value.length ≤ 63)
    {checked : Bool}
    (h : checked = true → ∀ c, Agrees (applyField c value field) target field.key) :
    ∀ f ∈ radioField field value checked, Kept target f := by
  intro f hf
  unfold radioField at hf
  split_ifs at hf with hchecked
  · obtain rfl := List.mem_singleton.mp hf
    exact ⟨hvalue.1, hvalue.2, h hchecked⟩
  · cases hf

end

/-- The configuration that the posted fields make up: the page shows a mode that has not been read
as static. -/
def shownConfig (cfg : NodeConfig) : NodeConfig :=
  if cfg.addrMode = addrModeSentinel then { cfg with addrMode := addrModeStatic } else cfg

/-- The page shows every key but the address mode as it is. -/
theorem agrees_shownConfig {key : Key} (h : key ≠ .addrMode) (cfg : NodeConfig) :
    Agrees cfg (shownConfig cfg) key := by
  unfold shownConfig
  split_ifs
  · cases key <;> first
      | exact absurd rfl h
      | rfl
  · exact Agrees.refl cfg key

/-- The numbers of the configuration are those that the form allows. -/
structure NumbersInRange (cfg : NodeConfig) : Prop where
  dmxUniverse : ∀ i, 1 ≤ (cfg.ports i).dmxUniverse ∧ (cfg.ports i).dmxUniverse ≤ 63999
  dmxHoldTime : cfg.dmxHoldTime ≤ 300
  slotMonitor : ∀ i, cfg.dmxSlotMonitor i ≤ 512

/-- A number in range is stored as it is. -/
theorem ofInt_clamp_uint16 {n : UInt16} {lo hi : Int} (hlo : lo ≤ n.toNat)
    (hhi : (n.toNat : Int) ≤ hi)
    {v : List UInt8} (hv : atoi v = n.toNat) : UInt16.ofInt (clamp (atoi v) lo hi) = n := by
  unfold clamp
  rw [hv, if_neg (by omega), if_neg (by omega), ofInt_toNat_uint16]

theorem uint16_lt (n : UInt16) : n.toNat < 2 ^ 31 := n.toNat_lt.trans (by decide)

section

variable (cfg : NodeConfig)

/-- The network fields are posted back as they are shown. -/
theorem kept_networkFields : ∀ f ∈ networkFields cfg, Kept (shownConfig cfg) f := by
  have hip := agrees_shownConfig (show Key.nodeaddr ≠ .addrMode by decide) cfg
  have hmask := agrees_shownConfig (show Key.netmask ≠ .addrMode by decide) cfg
  have hgateway := agrees_shownConfig (show Key.gateway ≠ .addrMode by decide) cfg
  have hhost := agrees_shownConfig (show Key.hostname ≠ .addrMode by decide) cfg
  have hmode : ∀ {value : List UInt8}, parseAddrMode value = (shownConfig cfg).addrMode →
      ∀ c, Agrees (applyField c value .addrMode) (shownConfig cfg) .addrMode := fun h _ => h
  -- field by field: the hostname, the three modes, the three addresses
  unfold networkFields
  simp only [List.forall_mem_append, List.forall_mem_cons]
  refine ⟨⟨⟨?_, List.forall_mem_nil _⟩, ⟨?_, ?_⟩, ?_⟩, ?_, ?_, ?_, List.forall_mem_nil _⟩
  · exact kept_text (by decide) (by decide) cfg.hostname fun c h => Agrees.trans (b := cfg) h hhost
  · refine kept_radioField (by decide) fun hchecked => hmode ?_
    have hdhcp : cfg.addrMode = addrModeDhcp := of_decide_eq_true hchecked
    unfold shownConfig
    rw [if_neg (by rw [hdhcp]; decide), hdhcp]
    decide
  · refine kept_radioField (by decide) fun hchecked => hmode ?_
    unfold shownConfig
    -- the sentinel is shown as static, which is what the target has
    split_ifs with hsentinel
    · show parseAddrMode (ascii "static") = addrModeStatic
      decide
    · rcases of_decide_eq_true hchecked with hstatic | hbad
      · rw [hstatic]
        decide
      · exact absurd hbad hsentinel
  · refine kept_radioField (by decide) fun hchecked => hmode ?_
    have hfallback : cfg.addrMode = addrModeDhcpStatic := of_decide_eq_true hchecked
    unfold shownConfig
    rw [if_neg (by rw [hfallback]; decide), hfallback]
    decide
  · exact kept_dotted cfg.ipAddr fun c v h => Agrees.trans (b := cfg) h hip
  · exact kept_dotted cfg.netmask fun c v h => Agrees.trans (b := cfg) h hmask
  · exact kept_dotted cfg.gateway fun c v h => Agrees.trans (b := cfg) h hgateway

/-- So are the protocol fields, with the hold time in range. -/
theorem kept_protocolFields (h : NumbersInRange cfg) :
    ∀ f ∈ protocolFields cfg, Kept (shownConfig cfg) f := by
  have hprotocol := agrees_shownConfig (show Key.protocol ≠ .addrMode by decide) cfg
  have hhold := agrees_shownConfig (show Key.dmxHoldtime ≠ .addrMode by decide) cfg
  have hradio : ∀ {value : List UInt8}, parseProtocol value = cfg.activeProtocol →
      ∀ c, Agrees (applyField c value .protocol) (shownConfig cfg) .protocol := fun h _ =>
    Agrees.trans (b := cfg) h hprotocol
  unfold protocolFields
  simp only [List.forall_mem_append, List.forall_mem_cons]
  refine ⟨⟨⟨?_, ?_⟩, ?_⟩, ?_, List.forall_mem_nil _⟩
  · exact kept_radioField (by decide) fun hchecked => hradio (of_decide_eq_true hchecked).symm
  · exact kept_radioField (by decide) fun hchecked => hradio (of_decide_eq_true hchecked).symm
  · exact kept_radioField (by decide) fun hchecked => hradio (of_decide_eq_true hchecked).symm
  · refine kept_utoa (uint16_lt _) fun c v hv => Agrees.trans (b := cfg) ?_ hhold
    have hle := UInt16.le_iff_toNat_le.mp h.dmxHoldTime
    exact ofInt_clamp_uint16 (by omega) (by exact_mod_cast hle) hv

/-- So are the fields of a port, with its universe and slot in range. -/
theorem kept_portFields (h : NumbersInRange cfg) (i : Port) :
    ∀ f ∈ portFields cfg i, Kept (shownConfig cfg) f := by
  have hmode := agrees_shownConfig (show Key.dmxPortMode i ≠ .addrMode by simp) cfg
  have huniverse := agrees_shownConfig (show Key.sacnUniverse i ≠ .addrMode by simp) cfg
  have hlabel := agrees_shownConfig (show Key.dmxLabel i ≠ .addrMode by simp) cfg
  have hslot := agrees_shownConfig (show Key.dmxSlotMonitor i ≠ .addrMode by simp) cfg
  have hradio : ∀ {value : List UInt8}, parseMode value = (cfg.ports i).mode →
      ∀ c, Agrees (applyField c value (.portMode i)) (shownConfig cfg) (.dmxPortMode i) := by
    intro value hvalue c
    refine Agrees.trans (b := cfg) ?_ hmode
    simp only [Agrees, applyField, Function.update_self]
    exact hvalue
  -- field by field: the three modes, the universe, the label, the slot
  unfold portFields
  simp only [List.forall_mem_append, List.forall_mem_cons]
  refine ⟨⟨⟨?_, ?_⟩, ?_⟩, ?_, ?_, ?_, List.forall_mem_nil _⟩
  · exact kept_radioField (by decide) fun hchecked => hradio (of_decide_eq_true hchecked).symm
  · exact kept_radioField (by decide) fun hchecked => hradio (of_decide_eq_true hchecked).symm
  · exact kept_radioField (by decide) fun hchecked => hradio (of_decide_eq_true hchecked).symm
  · refine kept_utoa (uint16_lt _) fun c v hv => Agrees.trans (b := cfg) ?_ huniverse
    obtain ⟨hlo, hhi⟩ := h.dmxUniverse i
    have hlo' := UInt16.le_iff_toNat_le.mp hlo
    have hhi' := UInt16.le_iff_toNat_le.mp hhi
    simp only [Agrees, FormField.key, applyField, Function.update_self]
    exact ofInt_clamp_uint16 (by exact_mod_cast hlo') (by exact_mod_cast hhi') hv
  · refine kept_text (by decide) (by decide) (cfg.ports i).label fun c heq =>
      Agrees.trans (b := cfg) ?_ hlabel
    simp only [Agrees, FormField.key, applyField, Function.update_self]
    exact heq
  · refine kept_utoa (uint16_lt _) fun c v hv => Agrees.trans (b := cfg) ?_ hslot
    have hle := UInt16.le_iff_toNat_le.mp (h.slotMonitor i)
    simp only [Agrees, FormField.key, applyField, Function.update_self]
    exact ofInt_clamp_uint16 (by omega) (by exact_mod_cast hle) hv

/-- So are the display fields. -/
theorem kept_lcdFields : ∀ f ∈ lcdFields cfg, Kept (shownConfig cfg) f := by
  have hcontrast := agrees_shownConfig (show Key.lcdContrast ≠ .addrMode by decide) cfg
  have hbacklight := agrees_shownConfig (show Key.lcdBacklight ≠ .addrMode by decide) cfg
  have hradio : ∀ {value : List UInt8}, parseBacklight value = cfg.lcdBacklight →
      ∀ c, Agrees (applyField c value .lcdBacklight) (shownConfig cfg) .lcdBacklight := fun h _ =>
    Agrees.trans (b := cfg) h hbacklight
  unfold lcdFields
  simp only [List.forall_mem_append, List.forall_mem_cons]
  refine ⟨⟨?_, List.forall_mem_nil _⟩, ⟨?_, ?_⟩, ?_⟩
  · have hlt := cfg.lcdContrast.toNat_lt
    refine kept_utoa (hlt.trans (by decide)) fun c v hv => Agrees.trans (b := cfg) ?_ hcontrast
    show UInt8.ofInt (clamp (atoi v) 0 255) = cfg.lcdContrast
    unfold clamp
    rw [hv, if_neg (by omega), if_neg (by omega), ofInt_toNat_uint8]
  · exact kept_radioField (by decide) fun hchecked => hradio (of_decide_eq_true hchecked).symm
  · exact kept_radioField (by decide) fun hchecked => hradio (of_decide_eq_true hchecked).symm
  · exact kept_radioField (by decide) fun hchecked => hradio (of_decide_eq_true hchecked).symm

/-- So is every field the page submits. -/
theorem kept_submittedFields (h : NumbersInRange cfg) :
    ∀ f ∈ submittedFields cfg, Kept (shownConfig cfg) f := by
  unfold submittedFields
  simp only [List.forall_mem_append]
  exact ⟨⟨⟨⟨kept_networkFields cfg, kept_protocolFields cfg h⟩, kept_portFields cfg h 0⟩,
    kept_portFields cfg h 1⟩, kept_lcdFields cfg⟩

end

/-! ## What is left -/

/-- A run of kept fields gives a key the target's value, if one of them sets it or it had the
value before. -/
theorem agrees_foldl_kept {target : NodeConfig} {fields : List (FormField × List UInt8)}
    (hkept : ∀ f ∈ fields, Kept target f) {key : Key} {c : NodeConfig}
    (h : Agrees c target key ∨ ∃ f ∈ fields, f.1.key = key) :
    Agrees (fields.foldl (fun c f => applyField c f.2 f.1) c) target key := by
  refine Assign.foldl_establishes (P := fun c => Agrees c target key) (fun f hf c hc => ?_) ?_
  · by_cases hkey : f.1.key = key
    · exact hkey ▸ (hkept f hf).agrees c
    · exact (agrees_applyField_of_ne (Ne.symm hkey) c f.2).trans hc
  · exact h.imp_right fun ⟨f, hf, hkey⟩ => ⟨f, hf, fun c => hkey ▸ (hkept f hf).agrees c⟩

theorem protocol_foldl (fields : List (FormField × List UInt8)) (c : NodeConfig) (i : Port) :
    ((fields.foldl (fun c f => applyField c f.2 f.1) c).ports i).protocol
      = (c.ports i).protocol := by
  induction fields generalizing c with
  | nil => rfl
  | cons f fields ih => exact (ih _).trans (protocol_applyField c f.2 f.1 i)

/-- What pressing Save makes of a configuration. -/
def resubmitted (cfg : NodeConfig) : NodeConfig :=
  if cfg.addrMode = addrModeDhcp then { cfg with ipAddr := 0, netmask := 0, gateway := 0 }
  else if cfg.addrMode = addrModeSentinel then { cfg with addrMode := addrModeStatic }
  else cfg

/-- The names and values of the unedited page. -/
@[irreducible]
def pagePairs (cfg : NodeConfig) : List (List UInt8 × List UInt8) :=
  submitted (pageBytes (emitHtmlForm cfg))

/-- What is left of the configuration shown is the configuration resubmitted. -/
theorem zeroDhcpAddresses_shownConfig (cfg : NodeConfig) :
    zeroDhcpAddresses (shownConfig cfg) = resubmitted cfg := by
  unfold shownConfig resubmitted
  by_cases hsentinel : cfg.addrMode = addrModeSentinel
  · rw [if_pos hsentinel, if_neg (by rw [hsentinel]; decide)]
    exact zeroDhcpAddresses_of_ne (show addrModeStatic ≠ addrModeDhcp by decide)
  · rw [if_neg hsentinel]
    rfl

/-- **The unedited page** posted for a configuration with its numbers in range. -/
theorem parseFormdata_of_isBody {cfg : NodeConfig} (h : NumbersInRange cfg) {body : List UInt8}
    (hbody : IsBody (pagePairs cfg) body) : parseFormdata body cfg = resubmitted cfg := by
  have hkept := kept_submittedFields cfg h
  have hpairs : pagePairs cfg = (submittedFields cfg).map named := by
    unfold pagePairs
    exact submitted_emitHtmlForm cfg
  have hfits : ∀ pair ∈ pagePairs cfg, FitsForm pair := by
    rw [hpairs, List.forall_mem_map]
    exact fun f hf => (hkept f hf).fits
  obtain ⟨hform, hnul⟩ := formPairs_of_isBody hbody hfits
  -- the pairs that the form parser sees are the fields the page submits
  have hposted : postedFields body cfg
      = (submittedFields cfg).foldl (fun c f => applyField c f.2 f.1) cfg := by
    unfold postedFields
    rw [cstr_of_no_nul hnul, hform, hpairs, List.foldl_map]
    congr 1
    funext c f
    exact applyPair_of_name rfl c
  have hshown : postedFields body cfg = shownConfig cfg := by
    rw [hposted]
    refine eq_of_agrees (fun key => agrees_foldl_kept hkept ?_) fun i => ?_
    · by_cases hkey : key = .addrMode
      · -- a mode that has not been read is shown, and so submitted
        subst hkey
        by_cases hsentinel : cfg.addrMode = addrModeSentinel
        · refine Or.inr ⟨(.addrMode, ascii "static"), ?_, rfl⟩
          simp [submittedFields, networkFields, radioField, hsentinel]
        · refine Or.inl ?_
          show cfg.addrMode = (shownConfig cfg).addrMode
          rw [shownConfig, if_neg hsentinel]
      · exact Or.inl (agrees_shownConfig hkey cfg)
    · rw [protocol_foldl]
      unfold shownConfig
      split_ifs <;> rfl
  rw [parseFormdata_eq, hshown, zeroDhcpAddresses_shownConfig]

/-- A loaded configuration with universes and hold time in range is in range: the loader clamps
the slots. -/
theorem numbersInRange_configLoad {file : Option (List UInt8)}
    (huniverse : ∀ i, 1 ≤ ((configLoad file).2.ports i).dmxUniverse ∧
      ((configLoad file).2.ports i).dmxUniverse ≤ 63999)
    (hhold : (configLoad file).2.dmxHoldTime ≤ 300) : NumbersInRange (configLoad file).2 where
  dmxUniverse := huniverse
  dmxHoldTime := hhold
  slotMonitor i := by
    have hkey : Key.dmxSlotMonitor i ≠ .addrMode := by simp
    exact fieldInRange_loaded hkey (by simp) (by simp) file

/-- **Saving the unedited page changes nothing** but the addresses in DHCP mode and an address mode
that has not been read, for every loaded configuration with its universes and hold time in range. -/
theorem parseFormdata_submitted (file : Option (List UInt8)) (body : List UInt8)
    (huniverse : ∀ i, 1 ≤ ((configLoad file).2.ports i).dmxUniverse ∧
      ((configLoad file).2.ports i).dmxUniverse ≤ 63999)
    (hhold : (configLoad file).2.dmxHoldTime ≤ 300)
    (hbody : IsBody (pagePairs (configLoad file).2) body) :
    parseFormdata body (configLoad file).2 = resubmitted (configLoad file).2 :=
  parseFormdata_of_isBody (numbersInRange_configLoad huniverse hhold) hbody

/-- A file with a static address. -/
def staticMaskFile : List UInt8 :=
  ascii "addr_mode = static" ++ [lf] ++ (ascii "nodeaddr = 10.0.0.1" ++ [lf])
    ++ (ascii "netmask = 255.255.255.0" ++ [lf])

/-- The numbers of the static file are in range. -/
theorem staticMaskFile_inRange :
    (∀ i, 1 ≤ ((configLoad (some staticMaskFile)).2.ports i).dmxUniverse ∧
      ((configLoad (some staticMaskFile)).2.ports i).dmxUniverse ≤ 63999) ∧
      (configLoad (some staticMaskFile)).2.dmxHoldTime ≤ 300 := by
  decide

/-- The form of the static file, posted back unchanged. -/
theorem parseFormdata_submitted_static :
    ∃ body, IsBody (pagePairs (configLoad (some staticMaskFile)).2) body ∧
      parseFormdata body (configLoad (some staticMaskFile)).2
        = resubmitted (configLoad (some staticMaskFile)).2 :=
  ⟨_, isBody_formBody _, parseFormdata_submitted _ _ staticMaskFile_inRange.1
    staticMaskFile_inRange.2 (isBody_formBody _)⟩

/-- A file with DHCP and a mask that DHCP mode does not need. -/
def dhcpMaskFile : List UInt8 :=
  ascii "addr_mode = dhcp" ++ [lf] ++ (ascii "netmask = 255.255.255.0" ++ [lf])

/-- The numbers of the DHCP file are in range. -/
theorem dhcpMaskFile_inRange :
    (∀ i, 1 ≤ ((configLoad (some dhcpMaskFile)).2.ports i).dmxUniverse ∧
      ((configLoad (some dhcpMaskFile)).2.ports i).dmxUniverse ≤ 63999) ∧
      (configLoad (some dhcpMaskFile)).2.dmxHoldTime ≤ 300 := by
  decide

/-- Posting its form back clears the netmask that the DHCP file kept. -/
theorem dhcpMaskFile_resubmitted :
    resubmitted (configLoad (some dhcpMaskFile)).2 ≠ (configLoad (some dhcpMaskFile)).2 := by
  intro heq
  exact absurd (congrArg NodeConfig.netmask heq) (by decide)

/-- In DHCP mode a mask in the file is lost. -/
theorem dhcpMask_zeroed :
    ∃ body, IsBody (pagePairs (configLoad (some dhcpMaskFile)).2) body ∧
      parseFormdata body (configLoad (some dhcpMaskFile)).2
        ≠ (configLoad (some dhcpMaskFile)).2 := by
  have hrange := numbersInRange_configLoad dhcpMaskFile_inRange.1 dhcpMaskFile_inRange.2
  refine ⟨_, isBody_formBody _, ?_⟩
  rw [parseFormdata_of_isBody hrange (isBody_formBody _)]
  exact dhcpMaskFile_resubmitted

end SN110
