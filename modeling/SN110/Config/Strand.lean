import SN110.Config.RoundTrip

/-!
# The file for the node's flash

`config_save_strand` refuses a file of more than `STRAND_MAX_SIZE` bytes, after it has written it.
What it accepts sets the twelve Strand keys and no other managed key, unless the old file's end is
not harmless.

* `length_savedText`: the size of the new file, added up from the old text's pieces and the
  configuration's values.
* `strandSafe_iff`: which old files give a safe one.
-/

namespace SN110

/-- What a file for the flash has to be. -/
structure StrandSafe (content : List UInt8) (config : NodeConfig) : Prop where
  size : content.length ≤ strandMaxSize
  only : ∀ kv ∈ settings content, kv.1 ∈ strandKeys
  every : ∀ key ∈ strandKeys, ∃ kv ∈ settings content, kv.1 = key
  value : ∀ kv ∈ settings content, kv.1 ∈ strandKeys → kv = setting config kv.1

/-! ## The size of the new file -/

/-- The length of a key's line. -/
def lineSize (config : NodeConfig) (key : Key) : Nat :=
  key.name.length + (formatValue config key).length + 4

/-- What a piece of the old text adds to the new file. -/
def LineAction.size (config : NodeConfig) (line : List UInt8) : LineAction → Nat
  | .replace key => lineSize config key
  | .drop => 0
  | .keep => line.length

/-- The size of the new file. -/
def savedSize (keys : List Key) (skip : Bool) (config : NodeConfig) (old : List UInt8) : Nat :=
  ((linePieces (existingText old)).map fun line =>
      (lineAction keys skip line).size config line).sum
    + ((missingKeys keys skip old).map (lineSize config)).sum

/-- The size computed for a key's line is its length. -/
theorem length_formatKey (config : NodeConfig) (key : Key) :
    (formatKey config key).length = lineSize config key := by
  rw [formatKey_eq, length_keyLine]
  rfl

/-- The size computed for a save is the length of its text. -/
theorem length_savedText (keys : List Key) (skip : Bool) (config : NodeConfig)
    (old : List UInt8) :
    (savedText keys skip config old).length = savedSize keys skip config old := by
  unfold savedText savedSize rewritten
  rw [List.length_append, List.length_flatten, List.length_flatten, List.map_map, List.map_map]
  congr 2
  · refine List.map_congr_left fun line _ => ?_
    show ((lineAction keys skip line).text config line).length = _
    cases lineAction keys skip line with
    | replace key => exact length_formatKey config key
    | drop => rfl
    | keep => rfl
  · exact List.map_congr_left fun key _ => length_formatKey config key

/-! ## The Strand keys -/

section

variable {config : NodeConfig} {old : List UInt8}

/-- A save with its tail in order and at most 2048 bytes is safe. -/
theorem strandSafe_of_tailOk (h : CleanText config) (htail : TailOk strandKeys true old)
    (hsize : (savedStrand config old).length ≤ strandMaxSize) :
    StrandSafe (savedStrand config old) config := by
  have hsettings := settings_savedText_of_tailOk managesLines_strand h htail
  refine ⟨hsize, fun kv hkv => ?_, fun key hkey => ?_, fun kv hkv _ => ?_⟩
  · unfold savedStrand at hkv
    rw [hsettings] at hkv
    obtain ⟨key, hmem, rfl⟩ := List.mem_map.mp hkv
    rcases List.mem_append.mp hmem with hwritten | hmissing
    · exact mem_keys_of_writtenKeys hwritten
    · exact (List.mem_filter.mp hmissing).1
  · refine ⟨setting config key, ?_, rfl⟩
    unfold savedStrand
    rw [hsettings]
    exact List.mem_map_of_mem (mem_writtenKeys_append_missingKeys hkey)
  · unfold savedStrand at hkv
    rw [hsettings] at hkv
    obtain ⟨key, -, rfl⟩ := List.mem_map.mp hkv
    rfl

/-- With its tail out of order it is not. -/
theorem not_strandSafe_of_not_tailOk (h : CleanText config)
    (htail : ¬ TailOk strandKeys true old) : ¬ StrandSafe (savedStrand config old) config := by
  intro hsafe
  obtain ⟨key, hkey, hlost⟩ := exists_lost_of_not_tailOk managesLines_strand htail
  -- some line sets the key, and to the configuration's value
  obtain ⟨kv, hmem, rfl⟩ := hsafe.every key hkey
  have hvalue := hsafe.value kv hmem hkey
  exact (hlost config h kv.2 hmem).ne (congrArg Prod.snd hvalue)

/-- So a save is safe exactly when it fits and its tail is in order. -/
theorem strandSafe_iff (h : CleanText config) :
    StrandSafe (savedStrand config old) config ↔
      savedSize strandKeys true config old ≤ strandMaxSize ∧ TailOk strandKeys true old := by
  have hlen : (savedStrand config old).length = savedSize strandKeys true config old :=
    length_savedText strandKeys true config old
  constructor
  · intro hsafe
    exact ⟨hlen ▸ hsafe.size, by_contra fun htail => not_strandSafe_of_not_tailOk h htail hsafe⟩
  · rintro ⟨hsize, htail⟩
    exact strandSafe_of_tailOk h htail (hlen ▸ hsize)

end

/-! ## What is accepted -/

/-- A file that is too large is refused, but it is written. -/
theorem configSaveStrand_refused {file : Option (List UInt8)} {config : NodeConfig}
    (h : strandMaxSize < savedSize strandKeys true config (file.getD [])) :
    configSaveStrand true file config = (-2, some (savedStrand config (file.getD []))) := by
  rw [configSaveStrand_writable, if_pos]
  rw [← length_savedText] at h
  exact h

/-- An accepted file is safe for the flash. -/
def AcceptsOnlySafe (writable : Bool) (file : Option (List UInt8)) (config : NodeConfig) : Prop :=
  (configSaveStrand writable file config).1 = 0 →
    ∃ content, (configSaveStrand writable file config).2 = some content ∧
      StrandSafe content config

/-- **When an accepted file is safe for the flash**: if the old file's end is harmless, or the
new file is too large to be accepted. -/
theorem configSaveStrand_safe_iff (writable : Bool) (file : Option (List UInt8))
    (config : NodeConfig) (h : CleanText config) :
    AcceptsOnlySafe writable file config ↔
      (writable = true → savedSize strandKeys true config (file.getD []) ≤ strandMaxSize →
        TailOk strandKeys true (file.getD [])) := by
  have hlen : (savedStrand config (file.getD [])).length
      = savedSize strandKeys true config (file.getD []) :=
    length_savedText strandKeys true config (file.getD [])
  unfold AcceptsOnlySafe
  cases writable with
  | false =>
    refine iff_of_true (fun hret => ?_) (fun hw => Bool.noConfusion hw)
    change (-1 : Int) = 0 at hret
    exact absurd hret (by decide)
  | true =>
    rw [configSaveStrand_writable, hlen]
    dsimp only
    -- the size decides what is accepted, and the end of the old file what is safe
    by_cases hsize : savedSize strandKeys true config (file.getD []) ≤ strandMaxSize
    · rw [if_neg (by omega)]
      constructor
      · intro hsafe _ _
        obtain ⟨content, heq, hsafe⟩ := hsafe rfl
        obtain rfl := Option.some.inj heq
        exact ((strandSafe_iff h).mp hsafe).2
      · intro htail _
        exact ⟨_, rfl, (strandSafe_iff h).mpr ⟨hsize, htail rfl hsize⟩⟩
    · -- the file is refused
      rw [if_pos (by omega)]
      exact iff_of_true (fun hret => absurd hret (by decide)) (fun _ hle => absurd hle hsize)

/-- The example save is accepted and safe. -/
theorem configSaveStrand_safe_siteConfig :
    AcceptsOnlySafe true (some (ascii "boottest = 1" ++ [lf])) siteConfig :=
  (configSaveStrand_safe_iff true _ siteConfig persistable_siteConfig.clean).mpr
    fun _ _ => by decide

/-- An old file that ends inside a setting: the first line appended becomes the setting's value,
and the file sets an extension key. -/
theorem openTail_sets_extensionKey :
    CleanText siteConfig ∧
      (configSaveStrand true (some (ascii "lcd_contrast =")) siteConfig).1 = 0 ∧
      (∃ kv ∈ settings (savedStrand siteConfig (ascii "lcd_contrast =")), kv.1 = .lcdContrast) ∧
      ¬ AcceptsOnlySafe true (some (ascii "lcd_contrast =")) siteConfig := by
  have haccept : (configSaveStrand true (some (ascii "lcd_contrast =")) siteConfig).1 = 0 := by
    have hlen : (savedStrand siteConfig (ascii "lcd_contrast =")).length = _ :=
      length_savedText strandKeys true siteConfig (ascii "lcd_contrast =")
    rw [configSaveStrand_writable, Option.getD_some, hlen]
    decide
  refine ⟨persistable_siteConfig.clean, haccept, ?_, fun hsafe => ?_⟩
  · -- the joined line is `lcd_contrast =nodeaddr = 192.168.0.71`
    have hjoined : ∃ kv ∈ settings (ascii "lcd_contrast =" ++ keyLine siteConfig .nodeaddr),
        kv.1 = .lcdContrast := by decide
    obtain ⟨kv, hmem, hkey⟩ := hjoined
    refine ⟨kv, ?_, hkey⟩
    have hopen : openTail strandKeys true (ascii "lcd_contrast =")
        = some (ascii "lcd_contrast =") := by decide
    have hmissing : missingKeys strandKeys true (ascii "lcd_contrast =")
        = .nodeaddr :: strandKeys.tail := by decide
    unfold savedStrand
    rw [settings_savedText_open managesLines_strand persistable_siteConfig.clean hopen hmissing]
    exact List.mem_append_left _ (List.mem_append_right _ hmem)
  · obtain ⟨content, heq, hsafe⟩ := hsafe haccept
    rw [configSaveStrand_writable] at heq
    rw [← Option.some.inj heq] at hsafe
    exact not_strandSafe_of_not_tailOk persistable_siteConfig.clean (by decide) hsafe

end SN110
