import SN110.Config.Strand
import SN110.Config.Preserve

/-!
# The firmware's own file

A file of lines that earlier calls have written is read back line by line, and each line is put in
place again. So the file says nothing of its history: after any run of `config_save` calls from an
absent file it holds the lines of the last configuration, in the order of `managed_keys`.

* `savedText_keyLines`: saving over the lines of another configuration.
* `configSave_history`: a run of calls.
-/

namespace SN110

open Lines Pieces

/-- The lines of some keys, one behind the other. -/
def keyLines (config : NodeConfig) (keys : List Key) : List UInt8 :=
  (keys.map (keyLine config)).flatten

/-- The lines of the keys have no NUL. -/
theorem keyLines_no_nul (config : NodeConfig) (keys : List Key) : 0 ∉ keyLines config keys := by
  intro hmem
  obtain ⟨line, hline, hzero⟩ := List.mem_flatten.mp hmem
  obtain ⟨key, -, rfl⟩ := List.mem_map.mp hline
  exact keyLine_no_nul config key hzero

/-- Each line has 65 bytes at most. -/
theorem length_keyLines_le (config : NodeConfig) (keys : List Key) :
    (keyLines config keys).length ≤ 65 * keys.length := by
  induction keys with
  | nil => exact Nat.le_refl 0
  | cons key keys ih =>
    have hline := length_keyLine_le config key
    show (keyLine config key ++ keyLines config keys).length ≤ _
    rw [List.length_append, List.length_cons]
    omega

section

variable {keys : List Key} {skip : Bool}

/-- A line with a key of the list is replaced, with its newline or without. -/
theorem lineAction_name {key : Key} (h : key ∈ keys) (skip : Bool) {value : List UInt8}
    (hnul : 0 ∉ value) :
    lineAction keys skip (key.name ++ (space :: equals :: space :: value)) = .replace key := by
  have hroom : ([] : List UInt8).length + key.name.length + 1 ≤ 63 := by
    have := key.length_name_le
    rw [List.length_nil]
    omega
  have hscan := scanLine_blanks_name key (List.forall_mem_nil _) hroom hnul
  rw [List.nil_append] at hscan
  unfold lineAction
  rw [hscan]
  dsimp only
  rw [findKey_eq_some.mpr ⟨h, rfl⟩]

/-- The line of a key on the list is replaced. -/
theorem lineAction_keyLine {key : Key} (h : key ∈ keys) (skip : Bool) (config : NodeConfig) :
    lineAction keys skip (keyLine config key) = .replace key := by
  have hnul : 0 ∉ formatValue config key ++ [lf] := by
    rw [List.mem_append, not_or]
    exact ⟨formatValue_no_nul config key, by decide⟩
  exact lineAction_name h skip hnul

/-- A text all of whose lines are replaced becomes the lines of the keys found and missing. -/
theorem savedText_of_replaced {old : List UInt8}
    (h : ∀ line ∈ linePieces (existingText old), ∃ key, lineAction keys skip line = .replace key)
    (config : NodeConfig) :
    savedText keys skip config old
      = keyLines config (writtenKeys keys skip old ++ missingKeys keys skip old) := by
  have hrewritten : rewritten keys skip config old
      = keyLines config (writtenKeys keys skip old) := by
    unfold rewritten writtenKeys
    generalize linePieces (existingText old) = lines at h
    induction lines with
    | nil => rfl
    | cons line lines ih =>
      rw [List.forall_mem_cons] at h
      obtain ⟨key, hkey⟩ := h.1
      rw [List.map_cons, List.flatten_cons, ih h.2, List.filterMap_cons, hkey]
      show formatKey config key ++ _ = keyLine config key ++ _
      rw [formatKey_eq]
      rfl
  unfold savedText
  rw [hrewritten, List.map_congr_left fun key _ => formatKey_eq config key]
  unfold keyLines
  rw [List.map_append, List.flatten_append]

/-- A new file has the list's keys in their order. -/
theorem savedText_nil (keys : List Key) (skip : Bool) (config : NodeConfig) :
    savedText keys skip config [] = keyLines config keys := by
  have hwritten : writtenKeys keys skip [] = [] := rfl
  have hmissing : missingKeys keys skip [] = keys := by
    unfold missingKeys
    rw [hwritten]
    exact List.filter_eq_self.mpr fun key _ => decide_eq_true List.not_mem_nil
  rw [savedText_of_replaced (fun _ hline => absurd hline List.not_mem_nil), hwritten, hmissing,
    List.nil_append]

/-- The lines of the keys fit the saver's buffer, so all are read. -/
theorem existingText_keyLines {config : NodeConfig} (h : (keyLines config keys).length ≤ 2047) :
    existingText (keyLines config keys) = keyLines config keys := by
  unfold existingText
  rw [List.take_of_length_le h, cstr_of_no_nul (keyLines_no_nul config keys)]

/-- They are read back one by one. -/
theorem linePieces_keyLines {config : NodeConfig} (h : CleanText config) (keys : List Key) :
    linePieces (keyLines config keys) = keys.map (keyLine config) := by
  refine linePieces_flatten fun line hline => ?_
  obtain ⟨key, -, rfl⟩ := List.mem_map.mp hline
  exact keyLine_isPiece h key

/-- **Saving over the lines of another configuration** puts each line in place, and has no other
line to keep or to append. -/
theorem savedText_keyLines {old : NodeConfig} (h : CleanText old)
    (hlen : (keyLines old keys).length ≤ 2047) (skip : Bool) (config : NodeConfig) :
    savedText keys skip config (keyLines old keys) = keyLines config keys := by
  have hpieces : linePieces (existingText (keyLines old keys)) = keys.map (keyLine old) := by
    rw [existingText_keyLines hlen, linePieces_keyLines h]
  have hreplace : ∀ key ∈ keys, lineAction keys skip (keyLine old key) = .replace key :=
    fun key hkey => lineAction_keyLine hkey skip old
  have hwritten : writtenKeys keys skip (keyLines old keys) = keys := by
    unfold writtenKeys
    rw [hpieces, List.filterMap_map]
    have hsome : ∀ key ∈ keys, (lineAction keys skip (keyLine old key)).written = some key :=
      fun key hkey => by rw [hreplace key hkey]; rfl
    exact (List.filterMap_congr hsome).trans List.filterMap_some
  -- every key was written by the loop, so none is appended
  have hmissing : missingKeys keys skip (keyLines old keys) = [] := by
    unfold missingKeys
    rw [hwritten]
    exact List.filter_eq_nil_iff.mpr fun key hkey => by simpa using hkey
  rw [savedText_of_replaced, hwritten, hmissing, List.append_nil]
  rw [hpieces]
  intro line hline
  obtain ⟨key, hkey, rfl⟩ := List.mem_map.mp hline
  exact ⟨key, hreplace key hkey⟩

end

/-! ## Runs of `config_save` -/

/-- The file after some calls of `config_save`, each of which could write it. -/
def configSaves (file : Option (List UInt8)) (configs : List NodeConfig) :
    Option (List UInt8) :=
  configs.foldl (fun file config => (configSave true file config).2) file

/-- What the firmware's own file has to be. -/
structure OwnFile (config : NodeConfig) (content : List UInt8) : Prop where
  lines : lines lf content = managedKeys.map (keyLine config)
  terminated : ∀ line ∈ Lines.lines lf content, IsLine lf line
  single : (configSave true none config).2 = some content
  size : content.length ≤ 2047

/-- All managed keys' lines together fit the buffer. -/
theorem length_managedLines_le (config : NodeConfig) :
    (keyLines config managedKeys).length ≤ 2047 :=
  (length_keyLines_le config managedKeys).trans (by decide)

/-- The lines of the managed keys are a file of the saver's own. -/
theorem ownFile_keyLines {config : NodeConfig} (h : CleanText config) :
    OwnFile config (keyLines config managedKeys) := by
  -- each key's line is one line, so the file's lines are those
  have hlines : lines lf (keyLines config managedKeys) = managedKeys.map (keyLine config) := by
    have hall : ∀ line ∈ managedKeys.map (keyLine config), IsLine lf line := by
      intro line hline
      obtain ⟨key, -, rfl⟩ := List.mem_map.mp hline
      exact isLine_keyLine h key
    have hflatten := lines_flatten_append hall []
    rwa [List.append_nil, show lines lf ([] : List UInt8) = [] from rfl, List.append_nil]
      at hflatten
  refine ⟨hlines, fun line hline => ?_, ?_, length_managedLines_le config⟩
  · rw [hlines] at hline
    obtain ⟨key, -, rfl⟩ := List.mem_map.mp hline
    exact isLine_keyLine h key
  · exact congrArg some (savedText_nil managedKeys false config)

/-- After a call the file holds the lines of its configuration, if before it was absent or held
the lines of another one. -/
theorem configSaves_concat {configs : List NodeConfig} (h : ∀ config ∈ configs, CleanText config)
    (config : NodeConfig) :
    configSaves none (configs ++ [config]) = some (keyLines config managedKeys) := by
  induction configs using List.reverseRecOn generalizing config with
  | nil => exact congrArg some (savedText_nil managedKeys false config)
  | append_singleton configs last ih =>
    have hlast : CleanText last := h last (List.mem_append_right _ List.mem_cons_self)
    have hbefore := ih (fun c hc => h c (List.mem_append_left _ hc)) last
    unfold configSaves at hbefore ⊢
    rw [List.foldl_append, hbefore]
    exact congrArg some
      (savedText_keyLines hlast (length_managedLines_le last) false config)

/-- **The file forgets its history.** After every run of successful calls from an absent file, the
file is what a single call with the last configuration writes: the lines of all the keys in their
order. -/
theorem configSave_history (configs : List NodeConfig) (config : NodeConfig)
    (h : ∀ c ∈ configs ++ [config], CleanText c) :
    ∃ content, configSaves none (configs ++ [config]) = some content ∧
      OwnFile config content := by
  have hlast : CleanText config := h config (List.mem_append_right _ List.mem_cons_self)
  exact ⟨keyLines config managedKeys,
    configSaves_concat (fun c hc => h c (List.mem_append_left _ hc)) config,
    ownFile_keyLines hlast⟩

/-- `configSave_history` on two saves, the second of the example configuration. -/
theorem configSave_history_siteConfig :
    ∃ content, configSaves none ([farSlotConfig] ++ [siteConfig]) = some content ∧
      OwnFile siteConfig content :=
  configSave_history [farSlotConfig] siteConfig (by decide)

end SN110
