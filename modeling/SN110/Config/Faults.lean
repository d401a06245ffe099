import SN110.Config.Strand
import SN110.Lib.Writes
import SN110.Minilib.Stdio

/-!
# Saving when something fails

The saving code opens the file for writing, which empties it, and writes the new text through a
`FILE`. Here the file can fail to open, a `write` can take less than it is given, and the process
can stop between two operations.

* `configSaveWith` and `configSaveStrandWith` are the two functions under such faults, and
  `configSaveInternalWith_complete` and `configSaveInternalWith_failed` say that they are the
  functions of `SN110.Config.Save` when every operation succeeds or the file does not open.
* `foldl_of_touched`: what the file holds once it has been opened.
* `atomicSave_iff`: which faults a save survives.
-/

namespace SN110

open Writes

/-! ## The code -/

/-- How `fopen(path, "w")` ends: with a `FILE`, with a failed `open`, or with a file that is
opened, and so emptied, and no free `FILE` for it. -/
inductive OpenResult where
  | opened
  | failed
  | noSlot
deriving DecidableEq

/-- What goes wrong in a save. -/
structure Faults where
  openResult : OpenResult
  /-- How many bytes write `i` takes at most. -/
  takes : Nat → Nat
  /-- The number of operations on the file after which the process stops. -/
  stop : Option Nat
  /-- The size check of `config_save_strand` can open the file again. -/
  rereads : Bool

/-- What the rewriting loop puts for a piece. -/
def LineAction.puts (config : NodeConfig) (line : List UInt8) : LineAction → Option (List UInt8)
  | .replace key => some (formatKey config key)
  | .drop => none
  | .keep => some line

/-- The texts `_config_save_internal` puts, each with one `fwrite` or `fputs`. -/
def savedTexts (keys : List Key) (skip : Bool) (config : NodeConfig) (old : List UInt8) :
    List (List UInt8) :=
  ((linePieces (existingText old)).filterMap fun line =>
      (lineAction keys skip line).puts config line)
    ++ (missingKeys keys skip old).map (formatKey config)

/-- The blocks of its `write` calls. -/
def savedBlocks (keys : List Key) (skip : Bool) (config : NodeConfig) (old : List UInt8) :
    List (List UInt8) :=
  MiniFile.empty.blocks (savedTexts keys skip config old)

/-- The operations on the file, if the process does not stop. -/
def Faults.ops (faults : Faults) (blocks : List (List UInt8)) : List (FileOp UInt8) :=
  match faults.openResult with
  | .opened => .truncate :: writeOps faults.takes blocks
  | .failed => []
  | .noSlot => [.truncate]

/-- The part of them the process comes to. -/
def Faults.cut (faults : Faults) (ops : List (FileOp UInt8)) : List (FileOp UInt8) :=
  match faults.stop with
  | none => ops
  | some k => ops.take k

/-- `_config_save_internal` under faults; no return value is a process that has stopped. -/
def configSaveInternalWith (faults : Faults) (file : Option (List UInt8)) (config : NodeConfig)
    (keys : List Key) (skip : Bool) : Option Int × Option (List UInt8) :=
  let blocks := savedBlocks (keys.take 20) skip config (file.getD [])
  (if faults.stop.isSome = true then none
    else some (if faults.openResult = .opened then 0 else -1),
    (faults.cut (faults.ops blocks)).foldl FileOp.apply file)

/-- `config_save` under faults. -/
def configSaveWith (faults : Faults) (file : Option (List UInt8)) (config : NodeConfig) :
    Option Int × Option (List UInt8) :=
  configSaveInternalWith faults file config managedKeys false

/-- `config_save_strand` under faults. -/
def configSaveStrandWith (faults : Faults) (file : Option (List UInt8)) (config : NodeConfig) :
    Option Int × Option (List UInt8) :=
  let saved := configSaveInternalWith faults file config strandKeys true
  if saved.1 ≠ some 0 then saved
  else
    match saved.2 with
    | some content =>
      if faults.rereads = true ∧ (content.take (strandMaxSize + 1)).length > strandMaxSize then
        (some (-2), some content)
      else (some 0, some content)
    | none => (some 0, none)

/-! ## The blocks and the text -/

section

variable {keys : List Key} {skip : Bool} {config : NodeConfig} {old : List UInt8}

/-- The texts the saver puts make up the saved text. -/
theorem flatten_savedTexts :
    (savedTexts keys skip config old).flatten = savedText keys skip config old := by
  unfold savedTexts savedText rewritten
  rw [List.flatten_append]
  congr 1
  induction linePieces (existingText old) with
  | nil => rfl
  | cons line lines ih =>
    rw [List.filterMap_cons, List.map_cons, List.flatten_cons, ← ih]
    cases lineAction keys skip line <;> rfl

/-- So do the blocks in which they reach the file. -/
theorem flatten_savedBlocks (keys : List Key) (skip : Bool) (config : NodeConfig)
    (old : List UInt8) :
    (savedBlocks keys skip config old).flatten = savedText keys skip config old := by
  unfold savedBlocks
  rw [MiniFile.flatten_blocks, flatten_savedTexts]
  rfl

/-- No block is empty: only a full buffer or a last rest is written. -/
theorem savedBlocks_ne_nil (keys : List Key) (skip : Bool) (config : NodeConfig)
    (old : List UInt8) : ∀ block ∈ savedBlocks keys skip config old, block ≠ [] :=
  MiniFile.blocks_ne_nil _ _

/-- Every key has its line in the new text. -/
theorem savedText_ne_nil (hkeys : keys ≠ []) : savedText keys skip config old ≠ [] := by
  obtain ⟨key, rest, rfl⟩ := List.exists_cons_of_ne_nil hkeys
  intro hnil
  unfold savedText rewritten at hnil
  obtain ⟨hrewritten, hmissing⟩ := List.append_eq_nil_iff.mp hnil
  rw [List.flatten_eq_nil_iff] at hrewritten hmissing
  have hline : ∀ key, formatKey config key ≠ [] := fun key => by
    rw [formatKey_eq]
    exact keyLine_ne_nil config key
  have hmem : key ∈ key :: rest := List.mem_cons_self
  have hor : key ∈ writtenKeys (key :: rest) skip old ++ missingKeys (key :: rest) skip old :=
    mem_writtenKeys_append_missingKeys hmem
  rcases List.mem_append.mp hor with hwritten | hmiss
  · -- a piece has been replaced by the line
    obtain ⟨line, hpiece, haction⟩ := List.mem_filterMap.mp hwritten
    have htext := hrewritten _ (List.mem_map_of_mem hpiece)
    cases hact : lineAction (key :: rest) skip line with
    | replace key' =>
      rw [hact] at htext
      exact hline key' htext
    | drop => rw [hact] at haction; cases haction
    | keep => rw [hact] at haction; cases haction
  · exact hline key (hmissing _ (List.mem_map_of_mem hmiss))

end

/-! ## What the file holds -/

/-- The file is not emptied: it cannot be opened, or the process stops before. -/
def Faults.Untouched (faults : Faults) : Prop :=
  faults.openResult = .failed ∨ faults.stop = some 0

/-- The file is opened, the process comes to the last block and every write takes its block. -/
def Faults.Complete (faults : Faults) (blocks : List (List UInt8)) : Prop :=
  faults.openResult = .opened ∧ (∀ k ∈ faults.stop, blocks.length < k) ∧
    ∀ i, ∀ block ∈ blocks[i]?, block.length ≤ faults.takes i

/-- The bytes of the blocks that reach the file once it is emptied. -/
def Faults.reached (faults : Faults) (blocks : List (List UInt8)) : List UInt8 :=
  match faults.openResult, faults.stop with
  | .opened, none => taken faults.takes blocks
  | .opened, some k => taken faults.takes (blocks.take (k - 1))
  | _, _ => []

section

variable {faults : Faults} {blocks : List (List UInt8)} {file : Option (List UInt8)}

/-- Where the file was not opened it is as it was. -/
theorem foldl_of_untouched (h : faults.Untouched) :
    (faults.cut (faults.ops blocks)).foldl FileOp.apply file = file := by
  unfold Faults.cut Faults.ops
  rcases h with hfailed | hstop
  · rw [hfailed]
    cases faults.stop <;> simp
  · rw [hstop]
    rfl

/-- Where it was opened it has the blocks that reached it, and nothing of before. -/
theorem foldl_of_touched (h : ¬ faults.Untouched) :
    (faults.cut (faults.ops blocks)).foldl FileOp.apply file
      = some (faults.reached blocks) := by
  unfold Faults.Untouched at h
  rw [not_or] at h
  unfold Faults.cut Faults.ops Faults.reached
  -- with no `FILE` the file is emptied and nothing is written
  cases hopen : faults.openResult with
  | failed => exact absurd hopen h.1
  | noSlot =>
    cases hstop : faults.stop with
    | none => rfl
    | some k =>
      cases k with
      | zero => exact absurd hstop h.2
      | succ k => simp [FileOp.apply]
  | opened =>
    cases hstop : faults.stop with
    | none =>
      show (writeOps faults.takes blocks).foldl FileOp.apply (some []) = _
      rw [foldl_writeOps, List.nil_append]
    | some k =>
      have hk : k ≠ 0 := fun hzero => h.2 (by rw [hstop, hzero])
      dsimp only
      rw [foldl_fileOps_take, if_neg hk]

/-- **The new text is whole** exactly when nothing went wrong. -/
theorem reached_eq_iff (hne : ∀ block ∈ blocks, block ≠ []) (htext : blocks.flatten ≠ [])
    (h : ¬ faults.Untouched) :
    faults.reached blocks = blocks.flatten ↔ faults.Complete blocks := by
  unfold Faults.Untouched at h
  rw [not_or] at h
  unfold Faults.reached Faults.Complete
  cases hopen : faults.openResult with
  | failed => exact absurd hopen h.1
  | noSlot => exact iff_of_false (Ne.symm htext) (fun hc => OpenResult.noConfusion hc.1)
  | opened =>
    cases hstop : faults.stop with
    | none =>
      -- a process that does not stop comes to all the blocks
      have hall := taken_take_eq_flatten_iff hne faults.takes blocks.length
      rw [List.take_length] at hall
      simp [hall]
    | some k =>
      have hk : k ≠ 0 := fun hzero => h.2 (by rw [hstop, hzero])
      dsimp only
      rw [taken_take_eq_flatten_iff hne]
      simp only [true_and, Option.mem_def, Option.some.injEq, forall_eq', and_congr_left_iff]
      intro _
      omega

end

/-- When every operation succeeds, the save is the one without faults. -/
theorem configSaveInternalWith_complete {faults : Faults} {keys : List Key} {skip : Bool}
    (file : Option (List UInt8)) (config : NodeConfig) (hstop : faults.stop = none)
    (hkeys : keys.take 20 ≠ [])
    (h : faults.Complete (savedBlocks (keys.take 20) skip config (file.getD []))) :
    configSaveInternalWith faults file config keys skip
      = Prod.map some id (configSaveInternal true file config keys skip) := by
  -- opened and not stopped, so the file is emptied and then holds what is written
  have huntouched : ¬ faults.Untouched := by
    rintro (hfailed | hzero)
    · rw [h.1] at hfailed
      cases hfailed
    · rw [hstop] at hzero
      cases hzero
  have hflat := flatten_savedBlocks (keys.take 20) skip config (file.getD [])
  have hwhole := (reached_eq_iff (savedBlocks_ne_nil _ _ _ _)
    (hflat ▸ savedText_ne_nil hkeys) huntouched).mpr h
  unfold configSaveInternalWith
  dsimp only
  rw [foldl_of_touched huntouched, hwhole, hflat, hstop, h.1]
  rfl

/-- When the file does not open, too. -/
theorem configSaveInternalWith_failed {faults : Faults} (file : Option (List UInt8))
    (config : NodeConfig) (keys : List Key) (skip : Bool) (hstop : faults.stop = none)
    (h : faults.openResult = .failed) :
    configSaveInternalWith faults file config keys skip
      = Prod.map some id (configSaveInternal false file config keys skip) := by
  unfold configSaveInternalWith
  dsimp only
  rw [foldl_of_untouched (Or.inl h), hstop, h]
  rfl

/-! ## Saving is not atomic -/

/-- The file holds the old contents or the whole of the new ones, and only the whole of the new
ones is reported as success. -/
structure AtomicSave (outcome : Option Int × Option (List UInt8)) (file : Option (List UInt8))
    (new : List UInt8) : Prop where
  whole : outcome.2 = file ∨ outcome.2 = some new
  success : outcome.1 = some 0 → outcome.2 = some new

/-- A save, with whatever return value, survives its faults if the file is not emptied, or nothing
goes wrong, or the bytes that reach the file are the old contents and it is no success. -/
theorem atomicSave_iff {faults : Faults} {blocks : List (List UInt8)}
    {file : Option (List UInt8)} {ret : Option Int}
    (hne : ∀ block ∈ blocks, block ≠ []) (htext : blocks.flatten ≠ [])
    (hret : faults.Untouched → ret ≠ some 0) :
    AtomicSave (ret, (faults.cut (faults.ops blocks)).foldl FileOp.apply file) file
        blocks.flatten ↔
      faults.Untouched ∨ faults.Complete blocks ∨
        (some (faults.reached blocks) = file ∧ ret ≠ some 0) := by
  by_cases huntouched : faults.Untouched
  · refine iff_of_true ⟨Or.inl (foldl_of_untouched huntouched), fun hsuccess => ?_⟩
      (Or.inl huntouched)
    exact absurd hsuccess (hret huntouched)
  · have hcomplete := reached_eq_iff hne htext huntouched
    constructor
    · rintro ⟨hwhole, hsuccess⟩
      dsimp only at hwhole hsuccess
      rw [foldl_of_touched huntouched, Option.some.injEq] at hwhole hsuccess
      refine Or.inr ?_
      -- the old contents may be there because the new ones are the same, or because a write was cut
      rcases hwhole with hold | hnew
      · by_cases hzero : ret = some 0
        · exact Or.inl (hcomplete.mp (hsuccess hzero))
        · exact Or.inr ⟨hold, hzero⟩
      · exact Or.inl (hcomplete.mp hnew)
    · intro hcond
      have hafter : (faults.cut (faults.ops blocks)).foldl FileOp.apply file
          = some (faults.reached blocks) := foldl_of_touched huntouched
      rcases hcond with hun | hall | ⟨hold, hzero⟩
      · exact absurd hun huntouched
      · have hnew := hcomplete.mpr hall
        exact ⟨Or.inr (by rw [hafter, hnew]), fun _ => by rw [hafter, hnew]⟩
      · exact ⟨Or.inl (by rw [hafter, hold]), fun hsuccess => absurd hsuccess hzero⟩

/-- The process has stopped, or there was no `FILE`. -/
def Faults.Unreported (faults : Faults) : Prop :=
  faults.stop.isSome = true ∨ faults.openResult ≠ .opened

/-- A save that did not touch the file did not return 0. -/
theorem Faults.Untouched.unreported {faults : Faults} (h : faults.Untouched) :
    faults.Unreported := by
  rcases h with hfailed | hstop
  · exact Or.inr (by rw [hfailed]; decide)
  · exact Or.inl (by rw [hstop]; rfl)

/-- A save returns other than 0 exactly when it stopped or did not open the file. -/
theorem ret_ne_zero_iff (faults : Faults) :
    (if faults.stop.isSome = true then none
      else some (if faults.openResult = .opened then (0 : Int) else -1)) ≠ some 0 ↔
      faults.Unreported := by
  unfold Faults.Unreported
  split_ifs with hstop hopen <;> simp [*]

/-- The blocks that `config_save_strand` writes. -/
def strandBlocks (config : NodeConfig) (old : List UInt8) : List (List UInt8) :=
  savedBlocks strandKeys true config old

/-- The size check finds a file that is too large. -/
def Faults.Refused (faults : Faults) (blocks : List (List UInt8)) : Prop :=
  faults.rereads = true ∧ strandMaxSize < (faults.reached blocks).length

/-- The size check does not touch the file, and refuses only what would be reported. -/
theorem configSaveStrandWith_spec (faults : Faults) (file : Option (List UInt8))
    (config : NodeConfig) :
    (configSaveStrandWith faults file config).2
        = (faults.cut (faults.ops (strandBlocks config (file.getD [])))).foldl FileOp.apply file ∧
      ((configSaveStrandWith faults file config).1 ≠ some 0 ↔
        faults.Unreported ∨ faults.Refused (strandBlocks config (file.getD []))) := by
  have hret := ret_ne_zero_iff faults
  unfold configSaveStrandWith
  by_cases hreported : faults.Unreported
  · have hne : (configSaveInternalWith faults file config strandKeys true).1 ≠ some 0 :=
      hret.mpr hreported
    simp only [if_pos hne]
    exact ⟨rfl, iff_of_true hne (Or.inl hreported)⟩
  · have hzero : (configSaveInternalWith faults file config strandKeys true).1 = some 0 :=
      not_not.mp (mt hret.mp hreported)
    have hafter : (configSaveInternalWith faults file config strandKeys true).2
        = some (faults.reached (strandBlocks config (file.getD []))) :=
      foldl_of_touched (mt Faults.Untouched.unreported hreported)
    have hfold : (faults.cut (faults.ops (strandBlocks config (file.getD [])))).foldl FileOp.apply
        file = some (faults.reached (strandBlocks config (file.getD []))) := hafter
    rw [hfold]
    simp only [hzero, ne_eq, not_true, if_false, hafter]
    -- the check reads one byte more than the bound, which is enough to see that it is passed
    have hcheck : (faults.rereads = true ∧
        ((faults.reached (strandBlocks config (file.getD []))).take (strandMaxSize + 1)).length
          > strandMaxSize) ↔ faults.Refused (strandBlocks config (file.getD [])) := by
      unfold Faults.Refused
      rw [List.length_take]
      exact and_congr_right fun _ => by omega
    by_cases hrefused : faults.Refused (strandBlocks config (file.getD []))
    · rw [if_pos (hcheck.mpr hrefused)]
      exact ⟨rfl, iff_of_true (by simp) (Or.inr hrefused)⟩
    · rw [if_neg (mt hcheck.mp hrefused)]
      exact ⟨rfl, iff_of_false (by simp) (not_or.mpr ⟨hreported, hrefused⟩)⟩

/-- **What a save survives.** The file is not opened for writing, or all of the new text reaches
it, or what reaches it is its old contents and the call does not report success. -/
theorem save_atomic_iff (faults : Faults) (file : Option (List UInt8)) (config : NodeConfig) :
    (AtomicSave (configSaveWith faults file config) file (savedConfig config (file.getD [])) ↔
      faults.Untouched ∨ faults.Complete (savedBlocks managedKeys false config (file.getD [])) ∨
        (some (faults.reached (savedBlocks managedKeys false config (file.getD []))) = file ∧
          faults.Unreported)) ∧
    (AtomicSave (configSaveStrandWith faults file config) file
        (savedStrand config (file.getD [])) ↔
      faults.Untouched ∨ faults.Complete (strandBlocks config (file.getD [])) ∨
        (some (faults.reached (strandBlocks config (file.getD []))) = file ∧
          (faults.Unreported ∨ faults.Refused (strandBlocks config (file.getD []))))) := by
  constructor
  · have htext : (savedBlocks managedKeys false config (file.getD [])).flatten
        = savedConfig config (file.getD []) := flatten_savedBlocks _ _ _ _
    have hne : savedConfig config (file.getD []) ≠ [] := savedText_ne_nil (by decide)
    rw [← htext] at hne ⊢
    rw [← ret_ne_zero_iff]
    exact atomicSave_iff (savedBlocks_ne_nil _ _ _ _) hne
      fun hun => (ret_ne_zero_iff faults).mpr hun.unreported
  · have htext : (strandBlocks config (file.getD [])).flatten
        = savedStrand config (file.getD []) := flatten_savedBlocks _ _ _ _
    have hne : savedStrand config (file.getD []) ≠ [] := savedText_ne_nil (by decide)
    -- the strand saver reports the size as well, so its result is not 0 in more cases
    obtain ⟨hafter, hret⟩ := configSaveStrandWith_spec faults file config
    rw [← htext] at hne ⊢
    rw [← hret]
    have heta : configSaveStrandWith faults file config
        = ((configSaveStrandWith faults file config).1,
          (faults.cut (faults.ops (strandBlocks config (file.getD [])))).foldl FileOp.apply file) :=
      Prod.ext rfl hafter
    rw [heta]
    exact atomicSave_iff (savedBlocks_ne_nil _ _ _ _) hne
      fun hun => hret.mpr (Or.inl hun.unreported)

/-! ## Two faults no save survives -/

/-- A disk without room, and nothing else wrong. -/
def fullDisk : Faults where
  openResult := .opened
  takes := fun _ => 0
  stop := none
  rereads := true

/-- The process stops when it has opened the file. -/
def stopAfterOpen : Faults where
  openResult := .opened
  takes := fun _ => miniFileBufsz
  stop := some 1
  rereads := true

/-- A full disk leaves an empty file, and the call reports success. -/
theorem configSaveWith_fullDisk (file : Option (List UInt8)) (config : NodeConfig) :
    configSaveWith fullDisk file config = (some 0, some []) := by
  have hnone : ∀ (takes : Nat → Nat) (blocks : List (List UInt8)), (∀ i, takes i = 0) →
      taken takes blocks = [] := by
    intro takes blocks htakes
    induction blocks generalizing takes with
    | nil => rfl
    | cons block blocks ih =>
      show block.take (takes 0) ++ taken _ blocks = []
      rw [htakes, List.take_zero, ih _ fun i => htakes (i + 1)]
      rfl
  have huntouched : ¬ fullDisk.Untouched := by
    rintro (h | h) <;> cases h
  refine Prod.ext rfl ((foldl_of_touched huntouched).trans ?_)
  exact congrArg some (hnone _ _ fun _ => rfl)

/-- Stopped behind the open, the saver leaves an empty file. -/
theorem configSaveWith_stopAfterOpen (file : Option (List UInt8)) (config : NodeConfig) :
    configSaveWith stopAfterOpen file config = (none, some []) := rfl

/-- Over a one-line file, a stop after the open and a full disk each leave neither the old nor the
new contents; on the full disk the save even returns 0. -/
theorem fullDisk_reports_success :
    ¬ AtomicSave (configSaveWith stopAfterOpen (some (ascii "boottest = 1" ++ [lf])) siteConfig)
        (some (ascii "boottest = 1" ++ [lf]))
        (savedConfig siteConfig (ascii "boottest = 1" ++ [lf])) ∧
      (configSaveWith fullDisk (some (ascii "boottest = 1" ++ [lf])) siteConfig).1 = some 0 ∧
      ¬ AtomicSave (configSaveWith fullDisk (some (ascii "boottest = 1" ++ [lf])) siteConfig)
        (some (ascii "boottest = 1" ++ [lf]))
        (savedConfig siteConfig (ascii "boottest = 1" ++ [lf])) := by
  have hold : some [] ≠ some (ascii "boottest = 1" ++ [lf]) := by decide
  have hnew : some [] ≠ some (savedConfig siteConfig (ascii "boottest = 1" ++ [lf])) :=
    fun h => savedText_ne_nil (by decide) (Option.some.inj h).symm
  rw [configSaveWith_stopAfterOpen, configSaveWith_fullDisk]
  exact ⟨fun h => h.whole.elim hold hnew, rfl, fun h => h.whole.elim hold hnew⟩

end SN110
