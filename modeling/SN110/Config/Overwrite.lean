import SN110.Config.History

/-!
# Saving again

A save puts the lines of its keys where the lines of the keys were and behind the rest. So the next
save finds a line for every key, and what it leaves is what it would have left without the save
before it.

* `savedText_overwrites`: two saves, for both lists of keys.
* `configSaves_overwrite`: a run of saves over any file that fits the buffer.
-/

namespace SN110

open Pieces

section

variable {keys : List Key} {skip : Bool} {first : NodeConfig} {old : List UInt8}

/-- A saved file is a C string. -/
theorem savedText_no_nul (keys : List Key) (skip : Bool) (config : NodeConfig) (old : List UInt8) :
    0 ∉ savedText keys skip config old := by
  rw [savedText_eq, List.mem_append, not_or]
  constructor
  · intro hmem
    obtain ⟨p, hp, hzero⟩ := List.mem_flatten.mp hmem
    obtain ⟨line, hline, hout⟩ := List.mem_filterMap.mp hp
    -- a piece is written as a key's line, as it was read, or not at all
    cases hact : lineAction keys skip line with
    | replace key =>
      rw [outPiece_replace hact] at hout
      obtain rfl := Option.some.inj hout
      exact keyLine_no_nul config key hzero
    | drop =>
      rw [outPiece_drop hact] at hout
      cases hout
    | keep =>
      rw [outPiece_keep hact] at hout
      obtain rfl := Option.some.inj hout
      exact no_nul_of_mem_linePieces (existingText_no_nul old) hline hzero
  · intro hmem
    obtain ⟨p, hp, hzero⟩ := List.mem_flatten.mp hmem
    obtain ⟨key, -, rfl⟩ := List.mem_map.mp hp
    exact keyLine_no_nul config key hzero

theorem existingText_savedText (hsize : (savedText keys skip first old).length ≤ 2047) :
    existingText (savedText keys skip first old) = savedText keys skip first old := by
  unfold existingText
  rw [List.take_of_length_le hsize, cstr_of_no_nul (savedText_no_nul keys skip first old)]

/-- A key that the loop has marked is one of the list. -/
theorem mem_keys_of_replace {line : List UInt8} {key : Key}
    (h : lineAction keys skip line = .replace key) : key ∈ keys := by
  unfold lineAction at h
  cases hscan : scanLine line with
  | none => rw [hscan] at h; cases h
  | some kv =>
    rw [hscan] at h
    dsimp only at h
    cases hfind : findKey keys kv.1 with
    | none =>
      rw [hfind] at h
      dsimp only at h
      split_ifs at h
    | some key' =>
      rw [hfind] at h
      obtain rfl : key' = key := LineAction.replace.inj h
      exact (findKey_eq_some.mp hfind).1

/-- The loop on the pieces that an earlier save has left. -/
theorem actions_outPieces (first : NodeConfig) (lines : List (List UInt8)) :
    (lines.filterMap (outPiece keys skip first)).map (lineAction keys skip)
      = (lines.map (lineAction keys skip)).filter (· ≠ .drop) := by
  induction lines with
  | nil => rfl
  | cons line lines ih =>
    rw [List.map_cons]
    cases hact : lineAction keys skip line with
    | replace key =>
      rw [List.filterMap_cons_some (outPiece_replace hact first), List.map_cons, ih,
        lineAction_keyLine (mem_keys_of_replace hact) skip first,
        List.filter_cons_of_pos (by simp)]
    | drop =>
      rw [List.filterMap_cons_none (outPiece_drop hact first), ih,
        List.filter_cons_of_neg (by simp)]
    | keep =>
      rw [List.filterMap_cons_some (outPiece_keep hact first), List.map_cons, ih, hact,
        List.filter_cons_of_pos (by simp)]

/-- What the loop writes for them does not depend on that save. -/
theorem texts_outPieces (first config : NodeConfig) (lines : List (List UInt8)) :
    ((lines.filterMap (outPiece keys skip first)).map fun line =>
        (lineAction keys skip line).text config line).flatten
      = (lines.map fun line => (lineAction keys skip line).text config line).flatten := by
  induction lines with
  | nil => rfl
  | cons line lines ih =>
    rw [List.map_cons, List.flatten_cons]
    cases hact : lineAction keys skip line with
    | replace key =>
      rw [List.filterMap_cons_some (outPiece_replace hact first), List.map_cons, List.flatten_cons,
        ih, lineAction_keyLine (mem_keys_of_replace hact) skip first]
      rfl
    | drop =>
      rw [List.filterMap_cons_none (outPiece_drop hact first), ih]
      rfl
    | keep =>
      rw [List.filterMap_cons_some (outPiece_keep hact first), List.map_cons, List.flatten_cons,
        ih, hact]

theorem missing_subset : missingKeys keys skip old ⊆ keys := List.filter_subset_self _

/-- The pieces of a saved file. -/
theorem linePieces_again (h : CleanText first)
    (htail : openTail keys skip old = none ∨ missingKeys keys skip old = [])
    (hsize : (savedText keys skip first old).length ≤ 2047) :
    linePieces (existingText (savedText keys skip first old))
      = (linePieces (existingText old)).filterMap (outPiece keys skip first)
        ++ (missingKeys keys skip old).map (keyLine first) := by
  rw [existingText_savedText hsize, linePieces_savedText h htail]
  rfl

/-- The second save finds a line for every key. -/
theorem missingKeys_again (h : CleanText first)
    (htail : openTail keys skip old = none ∨ missingKeys keys skip old = [])
    (hsize : (savedText keys skip first old).length ≤ 2047) :
    missingKeys keys skip (savedText keys skip first old) = [] := by
  have hwritten : writtenKeys keys skip (savedText keys skip first old)
      = writtenKeys keys skip old ++ missingKeys keys skip old := by
    have hlines : ∀ lines : List (List UInt8),
        (lines.filterMap (outPiece keys skip first)).filterMap
            (fun line => (lineAction keys skip line).written)
          = lines.filterMap fun line => (lineAction keys skip line).written := by
      intro lines
      have hactions := congrArg (List.filterMap LineAction.written)
        (@actions_outPieces keys skip first lines)
      rw [List.filterMap_map, List.filterMap_filter, List.filterMap_map] at hactions
      refine hactions.trans (List.filterMap_congr fun line _ => ?_)
      dsimp only [Function.comp_apply]
      cases lineAction keys skip line <;> rfl
    -- the lines appended by the first save are replaced by the second
    have happended : ((missingKeys keys skip old).map (keyLine first)).filterMap
        (fun line => (lineAction keys skip line).written) = missingKeys keys skip old := by
      rw [List.filterMap_map]
      have hsome : ∀ key ∈ missingKeys keys skip old,
          (lineAction keys skip (keyLine first key)).written = some key := fun key hkey => by
        rw [lineAction_keyLine (missing_subset hkey) skip first]
        rfl
      exact (List.filterMap_congr hsome).trans List.filterMap_some
    unfold writtenKeys
    rw [linePieces_again h htail hsize, List.filterMap_append, hlines, happended]
  unfold missingKeys
  rw [hwritten]
  refine List.filter_eq_nil_iff.mpr fun key hkey => ?_
  have hmem := @mem_writtenKeys_append_missingKeys keys skip old key hkey
  simp [hmem]

/-- **The second of two saves** leaves what it leaves without the first. -/
theorem savedText_overwrites (h : CleanText first)
    (htail : openTail keys skip old = none ∨ missingKeys keys skip old = [])
    (hsize : (savedText keys skip first old).length ≤ 2047) (config : NodeConfig) :
    savedText keys skip config (savedText keys skip first old)
      = savedText keys skip config old := by
  have happended : (((missingKeys keys skip old).map (keyLine first)).map fun line =>
        (lineAction keys skip line).text config line)
      = (missingKeys keys skip old).map (formatKey config) := by
    rw [List.map_map]
    refine List.map_congr_left fun key hkey => ?_
    dsimp only [Function.comp_apply]
    rw [lineAction_keyLine (missing_subset hkey) skip first]
    rfl
  have hmissing := missingKeys_again h htail hsize
  have hpieces := linePieces_again h htail hsize
  generalize savedText keys skip first old = new at hmissing hpieces
  unfold savedText rewritten
  rw [hmissing, hpieces, List.map_append, List.flatten_append, texts_outPieces, happended,
    List.map_nil, List.flatten_nil, List.append_nil]

end

/-- **A run of saves leaves what the last one leaves alone**: over any file with a closed end, or
without a key missing, as long as what is saved fits the buffer. -/
theorem configSaves_overwrite (old : List UInt8) (configs : List NodeConfig) (config : NodeConfig)
    (hclean : ∀ c ∈ configs, CleanText c)
    (htail : openTail managedKeys false old = none ∨ missingKeys managedKeys false old = [])
    (hsize : ∀ c ∈ configs, (savedConfig c old).length ≤ 2047) :
    configSaves (some old) (configs ++ [config]) = some (savedConfig config old) := by
  induction configs using List.reverseRecOn generalizing config with
  | nil => rfl
  | append_singleton configs last ih =>
    rw [List.forall_mem_append, List.forall_mem_singleton] at hclean hsize
    have hbefore := ih last hclean.1 hsize.1
    unfold configSaves at hbefore ⊢
    rw [List.foldl_append, hbefore]
    exact congrArg some (savedText_overwrites hclean.2 htail hsize.2 config)

/-- A comment, a key and a line of the original node, saved over twice. -/
theorem configSaves_overwrite_site :
    configSaves (some (ascii "# site" ++ [lf] ++ ascii "netmask = 0" ++ [lf] ++ ascii "boottest = 1"
        ++ [lf])) ([farSlotConfig] ++ [siteConfig])
      = some (savedConfig siteConfig (ascii "# site" ++ [lf] ++ ascii "netmask = 0" ++ [lf]
          ++ ascii "boottest = 1" ++ [lf])) :=
  configSaves_overwrite _ [farSlotConfig] siteConfig (by decide) (Or.inl (by decide))
    (by decide +kernel)

end SN110
