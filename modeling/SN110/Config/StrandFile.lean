import SN110.Config.History

/-!
# The file for the node's flash

A previous file holds lines that earlier calls have written. All of them are replaced, unless the
file is longer than the buffer it is read into and the cut falls in the name of a line or right
behind its `=`. Then the first appended line joins what is left of the cut line.

* `exists_cut_of_not_replaced`: what can be left open of a previous file.
* `strandFile_savedStrand`: a call over an accepted file leaves a previous file for the next one.
* `settings_cut`: what the joined line sets.
-/

namespace SN110

open Pieces

/-- A previous file: none, or one of lines that earlier calls have written, in any order and
number. -/
def StrandFile (file : Option (List UInt8)) : Prop :=
  ∀ content ∈ file, ∃ lines : List (NodeConfig × Key),
    (∀ line ∈ lines, CleanText line.1 ∧ line.2 ∈ strandKeys) ∧
      content = (lines.map fun line => keyLine line.1 line.2).flatten

theorem strandFile_none : StrandFile none := fun _ h => absurd h (Option.not_mem_none _)

/-! ## Where the file is cut -/

/-- A key's line, cut right behind its `=`. -/
def Key.cut (key : Key) : List UInt8 := key.name ++ [space, equals]

theorem Key.cut_injective {key key' : Key} (h : key.cut = key'.cut) : key = key' :=
  Key.name_injective (List.append_cancel_right h)

/-- The only `=` of a cut name is its last byte. -/
theorem eq_cut_of_equals_mem {key : Key} {p : List UInt8} (hpre : p <+: key.cut)
    (hmem : equals ∈ p) : p = key.cut := by
  have hconcat : key.cut = (key.name ++ [space]) ++ [equals] := by
    simp [Key.cut]
  rw [hconcat, List.prefix_concat_iff, ← hconcat] at hpre
  refine hpre.resolve_right fun hshort => ?_
  rcases List.mem_append.mp (hshort.subset hmem) with hname | hblank
  · exact key.equals_notMem_name hname
  · exact absurd hblank (by decide)

/-- A key's line that is cut short is replaced, if it is not cut before the blank behind its `=`. -/
theorem prefix_cut_or_replaced {keys : List Key} {config : NodeConfig} {key : Key} {p : List UInt8}
    (hkey : key ∈ keys) (skip : Bool) (hpre : p <+: keyLine config key) :
    p <+: key.cut ∨ lineAction keys skip p = .replace key := by
  have hline : key.cut ++ [space] <+: keyLine config key :=
    ⟨formatValue config key ++ [lf], by simp [Key.cut, keyLine]⟩
  have hreplace : ∀ {value : List UInt8}, 0 ∉ value →
      lineAction keys skip (key.cut ++ [space] ++ value) = .replace key := by
    intro value hnul
    have hcut : key.cut ++ [space] ++ value = key.name ++ (space :: equals :: space :: value) := by
      simp [Key.cut]
    rw [hcut]
    exact lineAction_name hkey skip hnul
  rcases List.prefix_or_prefix_of_prefix hline hpre with ⟨value, rfl⟩ | hshort
  · refine Or.inr (hreplace fun hmem => ?_)
    exact keyLine_no_nul config key (hpre.subset (List.mem_append_right _ hmem))
  · rcases List.prefix_concat_iff.mp hshort with rfl | hcut
    · have hwhole := @hreplace [] List.not_mem_nil
      rw [List.append_nil] at hwhole
      exact Or.inr hwhole
    · exact Or.inl hcut

/-- What is read of a previous file: lines that are replaced, and what is left of the last one. -/
theorem exists_linePieces_strandFile {content : List UInt8} (h : StrandFile (some content)) :
    ∃ front p, linePieces (existingText content) = front ++ linePieces p ∧
      (∀ line ∈ front, ∃ key, lineAction strandKeys true line = .replace key) ∧
      (p = [] ∨ ∃ config key rest, CleanText config ∧ key ∈ strandKeys ∧
        p ++ rest = keyLine config key ∧ rest.length ≤ content.length - 2047) := by
  obtain ⟨lines, hlines, rfl⟩ := h content rfl
  -- the buffer holds the first lines whole and the next one in part
  obtain ⟨front, p, htake, hfront, hp⟩ :=
    exists_take_flatten (lines.map fun line => keyLine line.1 line.2) 2047
  have hmem : ∀ line ∈ lines.map (fun line => keyLine line.1 line.2),
      ∃ config key, CleanText config ∧ key ∈ strandKeys ∧ line = keyLine config key := by
    intro line hline
    obtain ⟨⟨config, key⟩, hconfig, rfl⟩ := List.mem_map.mp hline
    exact ⟨config, key, (hlines _ hconfig).1, (hlines _ hconfig).2, rfl⟩
  have hnul : 0 ∉ (lines.map fun line => keyLine line.1 line.2).flatten := by
    intro hzero
    obtain ⟨line, hline, hzero⟩ := List.mem_flatten.mp hzero
    obtain ⟨config, key, -, -, rfl⟩ := hmem line hline
    exact keyLine_no_nul config key hzero
  have hexisting : existingText (lines.map fun line => keyLine line.1 line.2).flatten
      = front.flatten ++ p := by
    unfold existingText
    rw [cstr_of_no_nul fun hzero => hnul (List.mem_of_mem_take hzero), htake]
  refine ⟨front, p, ?_, ?_, ?_⟩
  · rw [hexisting]
    refine pieces_flatten_append (by decide) (fun line hline => ?_) p
    obtain ⟨config, key, hclean, -, rfl⟩ := hmem line (hfront line hline)
    exact keyLine_isPiece hclean key
  · intro line hline
    obtain ⟨config, key, -, hkey, rfl⟩ := hmem line (hfront line hline)
    exact ⟨key, lineAction_keyLine hkey true config⟩
  · refine hp.imp_right fun ⟨rest, hline, hlen⟩ => ?_
    obtain ⟨config, key, hclean, hkey, heq⟩ := hmem _ hline
    exact ⟨config, key, rest, hclean, hkey, heq, hlen⟩

/-- **What is not replaced of a previous file** is the name of a line, with or without its `=`, and
only of a file that is too large. -/
theorem exists_cut_of_not_replaced {file : Option (List UInt8)} (h : StrandFile file)
    {line : List UInt8} (hmem : line ∈ linePieces (existingText (file.getD [])))
    (hnot : ∀ key, lineAction strandKeys true line ≠ .replace key) :
    (∃ key ∈ strandKeys, line <+: key.cut) ∧ strandMaxSize < (file.getD []).length := by
  cases file with
  | none => exact absurd hmem List.not_mem_nil
  | some content =>
    obtain ⟨front, p, hpieces, hfront, hp⟩ := exists_linePieces_strandFile h
    rw [Option.getD_some, hpieces] at hmem
    rcases List.mem_append.mp hmem with hline | hline
    · obtain ⟨key, hreplace⟩ := hfront line hline
      exact absurd hreplace (hnot key)
    · rcases hp with rfl | ⟨config, key, rest, hclean, hkey, heq, hlen⟩
      · exact absurd hline List.not_mem_nil
      have hpre : p <+: keyLine config key := ⟨rest, heq⟩
      have hne : p ≠ [] := by
        rintro rfl
        exact absurd hline List.not_mem_nil
      unfold linePieces at hline
      have hpiece := (keyLine_isPiece hclean key).1.of_isPrefix hpre hne
      rw [pieces_of_isPiece (by decide) hpiece] at hline
      obtain rfl := List.mem_singleton.mp hline
      have hcut := (prefix_cut_or_replaced hkey true hpre).resolve_right (hnot key)
      refine ⟨⟨key, hkey, hcut⟩, ?_⟩
      -- the blank behind the `=` and the newline are cut off at least
      have hshort := hcut.length_le
      have htotal := congrArg List.length heq
      simp only [Key.cut, keyLine, List.length_append, List.length_cons, List.length_nil]
        at hshort htotal
      show 2048 < content.length
      omega

theorem exists_cut_of_openTail {file : Option (List UInt8)} (h : StrandFile file)
    {tail : List UInt8} (hopen : openTail strandKeys true (file.getD []) = some tail) :
    ∃ key ∈ strandKeys, tail <+: key.cut := by
  obtain ⟨hlast, hkeep, -⟩ := openTail_eq_some hopen
  refine (exists_cut_of_not_replaced h (List.mem_of_getLast? hlast) fun key hreplace => ?_).1
  rw [hkeep] at hreplace
  cases hreplace

/-- **What a call leaves over an accepted file** is a previous file for the next call. -/
theorem strandFile_savedStrand {file : Option (List UInt8)} {config : NodeConfig}
    (h : StrandFile file) (hlen : (file.getD []).length ≤ strandMaxSize)
    (hclean : CleanText config) :
    StrandFile (some (savedStrand config (file.getD []))) := by
  have hreplaced : ∀ line ∈ linePieces (existingText (file.getD [])),
      ∃ key, lineAction strandKeys true line = .replace key := by
    intro line hline
    by_contra hnot
    exact absurd (exists_cut_of_not_replaced h hline (not_exists.mp hnot)).2 (Nat.not_lt.mpr hlen)
  rintro content hcontent
  obtain rfl := Option.some.inj hcontent
  refine ⟨(writtenKeys strandKeys true (file.getD []) ++
    missingKeys strandKeys true (file.getD [])).map fun key => (config, key), ?_, ?_⟩
  · intro line hline
    obtain ⟨key, hkey, rfl⟩ := List.mem_map.mp hline
    refine ⟨hclean, ?_⟩
    rcases List.mem_append.mp hkey with hwritten | hmissing
    · exact mem_keys_of_writtenKeys hwritten
    · exact (List.mem_filter.mp hmissing).1
  · rw [List.map_map]
    exact savedText_of_replaced hreplaced config

/-! ## The line that joins it -/

/-- The line of a key, as it is read where it is the value of another. -/
def lineText (config : NodeConfig) (key : Key) : List UInt8 :=
  trim (key.name ++ (space :: equals :: space :: formatValue config key))

/-- A text that begins with a name begins with one of its bytes. -/
theorem exists_head_name_append (key : Key) (rest : List UInt8) :
    ∃ c, NameByte c ∧ (key.name ++ rest).head? = some c := by
  obtain ⟨c, t, hname⟩ := List.exists_cons_of_ne_nil key.name_ne_nil
  have hmem : c ∈ key.name := hname ▸ List.mem_cons_self
  exact ⟨c, Key.nameByte hmem, by rw [hname]; rfl⟩

/-- So a cut name does not leave the appended line its meaning. -/
theorem not_fits_of_prefix_cut {key key' : Key} {tail : List UInt8} (hne : tail ≠ [])
    (hcut : tail <+: key'.cut) : ¬ Fits tail key := by
  obtain ⟨c, hbyte, hhead⟩ := exists_head_name_append key' [space, equals]
  obtain ⟨rest, hrest⟩ := hcut
  have htail : tail.head? = some c := by
    rw [← hhead, ← List.head?_append_of_ne_nil tail hne, hrest]
    rfl
  intro hfits
  have hblank := hfits.1 c (List.mem_of_mem_head? htail)
  rw [hbyte.not_blank] at hblank
  cases hblank

theorem isPiece_joined {config : NodeConfig} (h : CleanText config) (key : Key) {tail : List UInt8}
    (hlf : lf ∉ tail) (hlen : tail.length ≤ 63) :
    IsPiece lf maxPiece (tail ++ keyLine config key) := by
  obtain ⟨hline, -⟩ := keyLine_isPiece h key
  refine ⟨List.append_ne_nil_of_right_ne_nil _ hline.ne_nil, ?_, ?_⟩
  · have hshort := length_keyLine_le config key
    rw [List.length_append]
    show _ ≤ 255
    omega
  · rw [List.dropLast_append_of_ne_nil hline.ne_nil, List.mem_append, not_or]
    exact ⟨hlf, hline.sep_last⟩

/-- The whole line is the value of a key that is cut behind its `=`. -/
theorem lineSets_cut {config : NodeConfig} (h : CleanText config) (key key' : Key) :
    lineSets (key'.cut ++ keyLine config key) = some (key', lineText config key) := by
  have hnul : 0 ∉ key'.cut ++ keyLine config key := by
    rw [List.mem_append, not_or]
    refine ⟨fun hmem => ?_, keyLine_no_nul config key⟩
    rcases List.mem_append.mp hmem with hmem | hmem
    · exact (Key.nameByte hmem).ne_nul rfl
    · exact absurd hmem (by decide)
  have hspan := spanNoneOf_keyLine h key
  have hname : trim (key'.name ++ [space]) = key'.name := by
    rw [trim_append_blanks (by decide)]
    exact trim_of_trimmed (trimmed_of_forall fun c hc => (Key.nameByte hc).not_blank)
  have hequals : equals ∉ key'.name ++ [space] := by
    rw [List.mem_append, not_or]
    exact ⟨key'.equals_notMem_name, by decide⟩
  -- the cut ends behind the `=`, so the whole next line is read as its value
  rw [lineSets_eq_some, scanLine_eq_some]
  refine ⟨?_, key'.name ++ [space], keyLine config key, ?_, hequals, ?_, ?_, ?_, hname.symm, ?_⟩
  · obtain ⟨c, hbyte, hhead⟩ :=
      exists_head_name_append key' ([space, equals] ++ keyLine config key)
    rw [Key.cut, List.append_assoc, hhead]
    simp [hbyte.ne_hash, hbyte.ne_lf, hbyte.ne_cr]
  · rw [cstr_of_no_nul hnul]
    simp [Key.cut]
  · exact List.append_ne_nil_of_left_ne_nil key'.name_ne_nil _
  · have hlen := key'.length_name_le
    rw [List.length_append, List.length_singleton]
    omega
  · rw [hspan]
    exact List.append_ne_nil_of_left_ne_nil key.name_ne_nil _
  · rw [hspan]
    rfl

/-- **What the joined line sets**: nothing, or the key that is cut behind its `=`. -/
theorem settings_cut {config : NodeConfig} (h : CleanText config) {old tail : List UInt8}
    {key key' : Key} (hopen : openTail strandKeys true old = some tail)
    (hcut : tail <+: key'.cut) :
    settings (tail ++ keyLine config key)
      = if tail = key'.cut then [(key', lineText config key)] else [] := by
  have hpiece := isPiece_of_openTail hopen
  have hlen : tail.length ≤ 63 := by
    have hname := key'.length_name_le
    have hle := hcut.length_le
    simp only [Key.cut, List.length_append, List.length_cons, List.length_nil] at hle
    omega
  have hlf : lf ∉ tail := lf_notMem_of_open hpiece (openTail_eq_some hopen).2.2
  have hjoined : linePieces (tail ++ keyLine config key) = [tail ++ keyLine config key] :=
    pieces_of_isPiece (by decide) (isPiece_joined h key hlf hlen)
  unfold settings
  rw [hjoined]
  -- a tail that is cut before its `=` sets nothing: the joined name is no key's
  split_ifs with heq
  · subst heq
    rw [List.filterMap_cons, lineSets_cut h]
    rfl
  · have hnone : lineSets (tail ++ keyLine config key) = none := by
      cases hset : lineSets (tail ++ keyLine config key) with
      | none => rfl
      | some kv =>
        have hkeep := managesLines_strand.keep tail (action_of_openTail hopen)
        have hfits : ¬ Fits tail key := not_fits_of_prefix_cut hpiece.ne_nil hcut
        obtain ⟨⟨k, rfl, -, -⟩, -⟩ := lineSets_joined_front h hpiece (no_nul_of_openTail hopen)
          hkeep hfits (List.append_nil _).symm (Or.inl rfl) hset
        exact absurd (eq_cut_of_equals_mem hcut (List.mem_append_right k List.mem_cons_self)) heq
    rw [List.filterMap_cons, hnone]
    rfl

end SN110
