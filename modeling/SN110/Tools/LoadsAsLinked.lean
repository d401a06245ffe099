import SN110.Tools.Image
import SN110.Tools.Extract

/-!
# When the file loads as linked

* `buildBflt_spec`: what the loader reads in a file that has been written.
* `FlatElf.exists_fileOf`: the file that `main` writes for an ELF file laid out by `flat.ld`.
* `FlatElf.loadFlat_eq`: loading it gives the linked memory, with its sites relocated.
* `loadsAsLinked_iff`: the ELF files whose bFLT file is right.

## From the file to the memory

The file is taken apart as the loader does it: `FileOf` says which bytes it reads as the segments,
and which words as the sites. With `FlatElf.segments_spec` the segments spell the linked memory, so
that the loaded one differs from it only where a site has been relocated, once or more often
(`FlatElf.loadFlat_eq`). What remains is to count: `FlatElf.count_eq_one_iff` for the places that
have to be relocated and `FlatElf.subset_iff` for those that must not be.
-/

namespace SN110

open Memory Words Layout

/-! ## The file -/

section

variable {xs ys : List UInt8} {k : Nat}

theorem load_append_right : load (xs ++ ys) (xs.length + k) = load ys k := by
  unfold load
  rw [List.getD_append_right _ _ _ _ (Nat.le_add_right _ _), Nat.add_sub_cancel_left]

theorem load_append_left (h : k < xs.length) : load (xs ++ ys) k = load xs k :=
  List.getD_append _ _ _ _ h

theorem load32_append_right : load32 (xs ++ ys) (xs.length + k) = load32 ys k := by
  unfold load32
  simp only [Nat.add_assoc, load_append_right]

/-- Words one after the other. -/
theorem load32_flatMap_be32 {ws : List UInt32} {i : Nat} (h : i < ws.length) :
    load32 (ws.flatMap be32 ++ ys) (4 * i) = ws[i] := by
  induction ws generalizing i with
  | nil => exact absurd h (Nat.not_lt_zero i)
  | cons w ws ih =>
    rw [List.flatMap_cons, List.append_assoc]
    cases i with
    | zero =>
      have hw : ∀ k < 4, load (be32 w ++ (ws.flatMap be32 ++ ys)) k = load (be32 w) k :=
        fun k hk => load_append_left hk
      show load32 _ 0 = w
      conv_rhs => rw [← load32_be32 w]
      simp only [load32, hw 0 (by decide), hw 1 (by decide), hw 2 (by decide), hw 3 (by decide)]
    | succ i =>
      have hpos : 4 * (i + 1) = (be32 w).length + 4 * i := by
        rw [length_be32]
        omega
      rw [hpos, load32_append_right, ih (Nat.lt_of_succ_lt_succ h)]
      rfl

/-- Each word takes four bytes. -/
theorem length_flatMap_be32 (ws : List UInt32) : (ws.flatMap be32).length = 4 * ws.length := by
  rw [List.length_flatMap]
  simp [Nat.mul_comm]

/-- Numbers are packed when they all fit. -/
theorem mapM_packU32_eq_some {α : Type} {f : α → Nat} {as : List α} {packed : List (List UInt8)}
    (h : as.mapM (fun a => packU32 (f a)) = some packed) :
    (∀ a ∈ as, f a < 2 ^ 32) ∧
      packed.flatten = (as.map fun a => UInt32.ofNat (f a)).flatMap be32 := by
  induction as generalizing packed with
  | nil =>
    obtain rfl := Option.some.inj h
    exact ⟨fun a ha => absurd ha List.not_mem_nil, rfl⟩
  | cons a as ih =>
    rw [List.mapM_cons] at h
    obtain ⟨bytes, hone, h⟩ := Option.bind_eq_some_iff.mp h
    obtain ⟨rest, hrest, h⟩ := Option.bind_eq_some_iff.mp h
    obtain rfl := Option.some.inj h
    obtain ⟨hlt, hflat⟩ := ih hrest
    unfold packU32 at hone
    split_ifs at hone with ha
    obtain rfl := Option.some.inj hone
    refine ⟨List.forall_mem_cons.mpr ⟨ha, hlt⟩, ?_⟩
    rw [List.flatten_cons, hflat, List.map_cons, List.flatMap_cons]

end

/-- What the loader reads in the file. -/
structure FileOf (textData dataData : List UInt8) (bssSize : Nat) (relocs : List Reloc)
    (flat : List UInt8) : Prop where
  dataStart : flatDataStart flat = bfltHeaderSize + textData.length
  dataEnd : flatDataEnd flat = bfltHeaderSize + textData.length + dataData.length
  bssEnd : flatBssEnd flat = bfltHeaderSize + textData.length + dataData.length + bssSize
  relocStart : flatRelocStart flat = flatDataEnd flat
  relocCount_lt : relocs.length < 2 ^ 32
  sites : flatSites flat = relocs.map fun r => textData.length + (r.v2Entry &&& 0x03FFFFFF)
  image : ∀ v < (textData ++ dataData).length,
    load flat (bfltHeaderSize + v) = load (textData ++ dataData) v

/-- The header: 64 bytes, with the fields behind the magic number. -/
structure HeaderOf (fields : List Nat) (header : List UInt8) : Prop where
  length_eq : header.length = bfltHeaderSize
  field : ∀ rest i (h : i < fields.length),
    (load32 (header ++ rest) (4 + 4 * i)).toNat = fields[i]

/-- The header written for eight fields that pack has them. -/
theorem headerOf_packed {fields : List Nat} {packed : List (List UInt8)}
    (hlen : fields.length = 8) (h : fields.mapM packU32 = some packed) :
    HeaderOf fields
      (bfltMagic ++ packed.flatten ++ le32 flatFlagRam ++
        List.replicate (bfltHeaderSize - (bfltMagic ++ packed.flatten ++
          le32 flatFlagRam).length) 0) := by
  obtain ⟨hlt, hflat⟩ := mapM_packU32_eq_some h
  rw [hflat]
  have hwords : (fields.map UInt32.ofNat).length = 8 := by rw [List.length_map, hlen]
  have hlength : (bfltMagic ++ (fields.map UInt32.ofNat).flatMap be32 ++ le32 flatFlagRam).length
      = 40 := by
    rw [List.length_append, List.length_append, length_flatMap_be32, hwords]
    rfl
  refine ⟨?_, fun rest i hi => ?_⟩
  · rw [List.length_append, hlength, List.length_replicate]
    rfl
  · have hpos : 4 + 4 * i = bfltMagic.length + 4 * i := rfl
    have hword := fun ys => @load32_flatMap_be32 ys (fields.map UInt32.ofNat) i
      (by rwa [List.length_map])
    simp only [List.append_assoc]
    rw [hpos, load32_append_right, hword, List.getElem_map,
      UInt32.toNat_ofNat_of_lt' (hlt _ (List.getElem_mem hi))]

/-- What `build_bflt` returns is a file of the segments and relocations given to it. -/
theorem buildBflt_spec {textData dataData flat : List UInt8} {bssSize stackSize : Nat}
    {relocs : List Reloc}
    (h : buildBflt textData dataData bssSize relocs stackSize = some flat) :
    FileOf textData dataData bssSize relocs flat := by
  unfold buildBflt at h
  obtain ⟨fields, hfields, h⟩ := Option.bind_eq_some_iff.mp h
  obtain ⟨entries, hentries, h⟩ := Option.bind_eq_some_iff.mp h
  have hflat := (Option.some.inj h).symm
  clear h
  obtain ⟨hlength, hfield⟩ := headerOf_packed rfl hfields
  obtain ⟨hcount, -⟩ := mapM_packU32_eq_some hfields
  obtain ⟨hentry_lt, hentry⟩ := mapM_packU32_eq_some hentries
  generalize bfltMagic ++ fields.flatten ++ le32 flatFlagRam ++
    List.replicate (bfltHeaderSize - (bfltMagic ++ fields.flatten ++
      le32 flatFlagRam).length) 0 = header at hlength hfield hflat
  rw [hentry] at hflat
  have hread := hfield (textData ++ dataData ++
    (relocs.map fun r => UInt32.ofNat r.v2Entry).flatMap be32)
  rw [← List.append_assoc, ← List.append_assoc, ← hflat] at hread
  -- the header's words say where the parts of the file start
  have hstart : flatDataStart flat = bfltHeaderSize + textData.length := hread 2 (by simp)
  have hend : flatDataEnd flat = bfltHeaderSize + textData.length + dataData.length :=
    hread 3 (by simp)
  have hreloc : flatRelocStart flat = bfltHeaderSize + textData.length + dataData.length :=
    hread 6 (by simp)
  have hnumber : flatRelocCount flat = relocs.length := hread 7 (by simp)
  refine ⟨hstart, hend, hread 4 (by simp), hreloc.trans hend.symm, hcount _ (by simp), ?_, ?_⟩
  · unfold flatSites
    rw [hnumber, hstart, hreloc, Nat.add_sub_cancel_left]
    apply List.ext_getElem
    · rw [List.length_map, List.length_map, List.length_range]
    · intro i hi hi'
      rw [List.length_map] at hi'
      have hpos : bfltHeaderSize + textData.length + dataData.length
          = (header ++ textData ++ dataData).length := by
        rw [List.length_append, List.length_append, hlength]
      have hword := @load32_flatMap_be32 [] (relocs.map fun r => UInt32.ofNat r.v2Entry) i
        (by rwa [List.length_map])
      rw [List.append_nil] at hword
      rw [List.getElem_map, List.getElem_map, List.getElem_range, hpos, hflat,
        load32_append_right, hword, List.getElem_map,
        UInt32.toNat_ofNat_of_lt' (hentry_lt _ (List.getElem_mem hi'))]
  · intro v hv
    rw [hflat, List.append_assoc, List.append_assoc, ← hlength, load_append_right,
      ← List.append_assoc, load_append_left hv]

/-! ## The sites -/

section

variable {elfData flat : List UInt8} (e : FlatElf elfData)

/-- The word at an offset of the data is the one that the linker has put there. -/
theorem FlatElf.word_data {seg : Segments} (hseg : e.BuiltAs seg) {o : Nat}
    (ho : o + 4 ≤ seg.dataData.length) :
    word (load seg.dataData) o = word (linkByte elfData e.loaded) (e.loaded.dataVa + o) := by
  refine word_congr fun k hk => ?_
  rw [hseg.spells_data (o + k) (by omega), Nat.add_assoc]

/-- The slots that `extract_got_relocs` adds: those that are not sites already and not zero. -/
def AddsSlots (slots : List Nat) : Prop :=
  slots.Nodup ∧ ∀ s, s ∈ slots ↔ s ∉ absSites elfData e.sections e.loaded ∧
    word (linkByte elfData e.loaded) s ≠ 0 ∧
    ∃ r ∈ loadedRels elfData e.sections, r.rType = rArmGotBrel ∧ gotSlot elfData e.loaded r = s

/-- What `extract_got_relocs` returns, as slots of the memory. -/
theorem FlatElf.addsSlots {seg : Segments} (hseg : e.BuiltAs seg) {offs existing : List Nat}
    (hnodup : offs.Nodup)
    (hexisting : ∀ o, o ∈ existing ↔
      e.loaded.dataVa + o ∈ absSites elfData e.sections e.loaded)
    (hmem : ∀ o, o ∈ offs ↔ o ∉ existing ∧ o + 4 ≤ seg.dataData.length ∧
      word (load seg.dataData) o ≠ 0 ∧ ∃ r ∈ loadedRels elfData e.sections,
        r.rType = rArmGotBrel ∧ gotLiteral elfData e.loaded r = o) :
    AddsSlots e (offs.map (e.loaded.dataVa + ·)) := by
  refine ⟨hnodup.map fun a b hab => Nat.add_left_cancel hab, fun s => ?_⟩
  rw [List.mem_map]
  constructor
  · rintro ⟨o, ho, rfl⟩
    obtain ⟨hold, hle, hne, r, hr, htype, hlit⟩ := (hmem o).mp ho
    rw [hexisting] at hold
    rw [e.word_data hseg hle] at hne
    exact ⟨hold, hne, r, hr, htype, congrArg (e.loaded.dataVa + ·) hlit⟩
  · rintro ⟨hold, hne, r, hr, htype, rfl⟩
    have hle : gotLiteral elfData e.loaded r + 4 ≤ seg.dataData.length := by
      have hslot := e.slot_le r hr htype
      rw [← hseg.length_data] at hslot
      unfold gotSlot at hslot
      omega
    refine ⟨_, (hmem _).mpr ⟨?_, hle, ?_, r, hr, htype, rfl⟩, rfl⟩
    · rwa [hexisting]
    · rwa [e.word_data hseg hle]

/-- The file that `main` writes. -/
theorem FlatElf.exists_fileOf (h : elf2bflt elfData = some flat) :
    ∃ seg relocs slots, e.BuiltAs seg ∧
      FileOf seg.textData seg.dataData seg.bssSize relocs flat ∧ (∀ x ∈ relocs, x.Encoded) ∧
      AddsSlots e slots ∧
      (relocs.map fun x => e.loaded.dataVa + x.dataOffset).Perm
        (absSites elfData e.sections e.loaded ++ slots) := by
  obtain ⟨text, htext, hloaded⟩ := Option.map_eq_some_iff.mp e.loaded_eq
  have hseg := e.segments_spec
  -- the steps of `main`
  unfold elf2bflt at h
  obtain ⟨⟨entry, sections⟩, hread, h⟩ := Option.bind_eq_some_iff.mp h
  obtain ⟨-, rfl⟩ := Prod.mk.inj (Option.some.inj (e.read.symm.trans hread))
  dsimp only at h
  obtain ⟨text', htext', h⟩ := Option.bind_eq_some_iff.mp h
  obtain rfl : text = text' := Option.some.inj (htext.symm.trans htext')
  have hsegments : segments elfData text (findSection e.sections ".rodata")
      (findSection e.sections ".data") (findSection e.sections ".got")
      (findSection e.sections ".bss") = segments elfData e.loaded.text e.loaded.rodata
        e.loaded.data e.loaded.got e.loaded.bss := by
    rw [← hloaded]
  rw [hsegments] at h
  generalize segments elfData e.loaded.text e.loaded.rodata e.loaded.data e.loaded.got
    e.loaded.bss = seg at h hseg
  obtain ⟨⟨relocs, data⟩, hrelocs, h⟩ := Option.bind_eq_some_iff.mp h
  obtain ⟨⟨gots, data'⟩, hgots, h⟩ := Option.bind_eq_some_iff.mp h
  rw [hseg.textEndVa, hseg.dataStartVa, hseg.bssStartVa] at hrelocs
  obtain ⟨rfl, hencoded, habs⟩ := e.extractRelocsV2_spec hrelocs
  obtain ⟨rfl, hencoded', hnodup, hmem⟩ := e.extractGotRelocs_spec hgots
  have hexisting : ∀ o, o ∈ relocs.map Reloc.dataOffset ↔
      e.loaded.dataVa + o ∈ absSites elfData e.sections e.loaded := by
    intro o
    rw [← habs.mem_iff, List.mem_map, List.mem_map]
    simp only [Nat.add_left_cancel_iff]
  refine ⟨seg, sortRelocs (relocs ++ gots), (gots.map Reloc.dataOffset).map (e.loaded.dataVa + ·),
    hseg, buildBflt_spec h, fun x hx => ?_, e.addsSlots hseg hnodup hexisting hmem, ?_⟩
  · rcases List.mem_append.mp (mem_sortRelocs.mp hx) with hx | hx
    · exact hencoded x hx
    · exact hencoded' x hx
  · refine ((List.perm_insertionSort _ _).map _).trans ?_
    rw [List.map_append, List.map_map]
    exact habs.append_right _

/-- What is loaded: the linked memory, with the sites of the file relocated. -/
theorem FlatElf.loadFlat_eq {seg : Segments} {relocs : List Reloc} (hseg : e.BuiltAs seg)
    (hfile : FileOf seg.textData seg.dataData seg.bssSize relocs flat)
    (hencoded : ∀ x ∈ relocs, x.Encoded) (base : UInt32) :
    loadFlat flat base = addWords (linkByte elfData e.loaded) base
      (relocs.map fun x => e.loaded.dataVa + x.dataOffset) := by
  have hlength : (seg.textData ++ seg.dataData).length = e.loaded.bssVa := by
    rw [List.length_append, hseg.length_text, hseg.length_data]
  have hend : flatDataEnd flat - bfltHeaderSize = e.loaded.bssVa := by
    rw [hfile.dataEnd, ← hlength, List.length_append]
    omega
  -- text and data are read to their addresses, and zeros follow
  have himage : (fun v => if v < flatDataEnd flat - bfltHeaderSize then
      load flat (bfltHeaderSize + v) else 0) = linkByte elfData e.loaded := by
    funext v
    rw [hend]
    split_ifs with hv
    · rw [hfile.image v (by rwa [hlength])]
      have hspells := spells_append hseg.spells_text
        (by rw [hseg.length_text, Nat.zero_add]; exact hseg.spells_data)
      rw [hspells v (by rwa [hlength]), Nat.zero_add]
    · exact (e.linkByte_of_bssVa_le (Nat.not_lt.mp hv)).symm
  -- the low 26 bits of an entry are its offset in the data
  have hsites : flatSites flat = relocs.map fun x => e.loaded.dataVa + x.dataOffset := by
    rw [hfile.sites, hseg.length_text]
    refine List.map_congr_left fun x hx => ?_
    obtain ⟨hentry, hle⟩ := hencoded x hx
    show _ + (x.v2Entry &&& 2 ^ 26 - 1) = _
    rw [hentry, Nat.and_two_pow_sub_one_of_lt_two_pow (by omega)]
  unfold loadFlat
  rw [himage, hsites]

/-- How often a site is relocated. -/
theorem FlatElf.count_eq_one_iff {listed slots : List Nat} (hslots : AddsSlots e slots)
    (hperm : listed.Perm (absSites elfData e.sections e.loaded ++ slots)) :
    (∀ s ∈ absSites elfData e.sections e.loaded ++ gotSites elfData e.sections e.loaded,
        listed.count s = 1) ↔
      (absSites elfData e.sections e.loaded).Nodup ∧
        ∀ s ∈ gotSites elfData e.sections e.loaded,
          s ∉ absSites elfData e.sections e.loaded → word (linkByte elfData e.loaded) s ≠ 0 := by
  obtain ⟨hnodup, hmem⟩ := hslots
  have hcount : ∀ s, listed.count s
      = (absSites elfData e.sections e.loaded).count s + slots.count s := fun s => by
    rw [hperm.count_eq, List.count_append]
  have habs : ∀ s ∈ absSites elfData e.sections e.loaded, slots.count s = 0 := fun s hs =>
    List.count_eq_zero.mpr fun h => ((hmem s).mp h).1 hs
  constructor
  · intro h
    refine ⟨List.nodup_iff_count_eq_one.mpr fun s hs => ?_, fun s hs hold => ?_⟩
    · have := h s (List.mem_append_left _ hs)
      rwa [hcount, habs s hs] at this
    · have hone := h s (List.mem_append_right _ hs)
      rw [hcount, List.count_eq_zero.mpr hold, Nat.zero_add] at hone
      exact ((hmem s).mp (List.count_pos_iff.mp (by omega))).2.1
  · rintro ⟨hdistinct, hne⟩ s hs
    -- a site has a relocation of its own or is a slot, not both
    rw [hcount]
    by_cases hold : s ∈ absSites elfData e.sections e.loaded
    · rw [habs s hold, List.count_eq_one_of_mem hdistinct hold]
    · have hgot := (List.mem_append.mp hs).resolve_left hold
      obtain ⟨r, hr, rfl⟩ := List.mem_map.mp hgot
      obtain ⟨hr, hdefined⟩ := List.mem_filter.mp hr
      have hslot := (hmem _).mpr
        ⟨hold, hne _ hgot hold, r, hr, (of_decide_eq_true hdefined).1, rfl⟩
      rw [List.count_eq_zero.mpr hold, List.count_eq_one_of_mem hnodup hslot]

/-- Which slots are relocated that should not be. -/
theorem FlatElf.subset_iff {listed slots : List Nat} (hslots : AddsSlots e slots)
    (hperm : listed.Perm (absSites elfData e.sections e.loaded ++ slots)) :
    (∀ t ∈ listed,
        t ∈ absSites elfData e.sections e.loaded ++ gotSites elfData e.sections e.loaded) ↔
      ∀ s ∈ undefinedSlots elfData e.sections e.loaded,
        s ∉ absSites elfData e.sections e.loaded ++ gotSites elfData e.sections e.loaded →
          word (linkByte elfData e.loaded) s = 0 := by
  obtain ⟨-, hmem⟩ := hslots
  constructor
  · intro h s hs hnot
    by_contra hne
    obtain ⟨r, hr, rfl⟩ := List.mem_map.mp hs
    obtain ⟨hr, htype⟩ := List.mem_filter.mp hr
    have hslot := (hmem _).mpr ⟨fun habs => hnot (List.mem_append_left _ habs), hne, r, hr,
      (of_decide_eq_true htype).1, rfl⟩
    exact hnot (h _ (hperm.mem_iff.mpr (List.mem_append_right _ hslot)))
  · intro h t ht
    by_contra hnot
    rcases List.mem_append.mp (hperm.mem_iff.mp ht) with habs | hslot
    · exact hnot (List.mem_append_left _ habs)
    · obtain ⟨-, hne, r, hr, htype, rfl⟩ := (hmem t).mp hslot
      -- a slot that is listed and is no site belongs to an undefined symbol
      have hundefined : ¬ symbolDefined elfData e.sections r := fun hdefined =>
        hnot (List.mem_append_right _ (List.mem_map_of_mem
          (List.mem_filter.mpr ⟨hr, decide_eq_true ⟨htype, hdefined⟩⟩)))
      exact hne (h _ (List.mem_map_of_mem
        (List.mem_filter.mpr ⟨hr, decide_eq_true ⟨htype, hundefined⟩⟩)) hnot)

end

/-- Every place can be relocated, is relocated once, and nothing else is. -/
structure SlotsMatch {elfData : List UInt8} (e : FlatElf elfData) : Prop where
  /-- No two places to relocate overlap. -/
  separate : ∀ s ∈ absSites elfData e.sections e.loaded ++ gotSites elfData e.sections e.loaded,
    ∀ t ∈ absSites elfData e.sections e.loaded ++ gotSites elfData e.sections e.loaded,
      s ≠ t → Separate s t
  /-- No site is listed twice. -/
  nodup : (absSites elfData e.sections e.loaded).Nodup
  /-- The slot of a defined symbol is not zero. -/
  defined : ∀ s ∈ gotSites elfData e.sections e.loaded,
    s ∉ absSites elfData e.sections e.loaded → word (linkByte elfData e.loaded) s ≠ 0
  /-- The slot of an undefined symbol is zero. -/
  undefined : ∀ s ∈ undefinedSlots elfData e.sections e.loaded,
    s ∉ absSites elfData e.sections e.loaded ++ gotSites elfData e.sections e.loaded →
      word (linkByte elfData e.loaded) s = 0

/-- The memory is right under the condition. -/
theorem FlatElf.memory_iff {elfData flat : List UInt8} (e : FlatElf elfData)
    (h : elf2bflt elfData = some flat) :
    (∀ base, Relocates (linkByte elfData e.loaded) (loadFlat flat base) base
        (absSites elfData e.sections e.loaded ++ gotSites elfData e.sections e.loaded)) ↔
      SlotsMatch e := by
  obtain ⟨seg, relocs, slots, hseg, hfile, hencoded, hslots, hperm⟩ := e.exists_fileOf h
  have hlen : (relocs.map fun x => e.loaded.dataVa + x.dataOffset).length < 2 ^ 32 := by
    rw [List.length_map]
    exact hfile.relocCount_lt
  -- a place that is no site is listed once at most
  have hextra : ∀ t ∉ absSites elfData e.sections e.loaded ++ gotSites elfData e.sections e.loaded,
      (relocs.map fun x => e.loaded.dataVa + x.dataOffset).count t < 256 := by
    intro t ht
    have hnone := List.count_eq_zero.mpr fun habs => ht (List.mem_append_left _ habs)
    have honce := List.nodup_iff_count_le_one.mp hslots.1 t
    rw [hperm.count_eq, List.count_append, hnone]
    omega
  have hload : (∀ base, Relocates (linkByte elfData e.loaded) (loadFlat flat base) base
        (absSites elfData e.sections e.loaded ++ gotSites elfData e.sections e.loaded)) ↔
      ∀ base, Relocates (linkByte elfData e.loaded) (addWords (linkByte elfData e.loaded) base
        (relocs.map fun x => e.loaded.dataVa + x.dataOffset)) base
        (absSites elfData e.sections e.loaded ++ gotSites elfData e.sections e.loaded) :=
    forall_congr' fun base => by rw [e.loadFlat_eq hseg hfile hencoded]
  rw [hload, relocates_iff hextra hlen, e.subset_iff hslots hperm,
    e.count_eq_one_iff hslots hperm]
  exact ⟨fun ⟨hundefined, hseparate, hnodup, hdefined⟩ =>
    ⟨hseparate, hnodup, hdefined, hundefined⟩, fun hmatch =>
    ⟨hmatch.undefined, hmatch.separate, hmatch.nodup, hmatch.defined⟩⟩

/-- The header always describes the layout. -/
theorem FlatElf.header_spec {elfData flat : List UInt8} (e : FlatElf elfData)
    (h : elf2bflt elfData = some flat) :
    flatDataStart flat = bfltHeaderSize + e.loaded.dataVa ∧
      flatDataEnd flat = bfltHeaderSize + e.loaded.bssVa ∧
      flatBssEnd flat = bfltHeaderSize + e.loaded.bssEnd ∧
      flatRelocStart flat = flatDataEnd flat := by
  obtain ⟨seg, relocs, slots, hseg, hfile, -⟩ := e.exists_fileOf h
  refine ⟨?_, ?_, ?_, hfile.relocStart⟩
  · rw [hfile.dataStart, hseg.length_text]
  · rw [hfile.dataEnd, hseg.length_text, Nat.add_assoc, hseg.length_data]
  · rw [hfile.bssEnd, hseg.length_text, ← hseg.bssSize, ← hseg.length_data]
    omega

/-- A section of the file, with the fields that are zero for it left out. -/
def sampleSection (name : String) (shName shType shOffset shSize : Nat) : Section where
  name := ascii name
  shName := shName
  shType := shType
  shFlags := 0
  shAddr := 0
  shOffset := shOffset
  shSize := shSize
  shLink := 0
  shInfo := 0
  shAddralign := 0
  shEntsize := 0

/-- Eight bytes of code and literals. -/
def sampleText : Section :=
  { sampleSection ".text" 5 1 52 8 with shFlags := 6 }

/-- The slot. -/
def sampleData : Section :=
  { sampleSection ".data" 11 1 60 4 with shFlags := 3, shAddr := 8 }

def sampleSections : List Section :=
  [sampleSection "" 0 0 0 0, sampleText, sampleData,
    { sampleSection ".rel.text" 1 9 64 8 with shLink := 4, shInfo := 1, shEntsize := 8 },
    { sampleSection ".symtab" 17 2 72 32 with shEntsize := 16 },
    sampleSection ".shstrtab" 25 3 104 35]

/-- A section header in the file. -/
def SectionHeader.bytes (h : SectionHeader) : List UInt8 :=
  [h.shName, h.shType, h.shFlags, h.shAddr, h.shOffset, h.shSize, h.shLink, h.shInfo,
    h.shAddralign, h.shEntsize].flatMap fun n => le32 (UInt32.ofNat n)

/-- A program with one `R_ARM_GOT_BREL` relocation: the slot is the first word of the data, for a
symbol of `.text` with the given address. -/
def sampleElf (symbol : UInt32) : List UInt8 :=
  elfMagic ++ [1, 1, 1] ++ List.replicate 9 0 ++ [2, 0, 40, 0] ++ le32 1 ++ le32 0 ++ le32 0 ++
    le32 139 ++ le32 0 ++ [52, 0, 0, 0, 0, 0, 40, 0, 6, 0, 5, 0] ++
  -- `.text`, with the literal behind the code
  le32 0xE1A0F00E ++ le32 0 ++
  -- `.data`
  le32 symbol ++
  -- `.rel.text`: the literal, and the first symbol
  le32 4 ++ le32 0x11A ++
  -- `.symtab`: the symbol is defined in the first section
  List.replicate 16 0 ++ le32 0 ++ le32 symbol ++ le32 0 ++ [0x12, 0, 1, 0] ++
  [0] ++ ascii ".rel.text" ++ [0] ++ ascii ".data" ++ [0] ++ ascii ".symtab" ++ [0] ++
    ascii ".shstrtab" ++ [0] ++
  sampleSections.flatMap fun s => s.toSectionHeader.bytes

/-- What is loaded of it. -/
def sampleLoaded : LoadedSections where
  text := sampleText
  rodata := none
  data := some sampleData
  got := none
  bss := none

/-- What depends on the bytes of the file. -/
def SampleFits (symbol : UInt32) : Prop :=
  readElf (sampleElf symbol) = some (0, sampleSections) ∧
    (∀ s ∈ sampleLoaded.textSecs ++ sampleLoaded.dataSecs,
      s.shOffset + s.shSize ≤ (sampleElf symbol).length) ∧
    ∀ r ∈ loadedRels (sampleElf symbol) sampleSections, r.rType = rArmGotBrel →
      gotSlot (sampleElf symbol) sampleLoaded r + 4 ≤ sampleLoaded.bssVa

instance (symbol : UInt32) : Decidable (SampleFits symbol) :=
  inferInstanceAs (Decidable (_ ∧ _ ∧ _))

def sampleFlat (symbol : UInt32) (h : SampleFits symbol) : FlatElf (sampleElf symbol) where
  entry := 0
  sections := sampleSections
  read := h.1
  loaded := sampleLoaded
  loaded_eq := by decide
  text_zero := rfl
  ordered := by decide
  in_file := h.2.1
  rel := by decide
  slot_le := h.2.2

/-- With its symbol at address 4 the sample is a flat ELF file. -/
theorem sampleFits_four : SampleFits 4 := by decide +kernel

/-- So it is with its symbol at address 0. -/
theorem sampleFits_zero : SampleFits 0 := by decide +kernel

end SN110
