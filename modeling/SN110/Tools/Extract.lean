import SN110.Tools.Flat

/-!
# What the extractions return

Both extractions leave the data alone: they store back the word that they have read.

* `forEntries_eq_some`, `foldlM_loadedRels`: the loops over sections and entries, as one loop over
  the relocations of the loaded sections.
* `extractRelocsV2_spec`: the sites of `extract_relocs_v2`.
* `extractGotRelocs_spec`: the slots of `extract_got_relocs`, which are not zero.

## How the loops are taken apart

Python's loops go over the sections and over the entries of each, carry the relocations and the data
along, and are left at the first exception. `foldlM_loadedRels` makes one loop over a list of
entries of the two, so that an extraction is an induction over that list. Its step says what one
entry adds, and that the data come out as they went in (`extractReloc_eq_some`,
`collectGotEntry_eq_some`); the conditions under which an entry raises are what the hypothesis that
the tool returns a value excludes.
-/

namespace SN110

open Memory Words

/-- An entry that the loader reads as the offset it is for. -/
structure Reloc.Encoded (r : Reloc) : Prop where
  v2Entry : r.v2Entry = r.dataOffset
  le : r.dataOffset ≤ 0x03FFFFFF

theorem encodeReloc_eq_some {data data' : List UInt8} {off w : Nat} {r : Reloc}
    (hread : unpackU32 data off = some w) (h : encodeReloc data off w = some (r, data')) :
    data' = data ∧ r.dataOffset = off ∧ r.Encoded := by
  obtain ⟨-, hword⟩ := unpackU32_natCast_eq_some.mp hread
  have hstore : store data off (le32 (UInt32.ofNat w)) = data := by
    rw [← hword, UInt32.ofNat_toNat, store_le32_word]
  unfold encodeReloc at h
  dsimp only at h
  rw [hstore] at h
  split_ifs at h with hlimit
  obtain ⟨hr, hdata⟩ := Prod.mk.inj (Option.some.inj h)
  subst hr
  refine ⟨hdata.symm, rfl, ?_, Nat.not_lt.mp hlimit⟩
  -- the type is zero, and the mask keeps the offset
  show 0 <<< 26 ||| (off &&& 2 ^ 26 - 1) = off
  rw [Nat.and_two_pow_sub_one_of_lt_two_pow (by omega), Nat.zero_shiftLeft, Nat.zero_or]

/-! ## The loops -/

section

variable {elfData : List UInt8} {sections : List Section} {sec : Section} {σ : Type}
  {body : σ → Nat → Nat → Option σ} {st st' : σ}

/-- The loop over the entries of a section. -/
theorem forEntries_eq_some (hsize : sec.shEntsize = 8)
    (h : forEntries elfData sec body st = some st') :
    (relEntries elfData sec).foldlM (fun st r => body st r.rOffset r.rInfo) st = some st' := by
  unfold forEntries at h
  rw [if_neg (by omega)] at h
  unfold relEntries
  rw [List.foldlM_map]
  rw [hsize] at h ⊢
  generalize List.range (sec.shSize / 8) = is at h ⊢
  induction is generalizing st with
  | nil => exact h
  | cons i is ih =>
    rw [List.foldlM_cons] at h ⊢
    obtain ⟨next, hentry, hrest⟩ := Option.bind_eq_some_iff.mp h
    obtain ⟨rOffset, hoff, hentry⟩ := Option.bind_eq_some_iff.mp hentry
    obtain ⟨rInfo, hinfo, hentry⟩ := Option.bind_eq_some_iff.mp hentry
    rw [(unpackU32_natCast_eq_some.mp hoff).2, (unpackU32_natCast_eq_some.mp hinfo).2, hentry]
    exact ih hrest

/-- The loop over the sections. -/
theorem foldlM_loadedRels {skip : Section → Prop} [DecidablePred skip] {secs : List Section}
    (hsize : ∀ sec ∈ secs, sec.shType = shtRel → sec.shEntsize = 8)
    (hskip : ∀ sec ∈ secs, sec.shType = shtRel →
      (skip sec ↔ targetLoaded sections sec ≠ some true))
    (h : secs.foldlM (fun st sec =>
      if sec.shType ≠ shtRel then some st
      else if skip sec then some st
      else forEntries elfData sec body st) st = some st') :
    ((secs.filter fun sec => IsLoadedRel sections sec).flatMap (relEntries elfData)).foldlM
      (fun st r => body st r.rOffset r.rInfo) st = some st' := by
  induction secs generalizing st with
  | nil => exact h
  | cons sec secs ih =>
    rw [List.foldlM_cons] at h
    obtain ⟨next, hsec, hrest⟩ := Option.bind_eq_some_iff.mp h
    have hnext := ih (fun s hs => hsize s (List.mem_cons_of_mem sec hs))
      (fun s hs => hskip s (List.mem_cons_of_mem sec hs)) hrest
    -- a section is skipped when it is no relocation section or its target is not loaded
    split_ifs at hsec with htype hskipped
    · obtain rfl := Option.some.inj hsec
      rwa [List.filter_cons_of_neg (by simp [IsLoadedRel, htype])]
    · obtain rfl := Option.some.inj hsec
      have hrel : sec.shType = shtRel := not_not.mp htype
      have hnot := (hskip sec List.mem_cons_self hrel).mp hskipped
      rwa [List.filter_cons_of_neg (by simp [IsLoadedRel, hnot])]
    · have hrel : sec.shType = shtRel := not_not.mp htype
      have hloaded : targetLoaded sections sec = some true :=
        not_not.mp fun hne => hskipped ((hskip sec List.mem_cons_self hrel).mpr hne)
      rw [List.filter_cons_of_pos (by simp [IsLoadedRel, hrel, hloaded]), List.flatMap_cons,
        List.foldlM_append, forEntries_eq_some (hsize sec List.mem_cons_self hrel) hsec]
      exact hnext

end

/-! ## `extract_relocs_v2` -/

/-- A relocation that `extract_relocs_v2` takes: its site is in the data segment. -/
def InData (dataVa bssVa : Nat) (r : Rel) : Prop :=
  r.rType = rArmAbs32 ∧ dataVa ≤ r.rOffset ∧ r.rOffset < bssVa

instance (dataVa bssVa : Nat) (r : Rel) : Decidable (InData dataVa bssVa r) :=
  inferInstanceAs (Decidable (_ ∧ _ ∧ _))

section

variable {dataVa bssVa : Nat} {st st' : Extraction} {rels : List Rel} {r : Rel}

/-- One relocation. -/
theorem extractReloc_eq_some
    (h : extractReloc dataVa dataVa bssVa st r.rOffset r.rInfo = some st') :
    st'.dataBytes = st.dataBytes ∧
      if InData dataVa bssVa r then
        ∃ x : Reloc, x.Encoded ∧ x.dataOffset = r.rOffset - dataVa ∧ st'.relocs = st.relocs ++ [x]
      else st'.relocs = st.relocs := by
  unfold extractReloc at h
  split_ifs at h with htype htext hbss
  · obtain rfl := Option.some.inj h
    exact ⟨rfl, by rw [if_neg fun hin => htype hin.1]⟩
  · obtain rfl := Option.some.inj h
    exact ⟨rfl, by rw [if_neg fun hin => Nat.not_lt.mpr hin.2.1 htext]⟩
  · obtain rfl := Option.some.inj h
    exact ⟨rfl, by rw [if_neg fun hin => Nat.not_lt.mpr hbss hin.2.2]⟩
  · obtain ⟨w, hread, h⟩ := Option.bind_eq_some_iff.mp h
    obtain ⟨⟨x, data⟩, hencode, h⟩ := Option.bind_eq_some_iff.mp h
    obtain ⟨hdata, hoff, hx⟩ := encodeReloc_eq_some hread hencode
    obtain rfl := Option.some.inj h
    have hin : InData dataVa bssVa r :=
      ⟨not_not.mp htype, Nat.not_lt.mp htext, Nat.not_le.mp hbss⟩
    rw [if_pos hin]
    exact ⟨hdata, x, hx, hoff, rfl⟩

/-- All of them. -/
theorem foldlM_extractReloc
    (h : rels.foldlM (fun st r => extractReloc dataVa dataVa bssVa st r.rOffset r.rInfo) st
      = some st') :
    st'.dataBytes = st.dataBytes ∧ ∃ new : List Reloc, st'.relocs = st.relocs ++ new ∧
      (∀ x ∈ new, x.Encoded) ∧
      new.map Reloc.dataOffset
        = (rels.filter fun r => InData dataVa bssVa r).map fun r => r.rOffset - dataVa := by
  induction rels generalizing st with
  | nil =>
    obtain rfl := Option.some.inj h
    exact ⟨rfl, [], (List.append_nil _).symm, fun x hx => absurd hx List.not_mem_nil, rfl⟩
  | cons r rels ih =>
    rw [List.foldlM_cons] at h
    obtain ⟨next, hone, hrest⟩ := Option.bind_eq_some_iff.mp h
    obtain ⟨hdata, hrelocs⟩ := extractReloc_eq_some hone
    obtain ⟨hdata', new, hnew, hencoded, hoffsets⟩ := ih hrest
    refine ⟨hdata'.trans hdata, ?_⟩
    -- a relocation in the data gives one entry, another one none
    split_ifs at hrelocs with hin
    · obtain ⟨x, hx, hoff, hnext⟩ := hrelocs
      refine ⟨x :: new, ?_, ?_, ?_⟩
      · rw [hnew, hnext, List.append_assoc]
        rfl
      · exact List.forall_mem_cons.mpr ⟨hx, hencoded⟩
      · rw [List.filter_cons_of_pos (by simpa using hin), List.map_cons, List.map_cons, hoff,
          hoffsets]
    · refine ⟨new, ?_, hencoded, ?_⟩
      · rw [hnew, hrelocs]
      · rw [List.filter_cons_of_neg (by simpa using hin), hoffsets]

end

theorem mem_sortRelocs {x : Reloc} {relocs : List Reloc} : x ∈ sortRelocs relocs ↔ x ∈ relocs :=
  (List.perm_insertionSort _ relocs).mem_iff

/-- `extract_relocs_v2` skips the relocations that are not of a loaded section: the section they are
for is always there. -/
theorem FlatElf.skipped_iff {elfData : List UInt8} (e : FlatElf elfData) (sec : Section)
    (hsec : sec ∈ e.sections) (hrel : sec.shType = shtRel) :
    targetLoaded e.sections sec = some false ↔ targetLoaded e.sections sec ≠ some true := by
  have hlt := (e.rel sec hsec hrel).2
  unfold targetLoaded
  rw [List.getElem?_eq_getElem hlt, Option.map_some]
  simp

/-- **The sites of `extract_relocs_v2`.** -/
theorem FlatElf.extractRelocsV2_spec {elfData data data' : List UInt8} (e : FlatElf elfData)
    {relocs : List Reloc}
    (h : extractRelocsV2 elfData e.sections e.loaded.dataVa e.loaded.dataVa e.loaded.bssVa data
      = some (relocs, data')) :
    data' = data ∧ (∀ x ∈ relocs, x.Encoded) ∧
      (relocs.map fun x => e.loaded.dataVa + x.dataOffset).Perm
        (absSites elfData e.sections e.loaded) := by
  unfold extractRelocsV2 at h
  obtain ⟨st, hloop, h⟩ := Option.bind_eq_some_iff.mp h
  obtain ⟨hdata, new, hnew, hencoded, hoffsets⟩ := foldlM_extractReloc
    (foldlM_loadedRels (fun sec hsec hrel => (e.rel sec hsec hrel).1) e.skipped_iff hloop)
  split_ifs at h
  obtain ⟨hrelocs, hdata'⟩ := Prod.mk.inj (Option.some.inj h)
  subst hrelocs hdata'
  rw [List.nil_append] at hnew
  refine ⟨hdata, fun x hx => hencoded x (hnew ▸ mem_sortRelocs.mp hx), ?_⟩
  -- sorted, the entries are those of the relocations in the data
  refine ((List.perm_insertionSort _ _).map _).trans ?_
  have hmap : (new.map fun x => e.loaded.dataVa + x.dataOffset)
      = (new.map Reloc.dataOffset).map (e.loaded.dataVa + ·) := by
    rw [List.map_map]
    rfl
  rw [hnew, hmap, hoffsets, List.map_map]
  refine List.Perm.of_eq (List.map_congr_left fun r hr => ?_)
  have hin : InData e.loaded.dataVa e.loaded.bssVa r :=
    of_decide_eq_true (List.mem_filter.mp hr).2
  exact Nat.add_sub_cancel' hin.2.1

/-! ## `extract_got_relocs` -/

section

variable {elfData data : List UInt8} {e : FlatElf elfData} {existing offs offs' : List Nat}
  {rels : List Rel} {r : Rel}

/-- One relocation: its literal is collected, unless the slot is a site already. -/
theorem collectGotEntry_eq_some
    (h : collectGotEntry elfData e.loaded.text existing offs r.rOffset r.rInfo = some offs') :
    offs' = if r.rType = rArmGotBrel ∧ gotLiteral elfData e.loaded r ∉ existing then
      offs.insert (gotLiteral elfData e.loaded r) else offs := by
  unfold collectGotEntry at h
  split_ifs at h with htype
  · obtain rfl := Option.some.inj h
    exact (if_neg fun hr => htype hr.1).symm
  · obtain ⟨w, hread, h⟩ := Option.bind_eq_some_iff.mp h
    have hpos : (e.loaded.text.shOffset : Int) + ((r.rOffset : Int) - e.loaded.text.shAddr)
        = ((e.loaded.text.shOffset + (r.rOffset - e.loaded.text.shAddr) : Nat) : Int) := by
      rw [e.text_zero]
      omega
    rw [hpos] at hread
    obtain rfl : gotLiteral elfData e.loaded r = w := (unpackU32_natCast_eq_some.mp hread).2
    have htype' : r.rType = rArmGotBrel := not_not.mp htype
    split_ifs at h with hold
    · rw [if_neg fun hr => hr.2 hold]
      exact (Option.some.inj h).symm
    · rw [if_pos (And.intro htype' hold)]
      exact (Option.some.inj h).symm

/-- All of them, each slot once. -/
theorem foldlM_collectGotEntry
    (h : rels.foldlM (fun offs r =>
      collectGotEntry elfData e.loaded.text existing offs r.rOffset r.rInfo) offs = some offs') :
    (offs.Nodup → offs'.Nodup) ∧ ∀ o, o ∈ offs' ↔ o ∈ offs ∨ (o ∉ existing ∧
      ∃ r ∈ rels, r.rType = rArmGotBrel ∧ gotLiteral elfData e.loaded r = o) := by
  induction rels generalizing offs with
  | nil =>
    obtain rfl := Option.some.inj h
    exact ⟨id, fun o => by simp⟩
  | cons r rels ih =>
    rw [List.foldlM_cons] at h
    obtain ⟨next, hone, hrest⟩ := Option.bind_eq_some_iff.mp h
    obtain ⟨hnodup, hmem⟩ := ih hrest
    have hnext := collectGotEntry_eq_some hone
    -- the slot is added if the relocation is one for the GOT and has no entry of its own
    split_ifs at hnext with hr
    · subst hnext
      refine ⟨fun hoffs => hnodup (hoffs.insert), fun o => (hmem o).trans ?_⟩
      rw [List.mem_insert_iff, List.exists_mem_cons_iff]
      have hself : o = gotLiteral elfData e.loaded r → o ∉ existing := fun ho => ho ▸ hr.2
      constructor
      · rintro ((ho | hin) | ⟨ho, hlater⟩)
        · exact Or.inr ⟨hself ho, Or.inl ⟨hr.1, ho.symm⟩⟩
        · exact Or.inl hin
        · exact Or.inr ⟨ho, Or.inr hlater⟩
      · rintro (hin | ⟨ho, ⟨-, heq⟩ | hlater⟩)
        · exact Or.inl (Or.inr hin)
        · exact Or.inl (Or.inl heq.symm)
        · exact Or.inr ⟨ho, hlater⟩
    · subst hnext
      refine ⟨hnodup, fun o => (hmem o).trans (or_congr_right (and_congr_right fun ho => ?_))⟩
      rw [List.exists_mem_cons_iff]
      refine (or_iff_right ?_).symm
      exact fun ⟨htype, heq⟩ => hr ⟨htype, heq ▸ ho⟩

/-- The second loop: the slots that are inside the data and not zero. -/
theorem foldlM_extractGotEntry {st st' : List Reloc × List UInt8}
    (h : offs.foldlM extractGotEntry st = some st') :
    st'.2 = st.2 ∧ ∃ new : List Reloc, st'.1 = st.1 ++ new ∧ (∀ x ∈ new, x.Encoded) ∧
      new.map Reloc.dataOffset = offs.filter fun o =>
        o + 4 ≤ st.2.length ∧ word (load st.2) o ≠ 0 := by
  induction offs generalizing st with
  | nil =>
    obtain rfl := Option.some.inj h
    exact ⟨rfl, [], (List.append_nil _).symm, fun x hx => absurd hx List.not_mem_nil, rfl⟩
  | cons o offs ih =>
    rw [List.foldlM_cons] at h
    obtain ⟨next, hone, hrest⟩ := Option.bind_eq_some_iff.mp h
    obtain ⟨hdata, new, hnew, hencoded, hoffsets⟩ := ih hrest
    unfold extractGotEntry at hone
    split_ifs at hone with hbound
    · -- a slot that the data does not hold
      obtain rfl := Option.some.inj hone
      refine ⟨hdata, new, hnew, hencoded, ?_⟩
      rw [List.filter_cons_of_neg (by simp; omega), hoffsets]
    · obtain ⟨w, hread, hone⟩ := Option.bind_eq_some_iff.mp hone
      obtain ⟨hle, hw⟩ := unpackU32_natCast_eq_some.mp hread
      have hzero : w = 0 ↔ word (load st.2) o = 0 := by
        rw [← hw, ← UInt32.toNat_inj]
        rfl
      -- a slot whose word is 0 is taken for an undefined symbol's
      split_ifs at hone with hskip
      · obtain rfl := Option.some.inj hone
        refine ⟨hdata, new, hnew, hencoded, ?_⟩
        rw [List.filter_cons_of_neg (by simp [hzero.mp hskip]), hoffsets]
      · obtain ⟨⟨x, data'⟩, hencode, hone⟩ := Option.bind_eq_some_iff.mp hone
        obtain ⟨hdata', hoff, hx⟩ := encodeReloc_eq_some hread hencode
        obtain rfl := Option.some.inj hone
        subst hdata'
        refine ⟨hdata, x :: new, ?_, List.forall_mem_cons.mpr ⟨hx, hencoded⟩, ?_⟩
        · rw [hnew, List.append_assoc]
          rfl
        · have hkeep : o + 4 ≤ st.2.length ∧ word (load st.2) o ≠ 0 :=
            ⟨hle, fun h => hskip (hzero.mpr h)⟩
          rw [List.filter_cons_of_pos (by simpa using hkeep), List.map_cons, hoff, hoffsets]

end

/-- **The slots of `extract_got_relocs`**: each once, those of the relocations that are not sites
already and are not zero. -/
theorem FlatElf.extractGotRelocs_spec {elfData data data' : List UInt8} (e : FlatElf elfData)
    {existing : List Nat} {relocs : List Reloc}
    (h : extractGotRelocs elfData e.sections data existing = some (relocs, data')) :
    data' = data ∧ (∀ x ∈ relocs, x.Encoded) ∧ (relocs.map Reloc.dataOffset).Nodup ∧
      ∀ o, o ∈ relocs.map Reloc.dataOffset ↔ o ∉ existing ∧ o + 4 ≤ data.length ∧
        word (load data) o ≠ 0 ∧ ∃ r ∈ loadedRels elfData e.sections,
          r.rType = rArmGotBrel ∧ gotLiteral elfData e.loaded r = o := by
  have htext : findSection e.sections ".text" = some e.loaded.text := by
    obtain ⟨text, htext, hloaded⟩ := Option.map_eq_some_iff.mp e.loaded_eq
    rw [htext, ← hloaded]
  unfold extractGotRelocs at h
  rw [htext] at h
  obtain ⟨offs, hcollect, h⟩ := Option.bind_eq_some_iff.mp h
  obtain ⟨st, hextract, h⟩ := Option.bind_eq_some_iff.mp h
  obtain ⟨hrelocs, hdata'⟩ := Prod.mk.inj (Option.some.inj h)
  obtain ⟨hnodup, hmem⟩ := foldlM_collectGotEntry
    (foldlM_loadedRels (fun sec hsec hrel => (e.rel sec hsec hrel).1) (fun _ _ _ => Iff.rfl)
      hcollect)
  obtain ⟨hdata, new, hnew, hencoded, hoffsets⟩ := foldlM_extractGotEntry hextract
  subst hrelocs hdata'
  rw [List.nil_append] at hnew
  -- each slot that is kept has one entry
  have hperm : ((sortRelocs st.1).map Reloc.dataOffset).Perm
      ((offs.insertionSort (· ≤ ·)).filter fun o => o + 4 ≤ data.length ∧
        word (load data) o ≠ 0) := by
    rw [← hoffsets, ← hnew]
    exact (List.perm_insertionSort _ _).map _
  refine ⟨hdata, fun x hx => hencoded x (hnew ▸ mem_sortRelocs.mp hx), ?_, fun o => ?_⟩
  · refine hperm.nodup_iff.mpr (List.Nodup.filter _ ?_)
    exact (List.perm_insertionSort _ _).nodup_iff.mpr (hnodup List.nodup_nil)
  · rw [hperm.mem_iff, List.mem_filter, (List.perm_insertionSort _ _).mem_iff, hmem,
      decide_eq_true_eq]
    constructor
    · rintro ⟨hin | ⟨ho, hr⟩, hle, hne⟩
      · exact absurd hin List.not_mem_nil
      · exact ⟨ho, hle, hne, hr⟩
    · rintro ⟨ho, hle, hne, hr⟩
      exact ⟨Or.inr ⟨ho, hr⟩, hle, hne⟩

end SN110
