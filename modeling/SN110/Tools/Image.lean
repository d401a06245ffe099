import SN110.Tools.Flat

/-!
# The segments are the linked memory

`segments` puts the sections one after the other, with zeros between them.

* `linkByte_of_mem`, `linkByte_of_outside`: the linked memory, section by section.
* `segments_spec`: what `main` has built before it looks at relocations.

## How the layout is used

`flat.ld` puts the sections one behind the other, so that their pieces are ordered in the file and
in each segment. An ordered list of pieces, laid out up to a given end, spells what the linked
memory holds there (`FlatElf.spells_segment`), each piece by its own bytes and the gaps by zeros.
The text and the data segment are two instances of that, and the addresses between which they lie
are ordered by `FlatElf.textEnd_le_dataVa` and `FlatElf.dataEnd_le_bssVa`.
-/

namespace SN110

open Memory Words Layout

/-- A section as a piece of the memory. -/
def sectionPiece (elfData : List UInt8) (s : Section) : Piece :=
  (s.shAddr, sectionBytes elfData s)

section

variable {elfData : List UInt8} (e : FlatElf elfData) {s : Section} {v : Nat}

/-! ## The order of the sections -/

/-- The sections of the file come one behind the other. -/
theorem FlatElf.ordered_file :
    (e.loaded.textSecs ++ e.loaded.dataSecs).Pairwise fun a b => a.endVa ≤ b.shAddr :=
  (List.pairwise_append.mp e.ordered).1

/-- So do those of the text segment. -/
theorem FlatElf.ordered_text :
    e.loaded.textSecs.Pairwise fun a b => a.endVa ≤ b.shAddr :=
  (List.pairwise_append.mp e.ordered_file).1

/-- So do those of the data segment. -/
theorem FlatElf.ordered_data :
    e.loaded.dataSecs.Pairwise fun a b => a.endVa ≤ b.shAddr :=
  (List.pairwise_append.mp e.ordered_file).2.1

theorem shAddr_le_endVa (s : Section) : s.shAddr ≤ s.endVa := Nat.le_add_right _ _

/-- The text segment ends where its last section does. -/
theorem LoadedSections.textEnd_eq (l : LoadedSections) :
    l.textEnd = (l.textSecs.getLast?.map Section.endVa).getD 0 := by
  unfold LoadedSections.textEnd LoadedSections.textSecs
  cases l.rodata <;> rfl

/-- The end of the last section is past the others. -/
theorem endVa_le_of_mem {secs : List Section} {n : Nat}
    (h : secs.Pairwise fun a b => a.endVa ≤ b.shAddr) (hs : s ∈ secs) :
    s.endVa ≤ (secs.getLast?.map Section.endVa).getD n := by
  induction secs with
  | nil => cases hs
  | cons a secs ih =>
    obtain ⟨hfirst, hrest⟩ := List.pairwise_cons.mp h
    rw [List.getLast?_cons]
    rcases List.mem_cons.mp hs with rfl | hs
    · cases hlast : secs.getLast? with
      | none => exact Nat.le_refl _
      | some b =>
        exact (hfirst b (List.mem_of_getLast? hlast)).trans (shAddr_le_endVa b)
    · have := ih hrest hs
      cases hlast : secs.getLast? with
      | none => rw [List.getLast?_eq_none_iff.mp hlast] at hs; cases hs
      | some b => rwa [hlast] at this

/-- Each text section ends within the text segment. -/
theorem FlatElf.endVa_le_textEnd (hs : s ∈ e.loaded.textSecs) : s.endVa ≤ e.loaded.textEnd := by
  rw [LoadedSections.textEnd_eq]
  exact endVa_le_of_mem e.ordered_text hs

/-- The text segment ends where one of its sections does. -/
theorem FlatElf.exists_textEnd : ∃ a ∈ e.loaded.textSecs, e.loaded.textEnd = a.endVa := by
  unfold LoadedSections.textSecs LoadedSections.textEnd
  cases e.loaded.rodata with
  | none => exact ⟨_, List.mem_cons_self, rfl⟩
  | some rodata => exact ⟨rodata, by simp, rfl⟩

/-- The data segment starts behind the text segment. -/
theorem FlatElf.textEnd_le_dataVa : e.loaded.textEnd ≤ e.loaded.dataVa := by
  unfold LoadedSections.dataVa
  cases hhead : e.loaded.dataSecs.head? with
  | none => exact Nat.le_refl _
  | some d =>
    obtain ⟨a, ha, heq⟩ := e.exists_textEnd
    rw [heq]
    exact (List.pairwise_append.mp e.ordered_file).2.2 a ha d (List.mem_of_head? hhead)

/-- No data section starts before the data segment. -/
theorem FlatElf.dataVa_le (hs : s ∈ e.loaded.dataSecs) : e.loaded.dataVa ≤ s.shAddr := by
  have hordered := e.ordered_data
  unfold LoadedSections.dataVa
  cases hsecs : e.loaded.dataSecs with
  | nil =>
    rw [hsecs] at hs
    cases hs
  | cons d secs =>
    rw [hsecs] at hs hordered
    rcases List.mem_cons.mp hs with rfl | hs
    · exact Nat.le_refl _
    · exact (shAddr_le_endVa d).trans ((List.pairwise_cons.mp hordered).1 s hs)

/-- The data segment ends no earlier than it starts. -/
theorem FlatElf.dataVa_le_dataEnd : e.loaded.dataVa ≤ e.loaded.dataEnd := by
  unfold LoadedSections.dataEnd
  cases hlast : (e.loaded.dataSecs.filter fun s => 0 < s.shSize).getLast? with
  | none => exact Nat.le_refl _
  | some d =>
    have hd := List.mem_of_mem_filter (List.mem_of_getLast? hlast)
    exact (e.dataVa_le hd).trans (shAddr_le_endVa d)

/-- Each data section with bytes in it ends within the data segment. -/
theorem FlatElf.endVa_le_dataEnd (hs : s ∈ e.loaded.dataSecs) (hsize : 0 < s.shSize) :
    s.endVa ≤ e.loaded.dataEnd :=
  endVa_le_of_mem (e.ordered_data.filter _) (List.mem_filter.mpr ⟨hs, decide_eq_true hsize⟩)

/-- The zeroed segment starts behind the data segment. -/
theorem FlatElf.dataEnd_le_bssVa : e.loaded.dataEnd ≤ e.loaded.bssVa := by
  unfold LoadedSections.bssVa
  cases hbss : e.loaded.bss with
  | none => exact Nat.le_refl _
  | some b =>
    have hb : ∀ a ∈ e.loaded.textSecs ++ e.loaded.dataSecs, a.endVa ≤ b.shAddr := fun a ha =>
      (List.pairwise_append.mp e.ordered).2.2 a ha b (by simp [hbss])
    show e.loaded.dataEnd ≤ b.shAddr
    unfold LoadedSections.dataEnd
    -- the data end with their last section, or where they start
    cases hlast : (e.loaded.dataSecs.filter fun s => 0 < s.shSize).getLast? with
    | some d =>
      have hd := List.mem_of_mem_filter (List.mem_of_getLast? hlast)
      exact hb d (List.mem_append_right _ hd)
    | none =>
      show e.loaded.dataVa ≤ b.shAddr
      unfold LoadedSections.dataVa
      cases hhead : e.loaded.dataSecs.head? with
      | some d =>
        exact (shAddr_le_endVa d).trans (hb d (List.mem_append_right _ (List.mem_of_head? hhead)))
      | none =>
        obtain ⟨a, ha, heq⟩ := e.exists_textEnd
        exact heq.trans_le (hb a (List.mem_append_left _ ha))

/-! ## The linked memory -/

/-- Inside a section, the linked memory has the bytes of the file. -/
theorem FlatElf.linkByte_of_mem (hs : s ∈ e.loaded.textSecs ++ e.loaded.dataSecs)
    (hle : s.shAddr ≤ v) (hlt : v < s.endVa) :
    linkByte elfData e.loaded v = load elfData (s.shOffset + (v - s.shAddr)) := by
  unfold linkByte
  cases hfind : (e.loaded.textSecs ++ e.loaded.dataSecs).find?
      fun s => s.shAddr ≤ v ∧ v < s.endVa with
  | none =>
    have := List.find?_eq_none.mp hfind s hs
    exact absurd (decide_eq_true ⟨hle, hlt⟩) this
  | some s' =>
    have hin : s'.shAddr ≤ v ∧ v < s'.endVa := by
      simpa using List.find?_some hfind
    have hs' := List.mem_of_find?_eq_some hfind
    have happart : (e.loaded.textSecs ++ e.loaded.dataSecs).Pairwise
        fun a b => a.endVa ≤ b.shAddr ∨ b.endVa ≤ a.shAddr := e.ordered_file.imp Or.inl
    have hsymm : Std.Symm fun a b : Section => a.endVa ≤ b.shAddr ∨ b.endVa ≤ a.shAddr :=
      ⟨fun _ _ h => h.symm⟩
    -- sections do not overlap, so the one found is this one
    have hsame : s' = s := by
      by_contra hne
      rcases happart.forall hs' hs hne with h | h
      · exact absurd (Nat.lt_of_lt_of_le hin.2 h) (Nat.not_lt.mpr hle)
      · exact absurd (Nat.lt_of_lt_of_le hlt h) (Nat.not_lt.mpr hin.1)
    rw [hsame]

/-- Outside the sections that have bytes, it is zero. -/
theorem FlatElf.linkByte_of_outside
    (htext : ∀ s ∈ e.loaded.textSecs, v < s.shAddr ∨ s.endVa ≤ v)
    (hdata : ∀ s ∈ e.loaded.dataSecs, 0 < s.shSize → v < s.shAddr ∨ s.endVa ≤ v) :
    linkByte elfData e.loaded v = 0 := by
  have hnone : (e.loaded.textSecs ++ e.loaded.dataSecs).find?
      (fun s => s.shAddr ≤ v ∧ v < s.endVa) = none := by
    refine List.find?_eq_none.mpr fun s hs => ?_
    rw [decide_eq_true_eq]
    rintro ⟨hle, hlt⟩
    have hout : v < s.shAddr ∨ s.endVa ≤ v := by
      rcases List.mem_append.mp hs with hs | hs
      · exact htext s hs
      · exact hdata s hs (by unfold Section.endVa at hlt; omega)
    rcases hout with h | h
    · exact absurd h (Nat.not_lt.mpr hle)
    · exact absurd hlt (Nat.not_lt.mpr h)
  unfold linkByte
  rw [hnone]

/-- From the zeroed segment on, the linked program has zeros. -/
theorem FlatElf.linkByte_of_bssVa_le (h : e.loaded.bssVa ≤ v) :
    linkByte elfData e.loaded v = 0 := by
  have hend := e.dataEnd_le_bssVa.trans h
  refine e.linkByte_of_outside (fun s hs => Or.inr ?_) fun s hs hsize => Or.inr ?_
  · exact (e.endVa_le_textEnd hs).trans
      (e.textEnd_le_dataVa.trans (e.dataVa_le_dataEnd.trans hend))
  · exact (e.endVa_le_dataEnd hs hsize).trans hend

/-- A section has as many bytes in the file as its size says. -/
theorem FlatElf.length_sectionBytes (hs : s ∈ e.loaded.textSecs ++ e.loaded.dataSecs) :
    (sectionBytes elfData s).length = s.shSize := length_slice (e.in_file s hs)

/-- As a piece of the layout, a section ends at its own end. -/
theorem FlatElf.endAddr_sectionPiece (hs : s ∈ e.loaded.textSecs ++ e.loaded.dataSecs) :
    (sectionPiece elfData s).endAddr = s.endVa := by
  unfold sectionPiece Piece.endAddr Section.endVa
  rw [e.length_sectionBytes hs]

/-- The bytes of a section are those the linked program has there. -/
theorem FlatElf.spells_sectionBytes (hs : s ∈ e.loaded.textSecs ++ e.loaded.dataSecs) :
    Spells (linkByte elfData e.loaded) s.shAddr (sectionBytes elfData s) := by
  intro k hk
  have hk' : k < s.shSize := by rwa [e.length_sectionBytes hs] at hk
  rw [e.linkByte_of_mem hs (Nat.le_add_right _ _) (Nat.add_lt_add_left hk' _),
    Nat.add_sub_cancel_left]
  exact load_slice hk'

/-! ## The segments -/

/-- `main` has built the segments of the linked memory. -/
structure FlatElf.BuiltAs (seg : Segments) : Prop where
  textEndVa : seg.textEndVa = e.loaded.dataVa
  dataStartVa : seg.dataStartVa = e.loaded.dataVa
  bssStartVa : seg.bssStartVa = e.loaded.bssVa
  bssSize : e.loaded.bssVa + seg.bssSize = e.loaded.bssEnd
  length_text : seg.textData.length = e.loaded.dataVa
  length_data : e.loaded.dataVa + seg.dataData.length = e.loaded.bssVa
  spells_text : Spells (linkByte elfData e.loaded) 0 seg.textData
  spells_data : Spells (linkByte elfData e.loaded) e.loaded.dataVa seg.dataData

/-- As pieces of the layout, sections do not overlap. -/
theorem FlatElf.pairwise_pieces {secs : List Section}
    (hsub : ∀ s ∈ secs, s ∈ e.loaded.textSecs ++ e.loaded.dataSecs)
    (hordered : secs.Pairwise fun a b => a.endVa ≤ b.shAddr) :
    (secs.map (sectionPiece elfData)).Pairwise fun p q => p.endAddr ≤ q.1 := by
  rw [List.pairwise_map]
  refine hordered.imp_of_mem fun ha _ hab => ?_
  rw [e.endAddr_sectionPiece (hsub _ ha)]
  exact hab

/-- Sections that are laid out reach to the end of the last one. -/
theorem FlatElf.add_length_sections {secs : List Section} {base : Nat}
    (hsub : ∀ s ∈ secs, s ∈ e.loaded.textSecs ++ e.loaded.dataSecs)
    (hordered : secs.Pairwise fun a b => a.endVa ≤ b.shAddr) (hbase : ∀ s ∈ secs, base ≤ s.shAddr) :
    base + (layOut base [] (secs.map (sectionPiece elfData))).length
      = (secs.getLast?.map Section.endVa).getD base := by
  rw [add_length_layOut (fun p hp => ?_) (e.pairwise_pieces hsub hordered), List.getLast?_map,
    Option.map_map]
  · cases hlast : secs.getLast? with
    | none => rfl
    | some s => exact e.endAddr_sectionPiece (hsub s (List.mem_of_getLast? hlast))
  · obtain ⟨s, hs, rfl⟩ := List.mem_map.mp hp
    exact hbase s hs

/-- The sections of a segment, laid out up to where the next segment starts. -/
theorem FlatElf.spells_segment {secs : List Section} {base top : Nat}
    (hsub : ∀ s ∈ secs, s ∈ e.loaded.textSecs ++ e.loaded.dataSecs)
    (hordered : secs.Pairwise fun a b => a.endVa ≤ b.shAddr)
    (hbounds : ∀ s ∈ secs, base ≤ s.shAddr ∧ s.endVa ≤ top) (hle : base ≤ top)
    (hzero : ∀ v, base ≤ v → v < top → (∀ s ∈ secs, v < s.shAddr ∨ s.endVa ≤ v) →
      linkByte elfData e.loaded v = 0) :
    Spells (linkByte elfData e.loaded) base
        (padTo (layOut base [] (secs.map (sectionPiece elfData))) (top - base)) ∧
      (padTo (layOut base [] (secs.map (sectionPiece elfData))) (top - base)).length
        = top - base := by
  have hpieces : ∀ p ∈ secs.map (sectionPiece elfData), ∃ s ∈ secs,
      p = sectionPiece elfData s ∧ p.endAddr = s.endVa := by
    intro p hp
    obtain ⟨s, hs, rfl⟩ := List.mem_map.mp hp
    exact ⟨s, hs, rfl, e.endAddr_sectionPiece (hsub s hs)⟩
  refine spells_layOut (fun k hk => absurd hk (Nat.not_lt_zero k)) (fun p hp => ?_) hle
    (fun p hp => ?_) ?_ fun v hv hlt hout => hzero v hv hlt fun s hs => ?_
  · obtain ⟨s, hs, rfl, -⟩ := hpieces p hp
    exact e.spells_sectionBytes (hsub s hs)
  · obtain ⟨s, hs, rfl, hend⟩ := hpieces p hp
    rw [hend]
    exact hbounds s hs
  · exact e.pairwise_pieces hsub hordered
  · have := hout (sectionPiece elfData s) (List.mem_map_of_mem hs)
    rwa [e.endAddr_sectionPiece (hsub s hs)] at this

/-- What the tool writes for the text segment is its sections laid out from 0. -/
theorem FlatElf.textRodata_eq :
    textRodata elfData e.loaded.text e.loaded.rodata
      = layOut 0 [] (e.loaded.textSecs.map (sectionPiece elfData)) := by
  have htext : (sectionBytes elfData e.loaded.text).length = e.loaded.text.shSize :=
    e.length_sectionBytes (List.mem_append_left _ List.mem_cons_self)
  have hfirst : layOut 0 [] [sectionPiece elfData e.loaded.text]
      = sectionBytes elfData e.loaded.text := by
    show padTo [] (e.loaded.text.shAddr - 0) ++ sectionBytes elfData e.loaded.text = _
    rw [e.text_zero]
    rfl
  unfold LoadedSections.textSecs
  cases e.loaded.rodata with
  | none => exact hfirst.symm
  -- the read-only data are padded to their address, as the layout does
  | some rodata =>
    show _ = place 0 (layOut 0 [] [sectionPiece elfData e.loaded.text])
      (sectionPiece elfData rodata)
    rw [hfirst]
    show _ = padTo (sectionBytes elfData e.loaded.text) (rodata.shAddr - 0)
      ++ sectionBytes elfData rodata
    rw [padTo, htext, Nat.sub_zero]
    show _ ++ List.replicate (_ - (e.loaded.text.shAddr + _)) 0 ++ _ = _
    rw [e.text_zero, Nat.zero_add]

/-- It ends where the text segment does. -/
theorem FlatElf.length_textRodata :
    (textRodata elfData e.loaded.text e.loaded.rodata).length = e.loaded.textEnd := by
  have := e.add_length_sections (fun s hs => List.mem_append_left _ hs) e.ordered_text
    fun s _ => Nat.zero_le s.shAddr
  rwa [Nat.zero_add, ← LoadedSections.textEnd_eq, ← e.textRodata_eq] at this

/-- The tool finds the start of the data segment. -/
theorem FlatElf.dataStart_eq :
    dataStart e.loaded.textEnd e.loaded.data e.loaded.got = e.loaded.dataVa := by
  have hordered := e.ordered_data
  unfold LoadedSections.dataVa
  unfold LoadedSections.dataSecs at hordered ⊢
  cases hdata : e.loaded.data with
  | none => cases e.loaded.got <;> rfl
  | some data =>
    cases hgot : e.loaded.got with
    | none => rfl
    | some got =>
      rw [hdata, hgot] at hordered
      have hle : data.endVa ≤ got.shAddr := by simpa using hordered
      exact if_neg (Nat.not_lt.mpr ((shAddr_le_endVa data).trans hle))

/-- The data sections the tool writes are those with bytes in them. -/
theorem FlatElf.dataSections_eq :
    dataSections e.loaded.data e.loaded.got
      = e.loaded.dataSecs.filter fun s => 0 < s.shSize := by
  have hordered := e.ordered_data
  have hgot : (e.loaded.got.toList.filter fun s => 0 < s.shSize ∧ e.loaded.got ≠ e.loaded.data)
      = e.loaded.got.toList.filter fun s => 0 < s.shSize := by
    refine List.filter_congr fun s hs => decide_eq_decide.mpr (and_iff_left_of_imp fun hsize => ?_)
    intro heq
    have hgot : e.loaded.got = some s := by simpa using hs
    -- the section would have to end before it starts
    have htwice : e.loaded.dataSecs = [s, s] := by
      unfold LoadedSections.dataSecs
      rw [← heq, hgot]
      rfl
    rw [htwice] at hordered
    have hle : s.endVa ≤ s.shAddr := by simpa using hordered
    unfold Section.endVa at hle
    omega
  have hsorted : (e.loaded.dataSecs.filter fun s => 0 < s.shSize).Pairwise
      fun a b => a.shAddr ≤ b.shAddr :=
    (hordered.filter _).imp fun h => (shAddr_le_endVa _).trans h
  unfold dataSections
  dsimp only
  rw [hgot, ← List.filter_append]
  exact hsorted.insertionSort_eq

/-- **What `main` builds** before it looks at relocations. -/
theorem FlatElf.segments_spec :
    e.BuiltAs (segments elfData e.loaded.text e.loaded.rodata e.loaded.data e.loaded.got
      e.loaded.bss) := by
  have hsub : ∀ s ∈ e.loaded.dataSecs.filter fun s => 0 < s.shSize,
      s ∈ e.loaded.textSecs ++ e.loaded.dataSecs := fun s hs =>
    List.mem_append_right _ (List.mem_of_mem_filter hs)
  have hordered := e.ordered_data.filter fun s => 0 < s.shSize
  -- the text, up to where the data starts
  have htextEnd : e.loaded.text.shAddr + (textRodata elfData e.loaded.text e.loaded.rodata).length
      = e.loaded.textEnd := by
    rw [e.text_zero, Nat.zero_add, e.length_textRodata]
  have htext : textRodata elfData e.loaded.text e.loaded.rodata ++
      List.replicate (e.loaded.dataVa - e.loaded.textEnd) 0
      = padTo (layOut 0 [] (e.loaded.textSecs.map (sectionPiece elfData)))
        (e.loaded.dataVa - 0) := by
    rw [← e.textRodata_eq, padTo, e.length_textRodata, Nat.sub_zero]
  obtain ⟨hspells, hlength⟩ := e.spells_segment (fun s hs => List.mem_append_left _ hs)
    e.ordered_text (fun s hs => ⟨Nat.zero_le _, (e.endVa_le_textEnd hs).trans e.textEnd_le_dataVa⟩)
    (Nat.zero_le e.loaded.dataVa) fun v _ hlt hout =>
      e.linkByte_of_outside hout fun s hs _ => Or.inl (Nat.lt_of_lt_of_le hlt (e.dataVa_le hs))
  -- the data, up to where the zeros start
  have hdata : (dataSections e.loaded.data e.loaded.got).foldl (fun dataData sec =>
      padTo dataData (sec.shAddr - e.loaded.dataVa) ++ sectionBytes elfData sec) []
      = layOut e.loaded.dataVa []
        ((e.loaded.dataSecs.filter fun s => 0 < s.shSize).map (sectionPiece elfData)) := by
    rw [e.dataSections_eq, layOut, List.foldl_map]
    rfl
  have hdataEnd := e.add_length_sections hsub hordered fun s hs =>
    e.dataVa_le (List.mem_of_mem_filter hs)
  have hbss : bssStart (e.loaded.dataVa + (layOut e.loaded.dataVa []
      ((e.loaded.dataSecs.filter fun s => 0 < s.shSize).map (sectionPiece elfData))).length)
      e.loaded.bss = e.loaded.bssVa := by
    unfold LoadedSections.bssVa
    cases e.loaded.bss with
    | none => exact hdataEnd
    | some bss => rfl
  obtain ⟨hspells', hlength'⟩ := e.spells_segment hsub hordered
    (fun s hs => ⟨e.dataVa_le (List.mem_of_mem_filter hs),
      (e.endVa_le_dataEnd (List.mem_of_mem_filter hs)
        (of_decide_eq_true (List.mem_filter.mp hs).2)).trans e.dataEnd_le_bssVa⟩)
    (e.dataVa_le_dataEnd.trans e.dataEnd_le_bssVa) fun v hle _ hout =>
      e.linkByte_of_outside
        (fun s hs => Or.inr ((e.endVa_le_textEnd hs).trans (e.textEnd_le_dataVa.trans hle)))
        fun s hs hsize => hout s (List.mem_filter.mpr ⟨hs, decide_eq_true hsize⟩)
  unfold segments
  dsimp only
  rw [htextEnd, e.dataStart_eq, htext, hdata, hbss]
  have hle := e.dataVa_le_dataEnd.trans e.dataEnd_le_bssVa
  refine ⟨?_, rfl, rfl, ?_, hlength, ?_, hspells, hspells'⟩
  · have := e.textEnd_le_dataVa
    show (if _ > _ then _ else _) = _
    split_ifs
    · rfl
    · omega
  · unfold LoadedSections.bssEnd
    cases e.loaded.bss <;> rfl
  · show _ + (padTo _ _).length = _
    rw [hlength']
    omega

end

end SN110
