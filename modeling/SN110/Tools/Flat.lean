import SN110.Tools.Elf2bflt

/-!
# Loading (`elf2bflt.py`'s docstring, `flat.ld`)

What the bFLT file is for. `loadFlat` is the loader; `linkByte` is the memory that the linker laid
out, read off the sections of the ELF file; `FlatElf` is an ELF file with sections as `flat.ld` lays
them out. The file is right when loading it gives the linked memory with every pointer relocated:
`LoadsAsLinked`.
-/

namespace SN110

open Memory Words

/-! ## The loader -/

def flatDataStart (flat : List UInt8) : Nat := (load32 flat 12).toNat
def flatDataEnd (flat : List UInt8) : Nat := (load32 flat 16).toNat
def flatBssEnd (flat : List UInt8) : Nat := (load32 flat 20).toNat
def flatRelocStart (flat : List UInt8) : Nat := (load32 flat 28).toNat
def flatRelocCount (flat : List UInt8) : Nat := (load32 flat 32).toNat

/-- The sites of the relocation entries, from the start of the text. -/
def flatSites (flat : List UInt8) : List Nat :=
  (List.range (flatRelocCount flat)).map fun i =>
    flatDataStart flat - bfltHeaderSize +
      ((load32 flat (flatRelocStart flat + 4 * i)).toNat &&& 0x03FFFFFF)

/-- The memory of a program loaded at `base`, from `base` on: text and data are copied, the rest is
zero, and the entries are relocated. -/
def loadFlat (flat : List UInt8) (base : UInt32) : Nat → UInt8 :=
  addWords
    (fun v => if v < flatDataEnd flat - bfltHeaderSize then load flat (bfltHeaderSize + v) else 0)
    base (flatSites flat)

/-! ## The linked memory -/

/-- Where a section ends. -/
def Section.endVa (s : Section) : Nat := s.shAddr + s.shSize

/-- The sections that are loaded. -/
structure LoadedSections where
  text : Section
  rodata : Option Section
  data : Option Section
  got : Option Section
  bss : Option Section
deriving DecidableEq

/-- The sections that are loaded, by their names. -/
def loadedSections (sections : List Section) : Option LoadedSections :=
  (findSection sections ".text").map fun text =>
    { text := text
      rodata := findSection sections ".rodata"
      data := findSection sections ".data"
      got := findSection sections ".got"
      bss := findSection sections ".bss" }

namespace LoadedSections

variable (l : LoadedSections)

/-- The sections of the text segment. -/
def textSecs : List Section := l.text :: l.rodata.toList

/-- The sections of the data segment. -/
def dataSecs : List Section := l.data.toList ++ l.got.toList

/-- Where the text segment ends. -/
def textEnd : Nat := (l.rodata.getD l.text).endVa

/-- Where the data segment starts. -/
def dataVa : Nat := (l.dataSecs.head?.map fun s => s.shAddr).getD l.textEnd

/-- Where the last section of the data segment ends, if one has bytes. -/
def dataEnd : Nat :=
  ((l.dataSecs.filter fun s => 0 < s.shSize).getLast?.map Section.endVa).getD l.dataVa

/-- Where the zeros start. -/
def bssVa : Nat := (l.bss.map fun s => s.shAddr).getD l.dataEnd

/-- Where the program ends. -/
def bssEnd : Nat := l.bssVa + (l.bss.map fun s => s.shSize).getD 0

end LoadedSections

/-- The byte that the linker has put at `v`: that of the section it is in, or zero. -/
def linkByte (elfData : List UInt8) (l : LoadedSections) (v : Nat) : UInt8 :=
  match (l.textSecs ++ l.dataSecs).find? fun s => s.shAddr ≤ v ∧ v < s.endVa with
  | some s => load elfData (s.shOffset + (v - s.shAddr))
  | none => 0

/-! ## Relocations -/

/-- An entry of a `REL` section. -/
structure Rel where
  sec : Section
  rOffset : Nat
  rInfo : Nat

def Rel.rType (r : Rel) : Nat := r.rInfo &&& 0xFF

def Rel.sym (r : Rel) : Nat := r.rInfo >>> 8

/-- The entries of a `REL` section. -/
def relEntries (elfData : List UInt8) (sec : Section) : List Rel :=
  (List.range (sec.shSize / sec.shEntsize)).map fun i =>
    { sec := sec
      rOffset := (word (load elfData) (sec.shOffset + i * sec.shEntsize)).toNat
      rInfo := (word (load elfData) (sec.shOffset + i * sec.shEntsize + 4)).toNat }

/-- The section holds relocations of a section that is loaded. -/
def IsLoadedRel (sections : List Section) (sec : Section) : Prop :=
  sec.shType = shtRel ∧ targetLoaded sections sec = some true

instance (sections : List Section) (sec : Section) : Decidable (IsLoadedRel sections sec) :=
  inferInstanceAs (Decidable (_ ∧ _))

/-- The relocations of the sections that are loaded. -/
def loadedRels (elfData : List UInt8) (sections : List Section) : List Rel :=
  (sections.filter fun sec => IsLoadedRel sections sec).flatMap (relEntries elfData)

/-- The symbol of a relocation is defined: its `st_shndx` is not `SHN_UNDEF`. -/
def symbolDefined (elfData : List UInt8) (sections : List Section) (r : Rel) : Prop :=
  ∃ symtab ∈ sections[r.sec.shLink]?, load16Le elfData (symtab.shOffset + 16 * r.sym + 14) ≠ 0

instance (elfData : List UInt8) (sections : List Section) (r : Rel) :
    Decidable (symbolDefined elfData sections r) := by
  unfold symbolDefined
  infer_instance

/-- The literal that a `R_ARM_GOT_BREL` relocation has been resolved to. -/
def gotLiteral (elfData : List UInt8) (l : LoadedSections) (r : Rel) : Nat :=
  (word (load elfData) (l.text.shOffset + (r.rOffset - l.text.shAddr))).toNat

/-- The slot that it refers to. -/
def gotSlot (elfData : List UInt8) (l : LoadedSections) (r : Rel) : Nat :=
  l.dataVa + gotLiteral elfData l r

/-- The `R_ARM_ABS32` sites in the data segment, as often as they are listed. -/
def absSites (elfData : List UInt8) (sections : List Section) (l : LoadedSections) : List Nat :=
  ((loadedRels elfData sections).filter fun r =>
    r.rType = rArmAbs32 ∧ l.dataVa ≤ r.rOffset ∧ r.rOffset < l.bssVa).map Rel.rOffset

/-- The slots of defined symbols that a `R_ARM_GOT_BREL` relocation refers to. -/
def gotSites (elfData : List UInt8) (sections : List Section) (l : LoadedSections) : List Nat :=
  ((loadedRels elfData sections).filter fun r =>
    r.rType = rArmGotBrel ∧ symbolDefined elfData sections r).map (gotSlot elfData l)

/-- The slots of undefined symbols, which a linker leaves zero. -/
def undefinedSlots (elfData : List UInt8) (sections : List Section) (l : LoadedSections) :
    List Nat :=
  ((loadedRels elfData sections).filter fun r =>
    r.rType = rArmGotBrel ∧ ¬ symbolDefined elfData sections r).map (gotSlot elfData l)

/-! ## What the file has to be -/

/-- An ELF file with sections as `flat.ld` lays them out. -/
structure FlatElf (elfData : List UInt8) where
  entry : Nat
  sections : List Section
  read : readElf elfData = some (entry, sections)
  loaded : LoadedSections
  loaded_eq : loadedSections sections = some loaded
  text_zero : loaded.text.shAddr = 0
  /-- One section ends before the next one starts. -/
  ordered : (loaded.textSecs ++ loaded.dataSecs ++ loaded.bss.toList).Pairwise
    fun a b => a.endVa ≤ b.shAddr
  /-- The file holds the sections. -/
  in_file : ∀ s ∈ loaded.textSecs ++ loaded.dataSecs, s.shOffset + s.shSize ≤ elfData.length
  /-- The entries of `REL` sections have eight bytes, and are for a section of the file. -/
  rel : ∀ sec ∈ sections, sec.shType = shtRel →
    sec.shEntsize = 8 ∧ sec.shInfo < sections.length
  /-- A resolved literal is the offset of a slot in the data segment. -/
  slot_le : ∀ r ∈ loadedRels elfData sections, r.rType = rArmGotBrel →
    gotSlot elfData loaded r + 4 ≤ loaded.bssVa

/-- The file describes the layout, and loads at every base as the linked memory with the base added
once to every site. -/
structure LoadsAsLinked {elfData : List UInt8} (e : FlatElf elfData) (flat : List UInt8) :
    Prop where
  dataStart : flatDataStart flat = bfltHeaderSize + e.loaded.dataVa
  dataEnd : flatDataEnd flat = bfltHeaderSize + e.loaded.bssVa
  bssEnd : flatBssEnd flat = bfltHeaderSize + e.loaded.bssEnd
  relocStart : flatRelocStart flat = flatDataEnd flat
  memory : ∀ base, Relocates (linkByte elfData e.loaded) (loadFlat flat base) base
    (absSites elfData e.sections e.loaded ++ gotSites elfData e.sections e.loaded)

end SN110
