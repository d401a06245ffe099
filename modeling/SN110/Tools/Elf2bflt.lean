import SN110.Tools.Elf
import SN110.Lib.Layout
import Mathlib.Data.List.Sort

/-!
# The converter (`elf2bflt.py`)

From the sections of the ELF file to the bytes of the bFLT file. What is printed is left out.
-/

namespace SN110

open Memory Words Layout

/-! ## Constants -/

abbrev bfltVersion : Nat := 2
abbrev bfltHeaderSize : Nat := 64
abbrev flatFlagRam : UInt32 := 1
abbrev bfltDefaultStack : Nat := 65536
abbrev flatRelocTypeText : Nat := 0

/-- `BFLT_MAGIC`. -/
def bfltMagic : List UInt8 := ascii "bFLT"

/-! ## Relocations -/

/-- The tuples that the extractions return. -/
structure Reloc where
  v2Entry : Nat
  dataOffset : Nat
  relocType : Nat
  targetVa : Nat
  preReloc : Nat
deriving DecidableEq

/-- `relocs.sort(key=lambda r: r[1])`. -/
def sortRelocs (relocs : List Reloc) : List Reloc :=
  relocs.insertionSort fun a b => a.dataOffset ≤ b.dataOffset

/-- The end of both extractions' loops: the word read at the site is stored back, and the entry
encoded. -/
def encodeReloc (dataBytes : List UInt8) (dataOffset targetVa : Nat) :
    Option (Reloc × List UInt8) :=
  let relocType := flatRelocTypeText
  let preReloc := targetVa
  let dataBytes := store dataBytes dataOffset (le32 (UInt32.ofNat preReloc))
  if dataOffset > 0x03FFFFFF then none
  else
    let v2Entry := (relocType <<< 26) ||| (dataOffset &&& 0x03FFFFFF)
    some ({ v2Entry, dataOffset, relocType, targetVa, preReloc }, dataBytes)

/-- Whether the section that a `REL` section is for is loaded, if there is one. -/
def targetLoaded (sections : List Section) (sec : Section) : Option Bool :=
  sections[sec.shInfo]?.map fun target => target.shFlags &&& shfAlloc ≠ 0

/-- The loop over the entries of a `REL` section. -/
def forEntries {σ : Type} (elfData : List UInt8) (sec : Section)
    (body : σ → Nat → Nat → Option σ) (st : σ) : Option σ :=
  -- the division by `sh_entsize`
  if sec.shEntsize = 0 then none
  else
    (List.range (sec.shSize / sec.shEntsize)).foldlM (fun st i => do
      let rOffset ← unpackU32 elfData (sec.shOffset + i * 8 : Nat)
      let rInfo ← unpackU32 elfData (sec.shOffset + i * 8 + 4 : Nat)
      body st rOffset rInfo) st

/-- The variables of `extract_relocs_v2`'s loop. -/
structure Extraction where
  relocs : List Reloc
  textRelocCount : Nat
  dataBytes : List UInt8

/-- One entry in `extract_relocs_v2`. -/
def extractReloc (textEndVa dataStartVa bssStartVa : Nat) (st : Extraction) (rOffset rInfo : Nat) :
    Option Extraction :=
  if rInfo &&& 0xFF ≠ rArmAbs32 then some st
  else if rOffset < textEndVa then some { st with textRelocCount := st.textRelocCount + 1 }
  else if rOffset < dataStartVa then some st
  else if rOffset ≥ bssStartVa then some st
  else do
    let dataOffset := rOffset - dataStartVa
    let targetVa ← unpackU32 st.dataBytes dataOffset
    let (reloc, dataBytes) ← encodeReloc st.dataBytes dataOffset targetVa
    some { st with relocs := st.relocs ++ [reloc], dataBytes := dataBytes }

/-- `extract_relocs_v2`: the relocations, and the patched data. -/
def extractRelocsV2 (elfData : List UInt8) (sections : List Section)
    (textEndVa dataStartVa bssStartVa : Nat) (dataBytes : List UInt8) :
    Option (List Reloc × List UInt8) := do
  let st ← sections.foldlM (fun st sec =>
      if sec.shType ≠ shtRel then some st
      else if targetLoaded sections sec = some false then some st
      else forEntries elfData sec (extractReloc textEndVa dataStartVa bssStartVa) st)
    { relocs := [], textRelocCount := 0, dataBytes := dataBytes }
  if st.textRelocCount > 0 then none else some (sortRelocs st.relocs, st.dataBytes)

/-- One entry in the first loop of `extract_got_relocs`, which collects the offsets of slots. -/
def collectGotEntry (elfData : List UInt8) (textSec : Section) (existingOffsets : List Nat)
    (gotEntryOffsets : List Nat) (rOffset rInfo : Nat) : Option (List Nat) :=
  if rInfo &&& 0xFF ≠ rArmGotBrel then some gotEntryOffsets
  else do
    let filePos : Int := textSec.shOffset + ((rOffset : Int) - textSec.shAddr)
    let gotDataOffset ← unpackU32 elfData filePos
    if gotDataOffset ∉ existingOffsets then some (gotEntryOffsets.insert gotDataOffset)
    else some gotEntryOffsets

/-- One offset in the second loop of `extract_got_relocs`. -/
def extractGotEntry (st : List Reloc × List UInt8) (dataOffset : Nat) :
    Option (List Reloc × List UInt8) :=
  if dataOffset + 4 > st.2.length then some st
  else do
    let targetVa ← unpackU32 st.2 dataOffset
    if targetVa = 0 then some st
    else do
      let (reloc, dataBytes) ← encodeReloc st.2 dataOffset targetVa
      some (st.1 ++ [reloc], dataBytes)

/-- `extract_got_relocs`: the relocations, and the patched data. -/
def extractGotRelocs (elfData : List UInt8) (sections : List Section) (dataBytes : List UInt8)
    (existingOffsets : List Nat) : Option (List Reloc × List UInt8) :=
  match findSection sections ".text" with
  | none => some ([], dataBytes)
  | some textSec => do
    let gotEntryOffsets ← sections.foldlM (fun offsets sec =>
        if sec.shType ≠ shtRel then some offsets
        else if targetLoaded sections sec ≠ some true then some offsets
        else forEntries elfData sec (collectGotEntry elfData textSec existingOffsets) offsets) []
    let st ← (gotEntryOffsets.insertionSort (· ≤ ·)).foldlM extractGotEntry ([], dataBytes)
    some (sortRelocs st.1, st.2)

/-! ## The file -/

/-- `struct.pack('>I', n)`. -/
def packU32 (n : Nat) : Option (List UInt8) :=
  if n < 2 ^ 32 then some (be32 (UInt32.ofNat n)) else none

/-- `build_bflt`. -/
def buildBflt (textData dataData : List UInt8) (bssSize : Nat) (relocs : List Reloc)
    (stackSize : Nat) : Option (List UInt8) := do
  let entry := bfltHeaderSize
  let dataStart := bfltHeaderSize + textData.length
  let dataEnd := dataStart + dataData.length
  let bssEnd := dataEnd + bssSize
  let relocStart := dataEnd
  let relocCount := relocs.length
  let fields ← [bfltVersion, entry, dataStart, dataEnd, bssEnd, stackSize, relocStart,
    relocCount].mapM packU32
  -- the flags alone are little-endian
  let header := bfltMagic ++ fields.flatten ++ le32 flatFlagRam
  let header := header ++ List.replicate (bfltHeaderSize - header.length) 0
  let relocData ← relocs.mapM fun r => packU32 r.v2Entry
  some (header ++ textData ++ dataData ++ relocData.flatten)

/-! ## Segments -/

/-- The bytes of a section in the file. -/
def sectionBytes (elfData : List UInt8) (sec : Section) : List UInt8 :=
  slice elfData sec.shOffset sec.shSize

/-- The text segment before the padding: `.text` and `.rodata`. -/
def textRodata (elfData : List UInt8) (textSec : Section) : Option Section → List UInt8
  | none => sectionBytes elfData textSec
  | some rodataSec =>
    sectionBytes elfData textSec ++
      List.replicate (rodataSec.shAddr - (textSec.shAddr + textSec.shSize)) 0 ++
      sectionBytes elfData rodataSec

/-- Where the data segment starts. -/
def dataStart (textEndVa : Nat) : Option Section → Option Section → Nat
  | none, none => textEndVa
  | some dataSec, none => dataSec.shAddr
  | none, some gotSec => gotSec.shAddr
  | some dataSec, some gotSec =>
    if gotSec.shAddr < dataSec.shAddr then gotSec.shAddr else dataSec.shAddr

/-- The sections of the data segment, in the order of their addresses. -/
def dataSections (dataSec gotSec : Option Section) : List Section :=
  let data := dataSec.toList.filter fun s => 0 < s.shSize
  let got := gotSec.toList.filter fun s => 0 < s.shSize ∧ gotSec ≠ dataSec
  (data ++ got).insertionSort fun a b => a.shAddr ≤ b.shAddr

/-- Where the zeros start. -/
def bssStart (dataEndVa : Nat) : Option Section → Nat
  | some bssSec => bssSec.shAddr
  | none => dataEndVa

/-- The segments that `main` builds. -/
structure Segments where
  textData : List UInt8
  textEndVa : Nat
  dataStartVa : Nat
  dataData : List UInt8
  bssStartVa : Nat
  bssSize : Nat

/-- The part of `main` that builds the segments. -/
def segments (elfData : List UInt8) (textSec : Section)
    (rodataSec dataSec gotSec bssSec : Option Section) : Segments :=
  let textData := textRodata elfData textSec rodataSec
  let textEndVa := textSec.shAddr + textData.length
  let dataStartVa := dataStart textEndVa dataSec gotSec
  let dataData := (dataSections dataSec gotSec).foldl (fun dataData sec =>
    padTo dataData (sec.shAddr - dataStartVa) ++ sectionBytes elfData sec) []
  let bssStartVa := bssStart (dataStartVa + dataData.length) bssSec
  { textData := textData ++ List.replicate (dataStartVa - textEndVa) 0
    textEndVa := if dataStartVa > textEndVa then dataStartVa else textEndVa
    dataStartVa := dataStartVa
    dataData := padTo dataData (bssStartVa - dataStartVa)
    bssStartVa := bssStartVa
    bssSize := match bssSec with
      | some bssSec => bssSec.shSize
      | none => 0 }

/-- `main`, from the ELF file to the bFLT file. -/
def elf2bflt (elfData : List UInt8) : Option (List UInt8) := do
  let (_, sections) ← readElf elfData
  let textSec ← findSection sections ".text"
  let seg := segments elfData textSec (findSection sections ".rodata")
    (findSection sections ".data") (findSection sections ".got") (findSection sections ".bss")
  let (relocs, dataData) ← extractRelocsV2 elfData sections seg.textEndVa seg.dataStartVa
    seg.bssStartVa seg.dataData
  let existingOffsets := relocs.map Reloc.dataOffset
  let (gotRelocs, dataData) ← extractGotRelocs elfData sections dataData existingOffsets
  buildBflt seg.textData dataData seg.bssSize (sortRelocs (relocs ++ gotRelocs)) bfltDefaultStack

end SN110
