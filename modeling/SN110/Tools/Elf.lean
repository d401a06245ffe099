import SN110.Lib.Words
import SN110.Minilib.Text

/-!
# ELF files (`elf2bflt.py`)

The part of `elf2bflt.py` that reads the ELF file. A script that raises an exception or exits
writes no output: it is `none` here. Python's integers are naturals, and `struct.unpack_from` on a
negative offset counts from the end.
-/

namespace SN110

open Memory Words

/-! ## Constants -/

abbrev emArm : Nat := 40
abbrev shtRel : Nat := 9
abbrev shfAlloc : Nat := 2
abbrev rArmAbs32 : Nat := 2
abbrev rArmGotBrel : Nat := 26

/-- `ELF_MAGIC`. -/
def elfMagic : List UInt8 := 0x7F :: ascii "ELF"

/-! ## `struct.unpack_from` -/

/-- Where `n` bytes at an offset start, if the buffer holds them. -/
def unpackAt (data : List UInt8) (off : Int) (n : Nat) : Option Nat :=
  let off := if off < 0 then off + data.length else off
  if 0 ≤ off ∧ off + n ≤ data.length then some off.toNat else none

/-- `struct.unpack_from('<H', data, off)`. -/
def unpackU16 (data : List UInt8) (off : Int) : Option Nat :=
  (unpackAt data off 2).map fun off => (load16Le data off).toNat

/-- `struct.unpack_from('<I', data, off)`. -/
def unpackU32 (data : List UInt8) (off : Int) : Option Nat :=
  (unpackAt data off 4).map fun off => (word (load data) off).toNat

/-- `data[off : off + n]`. -/
def slice (data : List UInt8) (off n : Nat) : List UInt8 := (data.drop off).take n

/-! ## Sections -/

/-- A section header, as far as the script uses it. -/
structure SectionHeader where
  shName : Nat
  shType : Nat
  shFlags : Nat
  shAddr : Nat
  shOffset : Nat
  shSize : Nat
  shLink : Nat
  shInfo : Nat
  shAddralign : Nat
  shEntsize : Nat
deriving DecidableEq

/-- A section header and its name. -/
structure Section extends SectionHeader where
  name : List UInt8
deriving DecidableEq

/-- The header at `off`. -/
def readSectionHeader (data : List UInt8) (off : Nat) : Option SectionHeader := do
  let shName ← unpackU32 data off
  let shType ← unpackU32 data (off + 4 : Nat)
  let shFlags ← unpackU32 data (off + 8 : Nat)
  let shAddr ← unpackU32 data (off + 12 : Nat)
  let shOffset ← unpackU32 data (off + 16 : Nat)
  let shSize ← unpackU32 data (off + 20 : Nat)
  let shLink ← unpackU32 data (off + 24 : Nat)
  let shInfo ← unpackU32 data (off + 28 : Nat)
  let shAddralign ← unpackU32 data (off + 32 : Nat)
  let shEntsize ← unpackU32 data (off + 36 : Nat)
  some { shName, shType, shFlags, shAddr, shOffset, shSize, shLink, shInfo, shAddralign,
         shEntsize }

/-- `get_name`: the ASCII text from `idx` to the next NUL, which there has to be. -/
def getName (strtabData : List UInt8) (idx : Nat) : Option (List UInt8) :=
  let text := (strtabData.drop idx).takeWhile (· ≠ 0)
  if idx + text.length < strtabData.length ∧ ∀ c ∈ text, c < 128 then some text else none

/-- `read_elf`: the entry point and the sections. -/
def readElf (data : List UInt8) : Option (Nat × List Section) := do
  guard (data.take 4 = elfMagic)
  let eiClass ← data[4]?
  let eiData ← data[5]?
  guard (eiClass = 1 ∧ eiData = 1)
  let eMachine ← unpackU16 data 18
  guard (eMachine = emArm)
  let eEntry ← unpackU32 data 24
  let eShoff ← unpackU32 data 32
  let eShentsize ← unpackU16 data 46
  let eShnum ← unpackU16 data 48
  let eShstrndx ← unpackU16 data 50
  let headers ← (List.range eShnum).mapM fun i => readSectionHeader data (eShoff + i * eShentsize)
  let shstrtab ← headers[eShstrndx]?
  let strtabData := slice data shstrtab.shOffset shstrtab.shSize
  let sections ← headers.mapM fun h => do
    let name ← getName strtabData h.shName
    some { h with name := name }
  some (eEntry, sections)

/-- `find_section`. -/
def findSection (sections : List Section) (name : String) : Option Section :=
  sections.find? fun s => s.name = ascii name

/-! ## Reading where there is something to read -/

section

variable {data : List UInt8} {off : Nat} {n w : Nat}

theorem unpackAt_natCast (data : List UInt8) (off n : Nat) :
    unpackAt data off n = if off + n ≤ data.length then some off else none := by
  unfold unpackAt
  dsimp only
  rw [if_neg (not_lt.mpr (Int.natCast_nonneg off))]
  exact if_congr ⟨fun h => by omega, fun h => by omega⟩ (by simp) rfl

theorem length_slice (h : off + n ≤ data.length) : (slice data off n).length = n := by
  unfold slice
  rw [List.length_take, List.length_drop]
  omega

theorem load_slice {k : Nat} (h : k < n) : load (slice data off n) k = load data (off + k) := by
  unfold load slice
  rw [List.getD_eq_getElem?_getD, List.getElem?_take_of_lt h, List.getElem?_drop,
    ← List.getD_eq_getElem?_getD]

/-- What is read is the word at the offset, and there is one. -/
theorem unpackU32_natCast_eq_some :
    unpackU32 data off = some w ↔ off + 4 ≤ data.length ∧ (word (load data) off).toNat = w := by
  unfold unpackU32
  rw [unpackAt_natCast]
  split_ifs with h
  · simp [h]
  · simp [h]

end

end SN110
