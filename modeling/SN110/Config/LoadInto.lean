import SN110.Config.Buffers
import SN110.Config.AddressText
import SN110.Config.SavedKeys
import SN110.Minilib.Files

/-!
# `config_load` on its arrays

`config_load` as it runs with the device's library: `fgets` fills `line` through the buffer of a
`FILE`, `sscanf` fills `key` and `value`, `trim` cuts them where they stand, and `parse_ip` scans
into locals of its own. Nothing is cleared between two lines, and every load and every store is
checked.

* `loadLoop`: the loop, which ends because each line takes bytes from the file (`left_fgets`).
* `configLoadInto_eq`: on every file, however `read` splits it, and whatever the stack holds, this
  is `configLoad`.
-/

namespace SN110

open Checked Memory Pieces

/-! ## The code -/

/-- The arrays of `config_load`, and what the stack holds where `parse_ip` has its locals. -/
structure LoadLocals where
  line : Vector UInt8 256
  scan : ScanArrays
  words : Nat → UInt32

def LoadLocals.parseIp (l : LoadLocals) (v : List UInt8) : Except Fault UInt32 :=
  parseIpInto v (l.words 0) (l.words 1) (l.words 2) (l.words 3)

/-- `config_load`'s chain of `strcmp`s, with the calls of `parse_ip` as they run. What is stored
into the hostname, a label or the MAC address is a `CString` or a `Vector` of the field's own size,
and so in range by its type; only the accesses to the function's own arrays are checked here. -/
def applyKeyInto (config : NodeConfig) (v : List UInt8) (l : LoadLocals) :
    Key → Except Fault NodeConfig
  | .nodeaddr =>
    if v = ascii "0" then .ok { config with ipAddr := 0 }
    else do
      let ip ← l.parseIp v
      .ok { config with ipAddr := ip }
  | .netmask => do
    let ip ← l.parseIp v
    .ok { config with netmask := ip }
  | .gateway => do
    let ip ← l.parseIp v
    .ok { config with gateway := ip }
  | key => .ok (applyKey config v key)

/-- One round of the loop, once `fgets` has filled `line`. -/
def loadLineInto (config : NodeConfig) (l : LoadLocals) :
    Except Fault (NodeConfig × LoadLocals) := do
  let (scan, found) ← scanInto l.line l.scan
  if found then do
    let (key, k) ← trimText scan.key
    let (value, v) ← trimText scan.value
    let l := { l with scan := ⟨key, value⟩ }
    match findKey managedKeys k with
    | none => .ok (config, l)
    | some key => do
      let config ← applyKeyInto config v l key
      .ok (config, { l with words := fun i => l.words (i + 4) })
  else .ok (config, { l with scan := scan })

/-- The bytes in the buffer that have not been taken. -/
def OpenFile.left (f : OpenFile) : Nat := (f.bufLen.toInt - f.bufPos.toInt).toNat

theorem left_refill {f f' : OpenFile} {src src' : Source} (h : f.refill src = .ok (f', src')) :
    f'.left + src'.rest.length = src.rest.length := by
  obtain ⟨piece, behind, hread⟩ : ∃ piece behind, src.read miniFileBufsz = (piece, behind) :=
    ⟨_, _, rfl⟩
  have hle := src.length_read_le miniFileBufsz
  have hrest := congrArg List.length (src.append_rest_read miniFileBufsz)
  rw [hread] at hle hrest
  rw [List.length_append] at hrest
  unfold OpenFile.refill at h
  rw [hread] at h
  obtain ⟨buf, -, heq⟩ := exists_of_bind_eq_ok h
  cases heq
  unfold OpenFile.left
  dsimp only at hle hrest ⊢
  rw [toInt_small hle]
  show ((piece.length : Int) - 0).toNat + _ = _
  omega

theorem left_takeByte {f f' : OpenFile} {c : UInt8} (hlt : f.bufPos < f.bufLen)
    (h : f.takeByte = .ok (c, f')) : f'.left + 1 = f.left := by
  obtain ⟨c', -, heq⟩ := exists_of_bind_eq_ok h
  cases heq
  rw [Int32.lt_iff_toInt_lt] at hlt
  have hnext : (f.bufPos + 1).toInt = f.bufPos.toInt + 1 := by
    have hmax := f.bufLen.toInt_lt
    have hmin := f.bufPos.le_toInt
    rw [Int32.toInt_add, show (1 : Int32).toInt = 1 from rfl]
    exact Int.bmod_eq_of_le (by omega) (by omega)
  unfold OpenFile.left
  dsimp only
  rw [hnext]
  omega

/-- A byte that `fgets` comes to is one byte less to come. -/
theorem left_nextByte {f f' : OpenFile} {src src' : Source} {c : Option UInt8}
    (h : f.nextByte src = .ok (c, f', src')) :
    c.toList.length + f'.left + src'.rest.length ≤ f.left + src.rest.length := by
  unfold OpenFile.nextByte at h
  -- with the buffer empty it is refilled, and the end of the file is found then
  split_ifs at h with hempty
  · obtain ⟨⟨f₁, src₁⟩, hrefill, h⟩ := exists_of_bind_eq_ok h
    have hleft := left_refill hrefill
    dsimp only at h
    split_ifs at h with hended
    · cases h
      show 0 + f'.left + _ ≤ _
      omega
    · obtain ⟨⟨c', f₂⟩, htake, heq⟩ := exists_of_bind_eq_ok h
      cases heq
      have hpos : f₁.bufPos = 0 := by
        obtain ⟨buf, -, heq⟩ := exists_of_bind_eq_ok hrefill
        cases heq
        rfl
      have hnext := left_takeByte (by rw [hpos]; exact Int32.not_le.mp hended) htake
      show 1 + f₂.left + _ ≤ _
      omega
  · obtain ⟨⟨c', f₁⟩, htake, heq⟩ := exists_of_bind_eq_ok h
    cases heq
    have hnext := left_takeByte (Int32.not_le.mp hempty) htake
    show 1 + f'.left + _ ≤ _
    omega

theorem left_fgetsLoop {cap : Nat} {size : Int32} {f f' : OpenFile} {src src' : Source}
    {s s' : Vector UInt8 cap} {i i' : Nat}
    (h : fgetsLoop size f src s i = .ok (f', src', s', i')) :
    i' + f'.left + src'.rest.length ≤ i + f.left + src.rest.length := by
  -- what is stored and what is left never exceed what there was to read
  fun_induction fgetsLoop size f src s i with
  | case1 f src s i hlt ih =>
    obtain ⟨⟨c, f₁, src₁⟩, hnext, h⟩ := exists_of_bind_eq_ok h
    have hleft := left_nextByte hnext
    cases c with
    | none =>
      cases h
      have hnone : 0 + f'.left + src'.rest.length ≤ f.left + src.rest.length := hleft
      omega
    | some c =>
      have hsome : 1 + f₁.left + src₁.rest.length ≤ f.left + src.rest.length := hleft
      obtain ⟨s₁, -, h⟩ := exists_of_bind_eq_ok h
      split_ifs at h
      · cases h
        omega
      · have hrest := ih _ _ _ h
        omega
  | case2 f src s i hge =>
    cases h
    exact Nat.le_refl _

/-- A line takes a byte from the file at least. -/
theorem left_fgets {cap : Nat} {size : Int32} {f f' : OpenFile} {src src' : Source}
    {s : Vector UInt8 cap} {line : Vector UInt8 cap × Nat}
    (h : f.fgets src s size = .ok (f', src', some line)) :
    f'.left + src'.rest.length < f.left + src.rest.length := by
  unfold OpenFile.fgets at h
  split_ifs at h
  · cases h
  obtain ⟨⟨f₁, src₁, s₁, i⟩, hloop, h⟩ := exists_of_bind_eq_ok h
  have hleft := left_fgetsLoop hloop
  dsimp only at h
  split_ifs at h with hzero
  · cases h
  obtain ⟨s₂, -, heq⟩ := exists_of_bind_eq_ok h
  cases heq
  omega

/-- `while (fgets(line, sizeof(line), f))`. -/
def loadLoop (f : OpenFile) (src : Source) (config : NodeConfig) (l : LoadLocals) :
    Except Fault (OpenFile × NodeConfig) :=
  match _hgets : f.fgets src l.line 256 with
  | .error e => .error e
  | .ok (f, _, none) => .ok (f, config)
  | .ok (f, src, some (line, _)) =>
    match loadLineInto config { l with line := line } with
    | .error e => .error e
    | .ok (config, l) => loadLoop f src config l
termination_by f.left + src.rest.length
decreasing_by exact left_fgets _hgets

/-- `config_load`, on what `open` makes of the path; `buf` is what the buffer of the `FILE` holds
from an earlier use. -/
def configLoadInto (file : Option Source) (buf : Vector UInt8 miniFileBufsz) (l : LoadLocals) :
    Except Fault (Int × NodeConfig) :=
  match file with
  | none => .ok (-1, configDefaults)
  | some src => do
    let (f, config) ← loadLoop (OpenFile.fopen 114 buf) src configDefaults l
    let config := inferAddrMode config
    let (_, _, _) ← f.fclose
    .ok (0, config)

/-! ## One line -/

theorem parseIp_eq (l : LoadLocals) (v : List UInt8) : l.parseIp v = .ok (SN110.parseIp v) :=
  parseIpInto_eq v _ _ _ _

theorem applyKeyInto_eq (config : NodeConfig) (v : List UInt8) (l : LoadLocals) (key : Key) :
    applyKeyInto config v l key = .ok (applyKey config v key) := by
  cases key with
  | nodeaddr =>
    unfold applyKeyInto applyKey
    rw [parseIp_eq, ok_bind]
    dsimp only
    split_ifs <;> rfl
  | netmask =>
    unfold applyKeyInto
    rw [parseIp_eq]
    rfl
  | gateway =>
    unfold applyKeyInto
    rw [parseIp_eq]
    rfl
  | _ => rfl

/-- **One line.** -/
theorem loadLineInto_eq (config : NodeConfig) {l : LoadLocals} {line : List UInt8}
    (h : HoldsText l.line 0 (cstr line)) :
    ∃ l', loadLineInto config l = .ok (loadLine config line, l') := by
  -- scanned, trimmed and applied, as in the model over texts
  obtain ⟨scan, hscan, hheld⟩ := scanInto_eq h l.scan
  unfold loadLineInto loadLine lineSets
  rw [hscan, ok_bind]
  rw [scanLine_cstr] at hheld ⊢
  dsimp only
  cases hfound : scanLine line with
  | none => exact ⟨_, rfl⟩
  | some found =>
    rw [hfound] at hheld
    obtain ⟨key, value, hkey, hvalue, heq⟩ := hheld rfl
    cases heq
    obtain ⟨keyArray, hkeyTrim⟩ := trimText_eq hkey
    obtain ⟨valueArray, hvalueTrim⟩ := trimText_eq hvalue
    rw [Option.isSome_some, if_pos rfl, hkeyTrim, ok_bind]
    dsimp only
    rw [hvalueTrim, ok_bind]
    dsimp only
    cases findKey managedKeys (trim key) with
    | none => exact ⟨_, rfl⟩
    | some key =>
      dsimp only [Option.map]
      rw [applyKeyInto_eq, ok_bind]
      exact ⟨_, rfl⟩

/-! ## The loop -/

/-- The loop takes the pieces one after the other. -/
theorem loadLoop_eq {f : OpenFile} {src : Source} {todo : List UInt8} (h : f.Reads src todo)
    (config : NodeConfig) (l : LoadLocals) :
    ∃ f', loadLoop f src config l = .ok (f', (linePieces todo).foldl loadLine config) ∧
      f'.SameUse f := by
  -- each round takes the next piece of what is left of the file
  induction todo using pieces_induction (show 0 < maxPiece by decide) lf
    generalizing f src config l with
  | hnil =>
    obtain ⟨f', src', hgets, -⟩ := @OpenFile.Reads.fgets f src [] 256 h l.line 256 255 (by decide)
      (by decide) (by decide)
    rw [if_pos rfl] at hgets
    refine ⟨f', ?_, OpenFile.sameUse_fgets hgets⟩
    rw [loadLoop]
    split
    · rename_i heq
      rw [hgets] at heq
      cases heq
    · rename_i heq
      rw [hgets] at heq
      cases heq
      rfl
    · rename_i heq
      rw [hgets] at heq
      cases heq
  | hcut todo hne ih =>
    obtain ⟨f', src', hgets, hf'⟩ := @OpenFile.Reads.fgets f src todo 256 h l.line 256 255
      (by decide) (by decide) (by decide)
    rw [if_neg hne] at hgets
    have hlength : (cut lf 255 todo).1.length ≤ 255 := length_cut_fst_le 255 todo
    have hholds := holdsText_overlay l.line (Nat.lt_succ_of_le hlength)
    obtain ⟨l', hline⟩ := @loadLineInto_eq config
      { l with line := overlay l.line ((cut lf 255 todo).1 ++ [0]) } _ hholds
    obtain ⟨f'', hrest, hsame⟩ := ih hf' (loadLine config (cut lf 255 todo).1) l'
    refine ⟨f'', ?_, hsame.trans (OpenFile.sameUse_fgets hgets)⟩
    rw [loadLoop]
    split
    · rename_i heq
      rw [hgets] at heq
      cases heq
    · rename_i heq
      rw [hgets] at heq
      cases heq
    · rename_i heq
      rw [hgets, Except.ok.injEq, Prod.mk.injEq, Prod.mk.injEq, Option.some_inj, Prod.mk.injEq]
        at heq
      obtain ⟨rfl, rfl, rfl, -⟩ := heq
      rw [hline]
      dsimp only
      rw [hrest, linePieces, linePieces, pieces_of_ne_nil (by decide) hne, List.foldl_cons]

/-- **`config_load` on the device** is `configLoad`: on every file, however `read` splits it,
whatever the arrays, the `FILE` and the stack hold from before, and without an access outside an
array. -/
theorem configLoadInto_eq (file : Option Source) (buf : Vector UInt8 miniFileBufsz)
    (l : LoadLocals) :
    configLoadInto file buf l = .ok (configLoad (file.map Source.rest)) := by
  cases file with
  | none => rfl
  | some src =>
    obtain ⟨f, hloop, hmode, hused⟩ := loadLoop_eq (reads_fopen buf src) configDefaults l
    unfold configLoadInto
    dsimp only
    rw [hloop, ok_bind]
    dsimp only
    rw [OpenFile.fclose_of_reading hused hmode]
    rfl

end SN110
