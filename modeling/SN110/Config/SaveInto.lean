import SN110.Config.FormatInto
import SN110.Config.LoadInto
import SN110.Config.Faults

/-!
# `_config_save_internal` on its arrays

The saving code as it runs with the device's library: `fread` fills `existing` through a `FILE`, a
pointer goes through it line by line, each line is copied to an array of its own and scanned there,
and the new lines go through `snprintf`, `fputs` and `fwrite` to the `write`s of a second `FILE`.
Every load and every store is checked, those of `written` too.

* `rewriteLoop` and `appendLoop`: the two loops.
* `configSaveInto_eq`: on every file, however `read` splits it, and whatever the arrays hold, the
  blocks that are written are those of `savedBlocks`.

## The invariant

Between two lines the loop has written the texts of the pieces behind it and marked the keys among
them. `SaveState.Wrote` says the first of the blocks written and the bytes held back, `Marks` the
second of the array `written`. A line keeps both (`rewriteLine_eq`): the array it is copied to is as
long as a piece can be, the index that is marked is that of a key in a list of at most 20, and the
text that is formatted fits its buffer.
-/

namespace SN110

open Checked Memory Pieces

/-! ## The code -/

/-- The arrays of `_config_save_internal`, and its `FILE` with the blocks it has written. -/
structure SaveState where
  linebuf : Vector UInt8 256
  scan : ScanArrays
  fmtbuf : Vector UInt8 256
  written : Vector Bool 20
  file : OpenFile
  blocks : List (List UInt8)

/-- `format_key(fmtbuf, ...); fputs(fmtbuf, f);`. -/
def SaveState.putKey (s : SaveState) (config : NodeConfig) (key : Key) :
    Except Fault SaveState := do
  let (fmtbuf, _) ← formatKeyInto s.fmtbuf config key
  let text ← textAt fmtbuf 0
  let (file, blocks, _) ← s.file.fputs text
  .ok { s with fmtbuf := fmtbuf, file := file, blocks := s.blocks ++ blocks }

/-- `written[i] = 1;`. -/
def SaveState.mark (s : SaveState) (i : Nat) : Except Fault SaveState :=
  if h : i < 20 then .ok { s with written := s.written.set i true } else .error (.store i)

/-- `fwrite(linebuf, 1, linelen, f);`. -/
def SaveState.putLine (s : SaveState) (linelen : Nat) : Except Fault SaveState := do
  let (file, blocks, _) ← s.file.fwrite s.linebuf.toList 1 (UInt32.ofNat linelen)
  .ok { s with file := file, blocks := s.blocks ++ blocks }

/-- The entry of `key_list` that equals a key, with its index. -/
def keyIndex (keys : List Key) (k : List UInt8) : Option (Key × Nat) :=
  keys.zipIdx.find? fun entry => k == entry.1.name

/-- The length of the line at `p`: to behind its newline or to the end of the text, and cut to what
`linebuf` holds. -/
def lineLength (text : List UInt8) : Nat :=
  let linelen := if lf ∈ text then text.idxOf lf + 1 else text.length
  if linelen ≥ 256 then 255 else linelen

/-- A line in `linebuf`: replaced, dropped or kept. -/
def rewriteLine (keys : List Key) (skip : Bool) (config : NodeConfig) (s : SaveState)
    (linelen : Nat) : Except Fault SaveState := do
  let (scan, found) ← scanInto s.linebuf s.scan
  if found then do
    let (key, k) ← trimText scan.key
    let s := { s with scan := ⟨key, scan.value⟩ }
    match keyIndex keys k with
    | some (key, i) => do
      let s ← s.putKey config key
      s.mark i
    | none =>
      if skip = true ∧ (findKey managedKeys k).isSome = true then .ok s else s.putLine linelen
  else ({ s with scan := scan }).putLine linelen

/-- A text that is not empty has a line to copy. -/
theorem lineLength_pos {text : List UInt8} (h : text ≠ []) : 0 < lineLength text := by
  have hlen := List.length_pos_of_ne_nil h
  unfold lineLength
  dsimp only
  split_ifs <;> omega

/-- At a byte that is no NUL there is a line to copy. -/
theorem lineLength_pos_of_textAt {cap : Nat} {buf : Vector UInt8 cap} {p : Nat} {text : List UInt8}
    (hp : p < cap) (hnul : ¬ buf[p] = 0) (h : textAt buf p = .ok text) : 0 < lineLength text := by
  apply lineLength_pos
  have hin : p < buf.toList.length := by
    rw [Vector.length_toList]
    exact hp
  unfold textAt at h
  split_ifs at h
  obtain rfl := Except.ok.inj h
  rw [List.drop_eq_getElem_cons hin, Vector.getElem_toList, cstr,
    List.takeWhile_cons_of_pos (by simpa using hnul)]
  exact List.cons_ne_nil _ _

/-- `while (*p)`. -/
def rewriteLoop (keys : List Key) (skip : Bool) (config : NodeConfig)
    (existing : Vector UInt8 2048) (p : Nat) (s : SaveState) : Except Fault SaveState :=
  if hp : p < 2048 then
    if hnul : existing[p] = 0 then .ok s
    else
      match htext : textAt existing p with
      | .error e => .error e
      | .ok text => do
        let linelen := lineLength text
        let linebuf ← copyAt s.linebuf 0 (existing.toList.drop p) linelen
        let linebuf ← put linebuf linelen 0
        let s ← rewriteLine keys skip config { s with linebuf := linebuf } linelen
        rewriteLoop keys skip config existing (p + linelen) s
  else .error (.load p)
termination_by 2048 - p
decreasing_by
  have hpos := lineLength_pos_of_textAt hp hnul htext
  omega

/-- The loop that appends the keys which no line has set. -/
def appendLoop (config : NodeConfig) : List (Key × Nat) → SaveState → Except Fault SaveState
  | [], s => .ok s
  | (key, i) :: entries, s =>
    if h : i < 20 then
      if s.written[i] then appendLoop config entries s
      else do
        let s ← s.putKey config key
        appendLoop config entries s
    else .error (.load i)

/-- What is on the stack of `_config_save_internal`, and what the buffers of its two `FILE`s hold,
when it starts. -/
structure SaveLocals where
  existing : Vector UInt8 2048
  linebuf : Vector UInt8 256
  scan : ScanArrays
  fmtbuf : Vector UInt8 256
  readBuf : Vector UInt8 miniFileBufsz
  writeBuf : Vector UInt8 miniFileBufsz

/-- Step 1: the file in `existing`, and `existing_len`. -/
def readExisting (file : Option Source) (l : SaveLocals) :
    Except Fault (Vector UInt8 2048 × Int32) :=
  match file with
  | none => .ok (l.existing, 0)
  | some src => do
    let (f, _, existing, n) ← (OpenFile.fopen 114 l.readBuf).fread src l.existing 1 2047
    let existingLen := if n.toInt32 < 0 then 0 else n.toInt32
    let existing ← put existing existingLen.toInt.toNat 0
    let (_, _, _) ← f.fclose
    .ok (existing, existingLen)

/-- What the arrays and the second `FILE` are when it is open. -/
def SaveLocals.opened (l : SaveLocals) : SaveState where
  linebuf := l.linebuf
  scan := l.scan
  fmtbuf := l.fmtbuf
  written := Vector.replicate 20 false
  file := OpenFile.fopen 119 l.writeBuf
  blocks := []

/-- Step 2. -/
def rewriteExisting (keys : List Key) (skip : Bool) (config : NodeConfig)
    (existing : Vector UInt8 2048) (existingLen : Int32) (s : SaveState) :
    Except Fault SaveState :=
  if existingLen > 0 then rewriteLoop keys skip config existing 0 s else .ok s

/-- `_config_save_internal`, on what `open` makes of the path for reading and whether it opens it
for writing: its return value and the blocks of its `write`s. -/
def configSaveInternalInto (file : Option Source) (writable : Bool) (config : NodeConfig)
    (keys : List Key) (skip : Bool) (l : SaveLocals) : Except Fault (Int × List (List UInt8)) := do
  let keys := keys.take 20
  let (existing, existingLen) ← readExisting file l
  if writable = false then .ok (-1, [])
  else do
    let s ← rewriteExisting keys skip config existing existingLen l.opened
    let s ← appendLoop config keys.zipIdx s
    let (_, blocks, _) ← s.file.fclose
    .ok (0, s.blocks ++ blocks)

/-- `config_save`. -/
def configSaveInto (file : Option Source) (writable : Bool) (config : NodeConfig)
    (l : SaveLocals) : Except Fault (Int × List (List UInt8)) :=
  configSaveInternalInto file writable config managedKeys false l

/-- `config_save_strand`; `reread` is how the size check's `read`s split the new file, or that it
cannot open it, and `buf` is its array. -/
def configSaveStrandInto (file : Option Source) (writable : Bool) (config : NodeConfig)
    (l : SaveLocals) (reread : Option (Nat → ReadSize)) (buf : Vector UInt8 2049) :
    Except Fault (Int × List (List UInt8)) := do
  let (ret, blocks) ← configSaveInternalInto file writable config strandKeys true l
  if ret ≠ 0 then .ok (ret, blocks)
  else
    match reread with
    | none => .ok (0, blocks)
    | some takes => do
      let (f, _, _, n) ← (OpenFile.fopen 114 l.readBuf).fread ⟨blocks.flatten, takes⟩ buf 1 2049
      let (_, _, _) ← f.fclose
      if n.toInt32.toInt > strandMaxSize then .ok (-2, blocks) else .ok (0, blocks)

/-! ## The length of a line -/

/-- The line is copied up to its end, at most 255 bytes of it. -/
theorem lineLength_eq (text : List UInt8) :
    lineLength text = min (if lf ∈ text then text.idxOf lf + 1 else text.length) 255 := by
  unfold lineLength
  dsimp only
  generalize (if lf ∈ text then text.idxOf lf + 1 else text.length) = linelen
  split_ifs <;> omega

/-- The line at the front of a text is the piece that `cut` takes. -/
theorem take_lineLength (text : List UInt8) :
    text.take (lineLength text) = (cut lf maxPiece text).1 := by
  rw [cut_fst_eq_take, lineLength_eq]

/-- No more is copied than there is. -/
theorem lineLength_le (text : List UInt8) : lineLength text ≤ text.length := by
  rw [lineLength_eq]
  refine Nat.le_trans (Nat.min_le_left _ _) ?_
  split_ifs with hmem
  · exact List.idxOf_lt_length_of_mem hmem
  · exact Nat.le_refl _

/-- The copy is as long as the piece `fgets` would return. -/
theorem length_cut_eq (text : List UInt8) : (cut lf maxPiece text).1.length = lineLength text := by
  rw [← take_lineLength, List.length_take, Nat.min_eq_left (lineLength_le text)]

/-- Behind it the rest of the text is left. -/
theorem drop_lineLength (text : List UInt8) :
    text.drop (lineLength text) = (cut lf maxPiece text).2 := by
  rw [← length_cut_eq, drop_length_cut]

/-! ## What has been written -/

/-- The blocks written and the bytes held back are those of the texts. -/
def SaveState.Wrote (s : SaveState) (texts : List (List UInt8)) : Prop :=
  ∃ m : MiniFile, s.file.Holds m ∧
    ∀ rest, s.blocks ++ m.blocks rest = MiniFile.empty.blocks (texts ++ rest)

/-- `written` marks the keys of the list that are among `ws`. -/
def SaveState.Marks (s : SaveState) (keys ws : List Key) : Prop :=
  ∀ (i : Nat) (hi : i < 20) (key : Key), keys[i]? = some key → (s.written[i] = true ↔ key ∈ ws)

section

variable {s : SaveState} {texts : List (List UInt8)} {config : NodeConfig} {keys ws : List Key}
  {skip : Bool}

/-- One more text put through `fwrite`. -/
theorem SaveState.Wrote.fwrite (h : s.Wrote texts) {src : List UInt8} {n : Nat}
    (hn : n ≤ src.length) (hsmall : n ≤ 2048) :
    ∃ file blocks ret, s.file.fwrite src 1 (UInt32.ofNat n) = .ok (file, blocks, ret) ∧
      ∀ s' : SaveState, s'.file = file → s'.blocks = s.blocks ++ blocks →
        s'.Wrote (texts ++ [src.take n]) := by
  obtain ⟨m, hholds, hblocks⟩ := h
  have htotal : (UInt32.ofNat n).toNat = n := by
    rw [UInt32.toNat_ofNat']
    omega
  have hle : m.buf.length ≤ 256 := m.length_le
  obtain ⟨file, ret, hwrite, hfile⟩ := hholds.fwrite (UInt32.one_mul (UInt32.ofNat n))
    (by rw [htotal]; exact hn) (by rw [htotal]; omega)
  rw [htotal] at hwrite hfile
  refine ⟨file, _, ret, hwrite, fun s' hs' hs'' => ⟨_, hs' ▸ hfile, fun rest => ?_⟩⟩
  rw [hs'', List.append_assoc, List.append_assoc]
  exact hblocks (src.take n :: rest)

/-- `putKey` writes the line of the key and marks nothing. -/
theorem putKey_eq (h : s.Wrote texts) (config : NodeConfig) (key : Key) :
    ∃ s', s.putKey config key = .ok s' ∧ s'.Wrote (texts ++ [formatKey config key]) ∧
      s'.written = s.written := by
  obtain ⟨stored, n, hformat, hholds⟩ := formatKeyInto_eq s.fmtbuf config key
  have hlength : (formatKey config key).length ≤ 2048 := by
    have hle := length_keyLine_le config key
    rw [formatKey_eq]
    omega
  obtain ⟨file, blocks, ret, hwrite, hwrote⟩ := h.fwrite (Nat.le_refl _) hlength
  rw [List.take_length] at hwrote
  refine ⟨{ s with fmtbuf := stored, file := file, blocks := s.blocks ++ blocks }, ?_,
    hwrote _ rfl rfl, rfl⟩
  rw [SaveState.putKey, hformat, ok_bind]
  dsimp only
  rw [hholds.textAt, ok_bind, OpenFile.fputs, cstr_of_no_nul hholds.1]
  dsimp only
  rw [hwrite, ok_bind, ok_bind]

/-- A line kept is written from the line buffer and marks nothing. -/
theorem putLine_eq (h : s.Wrote texts) {dst : Vector UInt8 256} {line : List UInt8}
    (hbuf : s.linebuf = overlay dst (line ++ [0])) (hline : line.length ≤ 255) :
    ∃ s', s.putLine line.length = .ok s' ∧ s'.Wrote (texts ++ [line]) ∧
      s'.written = s.written := by
  obtain ⟨file, blocks, ret, hwrite, hwrote⟩ := @SaveState.Wrote.fwrite s texts h s.linebuf.toList
    line.length (by rw [Vector.length_toList]; omega) (by omega)
  have htake : s.linebuf.toList.take line.length = line := by
    rw [hbuf]
    exact take_toList_overlay_append dst
      (by rw [List.length_append, List.length_singleton]; omega)
  rw [htake] at hwrote
  refine ⟨{ s with file := file, blocks := s.blocks ++ blocks }, ?_, hwrote _ rfl rfl, rfl⟩
  rw [SaveState.putLine, hwrite, ok_bind]

/-- The inner loop finds what `findKey` finds, where it stands in the list. -/
theorem keyIndex_eq_some {k : List UInt8} {key : Key} {i : Nat}
    (h : keyIndex keys k = some (key, i)) : findKey keys k = some key ∧ keys[i]? = some key := by
  have hmem : keys[i]? = some key :=
    List.mem_zipIdx_iff_getElem?.mp (List.mem_of_find?_eq_some h)
  have hname := @List.find?_some _ (fun entry : Key × Nat => k == entry.1.name) _ _ h
  exact ⟨findKey_eq_some.mpr ⟨List.mem_of_getElem? hmem, by simpa using hname⟩, hmem⟩

/-- A key that is not found at an index is not found. -/
theorem keyIndex_eq_none {k : List UInt8} (h : keyIndex keys k = none) : findKey keys k = none := by
  rw [keyIndex, List.find?_eq_none] at h
  rw [findKey_eq_none]
  intro key hmem hname
  obtain ⟨i, hi, rfl⟩ := List.getElem_of_mem hmem
  refine h (keys[i], i) (List.mem_zipIdx_iff_getElem?.mpr (List.getElem?_eq_getElem hi)) ?_
  simpa using hname

/-- A key marked at its index. -/
theorem mark_eq (hkeys : keys.Nodup) (hmarks : s.Marks keys ws) {key : Key} {i : Nat}
    (hi : i < 20) (hkey : keys[i]? = some key) :
    ∃ s', s.mark i = .ok s' ∧ s'.Marks keys (ws ++ [key]) ∧ s'.file = s.file ∧
      s'.blocks = s.blocks := by
  refine ⟨_, dif_pos hi, fun j hj key' hkey' => ?_, rfl, rfl⟩
  dsimp only
  rw [Vector.getElem_set, List.mem_append, List.mem_singleton]
  by_cases hij : i = j
  · subst hij
    rw [hkey] at hkey'
    rw [if_pos rfl]
    exact iff_of_true rfl (Or.inr (Option.some.inj hkey').symm)
  · rw [if_neg hij, hmarks j hj key' hkey', or_iff_left]
    rintro rfl
    obtain ⟨hilt, higet⟩ := List.getElem?_eq_some_iff.mp hkey
    obtain ⟨hjlt, hjget⟩ := List.getElem?_eq_some_iff.mp hkey'
    exact hij ((hkeys.getElem_inj_iff).mp (higet.trans hjget.symm))

/-- What was written is decided by the file and the blocks. -/
theorem SaveState.Wrote.congr (h : s.Wrote texts) {s' : SaveState} (hfile : s'.file = s.file)
    (hblocks : s'.blocks = s.blocks) : s'.Wrote texts := by
  obtain ⟨m, hholds, hrest⟩ := h
  exact ⟨m, hfile ▸ hholds, fun rest => hblocks ▸ hrest rest⟩

/-- What was marked is decided by the array of marks. -/
theorem SaveState.Marks.congr (h : s.Marks keys ws) {s' : SaveState}
    (hs' : s'.written = s.written) : s'.Marks keys ws := by
  intro i hi key hkey
  rw [show s'.written[i] = s.written[i] by rw [hs'], h i hi key hkey]

/-! ## The rewriting loop -/

/-- **One line.** -/
theorem rewriteLine_eq (hwrote : s.Wrote texts) (hmarks : s.Marks keys ws) (hkeys : keys.Nodup)
    (hmax : keys.length ≤ 20) {dst : Vector UInt8 256} {line : List UInt8}
    (hbuf : s.linebuf = overlay dst (line ++ [0])) (hno : 0 ∉ line) (hline : line.length ≤ 255) :
    ∃ s', rewriteLine keys skip config s line.length = .ok s' ∧
      s'.Wrote (texts ++ ((lineAction keys skip line).puts config line).toList) ∧
      s'.Marks keys (ws ++ (lineAction keys skip line).written.toList) := by
  have hholds := holdsText_overlay dst (Nat.lt_succ_of_le hline)
  rw [cstr_of_no_nul hno, ← hbuf] at hholds
  obtain ⟨scan, hscan, hheld⟩ := scanInto_eq hholds s.scan
  -- a line that is kept, whatever has become of the arrays of the scan
  have hkeep : ∀ scan : ScanArrays, ∃ s', ({ s with scan := scan }).putLine line.length = .ok s' ∧
      s'.Wrote (texts ++ [line]) ∧ s'.Marks keys (ws ++ []) := by
    intro scan
    obtain ⟨s', hput, hwrote', hwritten⟩ :=
      @putLine_eq { s with scan := scan } texts hwrote dst line hbuf hline
    rw [List.append_nil]
    exact ⟨s', hput, hwrote', hmarks.congr hwritten⟩
  unfold rewriteLine lineAction
  rw [hscan, ok_bind]
  dsimp only
  cases hfound : scanLine line with
  | none => exact hkeep scan
  | some found =>
    rw [hfound] at hheld
    obtain ⟨key, value, hkey, hvalue, heq⟩ := hheld rfl
    cases heq
    obtain ⟨keyArray, hkeyTrim⟩ := trimText_eq hkey
    rw [Option.isSome_some, if_pos rfl, hkeyTrim, ok_bind]
    dsimp only
    cases hindex : keyIndex keys (trim key) with
    | some entry =>
      obtain ⟨managed, i⟩ := entry
      obtain ⟨hfind, hget⟩ := keyIndex_eq_some hindex
      have hi : i < 20 := by
        obtain ⟨hlt, -⟩ := List.getElem?_eq_some_iff.mp hget
        omega
      obtain ⟨s₁, hput, hwrote₁, hwritten₁⟩ :=
        @putKey_eq { s with scan := ⟨keyArray, scan.value⟩ } texts hwrote config managed
      obtain ⟨s₂, hmark, hmarks₂, hfile, hblocks⟩ := @mark_eq s₁ keys ws hkeys
        (hmarks.congr hwritten₁) managed i hi hget
      dsimp only
      rw [hput, ok_bind, hmark, hfind]
      exact ⟨s₂, rfl, hwrote₁.congr hfile hblocks, hmarks₂⟩
    | none =>
      dsimp only
      rw [keyIndex_eq_none hindex]
      dsimp only
      by_cases hdrop : skip = true ∧ (findKey managedKeys (trim key)).isSome = true
      · rw [if_pos hdrop, if_pos hdrop]
        refine ⟨_, rfl, ?_, ?_⟩
        · show s.Wrote (texts ++ [])
          rwa [List.append_nil]
        · show s.Marks keys (ws ++ [])
          rwa [List.append_nil]
      · rw [if_neg hdrop, if_neg hdrop]
        exact hkeep ⟨keyArray, scan.value⟩

theorem filterMap_cons_toList {α β : Type} (f : α → Option β) (a : α) (l : List α) :
    (a :: l).filterMap f = (f a).toList ++ l.filterMap f := by
  rw [List.filterMap_eq_flatMap_toList, List.flatMap_cons, ← List.filterMap_eq_flatMap_toList]

/-- The line at `p` is copied into `linebuf`. -/
theorem copyLine_eq {existing : Vector UInt8 2048} {p : Nat} {text : List UInt8}
    (htext : HoldsText existing p text) (linebuf : Vector UInt8 256) :
    copyAt linebuf 0 (existing.toList.drop p) (lineLength text)
        = .ok (overlay linebuf (cut lf maxPiece text).1) ∧
      Checked.put (overlay linebuf (cut lf maxPiece text).1) (lineLength text) 0
        = .ok (overlay linebuf ((cut lf maxPiece text).1 ++ [0])) := by
  have hlen := lineLength_le text
  have hline : (cut lf maxPiece text).1.length ≤ 255 := length_cut_fst_le 255 text
  constructor
  · obtain ⟨-, rest, hdrop⟩ := htext
    have hcopy := @copyAt_overlay 256 linebuf [] (existing.toList.drop p) (lineLength text)
      (by rw [hdrop, List.length_append]; omega)
      (by rw [← length_cut_eq]; show 0 + _ ≤ _; omega)
    rw [overlay_nil, hdrop, List.take_append_of_le_length hlen, take_lineLength] at hcopy
    rw [hdrop]
    exact hcopy
  · have hput := @put_overlay 256 linebuf (cut lf maxPiece text).1 0 (Nat.lt_succ_of_le hline)
    rwa [length_cut_eq] at hput

/-- **The loop** takes the pieces one after the other. -/
theorem rewriteLoop_eq (hkeys : keys.Nodup) (hmax : keys.length ≤ 20)
    {existing : Vector UInt8 2048} {p : Nat} {text : List UInt8}
    (htext : HoldsText existing p text) (hwrote : s.Wrote texts) (hmarks : s.Marks keys ws) :
    ∃ s', rewriteLoop keys skip config existing p s = .ok s' ∧
      s'.Wrote (texts ++ (linePieces text).filterMap fun line =>
        (lineAction keys skip line).puts config line) ∧
      s'.Marks keys (ws ++ (linePieces text).filterMap fun line =>
        (lineAction keys skip line).written) := by
  induction text using pieces_induction (show 0 < maxPiece by decide) lf
    generalizing p s texts ws with
  -- at the NUL the loop ends with what was written before
  | hnil =>
    have hlt : p < 2048 := htext.lt
    have hnul : existing[p] = 0 := htext.getElem hlt
    rw [rewriteLoop, dif_pos hlt, dif_pos hnul, linePieces, pieces_nil, List.filterMap_nil,
      List.filterMap_nil, List.append_nil, List.append_nil]
    exact ⟨s, rfl, hwrote, hmarks⟩
  | hcut text hne ih =>
    have hlt : p < 2048 := Nat.lt_of_le_of_lt (Nat.le_add_right _ _) htext.lt
    have hnul : ¬ existing[p] = 0 := by
      rw [htext.getElem hlt]
      cases text with
      | nil => exact absurd rfl hne
      | cons c text => exact fun hzero => htext.1 (hzero ▸ List.mem_cons_self)
    have hlen := lineLength_le text
    have hline : (cut lf maxPiece text).1.length ≤ 255 := length_cut_fst_le 255 text
    have hnoLine : 0 ∉ (cut lf maxPiece text).1 := by
      rw [← take_lineLength]
      exact fun hmem => htext.1 (List.mem_of_mem_take hmem)
    -- the round copies the line, puts it or its replacement, and goes on behind it
    obtain ⟨hcopy, hput⟩ := copyLine_eq htext s.linebuf
    obtain ⟨s₁, hrewrite, hwrote₁, hmarks₁⟩ := @rewriteLine_eq
      { s with linebuf := overlay s.linebuf ((cut lf maxPiece text).1 ++ [0]) } texts config keys ws
      skip (hwrote.congr rfl rfl) (hmarks.congr rfl) hkeys hmax s.linebuf (cut lf maxPiece text).1
      rfl hnoLine hline
    have hnext := htext.drop hlen
    rw [drop_lineLength] at hnext
    obtain ⟨s₂, hloop, hwrote₂, hmarks₂⟩ := ih hnext hwrote₁ hmarks₁
    refine ⟨s₂, ?_, ?_, ?_⟩
    · rw [rewriteLoop, dif_pos hlt, dif_neg hnul]
      split
      · rename_i heq
        rw [htext.textAt] at heq
        cases heq
      · rename_i heq
        rw [htext.textAt] at heq
        obtain rfl := Except.ok.inj heq
        dsimp only
        rw [hcopy, ok_bind, hput, ok_bind]
        rw [length_cut_eq] at hrewrite
        rw [hrewrite, ok_bind, hloop]
    · rw [linePieces, pieces_of_ne_nil (by decide) hne, filterMap_cons_toList, ← List.append_assoc]
      exact hwrote₂
    · rw [linePieces, pieces_of_ne_nil (by decide) hne, filterMap_cons_toList, ← List.append_assoc]
      exact hmarks₂

/-! ## The appending loop -/

/-- The appending loop writes the lines of the keys not marked. -/
theorem appendLoop_eq (hmax : keys.length ≤ 20) {entries : List (Key × Nat)}
    (hentries : ∀ entry ∈ entries, keys[entry.2]? = some entry.1) (hwrote : s.Wrote texts)
    (hmarks : s.Marks keys ws) :
    ∃ s', appendLoop config entries s = .ok s' ∧
      s'.Wrote (texts ++ ((entries.map Prod.fst).filter fun key => key ∉ ws).map
        (formatKey config)) := by
  induction entries generalizing s texts with
  | nil => exact ⟨s, rfl, by simpa using hwrote⟩
  | cons entry entries ih =>
    obtain ⟨key, i⟩ := entry
    rw [List.forall_mem_cons] at hentries
    have hget : keys[i]? = some key := hentries.1
    obtain ⟨hlt, -⟩ := List.getElem?_eq_some_iff.mp hget
    have hi : i < 20 := by omega
    have hmarked := hmarks i hi key hget
    rw [appendLoop, dif_pos hi, List.map_cons, List.filter_cons]
    -- a key is appended unless the loop before has marked it
    by_cases hmem : key ∈ ws
    · rw [if_pos (hmarked.mpr hmem), if_neg (by simpa using hmem)]
      exact ih hentries.2 hwrote hmarks
    · obtain ⟨s₁, hput, hwrote₁, hwritten⟩ := putKey_eq hwrote config key
      obtain ⟨s₂, hrest, hwrote₂⟩ := ih hentries.2 hwrote₁ (hmarks.congr hwritten)
      rw [if_neg (fun h => hmem (hmarked.mp h)), hput, ok_bind, hrest, if_pos (by simpa using hmem)]
      refine ⟨s₂, rfl, ?_⟩
      rwa [List.append_assoc] at hwrote₂

end

/-! ## The whole save -/

/-- A file opened, read into an array at once and closed; the number of bytes is taken as an
`int`. -/
theorem fread_once (readBuf : Vector UInt8 miniFileBufsz) (src : Source) {cap : Nat}
    (dst : Vector UInt8 cap) {nmemb : UInt32} (hcap : nmemb.toNat ≤ cap)
    (hint : nmemb.toNat < 2 ^ 31) :
    ∃ f f' src' n, (OpenFile.fopen 114 readBuf).fread src dst 1 nmemb
        = .ok (f, src', overlay dst (src.rest.take nmemb.toNat), n) ∧
      f.fclose = .ok (f', [], 0) ∧ n.toInt32.toInt = min nmemb.toNat src.rest.length := by
  obtain ⟨f, src', hread, -⟩ := (reads_fopen readBuf src).fread dst hcap
  obtain ⟨hmode, hused⟩ := OpenFile.sameUse_fread hread
  refine ⟨f, _, src', _, hread, OpenFile.fclose_of_reading hused hmode, ?_⟩
  rw [List.length_take]
  exact Int32.toInt_ofNat_of_lt (by omega)

/-- Step 1 leaves the text of the file in `existing`. -/
theorem readExisting_eq (file : Option Source) (l : SaveLocals) :
    ∃ existing existingLen, readExisting file l = .ok (existing, existingLen) ∧
      existingLen.toInt = (((file.map Source.rest).getD []).take 2047).length ∧
      (0 < existingLen.toInt →
        HoldsText existing 0 (existingText ((file.map Source.rest).getD []))) := by
  cases file with
  | none => exact ⟨l.existing, 0, rfl, rfl, fun h => absurd h (by decide)⟩
  | some src =>
    obtain ⟨f, f', src', n, hread, hclose, hcount⟩ := @fread_once l.readBuf src 2048 l.existing 2047
      (by decide) (by decide)
    have hlength : (src.rest.take 2047).length ≤ 2047 := List.length_take_le _ _
    change n.toInt32.toInt = (min 2047 src.rest.length : Nat) at hcount
    rw [← List.length_take] at hcount
    -- at most 2047 bytes are read, so the count does not become negative
    have hnonneg : ¬ n.toInt32 < 0 := by
      rw [Int32.lt_iff_toInt_lt, hcount]
      exact Int.not_lt.mpr (Int.natCast_nonneg _)
    have hput := @put_overlay 2048 l.existing (src.rest.take 2047) 0 (Nat.lt_succ_of_le hlength)
    refine ⟨_, _, ?_, hcount, fun _ => holdsText_overlay l.existing (Nat.lt_succ_of_le hlength)⟩
    unfold readExisting
    rw [show (2047 : UInt32).toNat = 2047 from rfl] at hread
    dsimp only
    rw [hread, ok_bind]
    dsimp only
    rw [if_neg hnonneg, hcount, Int.toNat_natCast, hput, ok_bind, hclose]
    rfl

/-- Step 2 writes what the lines become. -/
theorem rewriteExisting_eq {keys : List Key} (hkeys : keys.Nodup) (hmax : keys.length ≤ 20)
    (skip : Bool) (config : NodeConfig) {existing : Vector UInt8 2048} {existingLen : Int32}
    {old : List UInt8} (hlen : existingLen.toInt = (old.take 2047).length)
    (hholds : 0 < existingLen.toInt → HoldsText existing 0 (existingText old)) (l : SaveLocals) :
    ∃ s, rewriteExisting keys skip config existing existingLen l.opened = .ok s ∧
      s.Wrote ((linePieces (existingText old)).filterMap fun line =>
        (lineAction keys skip line).puts config line) ∧
      s.Marks keys (writtenKeys keys skip old) := by
  have hwrote : l.opened.Wrote [] := ⟨MiniFile.empty, holds_fopen l.writeBuf, fun _ => rfl⟩
  have hmarks : l.opened.Marks keys [] := by
    intro i hi key hkey
    rw [SaveLocals.opened]
    simp
  have hpos : existingLen > 0 ↔ 0 < existingLen.toInt := Int32.lt_iff_toInt_lt
  unfold rewriteExisting
  by_cases hsome : 0 < existingLen.toInt
  · rw [if_pos (hpos.mpr hsome)]
    exact rewriteLoop_eq hkeys hmax (hholds hsome) hwrote hmarks
  · have hnil : old.take 2047 = [] := List.eq_nil_of_length_eq_zero (by omega)
    rw [if_neg (fun h => hsome (hpos.mp h)), writtenKeys, existingText, hnil]
    exact ⟨l.opened, rfl, hwrote, hmarks⟩

/-- **`_config_save_internal` on the device** writes the blocks of `savedBlocks`: on every file,
however `read` splits it, whatever the arrays and the `FILE`s hold from before, and without an
access outside an array. -/
theorem configSaveInternalInto_eq (file : Option Source) (writable : Bool) (config : NodeConfig)
    {keys : List Key} (hkeys : (keys.take 20).Nodup) (skip : Bool) (l : SaveLocals) :
    configSaveInternalInto file writable config keys skip l
      = .ok (if writable = true then
          (0, savedBlocks (keys.take 20) skip config ((file.map Source.rest).getD []))
        else (-1, [])) := by
  obtain ⟨existing, existingLen, hread, hlen, hholds⟩ := readExisting_eq file l
  unfold configSaveInternalInto
  dsimp only
  rw [hread, ok_bind]
  dsimp only
  -- without the file nothing is written, with it the loops run and it is closed
  cases writable with
  | false => rfl
  | true =>
    have hmax : (keys.take 20).length ≤ 20 := List.length_take_le _ _
    generalize (file.map Source.rest).getD [] = old at hlen hholds ⊢
    generalize keys.take 20 = keys at hkeys hmax ⊢
    obtain ⟨s₁, hlines, hwrote₁, hmarks₁⟩ :=
      rewriteExisting_eq hkeys hmax skip config hlen hholds l
    have hentries : ∀ entry ∈ keys.zipIdx, keys[entry.2]? = some entry.1 := fun entry hentry =>
      List.mem_zipIdx_iff_getElem?.mp hentry
    obtain ⟨s₂, happend, m, hholds₂, hblocks⟩ :=
      @appendLoop_eq s₁ _ config keys _ hmax _ hentries hwrote₁ hmarks₁
    obtain ⟨f, hclose⟩ := hholds₂.fclose
    have hall := hblocks []
    rw [List.append_nil, List.zipIdx_map_fst] at hall
    rw [if_neg (by decide), if_pos rfl, hlines, ok_bind, happend, ok_bind, hclose, ok_bind]
    exact congrArg (fun blocks => Except.ok ((0 : Int), blocks)) hall

/-- **`config_save` on the device.** -/
theorem configSaveInto_eq (file : Option Source) (writable : Bool) (config : NodeConfig)
    (l : SaveLocals) :
    configSaveInto file writable config l
      = .ok (if writable = true then
          (0, savedBlocks managedKeys false config ((file.map Source.rest).getD []))
        else (-1, [])) := configSaveInternalInto_eq file writable config (by decide) false l

/-- **Both saves on the device.** `config_save` writes the blocks of the whole list, and
`config_save_strand` those of its own, and it returns -2 when it can see that they are too many. -/
theorem configSaves_onDevice (file : Option Source) (writable : Bool) (config : NodeConfig)
    (l : SaveLocals) (reread : Option (Nat → ReadSize)) (buf : Vector UInt8 2049) :
    let old := (file.map Source.rest).getD []
    configSaveInto file writable config l
        = .ok (if writable = true then (0, savedBlocks managedKeys false config old)
          else (-1, [])) ∧
      configSaveStrandInto file writable config l reread buf
        = .ok (if writable = true then
            (if reread.isSome = true ∧ strandMaxSize < (savedStrand config old).length then -2
              else 0, savedBlocks strandKeys true config old)
          else (-1, [])) := by
  refine ⟨configSaveInto_eq file writable config l, ?_⟩
  generalize hold : (file.map Source.rest).getD [] = old
  have hsave := configSaveInternalInto_eq file writable config
    (show (strandKeys.take 20).Nodup by decide) true l
  rw [hold, show strandKeys.take 20 = strandKeys from rfl] at hsave
  unfold configSaveStrandInto
  rw [hsave, ok_bind]
  cases writable with
  | false => rfl
  | true =>
    rw [if_pos rfl, if_pos rfl]
    dsimp only
    rw [if_neg (by decide)]
    cases reread with
    | none => rfl
    | some takes =>
      obtain ⟨f, f', src', n, hread, hclose, hcount⟩ := @fread_once l.readBuf
        ⟨(savedBlocks strandKeys true config old).flatten, takes⟩ 2049 buf 2049 (by decide)
        (by decide)
      rw [flatten_savedBlocks] at hcount
      change n.toInt32.toInt = (min 2049 (savedStrand config old).length : Nat) at hcount
      dsimp only
      rw [hread, ok_bind]
      dsimp only
      rw [hclose, ok_bind]
      -- the array of the check holds one byte more than the bound
      have hlong : n.toInt32.toInt > (strandMaxSize : Nat) ↔
          (some takes).isSome = true ∧ strandMaxSize < (savedStrand config old).length := by
        rw [hcount, Option.isSome_some, eq_self_iff_true, true_and]
        show ((min 2049 _ : Nat) : Int) > (2048 : Nat) ↔ 2048 < _
        omega
      by_cases h : n.toInt32.toInt > (strandMaxSize : Nat)
      · rw [if_pos h, if_pos (hlong.mp h)]
      · rw [if_neg h, if_neg (fun h' => h (hlong.mpr h'))]

/-- **Saved and loaded on the device.** What `config_save` writes, `config_load` reads back. -/
theorem deviceRoundTrip (file : Option Source) (config : NodeConfig) (h : Persistable config)
    (htail : TailOk managedKeys false ((file.map Source.rest).getD []))
    (l : SaveLocals) (takes : Nat → ReadSize) (buf : Vector UInt8 miniFileBufsz)
    (l' : LoadLocals) :
    ∃ blocks loaded, configSaveInto file true config l = .ok (0, blocks) ∧
      configLoadInto (some ⟨blocks.flatten, takes⟩) buf l' = .ok (0, loaded) ∧
      ∀ key, Agrees loaded config key ↔ KeyInRange config key := by
  refine ⟨_, _, configSaveInto_eq file true config l, ?_,
    agrees_configLoad_savedConfig h htail⟩
  rw [configLoadInto_eq, Option.map_some, flatten_savedBlocks, configLoad_some, configLoad_snd]
  rfl

/-- `deviceRoundTrip` on a site's configuration, saved over a file with a key of its own. -/
theorem deviceRoundTrip_siteConfig :
    ∃ blocks loaded,
      configSaveInto (some ⟨ascii "boottest = 1" ++ [lf], fun _ => ⟨1, by decide⟩⟩) true siteConfig
          ⟨Vector.replicate 2048 1, Vector.replicate 256 1, ⟨Vector.replicate 64 1,
            Vector.replicate 192 1⟩, Vector.replicate 256 1, Vector.replicate 256 1,
            Vector.replicate 256 1⟩ = .ok (0, blocks) ∧
      configLoadInto (some ⟨blocks.flatten, fun _ => ⟨1, by decide⟩⟩) (Vector.replicate 256 1)
          ⟨Vector.replicate 256 1, ⟨Vector.replicate 64 1, Vector.replicate 192 1⟩, fun _ => 1⟩
        = .ok (0, loaded) ∧
      ∀ key, Agrees loaded siteConfig key ↔ KeyInRange siteConfig key :=
  deviceRoundTrip _ siteConfig persistable_siteConfig (by decide) _ _ _ _

end SN110
