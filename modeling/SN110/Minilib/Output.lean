import SN110.Minilib.Stdio
import SN110.Minilib.Vsnprintf
import SN110.Lib.Repeated

/-!
# Writing a file (`fwrite`, `fputs`, `fprintf`, `fclose`)

The functions as they run on the `struct`, every load and every store checked. `fwrite` goes through
the buffer and `fprintf` past it, so that what is printed comes before what is held back.

* `OpenFile.Holds.fwrite`: on the `struct` `fwrite` does what `MiniFile.fwrite` does, as long as an
  `int` holds the bytes held back and the new ones.
* `OpenFile.Holds.call_cases`: a call that meets its condition puts its text behind what has been
  written, and only such a call does.
* `contents_inOrder_iff`: the file after every part of a run.
-/

namespace SN110

open Checked Repeated

/-! ## The functions -/

/-- The bytes in front of `buf_pos`. -/
def OpenFile.held (f : OpenFile) : List UInt8 := f.buf.toList.take f.bufPos.toUInt32.toNat

/-- `write(f->fd, f->buf, f->buf_pos)`: the block it is given. -/
def OpenFile.pending (f : OpenFile) : Except Fault (List UInt8) :=
  fetchRange f.buf.toList 0 f.bufPos.toUInt32.toNat

/-- `memcpy(f->buf + f->buf_pos, src, total); f->buf_pos += total;`. -/
def OpenFile.hold (f : OpenFile) (src : List UInt8) (total : UInt32) : Except Fault OpenFile := do
  let buf ← copyAt f.buf f.bufPos.toUInt32.toNat src total.toNat
  .ok { f with buf := buf, bufPos := f.bufPos + total.toInt32 }

/-- The flush in `fwrite`, with the blocks of its `write` calls. -/
def OpenFile.flush (f : OpenFile) : Except Fault (OpenFile × List (List UInt8)) :=
  if f.bufPos > 0 then do
    let block ← f.pending
    .ok ({ f with bufPos := 0 }, [block])
  else .ok (f, [])

/-- `fwrite`: the blocks of its `write` calls, and its return value. The sum in its test is that of
two's complement. -/
def OpenFile.fwrite (f : OpenFile) (src : List UInt8) (size nmemb : UInt32) :
    Except Fault (OpenFile × List (List UInt8) × UInt32) :=
  let total := size * nmemb
  if f.inUse = false ∨ total = 0 then .ok (f, [], 0)
  else if f.bufPos + total.toInt32 > 256 then do
    let (f, blocks) ← f.flush
    if total.toInt32 > 256 then do
      let block ← fetchRange src 0 total.toNat
      .ok (f, blocks ++ [block], nmemb)
    else do
      let f ← f.hold src total
      .ok (f, blocks, nmemb)
  else do
    let f ← f.hold src total
    .ok (f, [], nmemb)

/-- `fputs`. -/
def OpenFile.fputs (f : OpenFile) (s : List UInt8) :
    Except Fault (OpenFile × List (List UInt8) × Int) := do
  let len := UInt32.ofNat (cstr s).length
  let (f, blocks, written) ← f.fwrite s 1 len
  .ok (f, blocks, if written = len then 0 else -1)

/-- `fprintf`. -/
def OpenFile.fprintf (f : OpenFile) (fmt : List UInt8) (args : List PrintArg) :
    Except Fault (OpenFile × List (List UInt8) × Int) := do
  let (buf, n) ← vsnprintf (Vector.replicate 512 0) 512 fmt args
  if n > 0 ∧ f.inUse = true then do
    let block ← fetchRange buf.toList 0 (if n < 512 then n else 511).toNat
    .ok (f, [block], n)
  else .ok (f, [], n)

/-- `fclose`. -/
def OpenFile.fclose (f : OpenFile) : Except Fault (OpenFile × List (List UInt8) × Int) :=
  if f.inUse = false then .ok (f, [], -1)
  else if f.mode = 119 ∧ f.bufPos > 0 then do
    let block ← f.pending
    .ok ({ f with inUse := false }, [block], 0)
  else .ok ({ f with inUse := false }, [], 0)

/-! ## Runs -/

/-- A format and its arguments that make `fprintf` produce a text of at most 511 bytes. -/
structure Printout where
  fmt : List UInt8
  args : List PrintArg
  text : List UInt8
  prints : ∃ stored, vsnprintf (Vector.replicate 512 0) 512 fmt args
      = .ok (stored, (text.length : Int)) ∧ stored.toList.take text.length = text
  length_le : text.length ≤ 511

/-- A call that writes to the file. `fwrite` is given as many bytes as its sizes say. -/
inductive OutCall where
  | fputs (s : List UInt8)
  | fwrite (size nmemb : UInt32) (src : List UInt8)
      (length_eq : src.length = size.toNat * nmemb.toNat)
  | fprintf (out : Printout)

/-- The output of a call. -/
def OutCall.text : OutCall → List UInt8
  | .fputs s => cstr s
  | .fwrite _ _ src _ => src
  | .fprintf out => out.text

/-- A call, with the blocks of its `write` calls. -/
def OpenFile.call (f : OpenFile) : OutCall → Except Fault (OpenFile × List (List UInt8))
  | .fputs s => do
    let (f, blocks, _) ← f.fputs s
    .ok (f, blocks)
  | .fwrite size nmemb src _ => do
    let (f, blocks, _) ← f.fwrite src size nmemb
    .ok (f, blocks)
  | .fprintf out => do
    let (f, blocks, _) ← f.fprintf out.fmt out.args
    .ok (f, blocks)

/-- What the file holds after some calls and `fclose`, when `write` takes all it is given. -/
def OpenFile.contents (f : OpenFile) : List OutCall → Except Fault (List UInt8)
  | [] => do
    let (_, blocks, _) ← f.fclose
    .ok blocks.flatten
  | c :: calls => do
    let (f, blocks) ← f.call c
    let rest ← f.contents calls
    .ok (blocks.flatten ++ rest)

/-! ## The condition -/

/-- What is held back and the new bytes are counted by an `int`; a printed text may as well come
before what is held back, which is so if one of them is empty. -/
def OutCall.Kept (held : List UInt8) : OutCall → Prop
  | .fputs s => held.length + (cstr s).length < 2 ^ 31
  | .fwrite _ _ src _ => held.length + src.length < 2 ^ 31
  | .fprintf out => SameRoot held out.text

/-- Each call of a run meets its condition in the state before it. -/
def EveryKept : OpenFile → List OutCall → Prop
  | _, [] => True
  | f, c :: calls =>
    c.Kept f.held ∧ ∀ f' blocks, f.call c = .ok (f', blocks) → EveryKept f' calls

/-! ## The buffer -/

/-- The file is open for writing, and its buffer holds what `m` holds. -/
structure OpenFile.Holds (f : OpenFile) (m : MiniFile) : Prop where
  mode : f.mode = 119
  inUse : f.inUse = true
  bufPos : f.bufPos = Int32.ofNat m.buf.length
  bytes : f.buf.toList.take m.buf.length = m.buf

theorem toNat_int (n : Nat) (h : n ≤ 256) : (Int32.ofNat n).toUInt32.toNat = n := by
  show (UInt32.ofNat n).toNat = n
  rw [UInt32.toNat_ofNat']
  omega

/-- The test of `fwrite` for a buffer that holds `n` bytes: the sum must not wrap. -/
theorem sum_gt_iff {n : Nat} (h : n ≤ 256) (total : UInt32) :
    Int32.ofNat n + total.toInt32 > 256 ↔
      256 < n + total.toNat ∧ n + total.toNat < 2 ^ 31 := by
  have hlt := total.toNat_lt
  have hn : (Int32.ofNat n).toInt = n := Int32.toInt_ofNat_of_lt (by omega)
  rw [gt_iff_lt, Int32.lt_iff_toInt_lt, Int32.toInt_add, hn, toInt_toInt32, Int.bmod_def]
  show (256 : Int) < _ ↔ _
  split_ifs <;> omega

section

variable {f : OpenFile} {m : MiniFile}

/-- What the buffer holds is what the model holds. -/
theorem OpenFile.Holds.held (h : f.Holds m) : f.held = m.buf := by
  rw [OpenFile.held, h.bufPos, toNat_int _ m.length_le, h.bytes]

/-- `bufPos` is positive while something is held. -/
theorem OpenFile.Holds.bufPos_pos (h : f.Holds m) : f.bufPos > 0 ↔ m.buf ≠ [] := by
  have hle : m.buf.length ≤ 256 := m.length_le
  have hn : f.bufPos.toInt = m.buf.length := by
    rw [h.bufPos]
    exact Int32.toInt_ofNat_of_lt (by omega)
  rw [gt_iff_lt, Int32.lt_iff_toInt_lt, hn, ← List.length_pos_iff_ne_nil]
  show (0 : Int) < _ ↔ _
  omega

/-- What would be flushed is what is held. -/
theorem OpenFile.Holds.pending (h : f.Holds m) : f.pending = .ok m.buf := by
  rw [OpenFile.pending, h.bufPos, toNat_int _ m.length_le,
    fetchRange_eq_take (by rw [Vector.length_toList]; exact m.length_le), h.bytes]

/-- What fits is put behind what is held back. -/
theorem OpenFile.Holds.hold (h : f.Holds m) {src : List UInt8} {total : UInt32}
    (hsrc : total.toNat ≤ src.length) (hfits : (m.buf ++ src.take total.toNat).length ≤ 256) :
    ∃ f', f.hold src total = .ok f' ∧ f'.Holds ⟨m.buf ++ src.take total.toNat, hfits⟩ := by
  have hlen : (m.buf ++ src.take total.toNat).length = m.buf.length + total.toNat := by
    rw [List.length_append, List.length_take, Nat.min_eq_left hsrc]
  rw [hlen] at hfits
  obtain ⟨buf, hcopy, hbytes⟩ := @copyAt_eq_ok _ f.buf _ _ _ hsrc hfits
  have hnext : f.bufPos + total.toInt32 = Int32.ofNat (m.buf.length + total.toNat) := by
    rw [h.bufPos, Int32.ofNat_add, ← UInt32.toInt32_ofNat' (n := total.toNat), UInt32.ofNat_toNat]
  refine ⟨{ f with buf := buf, bufPos := f.bufPos + total.toInt32 }, ?_,
    ⟨h.mode, h.inUse, ?_, ?_⟩⟩
  · rw [OpenFile.hold, h.bufPos, toNat_int _ m.length_le, hcopy, ok_bind]
  · dsimp only
    rw [hlen, hnext]
  · dsimp only
    rw [hlen, hbytes, h.bytes]

/-- What does not fit is stored behind the buffer. -/
theorem OpenFile.Holds.hold_error (h : f.Holds m) {src : List UInt8} {total : UInt32}
    (hlarge : 256 < m.buf.length + total.toNat) : ∃ e, f.hold src total = .error e := by
  obtain ⟨e, he⟩ := @copyAt_eq_error _ f.buf _ _ src hlarge
  refine ⟨e, ?_⟩
  rw [OpenFile.hold, h.bufPos, toNat_int _ m.length_le, he, error_bind]

/-- A flush writes what is held and leaves nothing. -/
theorem OpenFile.Holds.flush (h : f.Holds m) :
    ∃ f', f.flush = .ok (f', m.flush) ∧ f'.Holds MiniFile.empty := by
  unfold OpenFile.flush MiniFile.flush
  by_cases hnil : m.buf = []
  · rw [if_neg (by rw [h.bufPos_pos]; simpa using hnil), if_pos hnil]
    refine ⟨f, rfl, ⟨h.mode, h.inUse, ?_, rfl⟩⟩
    rw [h.bufPos, hnil]
    rfl
  · rw [if_pos (h.bufPos_pos.mpr hnil), if_neg hnil, h.pending, ok_bind]
    exact ⟨_, rfl, ⟨h.mode, h.inUse, rfl, rfl⟩⟩

/-- **`fwrite`**, as long as an `int` holds the bytes held back and the new ones. -/
theorem OpenFile.Holds.fwrite (h : f.Holds m) {src : List UInt8} {size nmemb total : UInt32}
    (htotal : size * nmemb = total) (hsrc : total.toNat ≤ src.length)
    (hlt : m.buf.length + total.toNat < 2 ^ 31) :
    ∃ f' n, f.fwrite src size nmemb = .ok (f', (m.fwrite (src.take total.toNat)).2, n) ∧
      f'.Holds (m.fwrite (src.take total.toNat)).1 := by
  have hle : m.buf.length ≤ 256 := m.length_le
  have hlen : (src.take total.toNat).length = total.toNat := by
    rw [List.length_take, Nat.min_eq_left hsrc]
  have hroom := sum_gt_iff hle total
  rw [← h.bufPos] at hroom
  have hlarge := sum_gt_iff (Nat.zero_le 256) total
  rw [show Int32.ofNat 0 + total.toInt32 = total.toInt32 from Int32.zero_add _, Nat.zero_add]
    at hlarge
  unfold OpenFile.fwrite MiniFile.fwrite
  dsimp only
  rw [htotal]
  -- nothing to write, a text that fits behind what is held, or one that does not
  by_cases hzero : total = 0
  · rw [if_pos (Or.inr hzero), if_pos (by rw [hzero]; rfl)]
    exact ⟨f, 0, rfl, h⟩
  have hpos : total.toNat ≠ 0 := fun h => hzero (UInt32.toNat_inj.mp h)
  have hnil : src.take total.toNat ≠ [] := by
    rw [← List.length_pos_iff_ne_nil, hlen]
    omega
  rw [if_neg (by simp [h.inUse, hzero]), if_neg hnil]
  by_cases hfits : m.buf.length + total.toNat ≤ 256
  · -- it is put behind what is there
    have hfits' : (m.buf ++ src.take total.toNat).length ≤ 256 := by
      rwa [List.length_append, hlen]
    obtain ⟨f', hhold, hf'⟩ := h.hold hsrc hfits'
    rw [if_neg (by rw [hroom]; omega), dif_pos (by rwa [hlen]), hhold, ok_bind]
    exact ⟨f', nmemb, rfl, hf'⟩
  rw [if_pos (hroom.mpr ⟨by omega, hlt⟩), dif_neg (by rwa [hlen])]
  obtain ⟨f', hflush, hf'⟩ := h.flush
  rw [hflush, ok_bind]
  dsimp only
  by_cases hshort : total.toNat ≤ 256
  · -- it is all that the buffer holds then
    have hshort' : (MiniFile.empty.buf ++ src.take total.toNat).length ≤ 256 := by
      rw [List.length_append, hlen]
      exact (Nat.zero_add _).trans_le hshort
    obtain ⟨f'', hhold, hf''⟩ := hf'.hold hsrc hshort'
    rw [if_neg (by rw [hlarge]; omega), dif_pos (by rwa [hlen]), hhold, ok_bind]
    exact ⟨f'', nmemb, rfl, hf''⟩
  · rw [if_pos (hlarge.mpr ⟨by omega, by omega⟩), dif_neg (by rwa [hlen]),
      fetchRange_eq_take hsrc, ok_bind]
    exact ⟨f', nmemb, rfl, hf'⟩

/-- A sum that wraps passes the test, and then the bytes do not fit. -/
theorem OpenFile.Holds.fwrite_error (h : f.Holds m) {src : List UInt8} {size nmemb total : UInt32}
    (htotal : size * nmemb = total) (hge : 2 ^ 31 ≤ m.buf.length + total.toNat) :
    ∃ e, f.fwrite src size nmemb = .error e := by
  have hle : m.buf.length ≤ 256 := m.length_le
  have hzero : total ≠ 0 := by
    rintro rfl
    exact absurd (show 2 ^ 31 ≤ m.buf.length + 0 from hge) (by omega)
  obtain ⟨e, hhold⟩ := @OpenFile.Holds.hold_error f m h src total (by omega)
  refine ⟨e, ?_⟩
  unfold OpenFile.fwrite
  dsimp only
  rw [htotal, if_neg (by simp [h.inUse, hzero]), h.bufPos,
    if_neg (by rw [sum_gt_iff hle]; omega), hhold, error_bind]

/-- `fwrite` of the first `n` bytes puts them behind what has been written exactly when an `int`
holds their number and that of the bytes held back. -/
theorem OpenFile.Holds.fwrite_cases (h : f.Holds m) {src : List UInt8} {size nmemb : UInt32}
    {n : Nat} (hsrc : n ≤ src.length) (htotal : (size * nmemb).toNat = n % 2 ^ 32) :
    (∃ e, f.fwrite src size nmemb = .error e ∧ ¬ m.buf.length + n < 2 ^ 31) ∨
      ∃ f' blocks written m', f.fwrite src size nmemb = .ok (f', blocks, written) ∧ f'.Holds m' ∧
        (blocks.flatten ++ m'.buf = m.buf ++ src.take n ↔ m.buf.length + n < 2 ^ 31) := by
  have hmod : n % 2 ^ 32 ≤ n := Nat.mod_le n _
  by_cases hlt : m.buf.length + n % 2 ^ 32 < 2 ^ 31
  · obtain ⟨f', written, hwrite, hf'⟩ :=
      h.fwrite rfl (by rw [htotal]; exact hmod.trans hsrc) (by rwa [htotal])
    refine Or.inr ⟨f', _, written, _, hwrite, hf', ?_⟩
    rw [m.fwrite_flatten, htotal, List.append_cancel_left_eq]
    constructor
    · -- the number of bytes has not wrapped
      intro heq
      have hlen := congrArg List.length heq
      rw [List.length_take, List.length_take] at hlen
      omega
    · intro hall
      rw [Nat.mod_eq_of_lt (by omega)]
  · obtain ⟨e, hwrite⟩ := @OpenFile.Holds.fwrite_error f m h src size nmemb _ rfl (by omega)
    exact Or.inl ⟨e, hwrite, by omega⟩

/-- `fprintf` writes past the buffer. -/
theorem OpenFile.Holds.fprintf (h : f.Holds m) (out : Printout) :
    ∃ blocks, f.fprintf out.fmt out.args = .ok (f, blocks, (out.text.length : Int)) ∧
      blocks.flatten = out.text := by
  obtain ⟨stored, hprint, hstored⟩ := out.prints
  have hle := out.length_le
  unfold OpenFile.fprintf
  rw [hprint, ok_bind]
  dsimp only
  by_cases hnil : out.text = []
  · rw [if_neg (by simp [hnil]), hnil]
    exact ⟨[], rfl, rfl⟩
  · have hpos := List.length_pos_of_ne_nil hnil
    rw [if_pos ⟨by omega, h.inUse⟩, if_pos (by omega), Int.toNat_natCast,
      fetchRange_eq_take (by rw [Vector.length_toList]; omega), ok_bind, hstored]
    exact ⟨[out.text], rfl, List.flatten_singleton⟩

/-- **A call** puts its text behind what has been written and held back exactly when it meets its
condition; or it faults, and does not meet it. -/
theorem OpenFile.Holds.call_cases (h : f.Holds m) (c : OutCall) :
    (∃ e, f.call c = .error e ∧ ¬ c.Kept m.buf) ∨
      ∃ f' blocks m', f.call c = .ok (f', blocks) ∧ f'.Holds m' ∧
        (blocks.flatten ++ m'.buf = m.buf ++ c.text ↔ c.Kept m.buf) := by
  cases c with
  -- `fputs` is `fwrite` of the text before the NUL
  | fputs s =>
    have htext : s.take (cstr s).length = cstr s :=
      (List.prefix_iff_eq_take.mp (List.takeWhile_prefix _)).symm
    have htotal :
        ((1 : UInt32) * UInt32.ofNat (cstr s).length).toNat = (cstr s).length % 2 ^ 32 := by
      rw [UInt32.one_mul, UInt32.toNat_ofNat']
    rcases h.fwrite_cases (length_cstr_le s) htotal with
      ⟨e, hwrite, hnot⟩ | ⟨f', blocks, written, m', hwrite, hf', hiff⟩
    · refine Or.inl ⟨e, ?_, hnot⟩
      rw [OpenFile.call, OpenFile.fputs]
      dsimp only
      rw [hwrite, error_bind, error_bind]
    · rw [htext] at hiff
      refine Or.inr ⟨f', blocks, m', ?_, hf', hiff⟩
      rw [OpenFile.call, OpenFile.fputs]
      dsimp only
      rw [hwrite, ok_bind, ok_bind]
  | fwrite size nmemb src hlen =>
    have htotal : (size * nmemb).toNat = src.length % 2 ^ 32 := by rw [UInt32.toNat_mul, hlen]
    rcases h.fwrite_cases (Nat.le_refl src.length) htotal with
      ⟨e, hwrite, hnot⟩ | ⟨f', blocks, written, m', hwrite, hf', hiff⟩
    · refine Or.inl ⟨e, ?_, hnot⟩
      rw [OpenFile.call, hwrite, error_bind]
    · rw [List.take_length] at hiff
      refine Or.inr ⟨f', blocks, m', ?_, hf', hiff⟩
      rw [OpenFile.call, hwrite, ok_bind]
  -- `fprintf` leaves the buffer alone, so its text comes first unless nothing is held
  | fprintf out =>
    obtain ⟨blocks, hprint, hblocks⟩ := h.fprintf out
    refine Or.inr ⟨f, blocks, m, ?_, h, ?_⟩
    · rw [OpenFile.call, hprint, ok_bind]
    · rw [hblocks]
      exact eq_comm.trans append_comm_iff

/-! ## Runs of calls -/

/-- With no call left, the file has what is held. -/
theorem OpenFile.Holds.contents_nil (h : f.Holds m) : f.contents [] = .ok m.buf := by
  unfold OpenFile.contents OpenFile.fclose
  rw [if_neg (by simp [h.inUse])]
  by_cases hnil : m.buf = []
  · rw [if_neg (by rw [h.bufPos_pos]; simp [hnil]), ok_bind, hnil]
    rfl
  · rw [if_pos ⟨h.mode, h.bufPos_pos.mpr hnil⟩, h.pending, ok_bind, ok_bind]
    dsimp only
    rw [List.flatten_singleton]

/-- A call writes its blocks, and the others go on behind them. -/
theorem contents_cons {f' : OpenFile} {blocks : List (List UInt8)} {c : OutCall}
    (hcall : f.call c = .ok (f', blocks)) (calls : List OutCall) :
    f.contents (c :: calls)
      = f'.contents calls >>= fun rest => .ok (blocks.flatten ++ rest) := by
  rw [OpenFile.contents, hcall, ok_bind]

/-- After every part of a run the file is what was held back and the texts of the calls, exactly
when each call meets its condition. -/
theorem OpenFile.Holds.contents_iff (h : f.Holds m) (calls : List OutCall) :
    (∀ done, done <+: calls → f.contents done = .ok (m.buf ++ done.flatMap OutCall.text)) ↔
      EveryKept f calls := by
  induction calls generalizing f m with
  | nil =>
    refine ⟨fun _ => trivial, fun _ done hdone => ?_⟩
    rw [List.prefix_nil.mp hdone, h.contents_nil, List.flatMap_nil, List.append_nil]
  | cons c calls ih =>
    have hkept : EveryKept f (c :: calls) ↔
        c.Kept m.buf ∧ ∀ f' blocks, f.call c = .ok (f', blocks) → EveryKept f' calls := by
      rw [EveryKept, h.held]
    have hone : [c] <+: c :: calls := ⟨calls, rfl⟩
    rw [hkept]
    rcases h.call_cases c with ⟨e, hcall, hnot⟩ | ⟨f', blocks, m', hcall, hf', hiff⟩
    · -- the call faults, and with it the run that ends with it
      refine ⟨fun hall => ?_, fun hall => absurd hall.1 hnot⟩
      have hfault := hall [c] hone
      rw [OpenFile.contents, hcall, error_bind] at hfault
      cases hfault
    · have hnext := ih hf'
      constructor
      · intro hall
        have hfirst := hall [c] hone
        rw [contents_cons hcall, hf'.contents_nil, ok_bind, List.flatMap_singleton] at hfirst
        have hok := hiff.mp (Except.ok.inj hfirst)
        refine ⟨hok, fun f'' blocks' hcall' => ?_⟩
        rw [hcall] at hcall'
        cases hcall'
        refine hnext.mp fun done hdone => ?_
        have hlong := hall (c :: done) (List.cons_prefix_cons.mpr ⟨rfl, hdone⟩)
        rw [contents_cons hcall, List.flatMap_cons, ← List.append_assoc, ← hiff.mpr hok,
          List.append_assoc] at hlong
        -- what has been written comes first on both sides
        cases hrest : f'.contents done with
        | error e =>
          rw [hrest] at hlong
          cases hlong
        | ok rest =>
          rw [hrest, ok_bind] at hlong
          rw [List.append_cancel_left (Except.ok.inj hlong)]
      · rintro ⟨hok, hall⟩ done hdone
        have hprefix := hnext.mpr (hall f' blocks hcall)
        cases done with
        | nil => rw [h.contents_nil, List.flatMap_nil, List.append_nil]
        | cons c' done =>
          obtain ⟨rfl, hrest⟩ := List.cons_prefix_cons.mp hdone
          rw [contents_cons hcall, hprefix done hrest, ok_bind, List.flatMap_cons,
            ← List.append_assoc, ← List.append_assoc, hiff.mpr hok]

end

/-- A file just opened holds nothing. -/
theorem holds_fopen (buf : Vector UInt8 miniFileBufsz) :
    (OpenFile.fopen 119 buf).Holds MiniFile.empty :=
  ⟨rfl, rfl, rfl, rfl⟩

/-- **The file after every part of a run** is the texts of the calls, in order, exactly when each
call meets its condition in the state before it. -/
theorem contents_inOrder_iff (buf : Vector UInt8 miniFileBufsz) (calls : List OutCall) :
    (∀ done, done <+: calls →
      (OpenFile.fopen 119 buf).contents done = .ok (done.flatMap OutCall.text)) ↔
      EveryKept (OpenFile.fopen 119 buf) calls :=
  (holds_fopen buf).contents_iff calls

/-- A format made of pieces, with arguments they take. -/
def Printout.ofPieces (pieces : List FormatPiece) (args : List PrintArg)
    (hread : ∀ q ∈ pieces, q.Readable) (hmatch : ArgsMatch pieces args)
    (hlen : (expansion pieces args).length ≤ 511) : Printout where
  fmt := pieces.flatMap FormatPiece.text
  args := args
  text := expansion pieces args
  prints := by
    refine ⟨_, vsnprintf_of_fits _ (by decide) (by decide) hread hmatch
      (Nat.lt_of_le_of_lt hlen (by decide)) (by omega), ?_⟩
    exact take_toList_overlay_append _ (by rw [List.length_append, List.length_singleton]; omega)
  length_le := hlen

/-- `fprintf(f, "b")`. -/
def printB : Printout :=
  .ofPieces [.literal 98] [] (by simp [FormatPiece.Readable]) trivial (by decide)

/-- What `fputs` has held back comes behind what `fprintf` writes. -/
theorem fprintf_overtakes_fputs :
    (OpenFile.fopen 119 (Vector.replicate 256 0)).contents [.fputs (ascii "a"), .fprintf printB]
        = .ok (ascii "ba") ∧
      (OpenFile.fopen 119 (Vector.replicate 256 0)).contents [.fputs (ascii "a"), .fprintf printB]
        ≠ .ok ([OutCall.fputs (ascii "a"), .fprintf printB].flatMap OutCall.text) := by
  have hopen := holds_fopen (Vector.replicate 256 0)
  obtain ⟨f, written, hwrite, hf⟩ := @OpenFile.Holds.fwrite _ _ hopen (ascii "a") 1 1 1 rfl
    (by decide) (by decide)
  obtain ⟨blocks, hprint, hblocks⟩ := hf.fprintf printB
  -- the first text is held back, the second one is written at once
  have hfirst : (OpenFile.fopen 119 (Vector.replicate 256 0)).call (.fputs (ascii "a"))
      = .ok (f, []) := by
    rw [OpenFile.call, OpenFile.fputs]
    dsimp only
    rw [show UInt32.ofNat (cstr (ascii "a")).length = 1 by decide, hwrite]
    rfl
  have hsecond : f.call (.fprintf printB) = .ok (f, blocks) := by
    rw [OpenFile.call, hprint, ok_bind]
  have hfile : (OpenFile.fopen 119 (Vector.replicate 256 0)).contents
      [.fputs (ascii "a"), .fprintf printB] = .ok (ascii "ba") := by
    rw [contents_cons hfirst, contents_cons hsecond, hf.contents_nil, ok_bind, ok_bind, hblocks]
    rfl
  refine ⟨hfile, fun horder => ?_⟩
  rw [hfile] at horder
  exact absurd (Except.ok.inj horder) (by decide)

end SN110
