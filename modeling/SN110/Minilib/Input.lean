import SN110.Minilib.Stdio
import SN110.Lib.Checked
import SN110.Lib.Pieces

/-!
# Reading a file (`fgets`, `fread`)

The functions as they run on the `struct` and on the kernel's side of the file, which gives each
`read` as much as it likes but at least one byte until the end. Every load and every store is
checked.

* `OpenFile.Reads`: what the buffer still holds and what the kernel still has, put together.
* `OpenFile.Reads.fgets` and `OpenFile.Reads.fread`: one call takes what it asks for off the front
  of that, however the kernel splits it.
* `gets_once`: a whole run of calls delivers the file once.

## The invariant

A byte that has not been delivered yet is in the buffer or with the kernel. `OpenFile.Reads f src
todo` says that both together are the bytes `todo`, in this order, and that is all that a call can
tell: a `refill` moves bytes from one to the other and leaves `todo` as it is, `nextByte` takes the
first of them. The loops of `fgets` and `fread` are then inductions on what is left to be read.
-/

namespace SN110

open Checked Pieces

/-! ## The kernel's side -/

/-- How much a `read` gives at most: not nothing, and what its return value holds. -/
abbrev ReadSize := {n : Nat // 0 < n ∧ n < 2 ^ 31}

/-- What is left of a file, and how much the next `read`s give. -/
structure Source where
  rest : List UInt8
  takes : Nat → ReadSize

/-- `read` of at most `count` bytes: what it gives, which is nothing at the end of the file. -/
def Source.read (src : Source) (count : Nat) : List UInt8 × Source :=
  let n := min count (src.takes 0).1
  (src.rest.take n, ⟨src.rest.drop n, fun k => src.takes (k + 1)⟩)

/-! ## The functions -/

/-- `f->buf_len = read(f->fd, f->buf, MINI_FILE_BUFSZ); f->buf_pos = 0;`. -/
def OpenFile.refill (f : OpenFile) (src : Source) : Except Fault (OpenFile × Source) := do
  let (piece, src) := src.read miniFileBufsz
  let buf ← copyAt f.buf 0 piece piece.length
  .ok ({ f with buf := buf, bufLen := Int32.ofNat piece.length, bufPos := 0 }, src)

/-- `f->buf[f->buf_pos++]`. -/
def OpenFile.takeByte (f : OpenFile) : Except Fault (UInt8 × OpenFile) := do
  let c ← fetch f.buf.toList f.bufPos.toUInt32.toNat
  .ok (c, { f with bufPos := f.bufPos + 1 })

/-- The next byte that `fgets` comes to; no byte is its `break` behind the `read`. -/
def OpenFile.nextByte (f : OpenFile) (src : Source) :
    Except Fault (Option UInt8 × OpenFile × Source) :=
  if f.bufPos ≥ f.bufLen then do
    let (f, src) ← f.refill src
    if f.bufLen ≤ 0 then .ok (none, f, src)
    else do
      let (c, f) ← f.takeByte
      .ok (some c, f, src)
  else do
    let (c, f) ← f.takeByte
    .ok (some c, f, src)

section Calls

variable {cap : Nat}

/-- The loop of `fgets`: `i` bytes have been stored in `s`. -/
def fgetsLoop (size : Int32) (f : OpenFile) (src : Source) (s : Vector UInt8 cap) (i : Nat) :
    Except Fault (OpenFile × Source × Vector UInt8 cap × Nat) :=
  if (i : Int) < size.toInt - 1 then do
    let (c, f, src) ← f.nextByte src
    match c with
    | none => .ok (f, src, s, i)
    | some c => do
      let s ← put s i c
      if c = lf then .ok (f, src, s, i + 1)
      else fgetsLoop size f src s (i + 1)
  else .ok (f, src, s, i)
termination_by (size.toInt - 1 - i).toNat
decreasing_by omega

/-- `fgets`: what it returns, with the number of bytes in front of the NUL. -/
def OpenFile.fgets (f : OpenFile) (src : Source) (s : Vector UInt8 cap) (size : Int32) :
    Except Fault (OpenFile × Source × Option (Vector UInt8 cap × Nat)) :=
  if size ≤ 0 then .ok (f, src, none)
  else do
    let (f, src, s, i) ← fgetsLoop size f src s 0
    if i = 0 then .ok (f, src, none)
    else do
      let s ← put s i 0
      .ok (f, src, some (s, i))

/-- The loop of `fread` over the buffer: `done` bytes have been stored in `dst`. -/
def drainLoop (total : Nat) (f : OpenFile) (dst : Vector UInt8 cap) (done : Nat) :
    Except Fault (OpenFile × Vector UInt8 cap × Nat) :=
  if done < total ∧ f.bufPos < f.bufLen then do
    let (c, f) ← f.takeByte
    let dst ← put dst done c
    drainLoop total f dst (done + 1)
  else .ok (f, dst, done)
termination_by total - done

/-- The loop of `fread` past the buffer. -/
def readLoop (total : Nat) (src : Source) (dst : Vector UInt8 cap) (done : Nat) :
    Except Fault (Source × Vector UInt8 cap × Nat) :=
  if done < total then do
    let (piece, src) := src.read (total - done)
    let dst ← copyAt dst done piece piece.length
    let n := Int32.ofNat piece.length
    if _hpos : 0 < n.toInt then readLoop total src dst (done + n.toInt.toNat)
    else .ok (src, dst, done)
  else .ok (src, dst, done)
termination_by total - done
decreasing_by
  have hpos : 0 < (Int32.ofNat piece.length).toInt := _hpos
  omega

/-- `fread`. -/
def OpenFile.fread (f : OpenFile) (src : Source) (dst : Vector UInt8 cap) (size nmemb : UInt32) :
    Except Fault (OpenFile × Source × Vector UInt8 cap × UInt32) :=
  let total := size * nmemb
  if f.inUse = false ∨ total = 0 then .ok (f, src, dst, 0)
  else do
    let (f, dst, done) ← drainLoop total.toNat f dst 0
    let (src, dst, done) ← readLoop total.toNat src dst done
    .ok (f, src, dst, if size > 0 then UInt32.ofNat done / size else 0)

end Calls

/-! ## One `read` -/

section Read

variable {src : Source} {count : Nat}

/-- A `read` takes its bytes from the front of the file. -/
theorem Source.append_rest_read (src : Source) (count : Nat) :
    (src.read count).1 ++ (src.read count).2.rest = src.rest :=
  List.take_append_drop _ _

/-- A `read` returns no more than it was asked for. -/
theorem Source.length_read_le (src : Source) (count : Nat) :
    (src.read count).1.length ≤ count := by
  rw [Source.read, List.length_take]
  omega

/-- A `read` returns less than 2^31 bytes. -/
theorem Source.length_read_lt (src : Source) (count : Nat) :
    (src.read count).1.length < 2 ^ 31 := by
  have hlt := (src.takes 0).2.2
  rw [Source.read, List.length_take]
  omega

/-- Before the end of the file a `read` gives something. -/
theorem Source.read_ne_nil (hcount : 0 < count) (hrest : src.rest ≠ []) :
    (src.read count).1 ≠ [] := by
  have hpos := (src.takes 0).2.1
  have hlen := List.length_pos_of_ne_nil hrest
  rw [← List.length_pos_iff_ne_nil, Source.read, List.length_take]
  omega

end Read

/-! ## The buffer -/

/-- The buffer still holds the bytes `ahead`. -/
def OpenFile.Buffers (f : OpenFile) (ahead : List UInt8) : Prop :=
  f.inUse = true ∧ ∃ pos : Nat, pos + ahead.length ≤ 256 ∧ f.bufPos = Int32.ofNat pos ∧
    f.bufLen = Int32.ofNat (pos + ahead.length) ∧
    (f.buf.toList.drop pos).take ahead.length = ahead

/-- The buffer and the kernel have the bytes `todo` left. -/
def OpenFile.Reads (f : OpenFile) (src : Source) (todo : List UInt8) : Prop :=
  ∃ ahead, f.Buffers ahead ∧ todo = ahead ++ src.rest

theorem toInt_small {n : Nat} (h : n ≤ 256) : (Int32.ofNat n).toInt = n :=
  Int32.toInt_ofNat_of_lt (by omega)

section Buffer

variable {f : OpenFile} {ahead : List UInt8}

/-- The buffer has something to give exactly when bytes read ahead are left. -/
theorem OpenFile.Buffers.bufPos_lt_iff (h : f.Buffers ahead) :
    f.bufPos < f.bufLen ↔ ahead ≠ [] := by
  obtain ⟨-, pos, hle, hpos, hlen, -⟩ := h
  rw [hpos, hlen, Int32.lt_iff_toInt_lt, toInt_small (by omega), toInt_small hle,
    ← List.length_pos_iff_ne_nil]
  omega

/-- The next byte given is the first of those read ahead. -/
theorem OpenFile.Buffers.takeByte {c : UInt8} (h : f.Buffers (c :: ahead)) :
    ∃ f', f.takeByte = .ok (c, f') ∧ f'.Buffers ahead := by
  obtain ⟨hinUse, pos, hle, hpos, hlen, hbytes⟩ := h
  rw [List.length_cons] at hle hlen hbytes
  have hlt : pos < f.buf.toList.length := by
    rw [Vector.length_toList]
    show pos < 256
    omega
  rw [List.drop_eq_getElem_cons hlt, List.take_succ_cons] at hbytes
  obtain ⟨hhead, htail⟩ := List.cons.inj hbytes
  -- the position is below 256, so it is the same as an `unsigned`
  have hindex : f.bufPos.toUInt32.toNat = pos := by
    rw [hpos]
    show (UInt32.ofNat pos).toNat = pos
    rw [UInt32.toNat_ofNat']
    omega
  refine ⟨{ f with bufPos := f.bufPos + 1 }, ?_, hinUse, pos + 1, by omega, ?_, ?_, htail⟩
  · rw [OpenFile.takeByte, hindex, fetch_eq_ok hlt, ok_bind, Memory.load_eq_getElem hlt, hhead]
  · show f.bufPos + 1 = _
    rw [hpos, Int32.ofNat_add]
    rfl
  · show f.bufLen = _
    rw [hlen, Nat.add_right_comm, Nat.add_assoc]

/-- What a `read` has given is all that the buffer holds then. -/
theorem OpenFile.refill_eq (hinUse : f.inUse = true) {src left : Source} {piece : List UInt8}
    (hread : src.read miniFileBufsz = (piece, left)) :
    ∃ f', f.refill src = .ok (f', left) ∧ f'.Buffers piece ∧ (f'.bufLen ≤ 0 ↔ piece = []) := by
  have hle := src.length_read_le miniFileBufsz
  rw [hread] at hle
  dsimp only at hle
  obtain ⟨buf, hcopy, hbytes⟩ := @copyAt_eq_ok _ f.buf 0 _ piece (Nat.le_refl _)
    ((Nat.zero_add _).trans_le hle)
  rw [Nat.zero_add, List.take_zero, List.nil_append, List.take_length] at hbytes
  -- the piece read stands at the front of the buffer
  refine ⟨{ f with buf := buf, bufLen := Int32.ofNat piece.length, bufPos := 0 }, ?_,
    ⟨hinUse, 0, ?_, rfl, ?_, ?_⟩, ?_⟩
  · unfold OpenFile.refill
    rw [hread]
    dsimp only
    rw [hcopy, ok_bind]
  · rwa [Nat.zero_add]
  · rw [Nat.zero_add]
  · rwa [List.drop_zero]
  · rw [Int32.le_iff_toInt_le, toInt_small hle, ← List.length_eq_zero_iff]
    show (piece.length : Int) ≤ 0 ↔ _
    omega

/-- The next byte is the first of those left, wherever it is. -/
theorem OpenFile.Reads.nextByte {src : Source} {todo : List UInt8} (h : f.Reads src todo) :
    ∃ f' src', f.nextByte src = .ok (todo.head?, f', src') ∧ f'.Reads src' todo.tail := by
  obtain ⟨ahead, hbuffers, rfl⟩ := h
  unfold OpenFile.nextByte
  cases ahead with
  -- the buffer still has a byte
  | cons c ahead =>
    obtain ⟨f', htake, hf'⟩ := hbuffers.takeByte
    have hlt := hbuffers.bufPos_lt_iff.mpr (List.cons_ne_nil c ahead)
    rw [if_neg (Int32.not_le.mpr hlt), htake, ok_bind]
    exact ⟨f', src, rfl, ahead, hf', rfl⟩
  -- the buffer is empty, so the next piece of the file is read
  | nil =>
    have hge : f.bufPos ≥ f.bufLen :=
      Int32.not_lt.mp (fun h => hbuffers.bufPos_lt_iff.mp h rfl)
    have happend := src.append_rest_read miniFileBufsz
    have hne := @Source.read_ne_nil src miniFileBufsz (by decide)
    obtain ⟨piece, left, hread⟩ : ∃ piece left, src.read miniFileBufsz = (piece, left) :=
      ⟨_, _, rfl⟩
    rw [hread] at happend hne
    dsimp only at happend hne
    obtain ⟨f', hrefill, hf', hended⟩ := OpenFile.refill_eq hbuffers.1 hread
    rw [if_pos hge, hrefill, ok_bind, List.nil_append]
    dsimp only
    by_cases hrest : src.rest = []
    · -- the file has ended
      rw [hrest, List.append_eq_nil_iff] at happend
      rw [if_pos (hended.mpr happend.1), hrest]
      exact ⟨f', left, rfl, [], happend.1 ▸ hf', happend.2.symm⟩
    · obtain ⟨c, piece, rfl⟩ := List.exists_cons_of_ne_nil (hne hrest)
      obtain ⟨f'', htake, hf''⟩ := hf'.takeByte
      rw [if_neg (fun h => hne hrest (hended.mp h)), htake, ok_bind, ← happend]
      exact ⟨f'', left, rfl, piece, hf'', rfl⟩

end Buffer

/-! ## The loops -/

section Loops

variable {cap : Nat} {buf : Vector UInt8 cap} {out : List UInt8}

/-- The rounds of `fgets` store the line, as `cut` takes it, and leave what is behind it. -/
theorem fgetsLoop_eq {f : OpenFile} {src : Source} {todo : List UInt8} (h : f.Reads src todo)
    {size : Int32} {n : Nat} (hsize : (out.length : Int) + n = size.toInt - 1)
    (hcap : out.length + n ≤ cap) :
    ∃ f' src', fgetsLoop size f src (overlay buf out) out.length
        = .ok (f', src', overlay buf (out ++ (cut lf n todo).1),
            out.length + (cut lf n todo).1.length) ∧
      f'.Reads src' (cut lf n todo).2 := by
  induction n generalizing f src todo out with
  -- the buffer is full
  | zero =>
    unfold fgetsLoop
    rw [if_neg (by omega)]
    exact ⟨f, src, by simp [cut], h⟩
  | succ n ih =>
    obtain ⟨f', src', hnext, hf'⟩ := h.nextByte
    unfold fgetsLoop
    rw [if_pos (by omega), hnext, ok_bind]
    cases todo with
    | nil => exact ⟨f', src', by simp [cut], hf'⟩
    | cons c todo =>
      have hput := @put_overlay cap buf out c (by omega)
      dsimp only [List.head?_cons]
      rw [hput, ok_bind]
      unfold cut
      -- the loop stops behind a line end
      by_cases hc : c = lf
      · rw [if_pos hc, if_pos hc]
        exact ⟨f', src', rfl, hf'⟩
      · -- the byte is stored, and the rest of the line behind it
        obtain ⟨f'', src'', hrest, hf''⟩ := @ih (out ++ [c]) f' src' todo hf'
          (by rw [List.length_append, List.length_singleton]; omega)
          (by rw [List.length_append, List.length_singleton]; omega)
        rw [List.length_append, List.length_singleton] at hrest
        rw [if_neg hc, if_neg hc, hrest]
        refine ⟨f'', src'', ?_, hf''⟩
        simp [Nat.add_assoc, Nat.add_comm 1]

/-- The rounds over the buffer store what it holds, as far as there is to be read. -/
theorem drainLoop_eq {f : OpenFile} {ahead : List UInt8} (h : f.Buffers ahead) {n : Nat}
    (hcap : out.length + n ≤ cap) :
    ∃ f', drainLoop (out.length + n) f (overlay buf out) out.length
        = .ok (f', overlay buf (out ++ ahead.take n), out.length + (ahead.take n).length) ∧
      f'.Buffers (ahead.drop n) := by
  induction n generalizing f ahead out with
  | zero =>
    unfold drainLoop
    rw [if_neg (by omega)]
    exact ⟨f, by simp, h⟩
  | succ n ih =>
    unfold drainLoop
    cases ahead with
    -- the buffer is drained
    | nil =>
      rw [if_neg (fun hlt => h.bufPos_lt_iff.mp hlt.2 rfl)]
      exact ⟨f, by simp, h⟩
    | cons c ahead =>
      obtain ⟨f', htake, hf'⟩ := h.takeByte
      obtain ⟨f'', hrest, hf''⟩ := @ih (out ++ [c]) f' ahead hf'
        (by rw [List.length_append, List.length_singleton]; omega)
      rw [List.length_append, List.length_singleton, Nat.add_assoc, Nat.add_comm 1] at hrest
      rw [if_pos ⟨by omega, h.bufPos_lt_iff.mpr (List.cons_ne_nil _ _)⟩, htake, ok_bind]
      dsimp only
      rw [put_overlay c (by omega), ok_bind, hrest]
      refine ⟨f'', ?_, hf''⟩
      simp [Nat.add_assoc, Nat.add_comm 1]

/-- The `read`s past the buffer store what the kernel gives, until nothing is left to be read. -/
theorem readLoop_eq (src : Source) {n : Nat} (hcap : out.length + n ≤ cap) :
    ∃ src', readLoop (out.length + n) src (overlay buf out) out.length
        = .ok (src', overlay buf (out ++ src.rest.take n),
            out.length + (src.rest.take n).length) ∧
      src'.rest = src.rest.drop n := by
  induction n using Nat.strong_induction_on generalizing src out with
  | _ n ih =>
    unfold readLoop
    -- everything asked for is there
    rcases Nat.eq_zero_or_pos n with rfl | hn
    · rw [if_neg (by omega)]
      exact ⟨src, by simp, rfl⟩
    have happend := src.append_rest_read n
    have hle := src.length_read_le n
    have hlt := src.length_read_lt n
    have hne := @Source.read_ne_nil src n hn
    obtain ⟨piece, left, hread⟩ : ∃ piece left, src.read n = (piece, left) := ⟨_, _, rfl⟩
    rw [hread] at happend hle hlt hne
    dsimp only at happend hle hlt hne
    have hint : (Int32.ofNat piece.length).toInt = piece.length := Int32.toInt_ofNat_of_lt hlt
    rw [if_pos (by omega), Nat.add_sub_cancel_left, hread]
    dsimp only
    rw [copyAt_overlay (Nat.le_refl _) (by omega), ok_bind, List.take_length]
    by_cases hrest : src.rest = []
    · -- the file has ended
      rw [hrest, List.append_eq_nil_iff] at happend
      rw [dif_neg (by rw [hint, happend.1]; simp), happend.1, hrest]
      exact ⟨left, by simp, by rw [happend.2, List.drop_nil]⟩
    · have hpos := List.length_pos_of_ne_nil (hne hrest)
      obtain ⟨src', hmore, hsrc'⟩ := @ih (n - piece.length) (by omega) (out ++ piece) left
        (by rw [List.length_append]; omega)
      rw [List.length_append, Nat.add_assoc, Nat.add_sub_cancel' hle] at hmore
      rw [dif_pos (by omega), hint, Int.toNat_natCast, hmore]
      refine ⟨src', ?_, ?_⟩
      · rw [← happend, List.take_append, List.take_of_length_le hle]
        simp [Nat.add_assoc]
      · rw [hsrc', ← happend, List.drop_append, List.drop_of_length_le hle, List.nil_append]

end Loops

/-! ## One call -/

section Call

variable {f : OpenFile} {src : Source} {todo : List UInt8} {cap : Nat}

/-- **`fgets`** of at most `n` bytes: the line with a NUL behind it, or `NULL` at the end. -/
theorem OpenFile.Reads.fgets (h : f.Reads src todo) (s : Vector UInt8 cap) {size : Int32} {n : Nat}
    (hn : 0 < n) (hsize : (n : Int) + 1 = size.toInt) (hcap : n < cap) :
    ∃ f' src', f.fgets src s size
        = .ok (f', src', if todo = [] then none
            else some (overlay s ((cut lf n todo).1 ++ [0]), (cut lf n todo).1.length)) ∧
      f'.Reads src' (cut lf n todo).2 := by
  have hpos : ¬ size ≤ 0 := by
    rw [Int32.le_iff_toInt_le, ← hsize]
    show ¬ (n : Int) + 1 ≤ 0
    omega
  obtain ⟨f', src', hloop, hf'⟩ := @fgetsLoop_eq cap s [] f src todo h size n
    (show (0 : Int) + n = _ by omega) (show 0 + n ≤ cap by omega)
  rw [overlay_nil] at hloop
  unfold OpenFile.fgets
  rw [if_neg hpos, show fgetsLoop size f src s 0 = _ from hloop, ok_bind]
  dsimp only
  rw [List.nil_append, List.length_nil, Nat.zero_add]
  refine ⟨f', src', ?_, hf'⟩
  by_cases hnil : todo = []
  · rw [if_pos hnil, hnil, cut_nil, if_pos List.length_nil]
  · have hline := List.length_pos_of_ne_nil (cut_fst_ne_nil lf hn hnil)
    have hle := @length_cut_fst_le _ _ lf n todo
    rw [if_neg hnil, if_neg (by omega), put_overlay 0 (by omega), ok_bind]

/-- **`fread`** of single bytes. -/
theorem OpenFile.Reads.fread (h : f.Reads src todo) (dst : Vector UInt8 cap) {nmemb : UInt32}
    (hcap : nmemb.toNat ≤ cap) :
    ∃ f' src', f.fread src dst 1 nmemb
        = .ok (f', src', overlay dst (todo.take nmemb.toNat),
            UInt32.ofNat (todo.take nmemb.toNat).length) ∧
      f'.Reads src' (todo.drop nmemb.toNat) := by
  obtain ⟨ahead, hbuffers, rfl⟩ := h
  unfold OpenFile.fread
  dsimp only
  rw [UInt32.one_mul]
  by_cases hzero : nmemb = 0
  · subst hzero
    rw [if_pos (Or.inr rfl)]
    exact ⟨f, src, by simp, ahead, hbuffers, rfl⟩
  -- first what the buffer holds, then what the kernel still has
  obtain ⟨f', hdrain, hf'⟩ := @drainLoop_eq cap dst [] f ahead hbuffers nmemb.toNat
    (show 0 + nmemb.toNat ≤ cap by omega)
  have hle : (ahead.take nmemb.toNat).length ≤ nmemb.toNat := List.length_take_le _ _
  obtain ⟨src', hread, hsrc'⟩ := @readLoop_eq cap dst (ahead.take nmemb.toNat) src
    (nmemb.toNat - (ahead.take nmemb.toNat).length) (by omega)
  rw [Nat.add_sub_cancel' hle] at hread
  rw [List.length_nil, Nat.zero_add, overlay_nil, List.nil_append] at hdrain
  rw [if_neg (by simp [hbuffers.1, hzero]), hdrain, ok_bind]
  dsimp only
  rw [Nat.zero_add, hread, ok_bind]
  have hleft : nmemb.toNat - (ahead.take nmemb.toNat).length = nmemb.toNat - ahead.length := by
    rw [List.length_take]
    omega
  rw [hleft] at hsrc' ⊢
  refine ⟨f', src', ?_, ahead.drop nmemb.toNat, hf', ?_⟩
  · rw [if_pos (by decide), UInt32.div_one, List.take_append, List.length_append]
  · rw [List.drop_append, hsrc']

end Call

/-! ## Runs of calls -/

/-- A call that reads from the file, with the room it is given. -/
inductive InCall where
  | fgets {cap : Nat} (s : Vector UInt8 cap) (size : Int32) (two_le : 2 ≤ size.toInt)
      (le_cap : size.toInt ≤ cap)
  | fread {cap : Nat} (dst : Vector UInt8 cap) (nmemb : UInt32) (le_cap : nmemb.toNat ≤ cap)

/-- What a call has delivered, and whether it says that the file has ended: `fgets` with `NULL`,
`fread` with fewer bytes than it was asked for. -/
structure InResult where
  bytes : List UInt8
  ended : Bool

def OpenFile.get (f : OpenFile) (src : Source) :
    InCall → Except Fault (InResult × OpenFile × Source)
  | .fgets s size _ _ => do
    let (f, src, line) ← f.fgets src s size
    match line with
    | none => .ok (⟨[], true⟩, f, src)
    | some (s, i) => .ok (⟨s.toList.take i, false⟩, f, src)
  | .fread dst nmemb _ => do
    let (f, src, dst, count) ← f.fread src dst 1 nmemb
    .ok (⟨dst.toList.take count.toNat, count < nmemb⟩, f, src)

/-- What the calls of a run deliver. -/
def OpenFile.gets (f : OpenFile) (src : Source) : List InCall → Except Fault (List InResult)
  | [] => .ok []
  | c :: calls => do
    let (r, f, src) ← f.get src c
    let results ← f.gets src calls
    .ok (r :: results)

/-- The line ends at the first newline of what is left, at `max` bytes or at the end of the file. -/
structure IsLine (max : Nat) (todo line : List UInt8) : Prop where
  isPrefix : line <+: todo
  length_le : line.length ≤ max
  newline_last : lf ∉ line.dropLast
  stops : line.getLast? = some lf ∨ line.length = max ∨ line = todo

/-- What a call must deliver of the bytes that are left. -/
def InCall.Delivers (todo : List UInt8) (r : InResult) : InCall → Prop
  | .fgets _ size _ _ =>
    IsLine (size.toInt.toNat - 1) todo r.bytes ∧ (r.ended = true ↔ todo = [])
  | .fread _ nmemb _ =>
    r.bytes = todo.take nmemb.toNat ∧ (r.ended = true ↔ todo.length < nmemb.toNat)

/-- Each call of a run delivers from where the one before it has ended. -/
def DeliversAll : List UInt8 → List InCall → List InResult → Prop
  | _, [], [] => True
  | todo, c :: calls, r :: results =>
    c.Delivers todo r ∧ DeliversAll (todo.drop r.bytes.length) calls results
  | _, _, _ => False

/-- The result of a call, by the bytes that are left. -/
def InCall.result (todo : List UInt8) : InCall → InResult
  | .fgets _ size _ _ => ⟨(cut lf (size.toInt.toNat - 1) todo).1, todo.isEmpty⟩
  | .fread _ nmemb _ => ⟨todo.take nmemb.toNat, todo.length < nmemb.toNat⟩

/-- The results of a run. -/
def results : List UInt8 → List InCall → List InResult
  | _, [] => []
  | todo, c :: calls =>
    c.result todo :: results (todo.drop (c.result todo).bytes.length) calls

/-- What `fgets` is to return is the file's next line, or a full buffer of it. -/
theorem isLine_cut (max : Nat) (todo : List UInt8) : IsLine max todo (cut lf max todo).1 where
  isPrefix := ⟨_, cut_append lf max todo⟩
  length_le := length_cut_fst_le max todo
  newline_last := sep_notMem_cut_dropLast max todo
  stops := by
    by_cases hrest : (cut lf max todo).2 = []
    · have happend := cut_append lf max todo
      rw [hrest, List.append_nil] at happend
      exact Or.inr (Or.inr happend)
    · rcases closed_cut hrest with hlast | hfull
      · exact Or.inl hlast
      · exact Or.inr (Or.inl hfull)

/-- The result said to be a call's delivers what the file holds. -/
theorem InCall.delivers_result (todo : List UInt8) (c : InCall) :
    c.Delivers todo (c.result todo) := by
  cases c with
  | fgets s size two_le le_cap => exact ⟨isLine_cut _ _, List.isEmpty_iff⟩
  | fread dst nmemb le_cap => exact ⟨rfl, decide_eq_true_iff⟩

/-- So do the results of a sequence of calls. -/
theorem deliversAll_results (todo : List UInt8) (calls : List InCall) :
    DeliversAll todo calls (results todo calls) := by
  induction calls generalizing todo with
  | nil => trivial
  | cons c calls ih => exact ⟨c.delivers_result todo, ih _⟩

section Delivered

variable {todo : List UInt8} {r : InResult}

/-- What a call delivers is the beginning of what was left to read. -/
theorem InCall.Delivers.isPrefix {c : InCall} (h : c.Delivers todo r) : r.bytes <+: todo := by
  cases c with
  | fgets s size two_le le_cap => exact h.1.isPrefix
  | fread dst nmemb le_cap =>
    rw [h.1]
    exact List.take_prefix _ _

/-- A call that says so has delivered all that was left. -/
theorem InCall.Delivers.eq_of_ended {c : InCall} (h : c.Delivers todo r) (hended : r.ended = true) :
    r.bytes = todo := by
  cases c with
  | fgets s size two_le le_cap =>
    have hnil := h.2.mp hended
    rw [hnil]
    exact List.prefix_nil.mp (hnil ▸ h.1.isPrefix)
  | fread dst nmemb le_cap =>
    rw [h.1]
    exact List.take_of_length_le (Nat.le_of_lt (h.2.mp hended))

/-- What a run delivers is a front part of the file. -/
theorem DeliversAll.isPrefix {calls : List InCall} {rs : List InResult}
    (h : DeliversAll todo calls rs) : rs.flatMap InResult.bytes <+: todo := by
  induction calls generalizing todo rs with
  | nil =>
    cases rs with
    | nil => exact List.nil_prefix
    | cons r rs => exact h.elim
  | cons c calls ih =>
    cases rs with
    | nil => exact h.elim
    | cons r rs =>
      obtain ⟨rest, hrest⟩ := h.1.isPrefix
      have htail := ih h.2
      rw [← hrest, List.drop_left] at htail
      rw [List.flatMap_cons, ← hrest]
      exact (List.prefix_append_right_inj r.bytes).mpr htail

/-- Once a call has said that the file has ended, a run has delivered all of it. -/
theorem DeliversAll.eq_of_ended {calls : List InCall} {rs : List InResult}
    (h : DeliversAll todo calls rs) (hended : ∃ r ∈ rs, r.ended = true) :
    rs.flatMap InResult.bytes = todo := by
  induction calls generalizing todo rs with
  | nil =>
    cases rs with
    | nil => simp at hended
    | cons r rs => exact h.elim
  | cons c calls ih =>
    cases rs with
    | nil => exact h.elim
    | cons r rs =>
      obtain ⟨r', hmem, hr'⟩ := hended
      rw [List.flatMap_cons]
      rcases List.mem_cons.mp hmem with rfl | hlater
      · -- nothing is left for the calls behind it
        have hall := h.1.eq_of_ended hr'
        have htail := h.2.isPrefix
        rw [hall, List.drop_length] at htail
        rw [List.prefix_nil.mp htail, List.append_nil, hall]
      · obtain ⟨rest, hrest⟩ := h.1.isPrefix
        have htail := ih h.2 ⟨r', hlater, hr'⟩
        rw [← hrest, List.drop_left] at htail
        rw [htail, hrest]

end Delivered

section Run

variable {f : OpenFile} {src : Source} {todo : List UInt8}

/-- **A call** gives the result that the bytes left say, and leaves the bytes behind it. -/
theorem OpenFile.Reads.get (h : f.Reads src todo) (c : InCall) :
    ∃ f' src', f.get src c = .ok (c.result todo, f', src') ∧
      f'.Reads src' (todo.drop (c.result todo).bytes.length) := by
  cases c with
  | @fgets cap s size two_le le_cap =>
    obtain ⟨f', src', hget, hf'⟩ := @OpenFile.Reads.fgets f src todo cap h s size
      (size.toInt.toNat - 1) (by omega) (by omega) (by omega)
    rw [← drop_length_cut] at hf'
    refine ⟨f', src', ?_, hf'⟩
    rw [OpenFile.get, hget, ok_bind]
    by_cases hnil : todo = []
    · rw [if_pos hnil, hnil, InCall.result, cut_nil]
      rfl
    · have hle := @length_cut_fst_le _ _ lf (size.toInt.toNat - 1) todo
      rw [if_neg hnil]
      dsimp only
      rw [take_toList_overlay_append s (by rw [List.length_append, List.length_singleton]; omega),
        InCall.result, show todo.isEmpty = false by simpa using hnil]
  | @fread cap dst nmemb le_cap =>
    obtain ⟨f', src', hget, hf'⟩ := h.fread dst le_cap
    have hlen : (todo.take nmemb.toNat).length = min nmemb.toNat todo.length := List.length_take
    -- the count returned is what was copied, which is no more than was asked for
    have hcount : (UInt32.ofNat (todo.take nmemb.toNat).length).toNat
        = (todo.take nmemb.toNat).length := by
      have hlt := nmemb.toNat_lt
      rw [UInt32.toNat_ofNat']
      omega
    have hleft : todo.drop (todo.take nmemb.toNat).length = todo.drop nmemb.toNat := by
      rw [hlen]
      rcases Nat.le_total nmemb.toNat todo.length with hle | hle
      · rw [Nat.min_eq_left hle]
      · rw [Nat.min_eq_right hle, List.drop_length, List.drop_of_length_le hle]
    refine ⟨f', src', ?_, hleft ▸ hf'⟩
    rw [OpenFile.get, hget, ok_bind]
    dsimp only
    rw [hcount, take_toList_overlay dst (by omega), InCall.result]
    have hended : UInt32.ofNat (todo.take nmemb.toNat).length < nmemb
        ↔ todo.length < nmemb.toNat := by
      rw [UInt32.lt_iff_toNat_lt, hcount, hlen]
      omega
    simp only [hended]

/-- **A run of calls** delivers what the bytes left say. -/
theorem OpenFile.Reads.gets (h : f.Reads src todo) (calls : List InCall) :
    f.gets src calls = .ok (results todo calls) := by
  induction calls generalizing f src todo with
  | nil => rfl
  | cons c calls ih =>
    obtain ⟨f', src', hget, hf'⟩ := h.get c
    rw [OpenFile.gets, hget, ok_bind]
    dsimp only
    rw [ih hf', ok_bind]
    rfl

/-- A file just opened has all its bytes to be read. -/
theorem reads_fopen (buf : Vector UInt8 miniFileBufsz) (src : Source) :
    (OpenFile.fopen 114 buf).Reads src src.rest :=
  ⟨[], ⟨rfl, 0, by decide, rfl, rfl, rfl⟩, rfl⟩

/-- **The file is delivered once**, in the same portions however the kernel splits it. -/
theorem gets_once (content : List UInt8) (calls : List InCall) :
    ∃ rs, (∀ (takes : Nat → ReadSize) (buf : Vector UInt8 miniFileBufsz),
        (OpenFile.fopen 114 buf).gets ⟨content, takes⟩ calls = .ok rs) ∧
      DeliversAll content calls rs ∧ rs.flatMap InResult.bytes <+: content ∧
      ((∃ r ∈ rs, r.ended = true) → rs.flatMap InResult.bytes = content) := by
  have hall := deliversAll_results content calls
  exact ⟨results content calls, fun takes buf => (reads_fopen buf ⟨content, takes⟩).gets calls,
    hall, hall.isPrefix, hall.eq_of_ended⟩

end Run

end SN110
