import SN110.Minilib.Output
import SN110.Minilib.Input
import SN110.Lib.Run

/-!
# The files that are open at once (`fopen`, `fclose`)

The library keeps its `FILE`s in a table of eight, each with a descriptor and a buffer. The system
gives a descriptor out again once it is closed, and a place of the table is used again as well, so
that a call through the wrong one would reach another's file.

* `Libc.call`: a call on the table and on the system's descriptors.
* `streamStep`: what the caller sees, a text that is written or read and no buffer, table or
  descriptor.
* `Libc.Sound` and `sound_step`: the files in use have descriptors of their own, and nothing else
  is left open, whatever is called.
* `files_refine`: used as they are meant to be, the files are streams that know nothing of each
  other.

## The two invariants

`Libc.Sound` is about descriptors alone and holds whatever is called: each operation opens one,
closes one or touches none (`Libc.Sound.acquire`, `release` and `set`). `Libc.Sim` ties each place
of the table to a stream, and is kept by calls that are `Proper`. A call changes its own place and
its own descriptor, which by `Sound` is no other's, and so the other places go on showing what they
showed (`SlotShows.update`).
-/

namespace SN110

open Checked Run Repeated

/-! ## The functions -/

/-- `MINI_MAX_FILES`. -/
abbrev miniMaxFiles : Nat := 8

/-- A `FILE *` into `_files`. -/
abbrev FileIndex := Fin miniMaxFiles

/-- An element of `_files`. -/
structure FileSlot where
  fd : Int
  file : OpenFile

/-- What a descriptor is open for: the rest of a file that is read, or the file written so far. -/
inductive Descriptor where
  | reading (src : Source)
  | writing (file : List UInt8)

/-- What `write` leaves of a descriptor; one that is not open for writing refuses it. -/
def writeTo (d : Option Descriptor) (blocks : List (List UInt8)) : Option Descriptor :=
  match d with
  | some (.writing file) => some (.writing (file ++ blocks.flatten))
  | d => d

/-- The file as the `read`s of a descriptor find it. One that is not open for reading refuses them,
which the library takes for the end of the file. -/
def sourceOf : Option Descriptor → Source
  | some (.reading src) => src
  | _ => ⟨[], fun _ => ⟨1, by decide, by decide⟩⟩

/-- What `read` leaves of a descriptor. -/
def readFrom (d : Option Descriptor) (src : Source) : Option Descriptor :=
  match d with
  | some (.reading _) => some (.reading src)
  | d => d

/-- The file behind a descriptor open for writing. -/
def descriptorFile : Option Descriptor → Option (List UInt8)
  | some (.writing file) => some file
  | _ => none

/-- The library's table and the system's. -/
structure Libc where
  files : FileIndex → FileSlot
  descriptors : Int → Option Descriptor

/-- The first place of the table that is not busy. -/
def firstFree (busy : FileIndex → Bool) : Option FileIndex :=
  (List.finRange miniMaxFiles).find? fun f => !busy f

/-- `_files[f]` and its descriptor after a call. -/
def Libc.set (s : Libc) (f : FileIndex) (file : OpenFile) (d : Option Descriptor) : Libc where
  files := Function.update s.files f ⟨(s.files f).fd, file⟩
  descriptors := Function.update s.descriptors (s.files f).fd d

/-- `close`. -/
def Libc.close (s : Libc) (fd : Int) : Libc :=
  { s with descriptors := Function.update s.descriptors fd none }

/-- `fopen`, when `open` returns `fd`; `src` is the file, for a `mode` that reads it. -/
def Libc.fopen (s : Libc) (mode : UInt8) (fd : Int) (src : Source) : Libc × Option FileIndex :=
  if mode ≠ 114 ∧ mode ≠ 119 ∨ fd < 0 then (s, none)
  else
    let d := if mode = 114 then Descriptor.reading src else .writing []
    let s := { s with descriptors := Function.update s.descriptors fd (some d) }
    match firstFree fun f => (s.files f).file.inUse with
    | some f =>
      ({ s with files := Function.update s.files f ⟨fd, .fopen mode (s.files f).file.buf⟩ }, some f)
    | none => (s.close fd, none)

/-- A call that writes. -/
def Libc.put (s : Libc) (f : FileIndex) (c : OutCall) : Except Fault Libc := do
  let (file, blocks) ← (s.files f).file.call c
  .ok (s.set f file (writeTo (s.descriptors (s.files f).fd) blocks))

/-- A call that reads. -/
def Libc.get (s : Libc) (f : FileIndex) (c : InCall) : Except Fault (Libc × InResult) := do
  let d := s.descriptors (s.files f).fd
  let (r, file, src) ← (s.files f).file.get (sourceOf d) c
  .ok (s.set f file (readFrom d src), r)

/-- `fclose`: what it returns, and the file it has closed, if it was written. -/
def Libc.fclose (s : Libc) (f : FileIndex) : Except Fault (Libc × Int × Option (List UInt8)) := do
  let (file, blocks, ret) ← (s.files f).file.fclose
  if (s.files f).file.inUse = false then .ok (s, ret, none)
  else
    let d := writeTo (s.descriptors (s.files f).fd) blocks
    let s := (s.set f file d).close (s.files f).fd
    .ok ({ s with files := Function.update s.files f ⟨-1, file⟩ }, ret, descriptorFile d)

/-! ## Runs -/

/-- A call. What the system does is part of it: the descriptor that `open` returns and the file that
is then read. -/
inductive FileCall where
  | fopen (mode : UInt8) (fd : Int) (src : Source)
  | put (f : FileIndex) (c : OutCall)
  | get (f : FileIndex) (c : InCall)
  | fclose (f : FileIndex)

/-- What a call has to show. -/
inductive FileResult where
  | opened (f : Option FileIndex)
  | got (f : FileIndex) (r : InResult)
  | closed (f : FileIndex) (ret : Int) (file : Option (List UInt8))

def Libc.call (s : Libc) : FileCall → Except Fault (Libc × List FileResult)
  | .fopen mode fd src => .ok ((s.fopen mode fd src).1, [.opened (s.fopen mode fd src).2])
  | .put f c => do
    let s ← s.put f c
    .ok (s, [])
  | .get f c => do
    let (s, r) ← s.get f c
    .ok (s, [.got f r])
  | .fclose f => do
    let (s, ret, file) ← s.fclose f
    .ok (s, [.closed f ret file])

/-- A call of a run, which shows a fault as well. -/
def libcStep (s : Libc) (c : FileCall) : Libc × List (Except Fault FileResult) :=
  match s.call c with
  | .ok (s, results) => (s, results.map .ok)
  | .error e => (s, [.error e])

/-- The table before anything is opened, with the descriptors `base` that others have. -/
def Libc.start (base : Int → Option Descriptor) : Libc where
  files := fun _ => ⟨0, 0, Vector.replicate miniFileBufsz 0, 0, 0, false⟩
  descriptors := base

/-! ## The streams -/

/-- An open file as its caller sees it: what is still to be read, or what has been written. -/
inductive FileStream where
  | reader (todo : List UInt8)
  | writer (text : List UInt8)

/-- The file that is left when a stream is closed, if it was written. -/
def FileStream.file : FileStream → Option (List UInt8)
  | .reader _ => none
  | .writer text => some text

abbrev Streams := FileIndex → Option FileStream

/-- The stream that `fopen` opens. -/
def openedStream (mode : UInt8) (src : Source) : FileStream :=
  if mode = 114 then .reader src.rest else .writer []

/-- A call as its caller sees it. -/
def streamStep (st : Streams) : FileCall → Streams × List FileResult
  | .fopen mode fd src =>
    if mode ≠ 114 ∧ mode ≠ 119 ∨ fd < 0 then (st, [.opened none])
    else
      match firstFree fun f => (st f).isSome with
      | some f => (Function.update st f (some (openedStream mode src)), [.opened (some f)])
      | none => (st, [.opened none])
  | .put f c =>
    match st f with
    | some (.writer text) => (Function.update st f (some (.writer (text ++ c.text))), [])
    | _ => (st, [])
  | .get f c =>
    match st f with
    | some (.reader todo) =>
      (Function.update st f (some (.reader (todo.drop (c.result todo).bytes.length))),
        [.got f (c.result todo)])
    | _ => (st, [])
  | .fclose f =>
    match st f with
    | some stream => (Function.update st f none, [.closed f 0 stream.file])
    | none => (st, [.closed f (-1) none])

/-! ## What a call leaves of the `struct` -/

/-- `mode` and `in_use` are what they were. -/
def OpenFile.SameUse (f' f : OpenFile) : Prop := f'.mode = f.mode ∧ f'.inUse = f.inUse

section Use

variable {f f' f'' : OpenFile}

theorem OpenFile.SameUse.trans (h' : f''.SameUse f') (h : f'.SameUse f) : f''.SameUse f :=
  ⟨h'.1.trans h.1, h'.2.trans h.2⟩

/-- Holding bytes back changes the buffer only. -/
theorem OpenFile.sameUse_hold {src : List UInt8} {total : UInt32} (h : f.hold src total = .ok f') :
    f'.SameUse f := by
  obtain ⟨buf, -, heq⟩ := exists_of_bind_eq_ok h
  cases heq
  exact ⟨rfl, rfl⟩

/-- Flushing empties the buffer; descriptor, mode and slot stay. -/
theorem OpenFile.sameUse_flush {blocks : List (List UInt8)} (h : f.flush = .ok (f', blocks)) :
    f'.SameUse f := by
  unfold OpenFile.flush at h
  split_ifs at h
  · obtain ⟨block, -, heq⟩ := exists_of_bind_eq_ok h
    cases heq
    exact ⟨rfl, rfl⟩
  · cases h
    exact ⟨rfl, rfl⟩

/-- `fwrite` keeps descriptor, mode and slot, buffered or not. -/
theorem OpenFile.sameUse_fwrite {src : List UInt8} {size nmemb n : UInt32}
    {blocks : List (List UInt8)} (h : f.fwrite src size nmemb = .ok (f', blocks, n)) :
    f'.SameUse f := by
  unfold OpenFile.fwrite at h
  dsimp only at h
  -- nothing to write, past the buffer, behind a flush, or into the buffer
  split_ifs at h
  · cases h
    exact ⟨rfl, rfl⟩
  · obtain ⟨⟨f₁, written⟩, hflush, h⟩ := exists_of_bind_eq_ok h
    obtain ⟨block, -, heq⟩ := exists_of_bind_eq_ok h
    cases heq
    exact OpenFile.sameUse_flush hflush
  · obtain ⟨⟨f₁, written⟩, hflush, h⟩ := exists_of_bind_eq_ok h
    obtain ⟨f₂, hhold, heq⟩ := exists_of_bind_eq_ok h
    cases heq
    exact (OpenFile.sameUse_hold hhold).trans (OpenFile.sameUse_flush hflush)
  · obtain ⟨f₁, hhold, heq⟩ := exists_of_bind_eq_ok h
    cases heq
    exact OpenFile.sameUse_hold hhold

/-- So does every call that writes. -/
theorem OpenFile.sameUse_call {c : OutCall} {blocks : List (List UInt8)}
    (h : f.call c = .ok (f', blocks)) : f'.SameUse f := by
  cases c with
  | fputs s =>
    obtain ⟨⟨f₁, blocks', n⟩, hputs, heq⟩ := exists_of_bind_eq_ok h
    obtain ⟨⟨f₂, blocks'', written⟩, hwrite, heq'⟩ := exists_of_bind_eq_ok hputs
    cases heq
    cases heq'
    exact OpenFile.sameUse_fwrite hwrite
  | fwrite size nmemb src length_eq =>
    obtain ⟨⟨f₁, blocks', n⟩, hwrite, heq⟩ := exists_of_bind_eq_ok h
    cases heq
    exact OpenFile.sameUse_fwrite hwrite
  -- `fprintf` formats into a buffer of its own and writes past the file's
  | fprintf out =>
    obtain ⟨⟨f₁, blocks', n⟩, hprint, heq⟩ := exists_of_bind_eq_ok h
    cases heq
    obtain ⟨⟨buf, n'⟩, -, hprint⟩ := exists_of_bind_eq_ok hprint
    dsimp only at hprint
    by_cases hpos : n' > 0 ∧ f.inUse = true
    · rw [if_pos hpos] at hprint
      obtain ⟨block, -, heq⟩ := exists_of_bind_eq_ok hprint
      cases heq
      exact ⟨rfl, rfl⟩
    · rw [if_neg hpos] at hprint
      cases hprint
      exact ⟨rfl, rfl⟩

/-- Taking a byte out of the buffer moves its position only. -/
theorem OpenFile.sameUse_takeByte {c : UInt8} (h : f.takeByte = .ok (c, f')) : f'.SameUse f := by
  obtain ⟨c', -, heq⟩ := exists_of_bind_eq_ok h
  cases heq
  exact ⟨rfl, rfl⟩

/-- Refilling replaces the buffer and nothing else. -/
theorem OpenFile.sameUse_refill {src src' : Source} (h : f.refill src = .ok (f', src')) :
    f'.SameUse f := by
  obtain ⟨buf, -, heq⟩ := exists_of_bind_eq_ok h
  cases heq
  exact ⟨rfl, rfl⟩

/-- So does reading the next byte, with a refill or without. -/
theorem OpenFile.sameUse_nextByte {src src' : Source} {c : Option UInt8}
    (h : f.nextByte src = .ok (c, f', src')) : f'.SameUse f := by
  -- with a refill or without
  unfold OpenFile.nextByte at h
  split_ifs at h
  · obtain ⟨⟨f₁, src₁⟩, hrefill, h⟩ := exists_of_bind_eq_ok h
    dsimp only at h
    split_ifs at h
    · cases h
      exact OpenFile.sameUse_refill hrefill
    · obtain ⟨⟨c', f₂⟩, htake, heq⟩ := exists_of_bind_eq_ok h
      cases heq
      exact (OpenFile.sameUse_takeByte htake).trans (OpenFile.sameUse_refill hrefill)
  · obtain ⟨⟨c', f₂⟩, htake, heq⟩ := exists_of_bind_eq_ok h
    cases heq
    exact OpenFile.sameUse_takeByte htake

/-- The loop of `fgets` keeps descriptor, mode and slot. -/
theorem sameUse_fgetsLoop {cap : Nat} {size : Int32} {src src' : Source} {s s' : Vector UInt8 cap}
    {i i' : Nat} (h : fgetsLoop size f src s i = .ok (f', src', s', i')) : f'.SameUse f := by
  fun_induction fgetsLoop size f src s i with
  | case1 f src s i hlt ih =>
    obtain ⟨⟨c, f₁, src₁⟩, hnext, h⟩ := exists_of_bind_eq_ok h
    have hsame := OpenFile.sameUse_nextByte hnext
    cases c with
    | none =>
      cases h
      exact hsame
    | some c =>
      obtain ⟨s₁, -, h⟩ := exists_of_bind_eq_ok h
      split_ifs at h
      · cases h
        exact hsame
      · exact (ih _ _ _ h).trans hsame
  | case2 f src s i hge =>
    cases h
    exact ⟨rfl, rfl⟩

/-- So does the loop that empties the buffer ahead of a large `fread`. -/
theorem sameUse_drainLoop {cap total : Nat} {dst dst' : Vector UInt8 cap} {i i' : Nat}
    (h : drainLoop total f dst i = .ok (f', dst', i')) : f'.SameUse f := by
  fun_induction drainLoop total f dst i with
  | case1 f dst i hlt ih =>
    obtain ⟨⟨c, f₁⟩, htake, h⟩ := exists_of_bind_eq_ok h
    obtain ⟨dst₁, -, h⟩ := exists_of_bind_eq_ok h
    exact (ih _ _ h).trans (OpenFile.sameUse_takeByte htake)
  | case2 f dst i hge =>
    cases h
    exact ⟨rfl, rfl⟩

/-- `fgets` keeps how the file is used. -/
theorem OpenFile.sameUse_fgets {cap : Nat} {s : Vector UInt8 cap} {size : Int32} {src src' : Source}
    {line : Option (Vector UInt8 cap × Nat)} (h : f.fgets src s size = .ok (f', src', line)) :
    f'.SameUse f := by
  unfold OpenFile.fgets at h
  split_ifs at h
  · cases h
    exact ⟨rfl, rfl⟩
  · obtain ⟨⟨f₁, src₁, s₁, i⟩, hloop, h⟩ := exists_of_bind_eq_ok h
    have hsame := sameUse_fgetsLoop hloop
    dsimp only at h
    split_ifs at h
    · cases h
      exact hsame
    · obtain ⟨s₂, -, heq⟩ := exists_of_bind_eq_ok h
      cases heq
      exact hsame

/-- `fread` keeps how the file is used, in both of its branches. -/
theorem OpenFile.sameUse_fread {cap : Nat} {dst dst' : Vector UInt8 cap} {size nmemb n : UInt32}
    {src src' : Source} (h : f.fread src dst size nmemb = .ok (f', src', dst', n)) :
    f'.SameUse f := by
  unfold OpenFile.fread at h
  dsimp only at h
  by_cases hnone : f.inUse = false ∨ size * nmemb = 0
  · rw [if_pos hnone] at h
    cases h
    exact ⟨rfl, rfl⟩
  · rw [if_neg hnone] at h
    obtain ⟨⟨f₁, dst₁, done⟩, hdrain, h⟩ := exists_of_bind_eq_ok h
    obtain ⟨⟨src₁, dst₂, done'⟩, -, heq⟩ := exists_of_bind_eq_ok h
    cases heq
    exact sameUse_drainLoop hdrain

/-- So does every call that reads. -/
theorem OpenFile.sameUse_get {c : InCall} {src src' : Source} {r : InResult}
    (h : f.get src c = .ok (r, f', src')) : f'.SameUse f := by
  cases c with
  | fgets s size two_le le_cap =>
    obtain ⟨⟨f₁, src₁, line⟩, hgets, h⟩ := exists_of_bind_eq_ok h
    cases line with
    | none =>
      cases h
      exact OpenFile.sameUse_fgets hgets
    | some line =>
      cases h
      exact OpenFile.sameUse_fgets hgets
  | fread dst nmemb le_cap =>
    obtain ⟨⟨f₁, src₁, dst₁, count⟩, hread, h⟩ := exists_of_bind_eq_ok h
    cases h
    exact OpenFile.sameUse_fread hread

/-- After `fclose` the slot is free, whatever the last flush returned. -/
theorem OpenFile.inUse_fclose {r : OpenFile × List (List UInt8) × Int}
    (h : f.fclose = .ok r) : r.1.inUse = false := by
  unfold OpenFile.fclose at h
  by_cases hused : f.inUse = false
  · rw [if_pos hused] at h
    cases h
    exact hused
  · rw [if_neg hused] at h
    split_ifs at h
    · obtain ⟨block, -, heq⟩ := exists_of_bind_eq_ok h
      cases heq
      rfl
    · cases h
      rfl

/-- Closing a file open for reading only frees its slot: there is nothing to flush. -/
theorem OpenFile.fclose_of_reading (hused : f.inUse = true) (hmode : f.mode = 114) :
    f.fclose = .ok ({ f with inUse := false }, [], 0) := by
  rw [OpenFile.fclose, if_neg (by rw [hused]; decide), if_neg]
  rw [hmode]
  exact fun h => absurd h.1 (by decide)

/-- Closing a file open for writing puts out exactly what its model still holds. -/
theorem OpenFile.Holds.fclose {m : MiniFile} (h : f.Holds m) :
    ∃ f', f.fclose = .ok (f', m.fclose, 0) := by
  unfold OpenFile.fclose MiniFile.fclose MiniFile.flush
  rw [if_neg (by rw [h.inUse]; decide)]
  by_cases hnil : m.buf = []
  · rw [if_neg (by rw [h.bufPos_pos]; simp [hnil]), if_pos hnil]
    exact ⟨_, rfl⟩
  · rw [if_pos ⟨h.mode, h.bufPos_pos.mpr hnil⟩, h.pending, ok_bind, if_neg hnil]
    exact ⟨_, rfl⟩

end Use

/-! ## Descriptors

Whatever is called: also through a `FILE` that is closed, or in the wrong direction. -/

/-- `f` is in use, with this descriptor. -/
def Libc.Has (s : Libc) (f : FileIndex) (fd : Int) : Prop :=
  (s.files f).file.inUse = true ∧ (s.files f).fd = fd

/-- The files in use have descriptors of their own, and these are all that is open beside the
descriptors `base` of others. -/
structure Libc.Sound (base : Int → Option Descriptor) (s : Libc) : Prop where
  own : ∀ {f fd}, s.Has f fd → (base fd).isSome = false
  distinct : ∀ {f g fd}, s.Has f fd → s.Has g fd → f = g
  isOpen : ∀ fd, (s.descriptors fd).isSome ↔ (base fd).isSome ∨ ∃ f, s.Has f fd

/-- The system does not return a descriptor that is open. -/
def FileCall.Lawful (s : Libc) : FileCall → Prop
  | .fopen _ fd _ => 0 ≤ fd → s.descriptors fd = none
  | _ => True

section Sound

variable {base : Int → Option Descriptor} {s : Libc} {f : FileIndex} {fd : Int}

/-- The descriptor of a file in use is open. -/
theorem Libc.Sound.isSome_of_has (h : s.Sound base) (hf : s.Has f fd) :
    (s.descriptors fd).isSome :=
  (h.isOpen fd).mpr (Or.inr ⟨f, hf⟩)

/-- A descriptor that is not open is not another's either. -/
theorem Libc.Sound.base_isSome_of_free (h : s.Sound base) (hfd : s.descriptors fd = none) :
    (base fd).isSome = false := by
  rw [Bool.eq_false_iff]
  intro hbase
  have hopen := (h.isOpen fd).mpr (Or.inl hbase)
  rw [hfd] at hopen
  cases hopen

/-- At start-up no slot is in use, so each descriptor is where it was. -/
theorem sound_start (base : Int → Option Descriptor) : (Libc.start base).Sound base where
  own h := nomatch h.1
  distinct h := nomatch h.1
  isOpen _ := ⟨Or.inl, fun h => h.elim id fun ⟨_, hf⟩ => (nomatch hf.1)⟩

@[simp] theorem descriptors_set (file : OpenFile) (d : Option Descriptor) :
    (s.set f file d).descriptors = Function.update s.descriptors (s.files f).fd d := rfl

/-- A call on `f` that neither opens nor closes anything. -/
theorem Libc.Sound.set (h : s.Sound base) {file : OpenFile} (hfile : file.SameUse (s.files f).file)
    {d : Option Descriptor} (hd : d.isSome = (s.descriptors (s.files f).fd).isSome) :
    (s.set f file d).Sound base := by
  -- no file has another descriptor than before
  have hhas : ∀ g fd, (s.set f file d).Has g fd ↔ s.Has g fd := by
    intro g fd
    unfold Libc.Has Libc.set
    dsimp only
    by_cases hg : g = f
    · subst hg
      rw [Function.update_self, hfile.2]
    · rw [Function.update_of_ne hg]
  refine ⟨fun hf => h.own ((hhas _ _).mp hf),
    fun hf hg => h.distinct ((hhas _ _).mp hf) ((hhas _ _).mp hg), fun fd => ?_⟩
  rw [exists_congr fun g => hhas g fd, ← h.isOpen fd, descriptors_set]
  by_cases hfd : fd = (s.files f).fd
  · rw [hfd, Function.update_self, hd]
  · rw [Function.update_of_ne hfd]

/-- A free place is given a descriptor that nobody has. -/
theorem Libc.Sound.acquire (h : s.Sound base) (hfree : (s.files f).file.inUse = false)
    (hfd : s.descriptors fd = none) {file : OpenFile} (hfile : file.inUse = true) (d : Descriptor) :
    Libc.Sound base { files := Function.update s.files f ⟨fd, file⟩
                      descriptors := Function.update s.descriptors fd (some d) } := by
  have hnobody : ∀ g, ¬ s.Has g fd := by
    intro g hg
    have hopen := h.isSome_of_has hg
    rw [hfd] at hopen
    cases hopen
  have hhas : ∀ g fd', Libc.Has { files := Function.update s.files f ⟨fd, file⟩
                                  descriptors := Function.update s.descriptors fd (some d) } g fd'
      ↔ g = f ∧ fd' = fd ∨ s.Has g fd' := by
    intro g fd'
    unfold Libc.Has
    dsimp only
    by_cases hg : g = f
    · subst hg
      rw [Function.update_self, hfree]
      simp [hfile, eq_comm]
    · rw [Function.update_of_ne hg]
      simp [hg]
  refine ⟨fun {g fd'} hg => ?_, fun {g g' fd'} hg hg' => ?_, fun fd' => ?_⟩
  · rcases (hhas g fd').mp hg with ⟨-, rfl⟩ | hg
    · exact h.base_isSome_of_free hfd
    · exact h.own hg
  · rcases (hhas g fd').mp hg with ⟨hgf, hfd'⟩ | hg <;>
      rcases (hhas g' fd').mp hg' with ⟨hgf', hfd''⟩ | hg'
    · exact hgf.trans hgf'.symm
    · exact (hnobody g' (hfd' ▸ hg')).elim
    · exact (hnobody g (hfd'' ▸ hg)).elim
    · exact h.distinct hg hg'
  · rw [exists_congr fun g => hhas g fd']
    dsimp only
    by_cases hfd' : fd' = fd
    · subst hfd'
      rw [Function.update_self]
      exact iff_of_true rfl (Or.inr ⟨f, Or.inl ⟨rfl, rfl⟩⟩)
    · rw [Function.update_of_ne hfd', h.isOpen fd']
      simp [hfd']

/-- A file in use is closed with its descriptor. -/
theorem Libc.Sound.release (h : s.Sound base) (hf : s.Has f fd) {slot : FileSlot}
    (hslot : slot.file.inUse = false) :
    Libc.Sound base { files := Function.update s.files f slot
                      descriptors := Function.update s.descriptors fd none } := by
  have hhas : ∀ g fd', Libc.Has { files := Function.update s.files f slot
                                  descriptors := Function.update s.descriptors fd none } g fd'
      ↔ g ≠ f ∧ s.Has g fd' := by
    intro g fd'
    unfold Libc.Has
    dsimp only
    by_cases hg : g = f
    · subst hg
      rw [Function.update_self, hslot]
      simp
    · rw [Function.update_of_ne hg]
      simp [hg]
  refine ⟨fun {g fd'} hg => h.own ((hhas g fd').mp hg).2,
    fun {g g' fd'} hg hg' => h.distinct ((hhas g fd').mp hg).2 ((hhas g' fd').mp hg').2,
    fun fd' => ?_⟩
  rw [exists_congr fun g => hhas g fd']
  dsimp only
  by_cases hfd' : fd' = fd
  · subst hfd'
    rw [Function.update_self]
    refine iff_of_false nofun ?_
    rintro (hbase | ⟨g, hne, hg⟩)
    · rw [h.own hf] at hbase
      cases hbase
    · exact hne (h.distinct hg hf)
  · rw [Function.update_of_ne hfd', h.isOpen fd']
    refine or_congr_right (exists_congr fun g => ⟨fun hg => ⟨?_, hg⟩, And.right⟩)
    rintro rfl
    exact hfd' (hg.2.symm.trans hf.2)

/-- Writing neither opens nor closes a descriptor. -/
theorem isSome_writeTo (d : Option Descriptor) (blocks : List (List UInt8)) :
    (writeTo d blocks).isSome = d.isSome := by
  unfold writeTo
  split <;> rfl

/-- Reading neither opens nor closes a descriptor. -/
theorem isSome_readFrom (d : Option Descriptor) (src : Source) :
    (readFrom d src).isSome = d.isSome := by
  unfold readFrom
  split <;> rfl

/-- The slot that `fopen` takes was free. -/
theorem firstFree_eq_some {busy : FileIndex → Bool} (h : firstFree busy = some f) :
    busy f = false := by
  simpa using List.find?_some h

/-- **Any call** keeps the descriptors in order. -/
theorem sound_step (h : s.Sound base) {c : FileCall} (hc : c.Lawful s) :
    (libcStep s c).1.Sound base := by
  cases c with
  | fopen mode fd src =>
    show (s.fopen mode fd src).1.Sound base
    unfold Libc.fopen
    split_ifs with hrefused hread
    · exact h
    all_goals
      have hfree := hc (not_lt.mp (not_or.mp hrefused).2)
      dsimp only
      cases hfind : firstFree fun f => (s.files f).file.inUse with
      | some f => exact h.acquire (firstFree_eq_some hfind) hfree rfl _
      | none =>
        -- the descriptor is closed again
        dsimp only [Libc.close]
        rw [Function.update_idem, Function.update_eq_self_iff.mpr hfree.symm]
        exact h
  | put f c =>
    unfold libcStep Libc.call Libc.put
    dsimp only
    cases hcall : (s.files f).file.call c with
    | error e => exact h
    | ok r => exact h.set (OpenFile.sameUse_call hcall) (isSome_writeTo _ _)
  | get f c =>
    unfold libcStep Libc.call Libc.get
    dsimp only
    cases hcall : (s.files f).file.get (sourceOf (s.descriptors (s.files f).fd)) c with
    | error e => exact h
    | ok r => exact h.set (OpenFile.sameUse_get hcall) (isSome_readFrom _ _)
  | fclose f =>
    unfold libcStep Libc.call Libc.fclose
    dsimp only
    cases hclose : (s.files f).file.fclose with
    | error e => exact h
    | ok r =>
      rw [ok_bind]
      by_cases hused : (s.files f).file.inUse = false
      · rw [if_pos hused]
        exact h
      · have hrelease := @Libc.Sound.release _ _ f _ h ⟨by simpa using hused, rfl⟩ ⟨-1, r.1⟩
          (OpenFile.inUse_fclose hclose)
        rw [if_neg hused, ok_bind]
        dsimp only [Libc.set, Libc.close]
        rwa [Function.update_idem, Function.update_idem]

/-- **Any run of calls** keeps them in order. -/
theorem sound_run (h : s.Sound base) {calls : List FileCall}
    (hcalls : Along libcStep FileCall.Lawful s calls) :
    (finalState libcStep s calls).Sound base := by
  induction calls generalizing s with
  | nil => exact h
  | cons c calls ih => exact ih (sound_step h hcalls.1) hcalls.2

end Sound

/-! ## Streams -/

/-- A place of the table shows a stream: the text is the file and what is held back of it, or what
is left of the file and what has been read ahead. -/
def SlotShows (slot : FileSlot) (d : Option Descriptor) : Option FileStream → Prop
  | none => slot.file.inUse = false
  | some (.reader todo) =>
    slot.file.mode = 114 ∧ ∃ src, d = some (.reading src) ∧ slot.file.Reads src todo
  | some (.writer text) =>
    ∃ m file, d = some (.writing file) ∧ slot.file.Holds m ∧ text = file ++ m.buf

/-- The table shows the streams, and leaves the descriptors of others alone. -/
structure Libc.Sim (base : Int → Option Descriptor) (s : Libc) (st : Streams) : Prop where
  sound : s.Sound base
  shows : ∀ f, SlotShows (s.files f) (s.descriptors (s.files f).fd) (st f)
  others : ∀ fd, (base fd).isSome → s.descriptors fd = base fd

/-- What a caller has to see to: that a `FILE` is open in the direction in which it is used, and
that what is written meets its condition. -/
def FileCall.Proper (s : Libc) : FileCall → Prop
  | .fopen mode fd src => (FileCall.fopen mode fd src).Lawful s
  | .put f c =>
    (s.files f).file.inUse = true ∧ (∃ file, s.descriptors (s.files f).fd = some (.writing file)) ∧
      c.Kept (s.files f).file.held
  | .get f _ =>
    (s.files f).file.inUse = true ∧ ∃ src, s.descriptors (s.files f).fd = some (.reading src)
  | .fclose _ => True

/-- A slot is in use exactly while the stream it stands for is open. -/
theorem SlotShows.inUse {slot : FileSlot} {d : Option Descriptor} {stream : Option FileStream}
    (h : SlotShows slot d stream) : slot.file.inUse = stream.isSome := by
  cases stream with
  | none => exact h
  | some stream =>
    cases stream with
    | reader todo =>
      obtain ⟨-, src, -, ahead, hbuffers, -⟩ := h
      exact hbuffers.1
    | writer text =>
      obtain ⟨m, file, -, hholds, -⟩ := h
      exact hholds.inUse

/-- A place in use whose descriptor is written shows a writer. -/
theorem SlotShows.writing {slot : FileSlot} {file : List UInt8} {stream : Option FileStream}
    (h : SlotShows slot (some (.writing file)) stream) (hused : slot.file.inUse = true) :
    ∃ m, stream = some (.writer (file ++ m.buf)) ∧ slot.file.Holds m := by
  cases stream with
  | none => exact absurd (h.symm.trans hused) (by decide)
  | some stream =>
    cases stream with
    -- the descriptor of a reader is one to be read
    | reader todo =>
      obtain ⟨-, src, heq, -⟩ := h
      cases heq
    | writer text =>
      obtain ⟨m, file', heq, hholds, rfl⟩ := h
      cases heq
      exact ⟨m, rfl, hholds⟩

/-- A place in use whose descriptor is read shows a reader. -/
theorem SlotShows.reading {slot : FileSlot} {src : Source} {stream : Option FileStream}
    (h : SlotShows slot (some (.reading src)) stream) (hused : slot.file.inUse = true) :
    ∃ todo, stream = some (.reader todo) ∧ slot.file.mode = 114 ∧ slot.file.Reads src todo := by
  cases stream with
  | none => exact absurd (h.symm.trans hused) (by decide)
  | some stream =>
    cases stream with
    | reader todo =>
      obtain ⟨hmode, src', heq, hreads⟩ := h
      cases heq
      exact ⟨todo, rfl, hmode, hreads⟩
    | writer text =>
      obtain ⟨m, file, heq, -⟩ := h
      cases heq

/-- What happens to another's descriptor does not show. -/
theorem SlotShows.update {slot : FileSlot} {descriptors : Int → Option Descriptor} {fd : Int}
    {stream : Option FileStream} (hne : slot.file.inUse = true → slot.fd ≠ fd)
    (h : SlotShows slot (descriptors slot.fd) stream) (d : Option Descriptor) :
    SlotShows slot (Function.update descriptors fd d slot.fd) stream := by
  cases stream with
  | none => exact h
  | some stream => rwa [Function.update_of_ne (hne h.inUse)]

section Sim

variable {base : Int → Option Descriptor} {s : Libc} {st : Streams} {f : FileIndex} {fd : Int}

theorem sim_start (base : Int → Option Descriptor) : (Libc.start base).Sim base fun _ => none :=
  ⟨sound_start base, fun _ => rfl, fun _ _ => rfl⟩

/-- What happens to `f` and a descriptor that no other has shows in the stream of `f`. -/
theorem Libc.Sim.update (h : s.Sim base st) (hf : ∀ g, s.Has g fd → g = f)
    (hbase : (base fd).isSome = false) {slot : FileSlot} {d : Option Descriptor}
    {stream : Option FileStream}
    (hshows : SlotShows slot (Function.update s.descriptors fd d slot.fd) stream)
    (hsound : Libc.Sound base { files := Function.update s.files f slot
                                descriptors := Function.update s.descriptors fd d }) :
    Libc.Sim base { files := Function.update s.files f slot
                    descriptors := Function.update s.descriptors fd d }
      (Function.update st f stream) := by
  refine ⟨hsound, fun g => ?_, fun fd' hopen => ?_⟩
  · dsimp only
    by_cases hg : g = f
    · subst hg
      rw [Function.update_self, Function.update_self]
      exact hshows
    · rw [Function.update_of_ne hg, Function.update_of_ne hg]
      exact (h.shows g).update (fun hused heq => hg (hf g ⟨hused, heq⟩)) d
  · dsimp only
    rw [Function.update_of_ne, h.others fd' hopen]
    rintro rfl
    rw [hbase] at hopen
    cases hopen

/-- A call on a file in use that neither opens nor closes anything. -/
theorem Libc.Sim.set (h : s.Sim base st) (hused : (s.files f).file.inUse = true)
    {file : OpenFile} {d : Option Descriptor} {stream : Option FileStream}
    (hfile : file.SameUse (s.files f).file)
    (hd : d.isSome = (s.descriptors (s.files f).fd).isSome)
    (hshows : SlotShows ⟨(s.files f).fd, file⟩ d stream) :
    (s.set f file d).Sim base (Function.update st f stream) := by
  refine h.update (fun g hg => h.sound.distinct hg ⟨hused, rfl⟩) (h.sound.own ⟨hused, rfl⟩) ?_
    (h.sound.set hfile hd)
  rwa [Function.update_self]

/-- `fopen` opens the first place that shows no stream. -/
theorem Libc.Sim.firstFree (h : s.Sim base st) :
    (firstFree fun f => (s.files f).file.inUse) = SN110.firstFree fun f => (st f).isSome :=
  congrArg SN110.firstFree (funext fun f => (h.shows f).inUse)

/-- A new stream: nothing is held back, and nothing has been read ahead. -/
theorem shows_opened {mode : UInt8} (hmode : ¬ (mode ≠ 114 ∧ mode ≠ 119)) (fd : Int) (src : Source)
    (buf : Vector UInt8 miniFileBufsz) :
    SlotShows ⟨fd, .fopen mode buf⟩
      (some (if mode = 114 then Descriptor.reading src else .writing []))
      (some (openedStream mode src)) := by
  unfold openedStream
  split_ifs with hread
  · subst hread
    exact ⟨rfl, src, rfl, reads_fopen buf src⟩
  · have hwrite : mode = 119 := by
      by_contra hwrite
      exact hmode ⟨hread, hwrite⟩
    subst hwrite
    exact ⟨MiniFile.empty, [], rfl, holds_fopen buf, rfl⟩

/-- The step of the table and of the streams show the same, and they agree afterwards. -/
def Libc.Agrees (base : Int → Option Descriptor) (s : Libc) (st : Streams) (c : FileCall) : Prop :=
  (libcStep s c).2 = (streamStep st c).2.map .ok ∧ (libcStep s c).1.Sim base (streamStep st c).1

/-- A call agrees with the streams when both give the same results and stay in simulation. -/
theorem agrees_of_call {c : FileCall} {s' : Libc} {st' : Streams} {results : List FileResult}
    (hcall : s.call c = .ok (s', results)) (hstream : streamStep st c = (st', results))
    (hsim : s'.Sim base st') : s.Agrees base st c := by
  unfold Libc.Agrees libcStep
  rw [hcall, hstream]
  exact ⟨rfl, hsim⟩

/-- `fopen` opens one more independent stream, or fails in both where no slot is free. -/
theorem agrees_fopen (h : s.Sim base st) {mode : UInt8} {src : Source}
    (hfd : 0 ≤ fd → s.descriptors fd = none) :
    s.Agrees base st (.fopen mode fd src) := by
  by_cases hrefused : mode ≠ 114 ∧ mode ≠ 119 ∨ fd < 0
  · refine agrees_of_call rfl ?_ (by rwa [Libc.fopen, if_pos hrefused])
    rw [streamStep, Libc.fopen, if_pos hrefused, if_pos hrefused]
  · obtain ⟨hmode, hpos⟩ := not_or.mp hrefused
    have hfree := hfd (not_lt.mp hpos)
    have hplace := h.firstFree
    cases hfind : SN110.firstFree fun f => (s.files f).file.inUse with
    | some f =>
      rw [hfind] at hplace
      refine @agrees_of_call base s st _ _ (Function.update st f (some (openedStream mode src))) _
        rfl ?_ ?_
      · rw [streamStep, Libc.fopen, if_neg hrefused, if_neg hrefused, ← hplace]
        dsimp only
        rw [hfind]
      rw [Libc.fopen, if_neg hrefused]
      dsimp only
      rw [hfind]
      refine h.update (fun g hg => ?_) ?_ ?_
        (h.sound.acquire (firstFree_eq_some hfind) hfree rfl _)
      · have hopen := h.sound.isSome_of_has hg
        rw [hfree] at hopen
        cases hopen
      · exact h.sound.base_isSome_of_free hfree
      · rw [Function.update_self]
        exact shows_opened hmode fd src _
    | none =>
      rw [hfind] at hplace
      refine @agrees_of_call base s st _ _ st _ rfl ?_ ?_
      · rw [streamStep, Libc.fopen, if_neg hrefused, if_neg hrefused, ← hplace]
        dsimp only
        rw [hfind]
      rw [Libc.fopen, if_neg hrefused]
      dsimp only
      rw [hfind]
      -- the descriptor is closed again
      dsimp only [Libc.close]
      rwa [Function.update_idem, Function.update_eq_self_iff.mpr hfree.symm]

/-- A call that writes does to its own stream what the stream's model does. -/
theorem agrees_put (h : s.Sim base st) {c : OutCall} (hc : (FileCall.put f c).Proper s) :
    s.Agrees base st (.put f c) := by
  obtain ⟨hused, ⟨file, hfile⟩, hkept⟩ := hc
  have hshows := h.shows f
  rw [hfile] at hshows
  obtain ⟨m, hst, hholds⟩ := hshows.writing hused
  rw [hholds.held] at hkept
  -- proper use leaves out the calls that would put their text before what is held back
  rcases hholds.call_cases c with ⟨e, -, hnot⟩ | ⟨f', blocks, m', hcall, hf', hiff⟩
  · exact absurd hkept hnot
  · refine agrees_of_call (by rw [Libc.call, Libc.put, hcall, ok_bind, ok_bind])
      (by rw [streamStep, hst])
      (h.set hused (OpenFile.sameUse_call hcall) (isSome_writeTo _ _) ?_)
    refine ⟨m', file ++ blocks.flatten, by rw [hfile]; rfl, hf', ?_⟩
    rw [List.append_assoc, List.append_assoc, hiff.mpr hkept]

/-- A call that reads does to its own stream what the stream's model does. -/
theorem agrees_get (h : s.Sim base st) {c : InCall} (hc : (FileCall.get f c).Proper s) :
    s.Agrees base st (.get f c) := by
  obtain ⟨hused, src, hsrc⟩ := hc
  have hshows := h.shows f
  rw [hsrc] at hshows
  obtain ⟨todo, hst, hmode, hreads⟩ := hshows.reading hused
  obtain ⟨f', src', hget, hf'⟩ := hreads.get c
  have hsame := OpenFile.sameUse_get hget
  have hcall : s.call (.get f c)
      = .ok (s.set f f' (some (.reading src')), [.got f (c.result todo)]) := by
    rw [Libc.call, Libc.get, hsrc]
    dsimp only [sourceOf]
    rw [hget]
    rfl
  have hleft : SlotShows ⟨(s.files f).fd, f'⟩ (some (.reading src'))
      (some (.reader (todo.drop (c.result todo).bytes.length))) :=
    ⟨hsame.1.trans hmode, src', rfl, hf'⟩
  exact agrees_of_call hcall (by rw [streamStep, hst])
    (h.set hused hsame (by rw [hsrc]; rfl) hleft)

/-- `fclose` of a file in use, which has put the file in order before it. -/
theorem Libc.Sim.fclose (h : s.Sim base st) {stream : FileStream} (hst : st f = some stream)
    {file : OpenFile} {blocks : List (List UInt8)}
    (hclose : (s.files f).file.fclose = .ok (file, blocks, 0))
    (hfile : descriptorFile (writeTo (s.descriptors (s.files f).fd) blocks) = stream.file) :
    s.Agrees base st (.fclose f) := by
  have hused : (s.files f).file.inUse = true := by
    rw [(h.shows f).inUse, hst]
    rfl
  have hcall : s.call (.fclose f)
      = .ok ({ files := Function.update s.files f ⟨-1, file⟩
               descriptors := Function.update s.descriptors (s.files f).fd none },
          [.closed f 0 stream.file]) := by
    rw [Libc.call, Libc.fclose, hclose, ok_bind]
    dsimp only [Libc.set, Libc.close]
    rw [if_neg (by rw [hused]; decide), ok_bind, Function.update_idem, Function.update_idem]
    dsimp only
    rw [hfile]
  -- the slot is free and its descriptor closed
  have hended : SlotShows ⟨-1, file⟩
      (Function.update s.descriptors (s.files f).fd none (-1)) none :=
    OpenFile.inUse_fclose hclose
  exact agrees_of_call hcall (by rw [streamStep, hst])
    (h.update (fun g hg => h.sound.distinct hg ⟨hused, rfl⟩) (h.sound.own ⟨hused, rfl⟩) hended
      (h.sound.release ⟨hused, rfl⟩ hended))

/-- `fclose` ends its own stream and no other. -/
theorem agrees_fclose (h : s.Sim base st) : s.Agrees base st (.fclose f) := by
  have hshows := h.shows f
  cases hst : st f with
  -- a slot that is not in use returns an error in both
  | none =>
    rw [hst] at hshows
    have hunused : (s.files f).file.inUse = false := hshows
    refine @agrees_of_call base s st _ s st _ ?_ (by rw [streamStep, hst]) h
    rw [Libc.call, Libc.fclose, OpenFile.fclose, if_pos hunused, ok_bind]
    dsimp only
    rw [if_pos hunused, ok_bind]
  | some stream =>
    rw [hst] at hshows
    cases stream with
    | reader todo =>
      obtain ⟨hmode, src, hsrc, ahead, hbuffers, -⟩ := hshows
      refine h.fclose hst (OpenFile.fclose_of_reading hbuffers.1 hmode) ?_
      rw [hsrc]
      rfl
    -- what is held back is flushed before the descriptor is closed
    | writer text =>
      obtain ⟨m, file, hfile, hholds, rfl⟩ := hshows
      obtain ⟨f', hclose⟩ := hholds.fclose
      refine h.fclose hst hclose ?_
      rw [hfile, MiniFile.fclose, ← m.flatten_flush]
      rfl

/-- **One call**: the table shows what the streams show. -/
theorem sim_step (h : s.Sim base st) {c : FileCall} (hc : c.Proper s) : s.Agrees base st c := by
  cases c with
  | fopen mode fd src => exact agrees_fopen h hc
  | put f c => exact agrees_put h hc
  | get f c => exact agrees_get h hc
  | fclose f => exact agrees_fclose h

/-- **A run of calls.** -/
theorem sim_run (h : s.Sim base st) {calls : List FileCall}
    (hcalls : Along libcStep FileCall.Proper s calls) :
    trace libcStep s calls = (trace streamStep st calls).map .ok ∧
      (finalState libcStep s calls).Sim base (finalState streamStep st calls) := by
  induction calls generalizing s st with
  | nil => exact ⟨rfl, h⟩
  | cons c calls ih =>
    obtain ⟨hshown, hsim⟩ := sim_step h hcalls.1
    obtain ⟨hrest, hfinal⟩ := ih hsim hcalls.2
    refine ⟨?_, hfinal⟩
    rw [trace_cons, trace_cons, List.map_append, hshown, hrest]

end Sim

/-- **No descriptor is lost or shared.** In every run of calls, also through a `FILE` that is closed
or in the wrong direction: the files in use have descriptors of their own, different from each other
and from those of others, and nothing else is open. -/
theorem files_noLeak (base : Int → Option Descriptor) {calls : List FileCall}
    (h : Along libcStep FileCall.Lawful (Libc.start base) calls) :
    (finalState libcStep (Libc.start base) calls).Sound base :=
  sound_run (sound_start base) h

/-- A file is written while another is open to be read. -/
def twoFiles : List FileCall :=
  [.fopen 119 3 ⟨[], fun _ => ⟨1, by decide, by decide⟩⟩,
    .fopen 114 4 ⟨[98], fun _ => ⟨1, by decide, by decide⟩⟩,
    .put 0 (.fputs [97]), .fclose 0, .fclose 1]

/-- The example run uses its two files as it should: one written, one read. -/
theorem twoFiles_proper : Along libcStep FileCall.Proper (Libc.start fun _ => none) twoFiles := by
  have hfile := (holds_fopen (Vector.replicate miniFileBufsz 0)).held
  refine ⟨fun _ => rfl, fun _ => rfl, ⟨rfl, ⟨[], rfl⟩, ?_⟩, trivial, trivial, trivial⟩
  show (OpenFile.fopen 119 (Vector.replicate miniFileBufsz 0)).held.length + 1 < 2 ^ 31
  rw [hfile]
  decide

/-- `files_noLeak` on that run, which closes both files. -/
theorem twoFiles_noLeak :
    (finalState libcStep (Libc.start fun _ => none) twoFiles).Sound fun _ => none :=
  files_noLeak (fun _ => none) ⟨fun _ => rfl, fun _ => rfl, trivial, trivial, trivial, trivial⟩

end SN110
