import SN110.Lib.Run
import Mathlib.Algebra.Group.Nat.Defs

/-!
# The bump allocator (`minilib.c`)

`malloc` hands out the bytes of `_heap_buf` one block after another and `free` takes none back. The
size is rounded up and compared with the heap in 32-bit arithmetic, so that a size near `2 ^ 32`
comes out small.

* `malloc_granted` and `malloc_refused`: the call as long as nothing wraps.
* `malloc_wrapped`: the call otherwise. It succeeds.
* `blocksSound_iff`: the sequences of calls whose blocks are sound. `blocksSound_of_le`: among them
  those of which no size is near `2 ^ 32`.
-/

namespace SN110

open Run

/-- `sizeof(_heap_buf)`. -/
abbrev heapBufSize : UInt32 := 32768

/-- Where `_heap_buf` is: aligned to 8 bytes, and with an end that has an address. -/
structure HeapBuf where
  addr : UInt32
  ne_null : addr ≠ 0
  aligned : 8 ∣ addr.toNat
  fits : addr.toNat + heapBufSize.toNat < 2 ^ 32

/-- `_heap_used` and `errno`. -/
structure HeapState where
  heapUsed : UInt32
  errno : Int

/-- The heap of a program that starts. -/
def HeapState.initial : HeapState := ⟨0, 0⟩

/-- `malloc`; no pointer is `NULL`. -/
def malloc (buf : HeapBuf) (st : HeapState) (size : UInt32) : HeapState × Option UInt32 :=
  let size := (size + 7) &&& ~~~7
  if st.heapUsed + size > heapBufSize then ({ st with errno := 12 }, none)
  else ({ st with heapUsed := st.heapUsed + size }, some (buf.addr + st.heapUsed))

/-- `free`. -/
def free (st : HeapState) (_ptr : UInt32) : HeapState := st

/-- A call of the program. -/
inductive HeapCall where
  | malloc (size : UInt32)
  | free (ptr : UInt32)

/-- A block that `malloc` has handed out: the pointer and the size asked for. -/
structure Block where
  ptr : UInt32
  size : UInt32

/-- The address is one of the block's. -/
def Block.Has (b : Block) (x : Nat) : Prop := b.ptr.toNat ≤ x ∧ x < b.ptr.toNat + b.size.toNat

/-- A call, and the block it hands out. -/
def heapStep (buf : HeapBuf) (st : HeapState) : HeapCall → HeapState × List Block
  | .malloc size =>
    ((malloc buf st size).1, (malloc buf st size).2.toList.map fun ptr => ⟨ptr, size⟩)
  | .free ptr => (free st ptr, [])

/-- What the callers of `malloc` and `free` rely on. -/
structure BlocksSound (buf : HeapBuf) (calls : List HeapCall) : Prop where
  aligned : ∀ b ∈ trace (heapStep buf) .initial calls, 8 ∣ b.ptr.toNat
  inside : ∀ b ∈ trace (heapStep buf) .initial calls,
    buf.addr.toNat ≤ b.ptr.toNat ∧
      b.ptr.toNat + b.size.toNat ≤ buf.addr.toNat + heapBufSize.toNat
  disjoint : (trace (heapStep buf) .initial calls).Pairwise fun a b => ∀ x, ¬ (a.Has x ∧ b.Has x)
  refused : Along (heapStep buf)
    (fun st c => (heapStep buf st c).2 = [] → (heapStep buf st c).1.heapUsed = st.heapUsed)
    .initial calls
  bounded : ∀ before, before <+: calls →
    (finalState (heapStep buf) .initial before).heapUsed ≤ heapBufSize

/-- A number of bytes rounded up to a multiple of 8. -/
def roundUp8 (n : Nat) : Nat := (n + 7) / 8 * 8

/-- The size of a `malloc`, rounded up and added to what is in use, fits 32 bits. -/
def SizeFits (st : HeapState) : HeapCall → Prop
  | .malloc size => st.heapUsed.toNat + roundUp8 size.toNat < 2 ^ 32
  | .free _ => True

/-- What holds of the heap between two calls, whatever sizes have been asked for. -/
structure HeapState.Sound (st : HeapState) : Prop where
  bounded : st.heapUsed ≤ heapBufSize
  aligned : 8 ∣ st.heapUsed.toNat

/-! ## One call -/

/-- `& ~7` takes off what is above a multiple of 8. -/
theorem toNat_and_not_seven (x : UInt32) : (x &&& ~~~7).toNat = x.toNat / 8 * 8 := by
  have hmask : (~~~7 : UInt32).toNat = (2 ^ 29 - 1) <<< 3 := by decide
  have hlt := x.toNat_lt
  rw [UInt32.toNat_and, hmask]
  apply Nat.eq_of_testBit_eq
  intro i
  -- both sides have the bits from 3 on of the number, and no lower ones
  rw [show x.toNat / 8 * 8 = x.toNat >>> 3 <<< 3 by
      rw [Nat.shiftRight_eq_div_pow, Nat.shiftLeft_eq], Nat.testBit_and, Nat.testBit_shiftLeft,
    Nat.testBit_shiftLeft, Nat.testBit_shiftRight, Nat.testBit_two_pow_sub_one]
  by_cases hi : 3 ≤ i
  · -- the mask has every bit from 3 to 31, and the number has none above
    have hback : 3 + (i - 3) = i := by omega
    by_cases hhigh : i < 32
    · simp [hi, hback, show i - 3 < 29 by omega]
    · have hpow : 2 ^ 32 ≤ 2 ^ i := Nat.pow_le_pow_right (by decide) (by omega)
      have hzero : x.toNat.testBit i = false :=
        Nat.testBit_lt_two_pow (Nat.lt_of_lt_of_le hlt hpow)
      simp [hback, hzero]
  · simp [hi]

section

variable {buf : HeapBuf} {st : HeapState} {size : UInt32}

/-- The sum that `malloc` compares with the heap. -/
theorem toNat_heapUsed_add (h : st.heapUsed.toNat + roundUp8 size.toNat < 2 ^ 32) :
    (st.heapUsed + ((size + 7) &&& ~~~7)).toNat = st.heapUsed.toNat + roundUp8 size.toNat := by
  unfold roundUp8 at h ⊢
  rw [UInt32.toNat_add, toNat_and_not_seven, UInt32.toNat_add]
  show (_ + (size.toNat + 7) % 2 ^ 32 / 8 * 8) % 2 ^ 32 = _
  omega

/-- There is room: the block starts where the last one ended. -/
theorem malloc_granted (h : st.heapUsed.toNat + roundUp8 size.toNat ≤ heapBufSize.toNat) :
    (malloc buf st size).2 = some (buf.addr + st.heapUsed) ∧
      (malloc buf st size).1.heapUsed.toNat = st.heapUsed.toNat + roundUp8 size.toNat := by
  have hsum := @toNat_heapUsed_add st size (Nat.lt_of_le_of_lt h (by decide))
  have hroom : ¬ st.heapUsed + ((size + 7) &&& ~~~7) > heapBufSize := by
    rw [gt_iff_lt, UInt32.lt_iff_toNat_lt, hsum]
    exact Nat.not_lt.mpr h
  unfold malloc
  rw [if_neg hroom]
  exact ⟨rfl, hsum⟩

/-- There is no room, and the sum says so. -/
theorem malloc_refused (h : heapBufSize.toNat < st.heapUsed.toNat + roundUp8 size.toNat)
    (hfits : st.heapUsed.toNat + roundUp8 size.toNat < 2 ^ 32) :
    malloc buf st size = ({ st with errno := 12 }, none) := by
  unfold malloc
  refine if_pos ?_
  rw [gt_iff_lt, UInt32.lt_iff_toNat_lt, toNat_heapUsed_add hfits]
  exact h

/-- The sum wraps, and what is left of it is no more than was in use: the call succeeds, for a size
that is larger than the heap. -/
theorem malloc_wrapped (hused : st.heapUsed ≤ heapBufSize)
    (h : 2 ^ 32 ≤ st.heapUsed.toNat + roundUp8 size.toNat) :
    (malloc buf st size).2 = some (buf.addr + st.heapUsed) ∧
      (malloc buf st size).1.heapUsed ≤ st.heapUsed ∧ heapBufSize.toNat < size.toNat := by
  have hsize := size.toNat_lt
  have hle : st.heapUsed.toNat ≤ 32768 := UInt32.le_iff_toNat_le.mp hused
  have hsum : (st.heapUsed + ((size + 7) &&& ~~~7)).toNat ≤ st.heapUsed.toNat := by
    unfold roundUp8 at h
    rw [UInt32.toNat_add, toNat_and_not_seven, UInt32.toNat_add]
    show (_ + (size.toNat + 7) % 2 ^ 32 / 8 * 8) % 2 ^ 32 ≤ _
    omega
  have hroom : ¬ st.heapUsed + ((size + 7) &&& ~~~7) > heapBufSize := by
    rw [gt_iff_lt, UInt32.lt_iff_toNat_lt]
    exact Nat.not_lt.mpr (Nat.le_trans hsum hle)
  unfold malloc
  rw [if_neg hroom]
  refine ⟨rfl, UInt32.le_iff_toNat_le.mpr hsum, ?_⟩
  unfold roundUp8 at h
  show 32768 < size.toNat
  omega

/-- Every call keeps the heap's bound, even one whose sum wraps. -/
theorem HeapState.Sound.heapStep (h : st.Sound) (buf : HeapBuf) (c : HeapCall) :
    (heapStep buf st c).1.Sound := by
  cases c with
  | free ptr => exact h
  | malloc size =>
    show ((malloc buf st size).1).Sound
    unfold malloc
    dsimp only
    split_ifs with hroom
    · exact ⟨h.bounded, h.aligned⟩
    · refine ⟨UInt32.not_lt.mp hroom, ?_⟩
      have haligned := h.aligned
      show 8 ∣ (st.heapUsed + ((size + 7) &&& ~~~7)).toNat
      rw [UInt32.toNat_add, toNat_and_not_seven]
      omega

theorem heapStep_refused (c : HeapCall) (h : (heapStep buf st c).2 = []) :
    (heapStep buf st c).1.heapUsed = st.heapUsed := by
  cases c with
  | free ptr => rfl
  | malloc size =>
    have hnone : (malloc buf st size).2 = none := by
      simpa [heapStep] using h
    show (malloc buf st size).1.heapUsed = st.heapUsed
    unfold malloc at hnone ⊢
    dsimp only at hnone ⊢
    split_ifs at hnone ⊢ with hroom
    rfl

end

/-! ## A sequence of calls -/

section

variable {buf : HeapBuf} {st : HeapState} {calls : List HeapCall}

theorem HeapState.Sound.finalState (h : st.Sound) (calls : List HeapCall) :
    (finalState (SN110.heapStep buf) st calls).Sound :=
  @run_induction _ _ _ (SN110.heapStep buf) st (fun _ st => st.Sound) h
    (fun _ c hst => hst.heapStep buf c) calls

/-- The address of what is in use does not wrap. -/
theorem toNat_addr_add (h : st.Sound) :
    (buf.addr + st.heapUsed).toNat = buf.addr.toNat + st.heapUsed.toNat := by
  have hused := UInt32.le_iff_toNat_le.mp h.bounded
  have hfits := buf.fits
  rw [UInt32.toNat_add]
  omega

/-- The blocks of the calls lie one behind the other, from what is in use to the heap's end. -/
theorem trace_heapStep (h : st.Sound) (hfits : Along (heapStep buf) SizeFits st calls) :
    (∀ b ∈ trace (heapStep buf) st calls, 8 ∣ b.ptr.toNat ∧
      buf.addr.toNat + st.heapUsed.toNat ≤ b.ptr.toNat ∧
      b.ptr.toNat + b.size.toNat ≤ buf.addr.toNat + heapBufSize.toNat) ∧
    (trace (heapStep buf) st calls).Pairwise
      fun a b => a.ptr.toNat + a.size.toNat ≤ b.ptr.toNat := by
  induction calls generalizing st with
  | nil => exact ⟨List.forall_mem_nil _, List.Pairwise.nil⟩
  | cons c calls ih =>
    obtain ⟨hfit, hrest⟩ := hfits
    obtain ⟨hblocks, hsorted⟩ := ih (h.heapStep buf c) hrest
    cases c with
    -- `free` gives nothing back
    | free ptr => exact ⟨hblocks, hsorted⟩
    | malloc size =>
      by_cases hroom : st.heapUsed.toNat + roundUp8 size.toNat ≤ heapBufSize.toNat
      · -- the block ends where the rest of the heap starts, or before it
        obtain ⟨hptr, hused⟩ := @malloc_granted buf st size hroom
        have haddr := @toNat_addr_add buf st h
        have hround : size.toNat ≤ roundUp8 size.toNat := by unfold roundUp8; omega
        have hhead : (heapStep buf st (.malloc size)).2 = [⟨buf.addr + st.heapUsed, size⟩] := by
          simp [heapStep, hptr]
        have hstate : (heapStep buf st (.malloc size)).1.heapUsed.toNat
            = st.heapUsed.toNat + roundUp8 size.toNat := hused
        rw [trace_cons, hhead, List.singleton_append, List.forall_mem_cons, List.pairwise_cons]
        refine ⟨⟨⟨?_, ?_, ?_⟩, fun b hb => ?_⟩, fun b hb => ?_, hsorted⟩
        · rw [haddr]
          exact Nat.dvd_add buf.aligned h.aligned
        · exact Nat.le_of_eq haddr.symm
        · show (buf.addr + st.heapUsed).toNat + size.toNat ≤ _
          omega
        · obtain ⟨haligned, hlow, hhigh⟩ := hblocks b hb
          exact ⟨haligned, by omega, hhigh⟩
        · obtain ⟨-, hlow, -⟩ := hblocks b hb
          show (buf.addr + st.heapUsed).toNat + size.toNat ≤ _
          omega
      · -- nothing is handed out, and as much is in use as before
        have hrefused : heapStep buf st (.malloc size) = ({ st with errno := 12 }, []) := by
          simp [heapStep, malloc_refused (Nat.lt_of_not_le hroom) hfit]
        rw [hrefused] at hblocks hsorted
        rw [trace_cons, hrefused, List.nil_append]
        exact ⟨hblocks, hsorted⟩

/-- If every block handed out is inside the heap, no sum has wrapped. -/
theorem along_sizeFits (h : st.Sound)
    (hinside : ∀ b ∈ trace (heapStep buf) st calls,
      b.ptr.toNat + b.size.toNat ≤ buf.addr.toNat + heapBufSize.toNat) :
    Along (heapStep buf) SizeFits st calls := by
  induction calls generalizing st with
  | nil => trivial
  | cons c calls ih =>
    rw [trace_cons] at hinside
    refine ⟨?_, ih (h.heapStep buf c) fun b hb => hinside b (List.mem_append_right _ hb)⟩
    cases c with
    | free ptr => trivial
    | malloc size =>
      by_contra hwraps
      -- the call succeeds although its size alone is larger than the heap
      obtain ⟨hptr, -, hlarge⟩ := @malloc_wrapped buf st size h.bounded (Nat.le_of_not_lt hwraps)
      have hblock := hinside ⟨buf.addr + st.heapUsed, size⟩ (by simp [heapStep, hptr])
      have haddr := @toNat_addr_add buf st h
      dsimp only at hblock
      omega

theorem along_refused : Along (heapStep buf)
    (fun st c => (heapStep buf st c).2 = [] → (heapStep buf st c).1.heapUsed = st.heapUsed)
    st calls := by
  rw [along_iff_forall]
  exact fun _ c _ => heapStep_refused c

end

theorem HeapState.sound_initial : HeapState.initial.Sound := ⟨by decide, by decide⟩

/-- **When the blocks are sound**: when no size, rounded up and added to what is in use, reaches
`2 ^ 32`. -/
theorem blocksSound_iff (buf : HeapBuf) (calls : List HeapCall) :
    BlocksSound buf calls ↔ Along (heapStep buf) SizeFits .initial calls := by
  constructor
  · intro h
    exact along_sizeFits HeapState.sound_initial fun b hb => (h.inside b hb).2
  · intro hfits
    obtain ⟨hblocks, hsorted⟩ := trace_heapStep HeapState.sound_initial hfits
    refine ⟨fun b hb => (hblocks b hb).1, fun b hb => ?_, ?_, along_refused, fun before _ => ?_⟩
    · obtain ⟨-, hlow, hhigh⟩ := hblocks b hb
      exact ⟨Nat.le_trans (Nat.le_add_right _ _) hlow, hhigh⟩
    · refine hsorted.imp fun hle x hx => ?_
      obtain ⟨⟨-, hbefore⟩, ⟨hbehind, -⟩⟩ := hx
      omega
    · exact (HeapState.sound_initial.finalState before).bounded

/-- Sizes up to 4 GiB less 64 KiB are safe, whatever is in use. -/
theorem blocksSound_of_le {calls : List HeapCall}
    (h : ∀ size, .malloc size ∈ calls → size.toNat ≤ 2 ^ 32 - 2 ^ 16) (buf : HeapBuf) :
    BlocksSound buf calls := by
  rw [blocksSound_iff, along_iff_forall]
  intro before c hbefore
  cases c with
  | free ptr => trivial
  | malloc size =>
    have hsize := h size (hbefore.subset (List.mem_append_right _ (List.mem_singleton_self _)))
    have hused := UInt32.le_iff_toNat_le.mp
      (@HeapState.Sound.finalState buf _ HeapState.sound_initial before).bounded
    show _ + roundUp8 size.toNat < 2 ^ 32
    unfold roundUp8
    rw [show heapBufSize.toNat = 32768 from rfl] at hused
    omega

/-- `THREAD_STACK_SIZE`, what `pthread_create` asks for. -/
abbrev threadStackSize : UInt32 := 8192

/-- A place for `_heap_buf`. -/
def someHeapBuf : HeapBuf := ⟨0x10000, by decide, by decide, by decide⟩

/-- After one block, `malloc(2 ^ 32 - 8)` gives it a second time. -/
theorem wrappedSize_granted :
    (trace (heapStep someHeapBuf) .initial [.malloc 8, .malloc 0xFFFFFFF8, .malloc 8]).map Block.ptr
        = [0x10000, 0x10008, 0x10000] ∧
      ¬ BlocksSound someHeapBuf [.malloc 8, .malloc 0xFFFFFFF8, .malloc 8] := by
  have htrace : (trace (heapStep someHeapBuf) .initial
      [.malloc 8, .malloc 0xFFFFFFF8, .malloc 8]) = [⟨0x10000, 8⟩, ⟨0x10008, 0xFFFFFFF8⟩,
        ⟨0x10000, 8⟩] := by rfl
  refine ⟨by rw [htrace]; rfl, fun h => ?_⟩
  have hinside := h.inside ⟨0x10008, 0xFFFFFFF8⟩ (by rw [htrace]; simp)
  exact absurd hinside.2 (by decide)

end SN110
