import SN110.Lib.Memory
import Mathlib.Data.Vector.Basic

/-!
# Checked memory accesses

A program that reads a received buffer and fills an array, run so that every access is checked:
a load past the bytes received, a store past the array, or a value that does not fit its 16-bit
variable ends the run with a `Fault`. A program that never faults may be run unchecked, and the
rules `…_eq_ok` turn each access into the unchecked one of `Memory` once its bound is known.
`overlay` is an array after its first bytes have been stored.
-/

namespace Checked

open Memory

/-- What goes wrong first: an access out of bounds, a value that its variable does not hold, or a
loop that never ends. -/
inductive Fault where
  | load (off : Nat)
  | store (off : Nat)
  | wrap (value : Int)
  | forever

/-! ## Loads -/

/-- `buf[i]`, where `buf` holds the bytes received. -/
def fetch (buf : List UInt8) (i : Nat) : Except Fault UInt8 :=
  if i < buf.length then .ok (load buf i) else .error (.load i)

/-- The `n` bytes at `off`, read as `memcpy` and `memcmp` read them. -/
def fetchRange (buf : List UInt8) (off n : Nat) : Except Fault (List UInt8) :=
  if off + n ≤ buf.length then .ok ((List.range n).map fun i => load buf (off + i))
  else .error (.load buf.length)

/-- A big-endian 16-bit word. -/
def fetch16 (buf : List UInt8) (off : Nat) : Except Fault UInt16 := do
  let hi ← fetch buf off
  let lo ← fetch buf (off + 1)
  pure (UInt16.ofNat (hi.toNat <<< 8 + lo.toNat))

/-- A big-endian 32-bit word. -/
def fetch32 (buf : List UInt8) (off : Nat) : Except Fault UInt32 := do
  let b0 ← fetch buf off
  let b1 ← fetch buf (off + 1)
  let b2 ← fetch buf (off + 2)
  let b3 ← fetch buf (off + 3)
  pure (UInt32.ofNat (b0.toNat <<< 24 + b1.toNat <<< 16 + b2.toNat <<< 8 + b3.toNat))

/-- A little-endian 16-bit word. -/
def fetch16Le (buf : List UInt8) (off : Nat) : Except Fault UInt16 := do
  let lo ← fetch buf off
  let hi ← fetch buf (off + 1)
  pure (UInt16.ofNat (lo.toNat + hi.toNat <<< 8))

/-- Binding a value that is there. -/
@[simp] theorem ok_bind {α β : Type} (a : α) (f : α → Except Fault β) :
    (Except.ok a >>= f) = f a := rfl

@[simp] theorem pure_eq_ok {α : Type} (a : α) : (pure a : Except Fault α) = .ok a := rfl

@[simp] theorem error_bind {α β : Type} (e : Fault) (f : α → Except Fault β) :
    ((Except.error e : Except Fault α) >>= f) = .error e := rfl

/-- What a run with a result has done first. -/
theorem exists_of_bind_eq_ok {α β : Type} {x : Except Fault α} {f : α → Except Fault β} {b : β}
    (h : x >>= f = .ok b) : ∃ a, x = .ok a ∧ f a = .ok b := by
  cases x with
  | error e => cases h
  | ok a => exact ⟨a, rfl, h⟩

section

variable {buf : List UInt8} {off : Nat}

/-- An access inside the buffer loads its byte. -/
theorem fetch_eq_ok (h : off < buf.length) : fetch buf off = .ok (load buf off) := if_pos h

/-- A range inside the buffer is loaded byte by byte. -/
theorem fetchRange_eq_ok {n : Nat} (h : off + n ≤ buf.length) :
    fetchRange buf off n = .ok ((List.range n).map fun i => load buf (off + i)) := if_pos h

/-- A range that ends behind the buffer faults at its end. -/
theorem fetchRange_eq_error {n : Nat} (h : buf.length < off + n) :
    fetchRange buf off n = .error (.load buf.length) := if_neg (not_le.mpr h)

/-- The first bytes. -/
theorem fetchRange_eq_take {n : Nat} (h : n ≤ buf.length) :
    fetchRange buf 0 n = .ok (buf.take n) := by
  rw [fetchRange_eq_ok (by omega)]
  congr 1
  apply List.ext_getElem
  · simp [h]
  · intro i hi hi'
    rw [List.length_take] at hi'
    simp [load_eq_getElem (show i < buf.length by omega)]

/-- Both bytes inside the buffer, a 16-bit access loads them. -/
theorem fetch16_eq_ok (h : off + 2 ≤ buf.length) : fetch16 buf off = .ok (load16 buf off) := by
  simp only [fetch16, fetch_eq_ok (show off < buf.length by omega),
    fetch_eq_ok (show off + 1 < buf.length by omega), ok_bind, pure_eq_ok, load16]

/-- All four bytes inside the buffer, a 32-bit access loads them. -/
theorem fetch32_eq_ok (h : off + 4 ≤ buf.length) : fetch32 buf off = .ok (load32 buf off) := by
  simp only [fetch32, fetch_eq_ok (show off < buf.length by omega),
    fetch_eq_ok (show off + 1 < buf.length by omega),
    fetch_eq_ok (show off + 2 < buf.length by omega),
    fetch_eq_ok (show off + 3 < buf.length by omega), ok_bind, pure_eq_ok, load32]

/-- Both bytes inside the buffer, a little-endian access loads them. -/
theorem fetch16Le_eq_ok (h : off + 2 ≤ buf.length) :
    fetch16Le buf off = .ok (load16Le buf off) := by
  simp only [fetch16Le, fetch_eq_ok (show off < buf.length by omega),
    fetch_eq_ok (show off + 1 < buf.length by omega), ok_bind, pure_eq_ok, load16Le]

end

/-! ## 16-bit variables -/

/-- Storing an `int` in a `uint16_t`, which must hold its value. -/
def narrow16 (value : Int) : Except Fault UInt16 :=
  if 0 ≤ value ∧ value < 65536 then .ok (UInt16.ofInt value) else .error (.wrap value)

/-- A value in range is narrowed without a fault. -/
theorem narrow16_eq_ok {value : Int} (hlo : 0 ≤ value) (hhi : value < 65536) :
    narrow16 value = .ok (UInt16.ofInt value) := if_pos ⟨hlo, hhi⟩

/-- So is a length below 65536. -/
theorem narrow16_natCast {n : Nat} (h : n < 65536) : narrow16 n = .ok (UInt16.ofNat n) := by
  have hmod : ((n : Int) % 2 ^ 16).toNat = n := by omega
  rw [narrow16, if_pos (by omega), UInt16.ofInt, hmod]

/-- Cutting a 16-bit value to a bound. -/
theorem toNat_cut (x bound : UInt16) :
    (if x > bound then bound else x).toNat = min x.toNat bound.toNat := by
  have hgt : x > bound ↔ bound.toNat < x.toNat := UInt16.lt_iff_toNat_lt
  split_ifs with h
  · rw [hgt] at h
    omega
  · rw [hgt] at h
    omega

/-- A length field as a parser cuts it: to `bound`, and to what a buffer of `n` bytes holds from
`off` on. The comparison is with `(uint16_t)n`. -/
def cutLength (bound : UInt16) (off : Nat) (len : UInt16) (n : Int) : UInt16 :=
  let len := if len > bound then bound else len
  if ((off + len.toNat : Nat) : Int) > n % 65536 then UInt16.ofInt (n - off) else len

/-- `cutLength`, every 16-bit value exact. -/
def cutLengthChecked (bound : UInt16) (off : Nat) (len : UInt16) (n : Nat) :
    Except Fault UInt16 := do
  let len := if len > bound then bound else len
  let size ← narrow16 n
  if off + len.toNat > size.toNat then narrow16 ((n : Int) - off) else .ok len

section

variable {bound : UInt16} {off n : Nat} (hoff : off ≤ n) (hmax : n < 65536)

include hoff hmax

/-- The cut length: at most the field, the bound, and what the buffer holds. -/
theorem toNat_cutLength (len : UInt16) :
    (cutLength bound off len n).toNat = min (min len.toNat bound.toNat) (n - off) := by
  have hmod : ((n : Int) % 65536) = n := by omega
  have hnarrow : (UInt16.ofInt ((n : Int) - off)).toNat = n - off := by
    rw [UInt16.ofInt, UInt16.toNat_ofNat']
    omega
  have hcut := toNat_cut len bound
  simp only [cutLength, hmod]
  -- the length after the first cut is a variable of its own
  generalize (if len > bound then bound else len) = cut at hcut ⊢
  split_ifs with hlong
  · rw [hnarrow]
    omega
  · omega

/-- Cutting a length to the bound stays in the type. -/
theorem cutLengthChecked_eq (len : UInt16) :
    cutLengthChecked bound off len n = .ok (cutLength bound off len n) := by
  have hmod : ((n : Int) % 65536) = n := by omega
  have hsize : (UInt16.ofNat n).toNat = n := by
    rw [UInt16.toNat_ofNat']
    omega
  rw [cutLengthChecked, narrow16_natCast hmax, ok_bind, hsize]
  simp only [cutLength, hmod]
  generalize (if len > bound then bound else len) = cut
  by_cases hlong : off + cut.toNat > n
  · rw [if_pos hlong, if_pos (by exact_mod_cast hlong), narrow16, if_pos (by omega)]
  · rw [if_neg hlong, if_neg (by exact_mod_cast hlong)]

end

/-! ## Stores -/

variable {cap : Nat}

/-- `dst[i] = b`. -/
def put (dst : Vector UInt8 cap) (i : Nat) (b : UInt8) : Except Fault (Vector UInt8 cap) :=
  if h : i < cap then .ok (dst.set i b h) else .error (.store i)

/-- `dst` with `src` over its first bytes. -/
def overlay (dst : Vector UInt8 cap) (src : List UInt8) : Vector UInt8 cap :=
  Vector.ofFn fun i => if h : i.val < src.length then src[i.val] else dst[i]

/-- `memcpy(dst, buf + off, n)`. -/
def copyIn (dst : Vector UInt8 cap) (buf : List UInt8) (off n : Nat) :
    Except Fault (Vector UInt8 cap) :=
  if buf.length < off + n then .error (.load buf.length)
  else if cap < n then .error (.store cap)
  else .ok (Vector.ofFn fun i => if i.val < n then load buf (off + i) else dst[i])

/-- `memcpy(dst + off, src, n)`. -/
def copyAt (dst : Vector UInt8 cap) (off : Nat) (src : List UInt8) (n : Nat) :
    Except Fault (Vector UInt8 cap) :=
  if src.length < n then .error (.load src.length)
  else if cap < off + n then .error (.store cap)
  else .ok (Vector.ofFn fun i =>
    if off ≤ i.val ∧ i.val < off + n then load src (i - off) else dst[i])

@[simp] theorem get_ofFn {α : Type} (f : Fin cap → α) (i : Fin cap) :
    (Vector.ofFn f).get i = f i :=
  Vector.getElem_ofFn i.isLt

/-- A buffer written over has the new bytes as far as they go. -/
theorem getElem_overlay (dst : Vector UInt8 cap) (src : List UInt8) {i : Nat} (h : i < cap) :
    (overlay dst src)[i] = if h : i < src.length then src[i] else dst[i] := by
  simp [overlay]

@[simp] theorem overlay_nil (dst : Vector UInt8 cap) : overlay dst [] = dst := by
  apply Vector.ext
  intro i hi
  simp [getElem_overlay _ _ hi]

/-- The first bytes of a text and a NUL, and what was behind them. -/
theorem getElem_overlay_nul (dst : Vector UInt8 cap) (src : List UInt8) (n : Nat) (i : Fin cap) :
    (overlay dst (src.take n ++ [0]))[i]
      = if i.val < min src.length n then load src i
        else if i.val = min src.length n then 0 else dst[i] := by
  have hlen : (src.take n).length = min src.length n := by rw [List.length_take, Nat.min_comm]
  rw [← hlen]
  refine (getElem_overlay dst _ i.isLt).trans ?_
  rcases Nat.lt_trichotomy i.val (src.take n).length with hlt | heq | hgt
  · -- a byte of the text
    rw [dif_pos (by rw [List.length_append]; omega), if_pos hlt, List.getElem_append_left hlt,
      List.getElem_take, load_eq_getElem]
  · -- the NUL
    rw [dif_pos (by rw [List.length_append, List.length_singleton]; omega), if_neg (by omega),
      if_pos heq, List.getElem_append_right (by omega)]
    simp
  · rw [dif_neg (by rw [List.length_append, List.length_singleton]; omega), if_neg (by omega),
      if_neg (by omega)]
    rfl

/-- The first bytes are read back. -/
theorem take_toList_overlay (dst : Vector UInt8 cap) {src : List UInt8} (h : src.length ≤ cap) :
    (overlay dst src).toList.take src.length = src := by
  apply List.ext_getElem
  · simp [h]
  · intro i hi hi'
    rw [List.getElem_take, Vector.getElem_toList, getElem_overlay _ _ (by omega), dif_pos hi']

/-- The first bytes written over are read back, whatever follows them. -/
theorem take_toList_overlay_append (dst : Vector UInt8 cap) {front back : List UInt8}
    (h : (front ++ back).length ≤ cap) :
    (overlay dst (front ++ back)).toList.take front.length = front := by
  have htake := congrArg (List.take front.length) (take_toList_overlay dst h)
  rwa [List.take_take, List.length_append, Nat.min_eq_left (Nat.le_add_right _ _), List.take_left]
    at htake

/-- A copy inside both buffers is done byte by byte. -/
theorem copyIn_eq_ok {dst : Vector UInt8 cap} {buf : List UInt8} {off n : Nat}
    (hread : off + n ≤ buf.length) (hwrite : n ≤ cap) :
    copyIn dst buf off n
      = .ok (Vector.ofFn fun i => if i.val < n then load buf (off + i) else dst[i]) := by
  rw [copyIn, if_neg (not_lt.mpr hread), if_neg (not_lt.mpr hwrite)]

/-- Filling the whole array. -/
theorem copyIn_full {dst : Vector UInt8 cap} {buf : List UInt8} {off : Nat}
    (hread : off + cap ≤ buf.length) :
    copyIn dst buf off cap = .ok (Vector.ofFn fun i => load buf (off + i)) := by
  rw [copyIn_eq_ok hread le_rfl]
  simp

/-- A copy beyond the end of the buffer faults. -/
theorem copyAt_eq_error {dst : Vector UInt8 cap} {off n : Nat} {src : List UInt8}
    (h : cap < off + n) : ∃ e, copyAt dst off src n = .error e := by
  unfold copyAt
  split_ifs
  · exact ⟨_, rfl⟩
  · exact ⟨_, rfl⟩

/-- Bytes copied behind the first ones. -/
theorem copyAt_overlay {dst : Vector UInt8 cap} {front src : List UInt8} {n : Nat}
    (hread : n ≤ src.length) (hwrite : front.length + n ≤ cap) :
    copyAt (overlay dst front) front.length src n = .ok (overlay dst (front ++ src.take n)) := by
  have hlen : (front ++ src.take n).length = front.length + n := by
    rw [List.length_append, List.length_take, Nat.min_eq_left hread]
  rw [copyAt, if_neg (not_lt.mpr hread), if_neg (not_lt.mpr hwrite)]
  congr 1
  apply Vector.ext
  intro i hi
  rw [Vector.getElem_ofFn, getElem_overlay _ _ hi]
  dsimp only
  -- before the copy, in it and behind it
  rcases Nat.lt_or_ge i front.length with hlt | hge
  · rw [if_neg (by omega), dif_pos (by omega), List.getElem_append_left hlt]
    exact (getElem_overlay dst front hi).trans (dif_pos hlt)
  · by_cases hin : i < front.length + n
    · rw [if_pos ⟨hge, hin⟩, dif_pos (by omega), List.getElem_append_right hge, List.getElem_take,
        load_eq_getElem (by omega)]
    · rw [if_neg (fun h => hin h.2), dif_neg (by omega)]
      exact (getElem_overlay dst front hi).trans (dif_neg (by omega))

/-- An array is its own first bytes over it. -/
theorem overlay_take (dst : Vector UInt8 cap) (n : Nat) :
    overlay dst (dst.toList.take n) = dst := by
  apply Vector.ext
  intro i hi
  rw [getElem_overlay _ _ hi]
  split_ifs
  · rw [List.getElem_take, Vector.getElem_toList]
  · rfl

/-- Bytes copied behind the first `off`, whatever they are. -/
theorem copyAt_eq_ok {dst : Vector UInt8 cap} {off n : Nat} {src : List UInt8}
    (hread : n ≤ src.length) (hwrite : off + n ≤ cap) :
    ∃ dst', copyAt dst off src n = .ok dst' ∧
      dst'.toList.take (off + n) = dst.toList.take off ++ src.take n := by
  have hfront : (dst.toList.take off).length = off := by
    rw [List.length_take, Vector.length_toList]
    omega
  have hlen : (dst.toList.take off ++ src.take n).length = off + n := by
    rw [List.length_append, hfront, List.length_take, Nat.min_eq_left hread]
  have hcopy := @copyAt_overlay cap dst (dst.toList.take off) src n hread (by rwa [hfront])
  rw [overlay_take, hfront] at hcopy
  have htake := take_toList_overlay dst (hlen.trans_le hwrite)
  rw [hlen] at htake
  exact ⟨_, hcopy, htake⟩

/-- Storing the byte behind the first ones. -/
theorem put_overlay {dst : Vector UInt8 cap} {src : List UInt8} (b : UInt8)
    (h : src.length < cap) :
    put (overlay dst src) src.length b = .ok (overlay dst (src ++ [b])) := by
  rw [put, dif_pos h]
  congr 1
  apply Vector.ext
  intro i hi
  rw [Vector.getElem_set, getElem_overlay _ _ hi, getElem_overlay _ _ hi]
  -- below the new byte the old ones, above it what the array held
  rcases Nat.lt_trichotomy i src.length with hlt | rfl | hgt
  · rw [if_neg (by omega), dif_pos hlt, dif_pos (by simp; omega), List.getElem_append_left hlt]
  · rw [if_pos rfl, dif_pos (by simp), List.getElem_append_right (by omega)]
    simp
  · rw [if_neg (by omega), dif_neg (by omega), dif_neg (by simp; omega)]

/-- The first bytes do not depend on what the array held. -/
theorem overlay_congr {dst dst' : Vector UInt8 cap} {src : List UInt8} {i : Fin cap}
    (h : i.val < src.length) : (overlay dst src).get i = (overlay dst' src).get i := by
  simp [overlay, h]

end Checked
