import Mathlib.Data.List.Basic
import Mathlib.Data.List.GetD

/-!
# Byte buffers

A buffer is a list of bytes read and written by position, as C code does with `buf[i]` and
`memcpy(buf + off, src, n)`. A store outside the buffer is dropped and a load outside it
reads 0, so both are total. The rules below resolve a load through any chain of stores:
`load_store_self` inside the stored range, `load_store_before` in front of it. Big-endian
16- and 32-bit fields are stores and loads of two and four bytes.
-/

namespace Memory

/-- The byte at `i`. -/
def load (buf : List UInt8) (i : Nat) : UInt8 := buf.getD i 0

/-- `buf` with the bytes of `src` placed at `off`. -/
def store (buf : List UInt8) (off : Nat) (src : List UInt8) : List UInt8 :=
  buf.mapIdx fun i b => if off ≤ i ∧ i < off + src.length then load src (i - off) else b

@[simp] theorem length_store (buf : List UInt8) (off : Nat) (src : List UInt8) :
    (store buf off src).length = buf.length := by
  simp [store]

theorem load_eq_getElem {buf : List UInt8} {i : Nat} (h : i < buf.length) :
    load buf i = buf[i] := List.getD_eq_getElem buf 0 h

theorem load_of_length_le {buf : List UInt8} {i : Nat} (h : buf.length ≤ i) :
    load buf i = 0 := List.getD_eq_default buf 0 h

theorem load_append (xs ys : List UInt8) (i : Nat) :
    load (xs ++ ys) i = if i < xs.length then load xs i else load ys (i - xs.length) := by
  split_ifs with hi
  · exact List.getD_append xs ys 0 i hi
  · exact List.getD_append_right xs ys 0 i (Nat.le_of_not_lt hi)

/-- After a store the bytes stored are loaded where they were stored, the old ones elsewhere. -/
theorem load_store (buf : List UInt8) (off : Nat) (src : List UInt8) (i : Nat) :
    load (store buf off src) i =
      if off ≤ i ∧ i < off + src.length ∧ i < buf.length then load src (i - off)
      else load buf i := by
  -- inside the buffer the store decides the byte; past its end both loads read 0
  by_cases hi : i < buf.length
  · have hi' : i < (store buf off src).length := by simpa using hi
    rw [load_eq_getElem hi']
    simp only [store, List.getElem_mapIdx, ← load_eq_getElem hi, hi, and_true]
  · rw [if_neg (by omega), load_of_length_le (by simpa using Nat.le_of_not_lt hi),
      load_of_length_le (Nat.le_of_not_lt hi)]

/-- A load before a store is not touched by it. -/
theorem load_store_before {buf : List UInt8} {off : Nat} {src : List UInt8} {i : Nat}
    (h : i < off) : load (store buf off src) i = load buf i := by
  rw [load_store, if_neg (by omega)]

/-- A load inside a store gives what was stored. -/
theorem load_store_self {buf : List UInt8} {off : Nat} {src : List UInt8} {i : Nat}
    (hlo : off ≤ i) (hhi : i < off + src.length) (hin : i < buf.length) :
    load (store buf off src) i = load src (i - off) := by
  rw [load_store, if_pos ⟨hlo, hhi, hin⟩]

/-- A cleared buffer is filled from its start. -/
theorem store_next {done src : List UInt8} {n off : Nat} (hoff : done.length = off)
    (hsrc : src.length ≤ n) :
    store (done ++ List.replicate n 0) off src
      = done ++ src ++ List.replicate (n - src.length) 0 := by
  subst hoff
  apply List.ext_getElem
  · simp
    omega
  · intro i hi hi'
    rw [← load_eq_getElem hi, ← load_eq_getElem hi', load_store, load_append, load_append,
      load_append, List.length_append, List.length_append, List.length_replicate]
    rw [length_store, List.length_append, List.length_replicate] at hi
    -- what is in front, what is stored, and the zeros behind it
    rcases Nat.lt_or_ge i done.length with hlt | hge
    · rw [if_neg (by omega), if_pos hlt, if_pos (by omega), if_pos hlt]
    · by_cases hin : i < done.length + src.length
      · rw [if_pos ⟨hge, hin, hi⟩, if_pos hin, if_neg (by omega)]
      · rw [if_neg (by omega), if_neg (by omega), if_neg hin, load, load,
          List.getD_replicate _ (by omega), List.getD_replicate _ (by omega)]

/-- The fields follow one another without a gap, the first of them at `off`. -/
def InRow : Nat → List (Nat × List UInt8) → Prop
  | _, [] => True
  | off, (start, src) :: fields => start = off ∧ InRow (off + src.length) fields

/-- Fields in a row fill a cleared buffer from its start. -/
theorem foldl_store_inRow {done : List UInt8} {n : Nat} {fields : List (Nat × List UInt8)}
    (hrow : InRow done.length fields) (hlen : (fields.flatMap Prod.snd).length ≤ n) :
    fields.foldl (fun buf field => store buf field.1 field.2) (done ++ List.replicate n 0)
      = done ++ fields.flatMap Prod.snd
        ++ List.replicate (n - (fields.flatMap Prod.snd).length) 0 := by
  induction fields generalizing done n with
  | nil => simp
  | cons field fields ih =>
    obtain ⟨off, src⟩ := field
    obtain ⟨hoff, hrow⟩ := hrow
    rw [List.flatMap_cons, List.length_append] at hlen
    rw [← List.length_append] at hrow
    rw [List.foldl_cons, store_next hoff.symm (by omega), ih hrow (by omega), List.flatMap_cons,
      List.length_append, ← List.append_assoc, Nat.sub_sub]

/-- Storing one byte. -/
def store8 (buf : List UInt8) (off : Nat) (v : UInt8) : List UInt8 := store buf off [v]

/-! ## Big-endian fields

A word is assembled with `+` where C code writes `|`: the shifted bytes do not overlap. -/

/-- The two bytes of a 16-bit word, high byte first. -/
def be16 (v : UInt16) : List UInt8 := [UInt8.ofNat (v.toNat >>> 8), UInt8.ofNat v.toNat]

/-- The four bytes of a 32-bit word, high byte first. -/
def be32 (v : UInt32) : List UInt8 :=
  [UInt8.ofNat (v.toNat >>> 24), UInt8.ofNat (v.toNat >>> 16), UInt8.ofNat (v.toNat >>> 8),
    UInt8.ofNat v.toNat]

/-- The four bytes of a 32-bit word, low byte first. -/
def le32 (v : UInt32) : List UInt8 :=
  [UInt8.ofNat v.toNat, UInt8.ofNat (v.toNat >>> 8), UInt8.ofNat (v.toNat >>> 16),
    UInt8.ofNat (v.toNat >>> 24)]

@[simp] theorem length_be16 (v : UInt16) : (be16 v).length = 2 := rfl

@[simp] theorem length_be32 (v : UInt32) : (be32 v).length = 4 := rfl

/-- The 16-bit word at `off`. -/
def load16 (buf : List UInt8) (off : Nat) : UInt16 :=
  UInt16.ofNat ((load buf off).toNat <<< 8 + (load buf (off + 1)).toNat)

/-- The little-endian 16-bit word at `off`. -/
def load16Le (buf : List UInt8) (off : Nat) : UInt16 :=
  UInt16.ofNat ((load buf off).toNat + (load buf (off + 1)).toNat <<< 8)

/-- The 32-bit word at `off`. -/
def load32 (buf : List UInt8) (off : Nat) : UInt32 :=
  UInt32.ofNat ((load buf off).toNat <<< 24 + (load buf (off + 1)).toNat <<< 16 +
    (load buf (off + 2)).toNat <<< 8 + (load buf (off + 3)).toNat)

/-- A 16-bit value is loaded back from its bytes. -/
theorem load16_be16 (v : UInt16) : load16 (be16 v) 0 = v := by
  apply UInt16.toNat_inj.mp
  have hv := v.toNat_lt
  simp only [load16, be16, load, List.getD_cons_zero, List.getD_cons_succ, UInt16.toNat_ofNat',
    UInt8.toNat_ofNat']
  omega

/-- A 32-bit value is loaded back from its bytes. -/
theorem load32_be32 (v : UInt32) : load32 (be32 v) 0 = v := by
  apply UInt32.toNat_inj.mp
  have hv := v.toNat_lt
  simp only [load32, be32, load, List.getD_cons_zero, List.getD_cons_succ, UInt32.toNat_ofNat',
    UInt8.toNat_ofNat']
  omega

/-- A stored 16-bit word is read back. -/
theorem load16_store_be16 {buf : List UInt8} {off : Nat} {v : UInt16}
    (h : off + 2 ≤ buf.length) : load16 (store buf off (be16 v)) off = v := by
  have h0 : load (store buf off (be16 v)) off = load (be16 v) 0 := by
    rw [load_store_self (by omega) (by simp) (by omega), Nat.sub_self]
  have h1 : load (store buf off (be16 v)) (off + 1) = load (be16 v) 1 := by
    rw [load_store_self (by omega) (by simp) (by omega), Nat.add_sub_cancel_left]
  conv_rhs => rw [← load16_be16 v]
  simp only [load16, h0, h1, Nat.zero_add]

/-- A stored 32-bit word is read back. -/
theorem load32_store_be32 {buf : List UInt8} {off : Nat} {v : UInt32}
    (h : off + 4 ≤ buf.length) : load32 (store buf off (be32 v)) off = v := by
  -- byte `k` of the field is byte `k` of the word, and the word read from those is `v`
  have hk : ∀ k < 4, load (store buf off (be32 v)) (off + k) = load (be32 v) k := by
    intro k hlt
    rw [load_store_self (by omega) (by simp; omega) (by omega), Nat.add_sub_cancel_left]
  conv_rhs => rw [← load32_be32 v]
  have h0 := hk 0 (by omega)
  simp only [Nat.add_zero] at h0
  simp only [load32, h0, hk 1 (by omega), hk 2 (by omega), hk 3 (by omega), Nat.zero_add]

theorem load16_store_before {buf : List UInt8} {off : Nat} {src : List UInt8} {i : Nat}
    (h : i + 2 ≤ off) : load16 (store buf off src) i = load16 buf i := by
  simp only [load16, load_store_before (show i < off by omega),
    load_store_before (show i + 1 < off by omega)]

theorem load32_store_before {buf : List UInt8} {off : Nat} {src : List UInt8} {i : Nat}
    (h : i + 4 ≤ off) : load32 (store buf off src) i = load32 buf i := by
  simp only [load32, load_store_before (show i < off by omega),
    load_store_before (show i + 1 < off by omega),
    load_store_before (show i + 2 < off by omega),
    load_store_before (show i + 3 < off by omega)]

/-- A stored byte is read back. -/
theorem load_store8 {buf : List UInt8} {off : Nat} {v : UInt8} (h : off < buf.length) :
    load (store8 buf off v) off = v := by
  rw [store8, load_store_self (Nat.le_refl _) (by simp) h, Nat.sub_self]
  rfl

theorem load_store8_before {buf : List UInt8} {off : Nat} {v : UInt8} {i : Nat}
    (h : i < off) : load (store8 buf off v) i = load buf i := load_store_before h

@[simp] theorem length_store8 (buf : List UInt8) (off : Nat) (v : UInt8) :
    (store8 buf off v).length = buf.length := length_store buf off [v]

end Memory
