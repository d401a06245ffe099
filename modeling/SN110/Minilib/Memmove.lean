import Mathlib.Logic.Function.Basic
import Mathlib.Data.Nat.Basic

/-!
# Copying memory (`memcpy`, `memmove`)

The loops as they run, a byte at a time, on a memory in which the two ranges may overlap. A range
does not reach around the end of the address space.

* `copyUp_eq`: the upward loop. Where it has overwritten its own source it repeats what came
  before.
* `memmove_copies`: `memmove` copies, however the ranges lie.
* `memcpy_copies_iff`: `memcpy` copies unless its destination starts inside its source.
-/

namespace SN110

/-! ## The code -/

/-- `while (n--) *d++ = *s++;`. -/
def copyUp (m : Nat → UInt8) (d s : Nat) : Nat → Nat → UInt8
  | 0 => m
  | n + 1 => copyUp (Function.update m d (m s)) (d + 1) (s + 1) n

/-- `while (n--) *--d = *--s;`. -/
def copyDown (m : Nat → UInt8) (d s : Nat) : Nat → Nat → UInt8
  | 0 => m
  | n + 1 => copyDown (Function.update m (d - 1) (m (s - 1))) (d - 1) (s - 1) n

/-- `memcpy`. -/
def memcpy (m : Nat → UInt8) (dst src n : Nat) : Nat → UInt8 := copyUp m dst src n

/-- `memmove`. -/
def memmove (m : Nat → UInt8) (dst src n : Nat) : Nat → UInt8 :=
  if dst < src then copyUp m dst src n else copyDown m (dst + n) (src + n) n

/-- The range at `dst` with what the range at `src` held. -/
def copied (m : Nat → UInt8) (dst src n : Nat) : Nat → UInt8 :=
  fun x => if dst ≤ x ∧ x < dst + n then m (src + (x - dst)) else m x

/-! ## The loops -/

/-- The next byte of a repeated piece of `gap` bytes: the first of them again, or the one behind the
last. -/
theorem succ_mod_cases {gap : Nat} (hgap : 0 < gap) (k : Nat) :
    (k + 1) % gap = 0 ∧ k % gap + 1 = gap ∨ (k + 1) % gap = k % gap + 1 ∧ k % gap + 1 < gap := by
  have hlt := Nat.mod_lt k hgap
  rcases Nat.lt_or_ge (k % gap + 1) gap with hless | hmore
  · right
    refine ⟨?_, hless⟩
    rw [Nat.add_mod, Nat.mod_eq_of_lt (show 1 < gap by omega), Nat.mod_eq_of_lt hless]
  · left
    have hfull : k % gap + 1 = gap := by omega
    refine ⟨?_, hfull⟩
    rw [← Nat.mod_add_div k gap, Nat.add_right_comm, hfull, Nat.add_mul_mod_self_left, Nat.mod_self]

/-- **The upward loop**: from `gap` bytes behind its source it repeats these `gap` bytes. -/
theorem copyUp_eq (m : Nat → UInt8) (d s n x : Nat) :
    copyUp m d s n x =
      if d ≤ x ∧ x < d + n then
        if s < d then m (s + (x - d) % (d - s)) else m (s + (x - d))
      else m x := by
  induction n generalizing m d s with
  | zero => rw [if_neg (by omega), copyUp]
  | succ n ih =>
    rw [copyUp, ih]
    by_cases hfirst : x = d
    · -- the byte stored first is not stored again
      subst hfirst
      rw [if_neg (by omega), if_pos (by omega), Function.update_self, Nat.sub_self, Nat.zero_mod,
        Nat.add_zero, ite_self]
    by_cases hin : d ≤ x ∧ x < d + (n + 1)
    · rw [if_pos (by omega), if_pos hin]
      -- with the source behind, what is read may have been stored before, every `d - s` bytes
      by_cases hbehind : s < d
      · rw [if_pos (by omega), if_pos hbehind, show d + 1 - (s + 1) = d - s by omega]
        obtain ⟨k, hk⟩ : ∃ k, x = d + 1 + k := ⟨x - (d + 1), by omega⟩
        rw [hk, Nat.add_sub_cancel_left, show d + 1 + k - d = k + 1 by omega]
        rcases succ_mod_cases (show 0 < d - s by omega) k with ⟨hnext, hlast⟩ | ⟨hnext, hless⟩
        · -- the byte read is the one that has been stored first
          rw [hnext, show s + 1 + k % (d - s) = d by omega, Function.update_self, Nat.add_zero]
        · rw [hnext, Function.update_of_ne (by omega), Nat.add_assoc, Nat.add_comm 1]
      · rw [if_neg (by omega), if_neg hbehind, Function.update_of_ne (by omega)]
        congr 1
        omega
    · rw [if_neg (by omega), if_neg hin, Function.update_of_ne hfirst]

/-- **The downward loop** copies to where its source starts, or behind that. -/
theorem copyDown_eq (m : Nat → UInt8) {d s : Nat} (h : s ≤ d) (n : Nat) :
    copyDown m (d + n) (s + n) n = copied m d s n := by
  induction n generalizing m with
  | zero =>
    funext x
    rw [copyDown, copied, if_neg (by omega)]
  | succ n ih =>
    rw [copyDown, show d + (n + 1) - 1 = d + n by omega, show s + (n + 1) - 1 = s + n by omega, ih]
    funext x
    unfold copied
    by_cases hlast : x = d + n
    · subst hlast
      rw [if_neg (by omega), if_pos (by omega), Function.update_self, Nat.add_sub_cancel_left]
    by_cases hin : d ≤ x ∧ x < d + n
    · -- what is still to be read lies in front of what has been stored
      rw [if_pos hin, if_pos (by omega), Function.update_of_ne (by omega)]
    · rw [if_neg hin, if_neg (by omega), Function.update_of_ne hlast]

/-! ## The functions -/

/-- **`memmove` copies**, however the two ranges lie to each other. -/
theorem memmove_copies (m : Nat → UInt8) (dst src n : Nat) :
    memmove m dst src n = copied m dst src n := by
  unfold memmove
  split_ifs with hbefore
  · funext x
    rw [copyUp_eq, copied, if_neg (show ¬ src < dst by omega)]
  · exact copyDown_eq m (Nat.le_of_not_lt hbefore) n

/-- **When `memcpy` copies**: unless the destination starts inside the source. -/
theorem memcpy_copies_iff (dst src n : Nat) :
    (∀ m, memcpy m dst src n = copied m dst src n) ↔ dst ≤ src ∨ src + n ≤ dst := by
  constructor
  · intro h
    by_contra hinside
    obtain ⟨hbehind, hoverlap⟩ := not_or.mp hinside
    -- the first byte of the destination has been overwritten when it comes to be read
    have hbyte := congrFun (h fun x => if x = dst then 1 else 0) (dst + (dst - src))
    rw [memcpy, copyUp_eq, copied, Nat.add_sub_cancel_left, Nat.mod_self, if_pos (by omega),
      if_pos (by omega), if_neg (by omega), if_pos (by omega), if_pos (by omega)] at hbyte
    exact absurd hbyte (by decide)
  · intro h m
    funext x
    rw [memcpy, copyUp_eq, copied]
    by_cases hin : dst ≤ x ∧ x < dst + n
    · rw [if_pos hin, if_pos hin]
      by_cases hbehind : src < dst
      · rw [if_pos hbehind, Nat.mod_eq_of_lt (by omega)]
      · rw [if_neg hbehind]
    · rw [if_neg hin, if_neg hin]

end SN110
