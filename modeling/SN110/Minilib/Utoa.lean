import SN110.Minilib.Text
import SN110.Lib.Checked
import Mathlib.Data.Nat.Digits.Lemmas

/-!
# Printing a number (`_utoa`)

`_utoa` as its loops run: a decimal digit is counted by subtracting its place value, and the digits
of another base come out the lowest first into a scratch array and are copied back. Every store and
every load is checked. `utoa` of `Minilib.Text` is the decimal text without the loops.

* `subtractPlace_eq`: the subtractions are a division.
* `decimalLoop_eq` and `hexLoop_eq`: what has been stored after a number of rounds.
* `utoaInto_ten` and `utoaInto_sixteen`: `_utoa` writes the `radixText`, the digits of the
  number without leading zeros (`representsNumber_radixText`).
-/

namespace SN110

open Checked Memory Positional

/-- A place value of the table; subtracting it makes a number smaller. -/
abbrev PlaceValue := {p : UInt32 // 0 < p}

/-- `pow10`, as the loop uses it. -/
def pow10Places : List PlaceValue :=
  [⟨1000000000, by decide⟩, ⟨100000000, by decide⟩, ⟨10000000, by decide⟩, ⟨1000000, by decide⟩,
    ⟨100000, by decide⟩, ⟨10000, by decide⟩, ⟨1000, by decide⟩, ⟨100, by decide⟩, ⟨10, by decide⟩,
    ⟨1, by decide⟩]

/-- The string `digits`. -/
def digitChars (uppercase : Bool) : List UInt8 :=
  if uppercase then ascii "0123456789ABCDEF" else ascii "0123456789abcdef"

/-- A base that a number gets smaller by; the callers give 10 and 16. -/
abbrev Base := {b : UInt32 // 2 ≤ b}

abbrev Base.ten : Base := ⟨10, by decide⟩
abbrev Base.sixteen : Base := ⟨16, by decide⟩

/-- `while (val >= pow10[p]) { val -= pow10[p]; d++; }`. -/
def subtractPlace (p : PlaceValue) (val d : UInt32) : UInt32 × UInt32 :=
  if p.1 ≤ val then subtractPlace p (val - p.1) (d + 1) else (val, d)
termination_by val.toNat
decreasing_by
  rename_i hle
  have hpos : 0 < p.1.toNat := UInt32.lt_iff_toNat_lt.mp p.2
  rw [UInt32.toNat_sub_of_le _ _ hle]
  have := UInt32.le_iff_toNat_le.mp hle
  omega

section Loops

variable {cap : Nat}

/-- The loop over the places: `i` digits have been stored in `buf`. -/
def decimalLoop : List PlaceValue → UInt32 → Bool → Vector UInt8 cap → Nat →
    Except Fault (Vector UInt8 cap × Nat)
  | [], _, _, buf, i => .ok (buf, i)
  | p :: ps, val, started, buf, i =>
    let (val, d) := subtractPlace p val 0
    if d ≠ 0 ∨ started = true then do
      let buf ← put buf i (48 + d.toUInt8)
      decimalLoop ps val true buf (i + 1)
    else decimalLoop ps val started buf i

/-- The loop for base 16, by shift and mask. -/
def hexLoop (digits : List UInt8) (val : UInt32) (tmp : Vector UInt8 cap) (i : Nat) :
    Except Fault (Vector UInt8 cap × Nat) :=
  if val = 0 then .ok (tmp, i)
  else do
    let c ← fetch digits (val &&& 0xf).toNat
    let tmp ← put tmp i c
    hexLoop digits (val >>> 4) tmp (i + 1)
termination_by val.toNat
decreasing_by
  rename_i hne
  have hpos : val.toNat ≠ 0 := fun h => hne (UInt32.toNat_inj.mp h)
  have hshift : (val >>> 4).toNat = val.toNat / 16 := by
    rw [UInt32.toNat_shiftRight]
    exact Nat.shiftRight_eq_div_pow val.toNat 4
  omega

/-- The loop for any other base, by division. -/
def baseLoop (digits : List UInt8) (base : Base) (val : UInt32) (tmp : Vector UInt8 cap) (i : Nat) :
    Except Fault (Vector UInt8 cap × Nat) :=
  if val = 0 then .ok (tmp, i)
  else do
    let c ← fetch digits (val % base.1).toNat
    let tmp ← put tmp i c
    baseLoop digits base (val / base.1) tmp (i + 1)
termination_by val.toNat
decreasing_by
  rename_i hne
  have hpos : val.toNat ≠ 0 := fun h => hne (UInt32.toNat_inj.mp h)
  have hbase : 2 ≤ base.1.toNat := UInt32.le_iff_toNat_le.mp base.2
  rw [UInt32.toNat_div]
  exact Nat.div_lt_self (Nat.pos_of_ne_zero hpos) hbase

/-- `while (n > 0) buf[i++] = tmp[--n];`. -/
def copyBack {scratch : Nat} (tmp : Vector UInt8 scratch) : Nat → Vector UInt8 cap → Nat →
    Except Fault (Vector UInt8 cap × Nat)
  | 0, buf, i => .ok (buf, i)
  | n + 1, buf, i => do
    let c ← fetch tmp.toList n
    let buf ← put buf i c
    copyBack tmp n buf (i + 1)

/-- `_utoa`: what the caller's buffer holds afterwards, and the number of characters written.
`tmp` is the scratch array, whatever it holds at the start. -/
def utoaInto (tmp : Vector UInt8 12) (val : UInt32) (buf : Vector UInt8 cap) (base : Base)
    (uppercase : Bool) : Except Fault (Vector UInt8 cap × Nat) :=
  if val = 0 then do
    let buf ← put buf 0 48
    .ok (buf, 1)
  else if base = Base.ten then decimalLoop pow10Places val false buf 0
  else do
    let (tmp, n) ←
      if base = Base.sixteen then hexLoop (digitChars uppercase) val tmp 0
      else baseLoop (digitChars uppercase) base val tmp 0
    copyBack tmp n buf 0

end Loops

/-- The text of a number in a base: its digits, the highest first, and a single 0 for zero. -/
def radixText (b : Nat) (uppercase : Bool) (n : Nat) : List UInt8 :=
  if n = 0 then [48]
  else (Nat.digits b n).reverse.map fun d => load (digitChars uppercase) d

/-! ## The loops -/

/-- Subtracting the place as often as possible leaves the remainder and counts the quotient. -/
theorem subtractPlace_eq (p : PlaceValue) (val d : UInt32) :
    subtractPlace p val d = (val % p.1, d + val / p.1) := by
  have hpos : 0 < p.1.toNat := UInt32.lt_iff_toNat_lt.mp p.2
  fun_induction subtractPlace p val d with
  -- one subtraction leaves the quotient one less and the same rest
  | case1 val d hle ih =>
    have hle' := UInt32.le_iff_toNat_le.mp hle
    have hlt := val.toNat_lt
    have hrest : (val - p.1).toNat = val.toNat - p.1.toNat := UInt32.toNat_sub_of_le _ _ hle
    have hdiv : val.toNat / p.1.toNat = (val.toNat - p.1.toNat) / p.1.toNat + 1 :=
      Nat.div_eq_sub_div hpos hle'
    have hquot : 1 + (val - p.1) / p.1 = val / p.1 := by
      apply UInt32.toNat_inj.mp
      have hbound := Nat.div_le_self val.toNat p.1.toNat
      rw [UInt32.toNat_add, UInt32.toNat_div, UInt32.toNat_div, hrest]
      rw [hdiv] at hbound ⊢
      generalize (val.toNat - p.1.toNat) / p.1.toNat = quot at hbound ⊢
      show (1 + quot) % 2 ^ 32 = quot + 1
      omega
    rw [ih, UInt32.add_assoc, hquot]
    refine Prod.ext ?_ rfl
    apply UInt32.toNat_inj.mp
    show ((val - p.1) % p.1).toNat = (val % p.1).toNat
    rw [UInt32.toNat_mod, UInt32.toNat_mod, hrest, ← Nat.mod_eq_sub_mod hle']
  | case2 val d hnot =>
    have hlt : val.toNat < p.1.toNat := UInt32.lt_iff_toNat_lt.mp (UInt32.not_le.mp hnot)
    refine Prod.ext ?_ ?_
    · apply UInt32.toNat_inj.mp
      show val.toNat = (val % p.1).toNat
      rw [UInt32.toNat_mod, Nat.mod_eq_of_lt hlt]
    · have hzero : val / p.1 = 0 := by
        apply UInt32.toNat_inj.mp
        rw [UInt32.toNat_div, Nat.div_eq_of_lt hlt]
        rfl
      show d = d + val / p.1
      rw [hzero, UInt32.add_zero]

section

variable {cap : Nat} {buf : Vector UInt8 cap} {out : List UInt8}

/-- The digit that the loop stores. -/
theorem digit_toUInt8 (d : UInt32) : 48 + d.toUInt8 = digitChar d.toNat := by
  apply UInt8.toNat_inj.mp
  rw [UInt8.toNat_add, digitChar, UInt8.toNat_ofNat', UInt32.toNat_toUInt8]
  show (48 + d.toNat % 2 ^ 8) % 2 ^ 8 = (48 + d.toNat) % 2 ^ 8
  omega

/-- A round for each place: what is stored are the digits. -/
theorem decimalLoop_eq (ps : List PlaceValue) (val : UInt32) (started : Bool)
    (hcap : out.length + ps.length ≤ cap) :
    decimalLoop ps val started (overlay buf out) out.length
      = .ok (overlay buf (out ++
          (digits started val.toNat (ps.map fun p => p.1.toNat)).map digitChar),
          out.length + (digits started val.toNat (ps.map fun p => p.1.toNat)).length) := by
  induction ps generalizing val started out with
  | nil => simp [decimalLoop, digits]
  | cons p ps ih =>
    rw [List.length_cons] at hcap
    have hquot : (0 + val / p.1 : UInt32) = val / p.1 := UInt32.zero_add _
    have hstored : val / p.1 ≠ 0 ↔ val.toNat / p.1.toNat ≠ 0 := by
      rw [← UInt32.toNat_div, ne_eq, ne_eq, ← UInt32.toNat_inj]
      rfl
    unfold decimalLoop
    rw [subtractPlace_eq, hquot]
    dsimp only
    rw [List.map_cons, digits]
    -- a leading zero is not stored
    by_cases hdigit : val.toNat / p.1.toNat ≠ 0 ∨ started = true
    · -- the digit is stored, and the rest of the places behind it
      have hnext := @ih (out ++ [digitChar (val.toNat / p.1.toNat)]) (val % p.1) true
        (by rw [List.length_append, List.length_singleton]; omega)
      rw [List.length_append, List.length_singleton] at hnext
      rw [if_pos hdigit, if_pos (by rwa [hstored]), put_overlay _ (by omega), ok_bind,
        digit_toUInt8, UInt32.toNat_div, hnext, UInt32.toNat_mod]
      simp [Nat.add_assoc, Nat.add_comm 1]
    · have hnext := @ih out (val % p.1) started (by omega)
      have hstarted : started = false := by simpa using fun h => hdigit (Or.inr h)
      rw [if_neg hdigit, if_neg (by rwa [hstored]), hnext, UInt32.toNat_mod, hstarted]

/-- The digits of a number below the base, one after the other. -/
theorem load_digitChars {d : Nat} (uppercase : Bool) (h : d < 10) :
    load (digitChars uppercase) d = digitChar d := by
  revert d
  cases uppercase <;> decide

theorem length_digitChars (uppercase : Bool) : (digitChars uppercase).length = 16 := by
  cases uppercase <;> decide

/-- The rounds of the loop store the digits, the lowest first. -/
theorem hexLoop_eq (uppercase : Bool) (val : UInt32)
    (hcap : out.length + (Nat.digits 16 val.toNat).length ≤ cap) :
    hexLoop (digitChars uppercase) val (overlay buf out) out.length
      = .ok (overlay buf (out ++
          (Nat.digits 16 val.toNat).map fun d => load (digitChars uppercase) d),
          out.length + (Nat.digits 16 val.toNat).length) := by
  induction hval : val.toNat using Nat.strong_induction_on generalizing val out with
  | _ n ih =>
    subst hval
    by_cases hzero : val = 0
    · subst hzero
      unfold hexLoop
      simp
    · have hpos : 0 < val.toNat :=
        Nat.pos_of_ne_zero fun h => hzero (UInt32.toNat_inj.mp h)
      have hmask : (val &&& 0xf).toNat = val.toNat % 16 := by
        rw [UInt32.toNat_and]
        exact Nat.and_two_pow_sub_one_eq_mod val.toNat 4
      have hshift : (val >>> 4).toNat = val.toNat / 16 := by
        rw [UInt32.toNat_shiftRight]
        exact Nat.shiftRight_eq_div_pow val.toNat 4
      have hdigits := Nat.digits_def' (show 1 < 16 by decide) hpos
      rw [hdigits, List.length_cons] at hcap
      -- the lowest digit is stored, and the others behind it
      have hnext := @ih (val >>> 4).toNat (by omega)
        (out ++ [load (digitChars uppercase) (val.toNat % 16)]) (val >>> 4)
        (by rw [List.length_append, List.length_singleton, hshift]; omega) rfl
      rw [List.length_append, List.length_singleton, hshift] at hnext
      unfold hexLoop
      rw [if_neg hzero, hmask, fetch_eq_ok (by rw [length_digitChars]; omega), ok_bind,
        put_overlay _ (by omega), ok_bind, hnext, hdigits]
      simp [Nat.add_assoc, Nat.add_comm 1]

/-- Copying back turns the order round. -/
theorem copyBack_eq {scratch : Nat} {tmp : Vector UInt8 scratch} {chars : List UInt8}
    (hscratch : chars.length ≤ scratch) {n : Nat} (hn : n ≤ chars.length)
    (hcap : out.length + n ≤ cap) :
    copyBack (overlay tmp chars) n (overlay buf out) out.length
      = .ok (overlay buf (out ++ (chars.take n).reverse), out.length + n) := by
  induction n generalizing out with
  | zero => simp [copyBack]
  | succ n ih =>
    have hlast : load (overlay tmp chars).toList n = chars[n] := by
      rw [load_eq_getElem (by rw [Vector.length_toList]; omega), Vector.getElem_toList,
        getElem_overlay _ _ (by omega), dif_pos (by omega)]
    have hnext := @ih (out ++ [chars[n]]) (by omega)
      (by rw [List.length_append, List.length_singleton]; omega)
    rw [List.length_append, List.length_singleton] at hnext
    unfold copyBack
    rw [fetch_eq_ok (by rw [Vector.length_toList]; omega), ok_bind, hlast,
      put_overlay _ (by omega), ok_bind, hnext, List.take_succ_eq_append_getElem (by omega),
      List.reverse_append, List.reverse_singleton, List.append_assoc, Nat.add_assoc,
      Nat.add_comm 1]

end

/-! ## `_utoa` -/

section

variable {cap : Nat}

theorem radixText_ten {n : Nat} (h : n < 10 ^ 10) (uppercase : Bool) :
    radixText 10 uppercase n = utoa n := by
  unfold radixText utoa
  split_ifs with hzero
  · rfl
  · rw [pow10_eq, digits_eq_reverse (by decide) h]
    refine List.map_congr_left fun d hd => load_digitChars uppercase ?_
    exact Nat.digits_lt_base (by decide) (List.mem_reverse.mp hd)

theorem length_radixText_le {b k n : Nat} (hb : 1 < b) (hk : 0 < k) (h : n < b ^ k)
    (uppercase : Bool) : (radixText b uppercase n).length ≤ k := by
  unfold radixText
  split_ifs
  · exact hk
  · rw [List.length_map, List.length_reverse, Nat.digits_length_le_iff hb]
    exact h

/-- The text is the number in base `b`: its digits make it up, and only the number 0 starts with
a 0. -/
def RepresentsNumber (b : Nat) (uppercase : Bool) (n : Nat) (text : List UInt8) : Prop :=
  ∃ ds : List Nat, text = ds.map (fun d => load (digitChars uppercase) d) ∧ (∀ d ∈ ds, d < b) ∧
    horner b 0 ds = n ∧ ds ≠ [] ∧ (ds.head? = some 0 → ds = [0])

theorem representsNumber_radixText {b : Nat} (hb : 1 < b) (uppercase : Bool) (n : Nat) :
    RepresentsNumber b uppercase n (radixText b uppercase n) := by
  unfold radixText
  split_ifs with hzero
  · refine ⟨[0], ?_, by simpa using Nat.lt_trans Nat.zero_lt_one hb, ?_, by simp, fun _ => rfl⟩
    · rw [List.map_singleton, load_digitChars uppercase (by decide)]
      rfl
    · rw [hzero, horner_cons, Nat.zero_mul]
      rfl
  · have hne : Nat.digits b n ≠ [] := Nat.digits_ne_nil_iff_ne_zero.mpr hzero
    refine ⟨(Nat.digits b n).reverse, rfl, fun d hd => ?_, ?_, by simpa using hne, fun hhead => ?_⟩
    · exact Nat.digits_lt_base hb (List.mem_reverse.mp hd)
    · rw [← ofDigits_reverse, List.reverse_reverse, Nat.ofDigits_digits]
    · -- the highest digit is not 0
      rw [List.head?_reverse, List.getLast?_eq_some_getLast hne] at hhead
      exact absurd (Option.some.inj hhead) (Nat.getLast_digit_ne_zero b hzero)

/-- In base 10. -/
theorem utoaInto_ten (tmp : Vector UInt8 12) (val : UInt32) (buf : Vector UInt8 cap)
    (hcap : 10 ≤ cap) (uppercase : Bool) :
    utoaInto tmp val buf Base.ten uppercase
      = .ok (overlay buf (radixText 10 uppercase val.toNat),
          (radixText 10 uppercase val.toNat).length) := by
  have hlt : val.toNat < 10 ^ 10 := Nat.lt_trans val.toNat_lt (by decide)
  have hput := @put_overlay cap buf [] 48 (by simp; omega)
  have hloop := @decimalLoop_eq cap buf [] pow10Places val false
    (show 0 + 10 ≤ cap by omega)
  rw [overlay_nil] at hput hloop
  rw [radixText_ten hlt]
  unfold utoaInto utoa
  by_cases hzero : val = 0
  · subst hzero
    rw [if_pos rfl, show put buf 0 48 = _ from hput]
    rfl
  · have hne : val.toNat ≠ 0 := fun h => hzero (UInt32.toNat_inj.mp h)
    rw [if_neg hzero, if_pos rfl, if_neg hne, List.length_map]
    refine (show decimalLoop pow10Places val false buf 0 = _ from hloop).trans ?_
    simp [show (pow10Places.map fun p => p.1.toNat) = pow10 by decide]

/-- In base 16, through the scratch array. -/
theorem utoaInto_sixteen (tmp : Vector UInt8 12) (val : UInt32) (buf : Vector UInt8 cap)
    (hcap : 8 ≤ cap) (uppercase : Bool) :
    utoaInto tmp val buf Base.sixteen uppercase
      = .ok (overlay buf (radixText 16 uppercase val.toNat),
          (radixText 16 uppercase val.toNat).length) := by
  have hlength : (Nat.digits 16 val.toNat).length ≤ 8 :=
    (Nat.digits_length_le_iff (by decide) val.toNat).mpr val.toNat_lt
  have hput := @put_overlay cap buf [] 48 (by simp; omega)
  -- the digits are made from the lowest into `tmp` and copied back
  have hloop := @hexLoop_eq 12 tmp [] uppercase val (by simp; omega)
  have hback := @copyBack_eq cap buf [] 12 tmp
    ((Nat.digits 16 val.toNat).map fun d => load (digitChars uppercase) d)
    (by rw [List.length_map]; omega) (Nat.digits 16 val.toNat).length
    (by rw [List.length_map]) (by simp; omega)
  rw [overlay_nil] at hput hloop hback
  unfold utoaInto radixText
  by_cases hzero : val = 0
  · subst hzero
    rw [if_pos rfl, show put buf 0 48 = _ from hput]
    rfl
  · have hne : val.toNat ≠ 0 := fun h => hzero (UInt32.toNat_inj.mp h)
    rw [if_neg hzero, if_neg (by decide), if_pos rfl, if_neg hne,
      show hexLoop (digitChars uppercase) val tmp 0 = _ from hloop, ok_bind]
    dsimp only
    rw [List.nil_append, List.length_nil, Nat.zero_add]
    refine (show copyBack _ _ buf 0 = _ from hback).trans ?_
    rw [List.take_of_length_le (by rw [List.length_map])]
    simp

end

end SN110
