import SN110.Cgi.Ranges

/-!
# Numbers that do not fit an `int`

The form's numbers are read by `atoi` and then clamped. `atoi` accumulates in an `int`, so what is
clamped is the number modulo `2 ^ 32` (`atoi_numeral`), and the arithmetic that goes beyond an `int`
is not even defined. `clampsTrueValue_iff` says for which numbers the clamped value is that of the
number itself.
-/

namespace SN110

open Positional

/-! ## `atoi` with its arithmetic checked -/

/-- An `int` of 32 bits. -/
def int32 (x : Int) : Option Int := if -2 ^ 31 ≤ x ∧ x < 2 ^ 31 then some x else none

/-- `while (*s >= '0' && *s <= '9') val = val * 10 + (*s++ - '0')`, if nothing overflows. -/
def atoiDigits (val : Int) : List UInt8 → Option Int
  | [] => some val
  | c :: s =>
    if isDigit c = true then do
      let product ← int32 (val * 10)
      let val ← int32 (product + (c.toNat - 48))
      atoiDigits val s
    else some val

/-- `atoi`, if nothing overflows. -/
def atoiChecked (s : List UInt8) : Option Int :=
  match s.dropWhile isBlank with
  | [] => some 0
  | c :: rest =>
    -- `-` and `+`
    if c = 45 then do
      let val ← atoiDigits 0 rest
      int32 (-val)
    else if c = 43 then atoiDigits 0 rest
    else atoiDigits 0 (c :: rest)

/-! ## Numerals -/

/-- The sign of a number. -/
inductive Sign where
  | none
  | plus
  | minus

def Sign.text : Sign → List UInt8
  | .none => []
  | .plus => ascii "+"
  | .minus => ascii "-"

def Sign.apply : Sign → Int → Int
  | .minus, n => -n
  | _, n => n

/-- A sign, if any, and digits. -/
def numeral (sign : Sign) (ds : List UInt8) : List UInt8 := sign.text ++ ds

/-- The number that it stands for. -/
def numeralValue (sign : Sign) (ds : List UInt8) : Int := sign.apply (digitsValue ds)

/-- The value stored for the text is the number clamped to the field's range, and it is found
without overflow; this is so for a value by itself and for one that a body gives the field last. -/
structure ClampsTrueValue (num : NumField) (text : List UInt8) (v : Int) : Prop where
  exact : ∃ val, atoiChecked text = some val
  stored : ∀ cfg, num.value (applyField cfg text num.field) = min (max v num.lo) num.hi
  posted : ∀ body cfg, formText body num.field = some text →
    num.value (parseFormdata body cfg) = min (max v num.lo) num.hi

section

variable {ds : List UInt8} (h : ∀ c ∈ ds, isDigit c = true)

include h

/-- The value stored is that of the number as an `int` that wraps around. -/
theorem atoi_numeral (sign : Sign) :
    atoi (numeral sign ds) = (numeralValue sign ds).bmod (2 ^ 32) := by
  have hvalue : (UInt32.ofNat (digitsValue ds)).toInt32.toInt
      = (digitsValue ds : Int).bmod (2 ^ 32) := by
    rw [UInt32.toInt32_ofNat', Int32.toInt_ofNat']
    rfl
  cases sign with
  | none =>
    show atoi ds = _
    rw [atoi_of_digits h, hvalue]
    rfl
  | plus =>
    show (decimalValue ds).toInt32.toInt = _
    rw [decimalValue_digits h, hvalue]
    rfl
  | minus =>
    show (-decimalValue ds).toInt32.toInt = (-(digitsValue ds : Int)).bmod (2 ^ 32)
    rw [decimalValue_digits h, UInt32.toInt32_neg, Int32.toInt_neg, hvalue, Int.bmod_neg_bmod]

/-- The loop overflows exactly when the number it comes to does not fit: no step makes it
smaller. -/
theorem atoiDigits_eq {acc : Nat} (hacc : acc < 2 ^ 31) :
    atoiDigits acc ds
      = if horner 10 acc (ds.map fun c => c.toNat - 48) < 2 ^ 31 then
          some (horner 10 acc (ds.map fun c => c.toNat - 48) : Int)
        else none := by
  induction ds generalizing acc with
  | nil => exact (if_pos hacc).symm
  | cons c ds ih =>
    obtain ⟨hc, hds⟩ := List.forall_mem_cons.mp h
    have hdigit : 48 ≤ c.toNat := by
      unfold isDigit at hc
      simp only [Bool.and_eq_true, decide_eq_true_eq] at hc
      exact UInt8.le_iff_toNat_le.mp hc.1
    have hstep : (acc : Int) * 10 + (c.toNat - 48) = ((acc * 10 + (c.toNat - 48) : Nat) : Int) := by
      omega
    -- the digits to come only make the value larger
    have hgrows := le_horner (show 0 < 10 by decide) (acc * 10 + (c.toNat - 48))
      (ds.map fun c => c.toNat - 48)
    show (if isDigit c = true then (int32 ((acc : Int) * 10)).bind fun product =>
        (int32 (product + (c.toNat - 48))).bind fun val => atoiDigits val ds
      else some (acc : Int)) = _
    rw [if_pos hc, List.map_cons, horner_cons]
    by_cases hfits : acc * 10 + (c.toNat - 48) < 2 ^ 31
    · rw [show int32 ((acc : Int) * 10) = some ((acc : Int) * 10) from if_pos (by omega),
        Option.bind_some, hstep,
        show int32 ((acc * 10 + (c.toNat - 48) : Nat) : Int) = some _ from if_pos (by omega),
        Option.bind_some]
      exact ih hds hfits
    · -- one of the two steps overflows, and what would follow is no smaller
      rw [if_neg (by omega)]
      by_cases hproduct : acc * 10 < 2 ^ 31
      · rw [show int32 ((acc : Int) * 10) = some ((acc : Int) * 10) from if_pos (by omega),
          Option.bind_some, hstep,
          show int32 ((acc * 10 + (c.toNat - 48) : Nat) : Int) = none from if_neg (by omega)]
        rfl
      · rw [show int32 ((acc : Int) * 10) = none from if_neg (by omega)]
        rfl

/-- **`atoi` is exact** for the numbers whose digits fit an `int`. -/
theorem atoiChecked_numeral (sign : Sign) :
    atoiChecked (numeral sign ds)
      = if digitsValue ds < 2 ^ 31 then some (numeralValue sign ds) else none := by
  have hloop : atoiDigits 0 ds = if digitsValue ds < 2 ^ 31 then some (digitsValue ds : Int)
      else none := @atoiDigits_eq ds h 0 (by decide)
  cases sign with
  | none =>
    cases ds with
    | nil => rfl
    | cons c ds =>
      -- a digit comes first, so nothing is skipped and there is no sign
      have hdigit : isDigit c = true := h c List.mem_cons_self
      have hblank := isBlank_of_isDigit hdigit
      show atoiChecked (c :: ds) = _
      unfold atoiChecked
      rw [List.dropWhile_cons_of_neg (by simp [hblank])]
      show (if c = 45 then _ else if c = 43 then _ else _) = _
      rw [if_neg (ne_of_isDigit hdigit (by decide)), if_neg (ne_of_isDigit hdigit (by decide)),
        hloop]
      rfl
  | plus => exact hloop
  | minus =>
    show (atoiDigits 0 ds).bind (fun val => int32 (-val)) = _
    rw [hloop]
    split_ifs with hfits
    · exact if_pos (by omega)
    · rfl

/-- **Where a number is clamped by its true value**: if its digits make up at most `2 ^ 31 - 1`. -/
theorem clampsTrueValue_iff (num : NumField) (sign : Sign) :
    ClampsTrueValue num (numeral sign ds) (numeralValue sign ds) ↔ digitsValue ds < 2 ^ 31 := by
  have hchecked := atoiChecked_numeral h sign
  constructor
  · intro hclamps
    obtain ⟨val, hval⟩ := hclamps.exact
    rw [hchecked] at hval
    split_ifs at hval with hfits
    exact hfits
  · intro hfits
    rw [if_pos hfits] at hchecked
    -- a number that fits is its own value as an `int`
    have hatoi : atoi (numeral sign ds) = numeralValue sign ds := by
      rw [atoi_numeral h]
      cases sign <;> exact Int.bmod_eq_of_le (by simp only [numeralValue, Sign.apply]; omega)
        (by simp only [numeralValue, Sign.apply]; omega)
    have hclamp : clamp (atoi (numeral sign ds)) num.lo num.hi
        = min (max (numeralValue sign ds) num.lo) num.hi := by
      have hbounds := num.bounds
      rw [hatoi, clamp]
      split_ifs <;> omega
    refine ⟨⟨_, hchecked⟩, fun cfg => ?_, fun body cfg htext => ?_⟩
    · rw [value_applyField, hclamp]
    · rw [value_parseFormdata, htext]
      exact hclamp

end

/-- The largest number that is clamped by its true value. -/
theorem clampsTrueValue_max :
    ClampsTrueValue .dmxHoldTime (numeral .minus (ascii "2147483647"))
      (numeralValue .minus (ascii "2147483647")) :=
  (@clampsTrueValue_iff (ascii "2147483647") (by decide) .dmxHoldTime .minus).mpr (by decide)

/-- `2 ^ 32 + 1` is stored as 1. -/
theorem wrappedUniverse_stored :
    (∀ cfg, (NumField.portUniverse 0).value
        (applyField cfg (numeral .none (ascii "4294967297")) (.portUniverse 0)) = 1) ∧
      ¬ ClampsTrueValue (.portUniverse 0) (numeral .none (ascii "4294967297"))
        (numeralValue .none (ascii "4294967297")) := by
  have hstored : ∀ cfg, (NumField.portUniverse 0).value
      (applyField cfg (numeral .none (ascii "4294967297")) (.portUniverse 0)) = 1 := by
    intro cfg
    have hclamp := value_applyField (.portUniverse 0) cfg (numeral .none (ascii "4294967297"))
    rw [show clamp (atoi (numeral .none (ascii "4294967297"))) (NumField.portUniverse 0).lo
      (NumField.portUniverse 0).hi = 1 by decide] at hclamp
    exact hclamp
  refine ⟨hstored, fun h => ?_⟩
  have htrue := h.stored configDefaults
  rw [show (NumField.portUniverse 0).field = .portUniverse 0 from rfl, hstored] at htrue
  exact absurd htrue (by decide)

end SN110
