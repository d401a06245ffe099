import Mathlib.Algebra.Ring.Nat
import Mathlib.Tactic.Ring
import Mathlib.Data.Nat.Init
import Mathlib.Data.Nat.Digits.Defs

/-!
# Positional notation by a table of place values

A number is written digit by digit: its quotient by each place value in turn, the places before
the first nonzero digit left out. Reading the digits back by Horner's rule gives the number
(`horner_digits`). They are the digits of `Nat.digits`, which come the other way round
(`digits_eq_reverse`).
-/

namespace Positional

/-- The place values of `k` digits in base `b`, the highest first. -/
def placeValues (b : Nat) : Nat → List Nat
  | 0 => []
  | k + 1 => b ^ k :: placeValues b k

/-- The digits of `val` at the given places. Nothing is written before the first nonzero digit,
unless the number has `started`. -/
def digits (started : Bool) (val : Nat) : List Nat → List Nat
  | [] => []
  | p :: ps =>
    if val / p ≠ 0 ∨ started = true then val / p :: digits true (val % p) ps
    else digits false (val % p) ps

/-- Reading digits in base `b` after the number `acc`. -/
def horner (b acc : Nat) (ds : List Nat) : Nat := ds.foldl (fun v d => v * b + d) acc

theorem horner_cons (b acc d : Nat) (ds : List Nat) :
    horner b acc (d :: ds) = horner b (acc * b + d) ds := rfl

variable {b : Nat}

/-- Reading on makes a number no smaller. -/
theorem le_horner (hb : 0 < b) (acc : Nat) (ds : List Nat) : acc ≤ horner b acc ds := by
  induction ds generalizing acc with
  | nil => exact Nat.le_refl acc
  | cons d ds ih =>
    rw [horner_cons]
    calc acc ≤ acc * b := Nat.le_mul_of_pos_right acc hb
      _ ≤ acc * b + d := Nat.le_add_right _ _
      _ ≤ horner b (acc * b + d) ds := ih _

theorem digits_lt (hb : 0 < b) {k val : Nat} (h : val < b ^ k) (started : Bool) :
    ∀ d ∈ digits started val (placeValues b k), d < b := by
  induction k generalizing val started with
  | zero => intro d hd; cases hd
  | succ k ih =>
    have hpos : 0 < b ^ k := Nat.pow_pos hb
    have hmod : val % b ^ k < b ^ k := Nat.mod_lt _ hpos
    intro d hd
    unfold placeValues digits at hd
    split_ifs at hd
    · -- the head is a quotient of a number below `b ^ (k + 1)`, the rest writes the remainder
      rcases List.mem_cons.mp hd with rfl | hd
      · exact Nat.div_lt_of_lt_mul (by rwa [Nat.pow_succ] at h)
      · exact ih hmod true d hd
    · exact ih hmod false d hd

/-- **Reading back.** The digits of a number that fits the places, read after `acc`, give `acc`
shifted by the places plus the number; before any digit is written `acc` is 0. -/
theorem horner_digits_started (hb : 0 < b) {k val : Nat} (h : val < b ^ k) (started : Bool)
    (acc : Nat) (hacc : started = false → acc = 0) :
    horner b acc (digits started val (placeValues b k)) = acc * b ^ k + val := by
  induction k generalizing val started acc with
  | zero =>
    rw [Nat.pow_zero, Nat.lt_one_iff] at h
    subst h
    simp [placeValues, digits, horner]
  | succ k ih =>
    have hpos : 0 < b ^ k := Nat.pow_pos hb
    have hmod : val % b ^ k < b ^ k := Nat.mod_lt _ hpos
    -- the induction is on the places; the quotient is this digit and the remainder the rest
    have hdiv : b ^ k * (val / b ^ k) + val % b ^ k = val := Nat.div_add_mod val (b ^ k)
    unfold placeValues digits
    split_ifs with hdigit
    · rw [horner_cons, ih hmod true _ (by simp)]
      calc (acc * b + val / b ^ k) * b ^ k + val % b ^ k
          = acc * b ^ (k + 1) + (b ^ k * (val / b ^ k) + val % b ^ k) := by
            rw [Nat.pow_succ]; ring
        _ = acc * b ^ (k + 1) + val := by rw [hdiv]
    · -- a place left out: the digit is 0 and nothing has been read
      rw [not_or, not_not] at hdigit
      obtain ⟨hzero, hstart⟩ := hdigit
      obtain rfl := hacc (by simpa using hstart)
      rw [ih hmod false 0 (fun _ => rfl)]
      rw [hzero, Nat.mul_zero, Nat.zero_add] at hdiv
      rw [hdiv, Nat.zero_mul, Nat.zero_mul]

theorem horner_digits (hb : 0 < b) {k val : Nat} (h : val < b ^ k) :
    horner b 0 (digits false val (placeValues b k)) = val := by
  rw [horner_digits_started hb h false 0 (fun _ => rfl), Nat.zero_mul, Nat.zero_add]

/-- A number of `k` places has at most `k` digits. -/
theorem length_digits_le (started : Bool) (val : Nat) (ps : List Nat) :
    (digits started val ps).length ≤ ps.length := by
  induction ps generalizing started val with
  | nil => exact Nat.le_refl 0
  | cons p ps ih =>
    unfold digits
    split_ifs
    · exact Nat.succ_le_succ (ih true _)
    · exact Nat.le_succ_of_le (ih false _)

/-- A nonzero number that fits the places has a digit. -/
theorem digits_ne_nil (hb : 0 < b) {k val : Nat} (h : val < b ^ k) (hval : val ≠ 0) :
    digits false val (placeValues b k) ≠ [] := by
  intro hnil
  have := horner_digits hb h
  rw [hnil] at this
  exact hval this.symm

/-! ## No leading zero -/

/-- The first digit written is not 0. -/
theorem head_digits_ne_zero (val : Nat) (ps : List Nat) :
    ∀ d ∈ (digits false val ps).head?, d ≠ 0 := by
  induction ps generalizing val with
  | nil => exact fun d hd => absurd hd (by simp [digits])
  | cons p ps ih =>
    unfold digits
    by_cases hdigit : val / p ≠ 0
    · rw [if_pos (Or.inl hdigit)]
      intro d hd
      obtain rfl : val / p = d := by simpa using hd
      exact hdigit
    · rw [if_neg (by simpa using hdigit)]
      exact ih (val % p)

/-- Horner's rule reads the highest digit first, `Nat.ofDigits` the lowest. -/
theorem ofDigits_reverse_append (ds : List Nat) (acc : Nat) :
    Nat.ofDigits b (ds.reverse ++ [acc]) = horner b acc ds := by
  induction ds generalizing acc with
  | nil => exact Nat.ofDigits_singleton
  | cons d ds ih =>
    rw [horner_cons, ← ih, List.reverse_cons, List.append_assoc, List.singleton_append,
      Nat.ofDigits_append, Nat.ofDigits_append, Nat.ofDigits_cons, Nat.ofDigits_singleton,
      Nat.ofDigits_singleton]
    ring

theorem ofDigits_reverse (ds : List Nat) : Nat.ofDigits b ds.reverse = horner b 0 ds := by
  rw [← ofDigits_reverse_append, Nat.ofDigits_append, Nat.ofDigits_singleton, Nat.mul_zero,
    Nat.add_zero]

/-- **The digits of a number** are those of `Nat.digits`, the highest first. -/
theorem digits_eq_reverse (hb : 1 < b) {k val : Nat} (h : val < b ^ k) :
    digits false val (placeValues b k) = (Nat.digits b val).reverse := by
  have hpos : 0 < b := Nat.lt_of_succ_lt hb
  have hvalue := Nat.digits_ofDigits b hb (digits false val (placeValues b k)).reverse
    (fun d hd => digits_lt hpos h false d (List.mem_reverse.mp hd)) (fun hne => ?_)
  · rw [ofDigits_reverse, horner_digits hpos h] at hvalue
    rw [hvalue, List.reverse_reverse]
  · -- the last digit of the reversed list is the first one written
    rw [List.getLast_reverse]
    exact head_digits_ne_zero val _ _ (List.head_mem_head? _)

end Positional
