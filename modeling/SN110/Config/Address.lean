import SN110.Config.Parse

/-!
# Addresses out of range (`parse_ip`)

The octets of an address are accumulated in 32-bit variables before `parse_ip` compares them with
255, so that a number of any length is compared modulo `2 ^ 32`. `octetsChecked_iff` says for which
numbers this is the comparison of the numbers themselves.
-/

namespace SN110

/-- A number as it stands in an address: one digit or more. -/
def IsNumber (s : List UInt8) : Prop := s ≠ [] ∧ ∀ c ∈ s, isDigit c = true

/-- The text `d1.d2.d3.d4`. -/
def dottedText (d1 d2 d3 d4 : List UInt8) : List UInt8 :=
  d1 ++ 46 :: d2 ++ 46 :: d3 ++ 46 :: d4

/-- The address with four octets. -/
def octetAddress (a b c d : Nat) : UInt32 :=
  UInt32.ofNat (a * 2 ^ 24 + b * 2 ^ 16 + c * 2 ^ 8 + d)

/-- `parse_ip` takes the four numbers as octets, and refuses them if one is no octet. -/
structure OctetsChecked (d1 d2 d3 d4 : List UInt8) : Prop where
  accepted : (∀ s ∈ [d1, d2, d3, d4], digitsValue s ≤ 255) →
    parseIp (dottedText d1 d2 d3 d4)
      = octetAddress (digitsValue d1) (digitsValue d2) (digitsValue d3) (digitsValue d4)
  refused : (∃ s ∈ [d1, d2, d3, d4], 255 < digitsValue s) →
    parseIp (dottedText d1 d2 d3 d4) = 0

/-! ## Four octets make an address -/

/-- Shifted octets do not overlap. -/
theorem toNat_join {a b c d : UInt32} (ha : a.toNat ≤ 255) (hb : b.toNat ≤ 255)
    (hc : c.toNat ≤ 255) (hd : d.toNat ≤ 255) :
    ((a <<< 24) ||| (b <<< 16) ||| (c <<< 8) ||| d).toNat
      = a.toNat * 2 ^ 24 + b.toNat * 2 ^ 16 + c.toNat * 2 ^ 8 + d.toNat := by
  have hshift : ∀ (x : UInt32) (k : Nat), k < 32 → x.toNat ≤ 255 → k ≤ 24 →
      (x <<< UInt32.ofNat k).toNat = x.toNat <<< k := by
    intro x k hk hx hk'
    have hmod : (UInt32.ofNat k).toNat = k := by
      rw [UInt32.toNat_ofNat']
      omega
    have hpow : 2 ^ k ≤ 2 ^ 24 := Nat.pow_le_pow_right (by decide) hk'
    have hlt : x.toNat * 2 ^ k < 2 ^ 32 := by
      calc x.toNat * 2 ^ k ≤ 255 * 2 ^ 24 := Nat.mul_le_mul hx hpow
        _ < 2 ^ 32 := by decide
    rw [UInt32.toNat_shiftLeft, hmod, Nat.mod_eq_of_lt hk, Nat.shiftLeft_eq, Nat.mod_eq_of_lt hlt]
  have h24 : (a <<< 24).toNat = a.toNat <<< 24 := hshift a 24 (by decide) ha (by decide)
  have h16 : (b <<< 16).toNat = b.toNat <<< 16 := hshift b 16 (by decide) hb (by decide)
  have h8 : (c <<< 8).toNat = c.toNat <<< 8 := hshift c 8 (by decide) hc (by decide)
  -- the lower octets together are less than the place of the next one
  have hlow : c.toNat <<< 8 ||| d.toNat = c.toNat * 2 ^ 8 + d.toNat := by
    rw [← Nat.shiftLeft_add_eq_or_of_lt (by omega), Nat.shiftLeft_eq]
  have hmid : b.toNat <<< 16 ||| (c.toNat * 2 ^ 8 + d.toNat)
      = b.toNat * 2 ^ 16 + (c.toNat * 2 ^ 8 + d.toNat) := by
    rw [← Nat.shiftLeft_add_eq_or_of_lt (by omega), Nat.shiftLeft_eq]
  have hhigh : a.toNat <<< 24 ||| (b.toNat * 2 ^ 16 + (c.toNat * 2 ^ 8 + d.toNat))
      = a.toNat * 2 ^ 24 + (b.toNat * 2 ^ 16 + (c.toNat * 2 ^ 8 + d.toNat)) := by
    rw [← Nat.shiftLeft_add_eq_or_of_lt (by omega), Nat.shiftLeft_eq]
  rw [UInt32.toNat_or, UInt32.toNat_or, UInt32.toNat_or, h24, h16, h8, Nat.or_assoc, Nat.or_assoc,
    hlow, hmid, hhigh]
  omega

/-! ## What `parse_ip` compares -/

section

variable {d1 d2 d3 d4 : List UInt8}

/-- The address, in terms of the numbers modulo `2 ^ 32`. -/
theorem toNat_parseIp_dottedText (h1 : IsNumber d1) (h2 : IsNumber d2) (h3 : IsNumber d3)
    (h4 : IsNumber d4) :
    (parseIp (dottedText d1 d2 d3 d4)).toNat
      = if ∃ s ∈ [d1, d2, d3, d4], 255 < digitsValue s % 2 ^ 32 then 0
        else digitsValue d1 % 2 ^ 32 * 2 ^ 24 + digitsValue d2 % 2 ^ 32 * 2 ^ 16
          + digitsValue d3 % 2 ^ 32 * 2 ^ 8 + digitsValue d4 % 2 ^ 32 := by
  have hvalue : ∀ n : Nat, (UInt32.ofNat n).toNat = n % 2 ^ 32 := fun _ => UInt32.toNat_ofNat'
  have hgt : ∀ n : Nat, UInt32.ofNat n > 255 ↔ 255 < n % 2 ^ 32 := by
    intro n
    rw [gt_iff_lt, UInt32.lt_iff_toNat_lt, hvalue]
    rfl
  unfold parseIp dottedText
  rw [sscanf_dottedFormat h1 h2 h3 h4]
  dsimp only
  simp only [hgt, List.mem_cons, List.not_mem_nil, or_false, exists_eq_or_imp, exists_eq_left]
  split_ifs with hrange
  · rfl
  · simp only [not_or, not_lt] at hrange
    rw [toNat_join (by rw [hvalue]; exact hrange.1) (by rw [hvalue]; exact hrange.2.1)
      (by rw [hvalue]; exact hrange.2.2.1) (by rw [hvalue]; exact hrange.2.2.2)]
    simp only [hvalue]

/-- **Where an address is accepted only with octets in range**: if all the numbers are octets, or
one of them is not even one modulo `2 ^ 32`, or all of them are 0 modulo `2 ^ 32`, so that the
address they make is the one that says no. -/
theorem octetsChecked_iff (h1 : IsNumber d1) (h2 : IsNumber d2) (h3 : IsNumber d3)
    (h4 : IsNumber d4) :
    OctetsChecked d1 d2 d3 d4 ↔
      (∀ s ∈ [d1, d2, d3, d4], digitsValue s ≤ 255) ∨
      (∃ s ∈ [d1, d2, d3, d4], 255 < digitsValue s % 2 ^ 32) ∨
      (∀ s ∈ [d1, d2, d3, d4], digitsValue s % 2 ^ 32 = 0) := by
  have hparse := toNat_parseIp_dottedText h1 h2 h3 h4
  by_cases hall : ∀ s ∈ [d1, d2, d3, d4], digitsValue s ≤ 255
  · refine iff_of_true ⟨fun _ => ?_, fun ⟨s, hs, hgt⟩ => absurd (hall s hs) (by omega)⟩
      (Or.inl hall)
    -- octets are what they are modulo `2 ^ 32`
    rw [if_neg (fun ⟨s, hs, hgt⟩ => by have := hall s hs; omega)] at hparse
    simp only [List.forall_mem_cons, List.not_mem_nil, false_imp_iff, implies_true, and_true]
      at hall
    obtain ⟨ha, hb, hc, hd⟩ := hall
    apply UInt32.toNat_inj.mp
    rw [hparse, octetAddress, UInt32.toNat_ofNat']
    omega
  · have hexists : ∃ s ∈ [d1, d2, d3, d4], 255 < digitsValue s := by
      simpa only [not_forall, not_le, exists_prop] using hall
    have hchecked : OctetsChecked d1 d2 d3 d4
        ↔ (parseIp (dottedText d1 d2 d3 d4)).toNat = 0 := by
      refine ⟨fun h => congrArg UInt32.toNat (h.refused hexists),
        fun h => ⟨fun h' => ?_, fun _ => ?_⟩⟩
      · exact absurd h' hall
      · exact UInt32.toNat_inj.mp h
    rw [hchecked, hparse, or_iff_right hall]
    split_ifs with hwrapped
    · exact iff_of_true rfl (Or.inl hwrapped)
    · -- the octets are compared, and found in range: the address is 0 only if all of them are
      rw [or_iff_right hwrapped]
      simp only [List.forall_mem_cons, List.not_mem_nil, false_imp_iff, implies_true, and_true]
      omega

/-- Leading zeros count for nothing, and a number just past 32 bits is still too large. -/
theorem octetsChecked_large : OctetsChecked (ascii "010") (ascii "0") (ascii "4294967552")
    (ascii "1") :=
  (octetsChecked_iff ⟨by decide, by decide⟩ ⟨by decide, by decide⟩ ⟨by decide, by decide⟩
    ⟨by decide, by decide⟩).mpr (Or.inr (Or.inl ⟨ascii "4294967552", by simp, by decide⟩))

/-- `4294967306` is 10 modulo `2 ^ 32`. -/
theorem wrappedOctet_accepted :
    parseIp (dottedText (ascii "4294967306") (ascii "0") (ascii "0") (ascii "1")) = 0x0A000001 ∧
      ¬ OctetsChecked (ascii "4294967306") (ascii "0") (ascii "0") (ascii "1") := by
  have hparse : parseIp (dottedText (ascii "4294967306") (ascii "0") (ascii "0") (ascii "1"))
      = 0x0A000001 := by decide
  refine ⟨hparse, fun h => ?_⟩
  have hzero := h.refused ⟨ascii "4294967306", by simp, by decide⟩
  rw [hparse] at hzero
  exact absurd hzero (by decide)

end

end SN110
