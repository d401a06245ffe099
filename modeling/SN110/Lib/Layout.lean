import SN110.Lib.Memory
import Mathlib.Data.List.GetD

/-!
# Bytes laid out at addresses

A piece is an address and the bytes that belong there. Laying pieces out from a base appends them
one after the other, with zeros where an address has not been reached.

* `spells_layOut`: what has been laid out is the memory that has each piece at its address and zeros
  between them.
-/

namespace Layout

open Memory

/-- The bytes are those of `m` from `base` on. -/
def Spells (m : Nat → UInt8) (base : Nat) (bytes : List UInt8) : Prop :=
  ∀ k < bytes.length, load bytes k = m (base + k)

/-- Zeros up to a length. -/
def padTo (bytes : List UInt8) (n : Nat) : List UInt8 :=
  bytes ++ List.replicate (n - bytes.length) 0

/-- A piece: its address and its bytes. -/
abbrev Piece := Nat × List UInt8

/-- Where a piece ends. -/
def Piece.endAddr (p : Piece) : Nat := p.1 + p.2.length

/-- The next piece at its address. -/
def place (base : Nat) (bytes : List UInt8) (p : Piece) : List UInt8 :=
  padTo bytes (p.1 - base) ++ p.2

/-- All pieces from `base` on. -/
def layOut (base : Nat) (bytes : List UInt8) (pieces : List Piece) : List UInt8 :=
  pieces.foldl (place base) bytes

variable {m : Nat → UInt8} {base n : Nat} {xs ys : List UInt8} {p : Piece}

theorem length_padTo (h : xs.length ≤ n) : (padTo xs n).length = n := by
  rw [padTo, List.length_append, List.length_replicate]
  omega

theorem spells_append (hx : Spells m base xs) (hy : Spells m (base + xs.length) ys) :
    Spells m base (xs ++ ys) := by
  intro k hk
  rw [List.length_append] at hk
  rcases Nat.lt_or_ge k xs.length with hlt | hge
  · rw [load, List.getD_append _ _ _ _ hlt]
    exact hx k hlt
  · rw [load, List.getD_append_right _ _ _ _ hge]
    have := hy (k - xs.length) (by omega)
    rw [load] at this
    rw [this, Nat.add_assoc, Nat.add_sub_cancel' hge]

theorem spells_padTo (hx : Spells m base xs)
    (hzero : ∀ v, base + xs.length ≤ v → v < base + n → m v = 0) :
    Spells m base (padTo xs n) := by
  refine spells_append hx fun k hk => ?_
  rw [List.length_replicate] at hk
  rw [hzero _ (by omega) (by omega), load, List.getD_replicate _ hk]

/-- One more piece reaches to its end. -/
theorem add_length_place (hreach : base + xs.length ≤ p.1) :
    base + (place base xs p).length = p.endAddr := by
  have hlength : (padTo xs (p.1 - base)).length = p.1 - base := length_padTo (by omega)
  rw [place, List.length_append, hlength, Piece.endAddr]
  omega

theorem spells_place (hx : Spells m base xs) (hp : Spells m p.1 p.2)
    (hreach : base + xs.length ≤ p.1)
    (hzero : ∀ v, base + xs.length ≤ v → v < p.1 → m v = 0) :
    Spells m base (place base xs p) := by
  have hlength : (padTo xs (p.1 - base)).length = p.1 - base := length_padTo (by omega)
  refine spells_append (spells_padTo hx fun v hle hlt => hzero v hle (by omega)) ?_
  rwa [hlength, Nat.add_sub_cancel' (by omega)]

/-- What has been laid out reaches to the end of the last piece. -/
theorem add_length_layOut {pieces : List Piece}
    (hreach : ∀ p ∈ pieces, base + xs.length ≤ p.1)
    (hordered : pieces.Pairwise fun p q => p.endAddr ≤ q.1) :
    base + (layOut base xs pieces).length
      = (pieces.getLast?.map Piece.endAddr).getD (base + xs.length) := by
  induction pieces generalizing xs with
  | nil => rfl
  | cons p pieces ih =>
    obtain ⟨hfirst, hrest⟩ := List.pairwise_cons.mp hordered
    have hlength := add_length_place (hreach p List.mem_cons_self)
    have hnext := ih (fun q hq => hlength ▸ hfirst q hq) hrest
    rw [hlength] at hnext
    refine hnext.trans ?_
    rw [List.getLast?_cons]
    cases pieces.getLast? <;> rfl

/-- **Pieces in the order of their addresses** are laid out as the memory that they are pieces
of, when that memory is zero between them. -/
theorem spells_layOut {top : Nat} {pieces : List Piece} (hx : Spells m base xs)
    (hpieces : ∀ p ∈ pieces, Spells m p.1 p.2) (htop : base + xs.length ≤ top)
    (hreach : ∀ p ∈ pieces, base + xs.length ≤ p.1 ∧ p.endAddr ≤ top)
    (hordered : pieces.Pairwise fun p q => p.endAddr ≤ q.1)
    (hzero : ∀ v, base + xs.length ≤ v → v < top → (∀ p ∈ pieces, v < p.1 ∨ p.endAddr ≤ v) →
      m v = 0) :
    Spells m base (padTo (layOut base xs pieces) (top - base)) ∧
      (padTo (layOut base xs pieces) (top - base)).length = top - base := by
  induction pieces generalizing xs with
  -- behind the last piece only zeros are left up to the top
  | nil =>
    have hle : xs.length ≤ top - base := by omega
    refine ⟨spells_padTo hx fun v hv hlt => ?_, length_padTo hle⟩
    exact hzero v hv (by omega) fun p hp => absurd hp List.not_mem_nil
  | cons p pieces ih =>
    obtain ⟨hfirst, hrest⟩ := List.pairwise_cons.mp hordered
    obtain ⟨hpreach, hptop⟩ := hreach p List.mem_cons_self
    have hstart : p.1 ≤ p.endAddr := Nat.le_add_right _ _
    have hlength := add_length_place hpreach
    -- up to the next piece there are zeros, then the piece
    have hplaced : Spells m base (place base xs p) := by
      refine spells_place hx (hpieces p List.mem_cons_self) hpreach fun v hv hlt => ?_
      refine hzero v hv (by omega) fun q hq => Or.inl ?_
      rcases List.mem_cons.mp hq with rfl | hq
      · exact hlt
      · exact Nat.lt_of_lt_of_le (Nat.lt_of_lt_of_le hlt hstart) (hfirst q hq)
    refine ih hplaced (fun q hq => hpieces q (List.mem_cons_of_mem p hq)) (hlength ▸ hptop)
      (fun q hq => ?_) hrest fun v hv hlt hout => ?_
    · rw [hlength]
      exact ⟨hfirst q hq, (hreach q (List.mem_cons_of_mem p hq)).2⟩
    · rw [hlength] at hv
      refine hzero v (by omega) hlt fun q hq => ?_
      rcases List.mem_cons.mp hq with rfl | hq
      · exact Or.inr hv
      · exact hout q hq

end Layout
