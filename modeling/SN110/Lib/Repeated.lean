import Mathlib.Data.List.Basic

/-!
# Texts whose order does not show

Two texts can be put together either way round when both repeat one text, and only then
(`append_comm_iff`).
-/

namespace Repeated

variable {α : Type}

/-- The text `u`, `n` times. -/
def times (n : Nat) (u : List α) : List α := (List.replicate n u).flatten

/-- Both repeat one text; one that is empty repeats every text. -/
def SameRoot (s t : List α) : Prop := ∃ u m n, s = times m u ∧ t = times n u

theorem times_add (m n : Nat) (u : List α) : times (m + n) u = times m u ++ times n u := by
  unfold times
  rw [List.replicate_add, List.flatten_append]

theorem sameRoot_nil_left (t : List α) : SameRoot [] t := ⟨t, 0, 1, rfl, by simp [times]⟩

theorem sameRoot_nil_right (s : List α) : SameRoot s [] := ⟨s, 1, 0, by simp [times], rfl⟩

theorem SameRoot.symm {s t : List α} (h : SameRoot s t) : SameRoot t s :=
  let ⟨u, m, n, hs, ht⟩ := h
  ⟨u, n, m, ht, hs⟩

/-- A text put in front of one with the same root leaves the root. -/
theorem SameRoot.append {s t : List α} (h : SameRoot s t) : SameRoot s (s ++ t) := by
  obtain ⟨u, m, n, rfl, rfl⟩ := h
  exact ⟨u, m, m + n, rfl, (times_add m n u).symm⟩

theorem SameRoot.append_comm {s t : List α} (h : SameRoot s t) : s ++ t = t ++ s := by
  obtain ⟨u, m, n, rfl, rfl⟩ := h
  rw [← times_add, ← times_add, Nat.add_comm]

/-- The longer of two texts that commute starts with the shorter one, and the rest commutes with
it. -/
theorem sameRoot_of_append_comm {s t : List α} (h : s ++ t = t ++ s) : SameRoot s t := by
  induction hlen : s.length + t.length using Nat.strongRecOn generalizing s t with
  | _ n ih =>
    subst hlen
    by_cases hs : s = []
    · rw [hs]
      exact sameRoot_nil_left t
    by_cases ht : t = []
    · rw [ht]
      exact sameRoot_nil_right s
    have hspos := List.length_pos_of_ne_nil hs
    have htpos := List.length_pos_of_ne_nil ht
    have hprefix : s <+: s ++ t ∧ t <+: s ++ t :=
      ⟨List.prefix_append s t, h ▸ List.prefix_append t s⟩
    -- the shorter one is in front of the longer one, and what is left of it commutes again
    rcases Nat.le_total s.length t.length with hle | hle
    · obtain ⟨rest, rfl⟩ := List.prefix_of_prefix_length_le hprefix.1 hprefix.2 hle
      rw [List.append_assoc] at h
      have hrest := List.append_cancel_left h
      exact (ih _ (by rw [List.length_append] at *; omega) hrest rfl).append
    · obtain ⟨rest, rfl⟩ := List.prefix_of_prefix_length_le hprefix.2 hprefix.1 hle
      rw [List.append_assoc] at h
      have hrest := List.append_cancel_left h
      exact (ih _ (by rw [List.length_append] at *; omega) hrest.symm rfl).append.symm

/-- **Two texts commute** exactly when they have the same root. -/
theorem append_comm_iff {s t : List α} : s ++ t = t ++ s ↔ SameRoot s t :=
  ⟨sameRoot_of_append_comm, SameRoot.append_comm⟩

end Repeated
