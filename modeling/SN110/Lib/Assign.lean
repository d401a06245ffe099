import Mathlib.Data.List.Induction
import Mathlib.Data.List.Basic

/-!
# Assignments

A list of entries, of which some assign a value to one target. Carried out one after another,
what they leave there is the value assigned last, or what stood there before.

* `last`: the value assigned last, and how it splits over `++`;
* `foldl_related`: the rule, for a relation that says two states have the same at the target;
* `foldl_establishes`: the rule for a property of the state.
-/

namespace Assign

variable {ε β σ : Type*} (sets : ε → Option β)

/-- The value assigned last. -/
def last (es : List ε) : Option β := (es.filterMap sets).getLast?

@[simp] theorem last_nil : last sets [] = none := rfl

theorem last_append (xs ys : List ε) : last sets (xs ++ ys) = (last sets ys).or (last sets xs) := by
  unfold last
  rw [List.filterMap_append, List.getLast?_append]

theorem last_concat (es : List ε) (e : ε) :
    last sets (es ++ [e]) = (sets e).or (last sets es) := by
  rw [last_append]
  congr 1
  unfold last
  cases h : sets e <;> simp [h]

variable {sets}

/-- The value assigned last is one that an entry assigns. -/
theorem exists_of_last {es : List ε} {v : β} (h : last sets es = some v) :
    ∃ e ∈ es, sets e = some v := by
  have hmem : v ∈ es.filterMap sets := List.mem_of_getLast? h
  exact List.mem_filterMap.mp hmem

/-- **Only the last assignment counts**: the state at the end is, as far as the target goes, one
into which the value assigned last has been put. -/
theorem foldl_related {same : σ → σ → Prop} (hsame : Equivalence same) (apply : σ → ε → σ)
    (put : σ → β → σ) (hset : ∀ s s' e v, sets e = some v → same (apply s e) (put s' v))
    (hskip : ∀ s e, sets e = none → same (apply s e) s) (s : σ) (es : List ε) :
    same (es.foldl apply s) ((last sets es).elim s (put s)) := by
  induction es using List.reverseRecOn with
  | nil => exact hsame.refl s
  | append_singleton es e ih =>
    rw [List.foldl_append, last_concat]
    cases he : sets e with
    | none => exact hsame.trans (hskip _ e he) ih
    | some v => exact hset _ s e v he

/-- A property that one of the entries establishes, or that held before, holds at the end if no
entry takes it away. -/
theorem foldl_establishes {P : σ → Prop} {apply : σ → ε → σ} {es : List ε} {s : σ}
    (hkeep : ∀ e ∈ es, ∀ s, P s → P (apply s e)) (hset : P s ∨ ∃ e ∈ es, ∀ s, P (apply s e)) :
    P (es.foldl apply s) := by
  induction es generalizing s with
  | nil =>
    rcases hset with h | ⟨e, he, -⟩
    · exact h
    · cases he
  | cons e es ih =>
    rw [List.forall_mem_cons] at hkeep
    refine ih hkeep.2 ?_
    rcases hset with h | ⟨e', he', h⟩
    · exact Or.inl (hkeep.1 s h)
    · rcases List.mem_cons.mp he' with rfl | he'
      · exact Or.inl (h s)
      · exact Or.inr ⟨e', he', h⟩

end Assign
