import Mathlib.Data.List.Chain

/-!
# Merging by rank

An output has channels that take levels. Sources send it updates: levels for some of the channels,
under a rank. One update leads at a time. An offer is taken when it ranks no lower than the leading
update, or when that one has been there for longer than the takeover time, and an output that takes
nothing for the hold time goes dark. The state is the list of the updates that are live, the leading
one first.

* `shown`: what the live updates show together.
* `step`: a round, in which an offer may be made before the clock is looked at.
* `ordered_step`: a round keeps the live updates in an order in which they may follow one another.
-/

namespace Merging

variable {C L R : Type*}

/-- Levels for some of the channels. -/
structure Update (C L R : Type*) where
  levels : C → Option L
  rank : R
  time : Nat

/-- An update, and when the output is asked to take it. -/
structure Offer (C L R : Type*) extends Update C L R where
  asked : Nat

/-- The takeover time and the hold time. -/
structure Timing where
  takeover : Nat
  hold : Nat

/-- What is offered in a round, and when the clock is looked at. -/
structure Round (C L R : Type*) where
  offer : Option (Offer C L R)
  tick : Nat

/-- What the live updates show on a channel: the level of the latest one that has one. -/
def shown (dark : L) (live : List (Update C L R)) (c : C) : L :=
  (live.findSome? fun u => u.levels c).getD dark

/-- The leading update is older than `age` at the time `t`. -/
def Outdated (age t : Nat) (live : List (Update C L R)) : Prop :=
  ∃ u ∈ live.head?, age < t - u.time

instance (age t : Nat) (live : List (Update C L R)) : Decidable (Outdated age t live) := by
  unfold Outdated
  infer_instance

/-- The end of a round in which nothing is taken. -/
def tickStep (τ : Timing) (dark : L) (live : List (Update C L R)) (t : Nat) :
    List (Update C L R) × List (C → L) :=
  if Outdated τ.hold t live then ([], [fun _ => dark]) else (live, [])

@[simp] theorem shown_nil (dark : L) (c : C) : shown dark ([] : List (Update C L R)) c = dark := rfl

/-- A slot has the level of the newest update that gives it one. -/
theorem shown_cons (dark : L) (u : Update C L R) (live : List (Update C L R)) (c : C) :
    shown dark (u :: live) c = (u.levels c).getD (shown dark live c) := by
  rw [shown, List.findSome?_cons]
  cases u.levels c with
  | none => rfl
  | some level => rfl

@[simp] theorem not_outdated_nil (age t : Nat) : ¬ Outdated age t ([] : List (Update C L R)) := by
  rintro ⟨u, hu, -⟩
  cases hu

@[simp] theorem outdated_cons {age t : Nat} {u : Update C L R} {live : List (Update C L R)} :
    Outdated age t (u :: live) ↔ age < t - u.time := by
  simp [Outdated]

section

variable [LE R] [DecidableLE R] {τ : Timing}

/-- The offer is taken. -/
def Takes (τ : Timing) (live : List (Update C L R)) (o : Offer C L R) : Prop :=
  ∀ u ∈ live.head?, u.rank ≤ o.rank ∨ τ.takeover < o.asked - u.time

instance (τ : Timing) (live : List (Update C L R)) (o : Offer C L R) :
    Decidable (Takes τ live o) := by
  unfold Takes
  infer_instance

/-- One round: an offer that is taken is shown at once, and otherwise the clock decides. -/
def step (τ : Timing) (dark : L) (live : List (Update C L R)) (r : Round C L R) :
    List (Update C L R) × List (C → L) :=
  match r.offer with
  | none => tickStep τ dark live r.tick
  | some o =>
    if Takes τ live o then (o.toUpdate :: live, [shown dark (o.toUpdate :: live)])
    else tickStep τ dark live r.tick

omit [DecidableLE R] in
theorem takes_nil (o : Offer C L R) : Takes τ [] o := by
  rintro u hu
  cases hu

omit [DecidableLE R] in
/-- Behind an update an offer is taken when it ranks as high, or when the update is too old. -/
theorem takes_cons {u : Update C L R} {live : List (Update C L R)} {o : Offer C L R} :
    Takes τ (u :: live) o ↔ u.rank ≤ o.rank ∨ τ.takeover < o.asked - u.time := by
  simp [Takes]

/-- A round with an offer that is taken adds the update and shows it. -/
theorem step_of_takes {live : List (Update C L R)} {r : Round C L R} {o : Offer C L R}
    (dark : L) (ho : r.offer = some o) (h : Takes τ live o) :
    step τ dark live r = (o.toUpdate :: live, [shown dark (o.toUpdate :: live)]) := by
  unfold step
  rw [ho]
  exact if_pos h

/-- Any other round only lets time pass. -/
theorem step_of_not_takes {live : List (Update C L R)} {r : Round C L R} (dark : L)
    (h : ¬ ∃ o, r.offer = some o ∧ Takes τ live o) :
    step τ dark live r = tickStep τ dark live r.tick := by
  unfold step
  cases hoffer : r.offer with
  | none => rfl
  | some o => exact if_neg fun htakes => h ⟨o, hoffer, htakes⟩

/-! ## The order of the live updates -/

/-- One update may lead after another: it does not rank lower, or the other one had been there for
the takeover time. -/
def Follows (τ : Timing) (later earlier : Update C L R) : Prop :=
  earlier.time ≤ later.time ∧
    (earlier.rank ≤ later.rank ∨ τ.takeover < later.time - earlier.time)

/-- Each live update follows the one before it. -/
abbrev Ordered (τ : Timing) (live : List (Update C L R)) : Prop := live.IsChain (Follows τ)

/-- The times of a round are past those of the live updates, and in their order. -/
def Round.Timely (r : Round C L R) (live : List (Update C L R)) : Prop :=
  ∀ o ∈ r.offer, o.asked ≤ o.time ∧ ∀ u ∈ live.head?, u.time ≤ o.time

omit [DecidableLE R] in
/-- Letting time pass keeps the updates in order. -/
theorem ordered_tickStep {live : List (Update C L R)} (h : Ordered τ live) (dark : L) (t : Nat) :
    Ordered τ (tickStep τ dark live t).1 := by
  unfold tickStep
  split_ifs
  · exact List.isChain_nil
  · exact h

/-- **The step lemma.** -/
theorem ordered_step {live : List (Update C L R)} (h : Ordered τ live) (dark : L) {r : Round C L R}
    (hr : r.Timely live) : Ordered τ (step τ dark live r).1 := by
  by_cases htakes : ∃ o, r.offer = some o ∧ Takes τ live o
  · obtain ⟨o, ho, htakes⟩ := htakes
    obtain ⟨hasked, hlater⟩ := hr o ho
    rw [step_of_takes dark ho htakes]
    refine List.isChain_cons.mpr ⟨fun u hu => ⟨hlater u hu, ?_⟩, h⟩
    exact (htakes u hu).imp_right fun hlate => by omega
  · rw [step_of_not_takes dark htakes]
    exact ordered_tickStep h dark r.tick

end

end Merging
