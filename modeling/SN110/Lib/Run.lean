import Mathlib.Data.List.Induction
import Mathlib.Data.List.Forall2

/-!
# Runs of a deterministic machine with outputs

A machine is a step function `σ → ε → σ × List ο`: one event takes a state to the next
state and a list of outputs. This module owns what holds of every such machine:

* `finalState` / `trace` of a list of events, and how they split over `++`;
* `run_induction`: a property of (events so far, state) that holds initially and is kept
  by one more event holds after every run;
* `history`: a value that the run accumulates beside the state and that the machine itself
  does not keep, for statements that speak of what happened earlier;
* `Along`: what every event of the run satisfies, seen with the state it meets;
* `trace_eq_of_erase` and `trace_eq_of_related`: the two unwinding rules. A view of the
  state that some events cannot touch is the same after the run with those events
  erased, and two machines that agree through a view have the same visible outputs.
-/

namespace Run

variable {σ ε ο : Type*}

/-- The state after the events, starting from `s`. -/
def finalState (step : σ → ε → σ × List ο) (s : σ) : List ε → σ
  | [] => s
  | e :: es => finalState step (step s e).1 es

/-- Everything put out by the events, in order. -/
def trace (step : σ → ε → σ × List ο) (s : σ) : List ε → List ο
  | [] => []
  | e :: es => (step s e).2 ++ trace step (step s e).1 es

section

variable (step : σ → ε → σ × List ο)

@[simp] theorem finalState_nil (s : σ) : finalState step s [] = s := rfl

@[simp] theorem finalState_cons (s : σ) (e : ε) (es : List ε) :
    finalState step s (e :: es) = finalState step (step s e).1 es := rfl

@[simp] theorem trace_nil (s : σ) : trace step s [] = [] := rfl

@[simp] theorem trace_cons (s : σ) (e : ε) (es : List ε) :
    trace step s (e :: es) = (step s e).2 ++ trace step (step s e).1 es := rfl

theorem finalState_append (s : σ) (xs ys : List ε) :
    finalState step s (xs ++ ys) = finalState step (finalState step s xs) ys := by
  induction xs generalizing s with
  | nil => rfl
  | cons e es ih => exact ih (step s e).1

/-- Two runs after each other have the outputs of the first, then those of the second. -/
theorem trace_append (s : σ) (xs ys : List ε) :
    trace step s (xs ++ ys) = trace step s xs ++ trace step (finalState step s xs) ys := by
  induction xs generalizing s with
  | nil => rfl
  | cons e es ih =>
    show (step s e).2 ++ trace step (step s e).1 (es ++ ys) = (step s e).2 ++ _ ++ _
    rw [ih, List.append_assoc]
    rfl

@[simp] theorem finalState_concat (s : σ) (xs : List ε) (e : ε) :
    finalState step s (xs ++ [e]) = (step (finalState step s xs) e).1 := by
  rw [finalState_append]
  rfl

/-- **The invariant rule.** What holds of the empty run and survives one more event at the
end holds of every run. The property sees the events so far, so it can speak of history. -/
theorem run_induction {s : σ} {P : List ε → σ → Prop} (hnil : P [] s)
    (hsnoc : ∀ es e, P es (finalState step s es) →
      P (es ++ [e]) (step (finalState step s es) e).1) :
    ∀ es, P es (finalState step s es) := by
  intro es
  induction es using List.reverseRecOn with
  | nil => exact hnil
  | append_singleton es e ih =>
    rw [finalState_concat]
    exact hsnoc es e ih

end

/-! ## Histories -/

section History

variable {γ : Type*} (step : σ → ε → σ × List ο) (note : σ → ε → γ → γ)

/-- What `note` accumulates over the events, each seen with the state before it. -/
def history (s : σ) (g : γ) : List ε → γ
  | [] => g
  | e :: es => history (step s e).1 (note s e g) es

@[simp] theorem history_nil (s : σ) (g : γ) : history step note s g [] = g := rfl

@[simp] theorem history_cons (s : σ) (g : γ) (e : ε) (es : List ε) :
    history step note s g (e :: es) = history step note (step s e).1 (note s e g) es := rfl

theorem history_append (s : σ) (g : γ) (xs ys : List ε) :
    history step note s g (xs ++ ys)
      = history step note (finalState step s xs) (history step note s g xs) ys := by
  induction xs generalizing s g with
  | nil => rfl
  | cons e es ih => exact ih (step s e).1 (note s e g)

@[simp] theorem history_concat (s : σ) (g : γ) (xs : List ε) (e : ε) :
    history step note s g (xs ++ [e])
      = note (finalState step s xs) e (history step note s g xs) := by
  rw [history_append]
  rfl

/-- A relation between the state and the history that one event keeps holds after every run. -/
theorem history_induction {P : σ → γ → Prop}
    (hstep : ∀ s g e, P s g → P (step s e).1 (note s e g)) {s : σ} {g : γ} (h : P s g)
    (es : List ε) : P (finalState step s es) (history step note s g es) := by
  induction es generalizing s g with
  | nil => exact h
  | cons e es ih => exact ih (hstep s g e h)

end History

/-! ## What holds along a run -/

section Along

variable (step : σ → ε → σ × List ο) (p : σ → ε → Prop)

/-- Every event of the run satisfies `p` with the state it meets. -/
def Along (s : σ) : List ε → Prop
  | [] => True
  | e :: es => p s e ∧ Along (step s e).1 es

instance [∀ s e, Decidable (p s e)] (s : σ) (es : List ε) : Decidable (Along step p s es) :=
  match es with
  | [] => isTrue trivial
  | e :: es =>
    have := instDecidableAlong (step s e).1 es
    inferInstanceAs (Decidable (p s e ∧ Along step p (step s e).1 es))

variable {step p}

@[simp] theorem along_nil {s : σ} : Along step p s [] := trivial

@[simp] theorem along_cons {s : σ} {e : ε} {es : List ε} :
    Along step p s (e :: es) ↔ p s e ∧ Along step p (step s e).1 es := Iff.rfl

/-- A property holds along two runs when it holds along each. -/
theorem along_append {s : σ} {xs ys : List ε} :
    Along step p s (xs ++ ys) ↔ Along step p s xs ∧ Along step p (finalState step s xs) ys := by
  induction xs generalizing s with
  | nil => simp
  | cons e es ih => simp only [List.cons_append, along_cons, ih, finalState_cons, and_assoc]

/-- A property holds along a longer run when it holds along the run and at the last event. -/
theorem along_concat {s : σ} {xs : List ε} {e : ε} :
    Along step p s (xs ++ [e]) ↔ Along step p s xs ∧ p (finalState step s xs) e := by
  simp [along_append]

/-- What holds along a run holds of every event with the state that the events before it lead
to. -/
theorem along_iff_forall {s : σ} {es : List ε} :
    Along step p s es ↔ ∀ xs e, xs ++ [e] <+: es → p (finalState step s xs) e := by
  induction es using List.reverseRecOn with
  | nil =>
    refine iff_of_true trivial fun xs e h => ?_
    exact absurd (List.prefix_nil.mp h) (List.append_ne_nil_of_right_ne_nil xs (by simp))
  | append_singleton es e ih =>
    rw [along_concat, ih]
    constructor
    · intro ⟨hbefore, hlast⟩ xs e' h
      -- a prefix with its last event is the whole run, or one of the shorter run
      rcases List.prefix_concat_iff.mp h with heq | h
      · obtain ⟨rfl, he⟩ := List.append_inj' heq rfl
        obtain rfl := List.singleton_inj.mp he
        exact hlast
      · exact hbefore xs e' h
    · intro h
      exact ⟨fun xs e' hxs => h xs e' (hxs.trans (List.prefix_append es [e])),
        h es e List.prefix_rfl⟩

end Along

/-! ## Unwinding

`view` is what an observer sees of a state and `seen` what it sees of one output. -/

section Unwinding

variable {σ' ε' ν ω : Type*} (step : σ → ε → σ × List ο) (step' : σ' → ε' → σ' × List ο)
  (seen : ο → Option ω)

/-- Two machines whose steps agree through their views on related events show the same
outputs on related runs, and end in states with equal views. -/
theorem trace_eq_of_related (view : σ → ν) (view' : σ' → ν) {R : ε → ε' → Prop}
    (hstep : ∀ e e' s s', R e e' → view s = view' s' →
      view (step s e).1 = view' (step' s' e').1 ∧
        (step s e).2.filterMap seen = (step' s' e').2.filterMap seen)
    {es : List ε} {es' : List ε'} (hR : List.Forall₂ R es es') :
    ∀ (s : σ) (s' : σ'), view s = view' s' →
      view (finalState step s es) = view' (finalState step' s' es') ∧
        (trace step s es).filterMap seen = (trace step' s' es').filterMap seen := by
  induction hR with
  | nil => intro s s' h; exact ⟨h, rfl⟩
  | cons hhead _ ih =>
    intro s s' h
    obtain ⟨hv, ho⟩ := hstep _ _ s s' hhead h
    obtain ⟨hv', ho'⟩ := ih _ _ hv
    refine ⟨hv', ?_⟩
    rw [trace_cons, trace_cons, List.filterMap_append, List.filterMap_append, ho, ho']

/-- Events that neither change the view nor show an output can be erased from a run. -/
theorem trace_eq_of_erase (view : σ → ν) (keep : ε → Bool) :
    ∀ (es : List ε) (s s' : σ),
      (∀ e ∈ es, ∀ s s', view s = view s' →
        view (step s e).1 = view (step s' e).1 ∧
          (step s e).2.filterMap seen = (step s' e).2.filterMap seen) →
      (∀ e ∈ es, keep e = false →
        ∀ s, view (step s e).1 = view s ∧ (step s e).2.filterMap seen = []) →
      view s = view s' →
      view (finalState step s es) = view (finalState step s' (es.filter keep)) ∧
        (trace step s es).filterMap seen = (trace step s' (es.filter keep)).filterMap seen := by
  intro es
  induction es with
  | nil => intro s s' _ _ h; exact ⟨h, rfl⟩
  | cons e es ih =>
    intro s s' hstep hhide h
    have hstep' := fun e' he' => hstep e' (List.mem_cons_of_mem e he')
    have hhide' := fun e' he' => hhide e' (List.mem_cons_of_mem e he')
    -- a kept event is run by both, an erased one only by the first machine
    cases hk : keep e with
    | true =>
      rw [List.filter_cons_of_pos hk]
      obtain ⟨hv, ho⟩ := hstep e (by simp) s s' h
      obtain ⟨hv', ho'⟩ := ih (step s e).1 (step s' e).1 hstep' hhide' hv
      refine ⟨hv', ?_⟩
      rw [trace_cons, trace_cons, List.filterMap_append, List.filterMap_append, ho, ho']
    | false =>
      rw [List.filter_cons_of_neg (by simp [hk])]
      obtain ⟨hv, ho⟩ := hhide e (by simp) hk s
      obtain ⟨hv', ho'⟩ := ih (step s e).1 s' hstep' hhide' (hv.trans h)
      refine ⟨hv', ?_⟩
      rw [trace_cons, List.filterMap_append, ho, List.nil_append, ho']

end Unwinding

end Run
