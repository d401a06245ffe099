import SN110.Lib.Run
import Mathlib.Data.List.Basic

/-!
# A register fed by a queue that loses values

Values are sent into a queue, from which some are lost and the others are delivered, in order, to a
register. The register keeps the last value only, and a value is read from it at most once.

* `trace_sublist`: the values read are some of those sent, in the order of sending, none twice.
* `register_of_lossless`: when nothing is lost and nothing is on the way, the register holds the
  last value sent.
-/

namespace Relay

open Run

variable {α : Type*}

/-- The values on the way, the last one delivered, and whether it has not been read yet. -/
structure State (α : Type*) where
  queue : List α
  register : Option α
  unread : Bool

/-- What can happen. -/
inductive Event (α : Type*) where
  | send (x : α)
  | lose (k : Nat)
  | deliver
  | read

/-- The value that can still be read. -/
def State.held (s : State α) : Option α := if s.unread then s.register else none

/-- What an event does, and the value it reads. -/
def step (s : State α) : Event α → State α × List α
  | .send x => ({ s with queue := s.queue ++ [x] }, [])
  | .lose k => ({ s with queue := s.queue.eraseIdx k }, [])
  | .deliver =>
    match s.queue with
    | [] => (s, [])
    | x :: queue => ({ queue := queue, register := some x, unread := true }, [])
  | .read => ({ s with unread := false }, s.held.toList)

/-- The value an event sends. -/
def Event.sent? : Event α → Option α
  | .send x => some x
  | _ => none

/-- The values sent. -/
def sends (es : List (Event α)) : List α := es.filterMap Event.sent?

/-- Nothing has been sent yet. -/
def State.initial : State α where
  queue := []
  register := none
  unread := false

/-- What is read or can still be read was there before or is sent now. -/
theorem step_sublist (s : State α) (e : Event α) :
    ((step s e).2 ++ ((step s e).1.held.toList ++ (step s e).1.queue)).Sublist
      (s.held.toList ++ s.queue ++ e.sent?.toList) := by
  cases e with
  | send x =>
    show (s.held.toList ++ (s.queue ++ [x])).Sublist (s.held.toList ++ s.queue ++ [x])
    rw [List.append_assoc]
  | lose k =>
    show (s.held.toList ++ s.queue.eraseIdx k).Sublist (s.held.toList ++ s.queue ++ [])
    rw [List.append_nil]
    exact (List.Sublist.refl _).append (List.eraseIdx_sublist s.queue k)
  | deliver =>
    rw [show (Event.deliver : Event α).sent? = none from rfl, Option.toList_none, List.append_nil]
    unfold step
    dsimp only
    split
    · exact List.Sublist.refl _
    · rename_i x queue hqueue
      rw [hqueue]
      -- the value that the new one overwrites is not read any more
      exact List.sublist_append_right _ _
  | read =>
    show (s.held.toList ++ ([] ++ s.queue)).Sublist (s.held.toList ++ s.queue ++ [])
    rw [List.append_nil, List.nil_append]

/-- **Values are read in the order of sending**, each at most once. -/
theorem trace_sublist (s : State α) (es : List (Event α)) :
    (trace step s es).Sublist (s.held.toList ++ s.queue ++ sends es) := by
  suffices (trace step s es ++ ((finalState step s es).held.toList
      ++ (finalState step s es).queue)).Sublist (s.held.toList ++ s.queue ++ sends es) from
    (List.sublist_append_left _ _).trans this
  induction es generalizing s with
  | nil =>
    show ([] ++ (s.held.toList ++ s.queue)).Sublist (s.held.toList ++ s.queue ++ [])
    rw [List.nil_append, List.append_nil]
  | cons e es ih =>
    have hsends : sends (e :: es) = e.sent?.toList ++ sends es := by
      unfold sends
      cases h : e.sent? <;> simp [h]
    have hlater := (List.Sublist.refl (step s e).2).append (ih (step s e).1)
    have hnow := (step_sublist s e).append (List.Sublist.refl (sends es))
    rw [trace_cons, finalState_cons, hsends]
    simp only [List.append_assoc] at hlater hnow ⊢
    exact hlater.trans hnow

/-- Nothing is lost. -/
def Lossless (es : List (Event α)) : Prop := ∀ e ∈ es, ∀ k, e ≠ .lose k

/-- When nothing is lost, what is not on the way has been delivered. -/
theorem delivered_of_lossless {s : State α} {es : List (Event α)} (h : Lossless es) :
    ∃ delivered, s.queue ++ sends es = delivered ++ (finalState step s es).queue ∧
      (finalState step s es).register = (s.register.toList ++ delivered).getLast? := by
  induction es generalizing s with
  | nil =>
    refine ⟨[], List.append_nil _, ?_⟩
    cases hregister : s.register <;> simp [hregister]
  | cons e es ih =>
    have hrest : Lossless es := fun e' he' => h e' (List.mem_cons_of_mem e he')
    obtain ⟨delivered, hqueue, hregister⟩ := @ih (step s e).1 hrest
    rw [finalState_cons]
    -- what was queued is what was delivered and what is still queued, after each event
    cases e with
    | send x => exact ⟨delivered, by rw [← hqueue]; simp [sends, Event.sent?, step], hregister⟩
    | lose k => exact absurd rfl (h (.lose k) List.mem_cons_self k)
    | read => exact ⟨delivered, hqueue, hregister⟩
    | deliver =>
      cases hq : s.queue with
      | nil =>
        have hstep : (step s .deliver).1 = s := by simp [step, hq]
        rw [hstep] at hqueue hregister ⊢
        rw [hq] at hqueue
        exact ⟨delivered, hqueue, hregister⟩
      | cons x queue =>
        have hstep : (step s .deliver).1
            = { queue := queue, register := some x, unread := true } := by simp [step, hq]
        rw [hstep] at hqueue hregister ⊢
        refine ⟨x :: delivered, congrArg (x :: ·) hqueue, hregister.trans ?_⟩
        rw [Option.toList_some, List.getLast?_append_of_ne_nil _ (List.cons_ne_nil x delivered)]
        rfl

/-- **The last value arrives**: when nothing is lost and nothing is on the way. -/
theorem register_of_lossless {es : List (Event α)} (h : Lossless es)
    (hqueue : (finalState step State.initial es).queue = []) :
    (finalState step State.initial es).register = (sends es).getLast? := by
  obtain ⟨delivered, hsends, hregister⟩ := @delivered_of_lossless α State.initial es h
  rw [hqueue, List.append_nil] at hsends
  rw [hregister, ← hsends]
  rfl

end Relay
