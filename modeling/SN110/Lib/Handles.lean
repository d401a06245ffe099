import SN110.Lib.Run
import Mathlib.Logic.Function.Basic

/-!
# Numbers handed out by a kernel

A kernel hands out numbers, takes them back and hands them out again, to whoever asks. It does not
look at who uses or releases a number, so an owner that keeps a number it has released can come to
use another's.

* `Lawful`: what the kernel guarantees of a call, that it never hands out a number in use.
* `Owned`: what the caller has to see to, that the number is its own.
* `Holds`: an owner's record of its number is right.
* `holds_run_of_ne`: the calls of others leave a record right, if they keep to their own numbers.
-/

namespace Handles

open Run

variable {ι : Type*}

/-- A call and the owner that makes it. A negative number stands for a request refused. -/
inductive Call (ι : Type*) where
  | acquire (owner : ι) (n : Int)
  | release (owner : ι) (n : Int)
  | use (owner : ι) (n : Int)

/-- Who makes the call. -/
def Call.owner : Call ι → ι
  | .acquire o _ => o
  | .release o _ => o
  | .use o _ => o

/-- Who holds a number, and what each owner was given last. -/
structure Kernel (ι : Type*) where
  holder : Int → Option ι
  latest : ι → Int

/-- What a call does. -/
def call [DecidableEq ι] (k : Kernel ι) : Call ι → Kernel ι × List Empty
  | .acquire o n =>
    ({ holder := if 0 ≤ n then Function.update k.holder n (some o) else k.holder
       latest := Function.update k.latest o n }, [])
  | .release _ n => ({ k with holder := Function.update k.holder n none }, [])
  | .use _ _ => (k, [])

/-- A number handed out is not in use. -/
def Lawful (k : Kernel ι) : Call ι → Prop
  | .acquire _ n => 0 ≤ n → k.holder n = none
  | _ => True

/-- A number used or released is the caller's. -/
def Owned (k : Kernel ι) : Call ι → Prop
  | .acquire _ _ => True
  | .release o n => k.holder n = some o
  | .use o n => k.holder n = some o

/-- The owner's record is right: it has no number, or the one it was given last, which is still
its own. -/
def Holds (k : Kernel ι) (o : ι) (n : Int) : Prop :=
  n < 0 ∨ k.holder n = some o ∧ k.latest o = n

section

variable {k : Kernel ι} {o o' : ι} {n m : Int}

theorem Holds.holder (h : Holds k o n) (hn : 0 ≤ n) : k.holder n = some o :=
  (h.resolve_left (Int.not_lt.mpr hn)).1

/-- A number that nobody holds is in nobody's right record. -/
theorem not_holds_of_free (hn : 0 ≤ n) (h : k.holder n = none) : ¬ Holds k o n := by
  intro hholds
  rw [hholds.holder hn] at h
  cases h

/-- Two owners have different numbers. -/
theorem ne_of_holds (h : Holds k o n) (h' : Holds k o' m) (hne : o ≠ o') (hn : 0 ≤ n)
    (hm : 0 ≤ m) : n ≠ m := by
  rintro rfl
  exact hne (Option.some.inj ((h.holder hn).symm.trans (h'.holder hm)))

variable [DecidableEq ι]

/-- A request gives the owner a right record. -/
theorem holds_acquire (k : Kernel ι) (o : ι) (n : Int) : Holds (call k (.acquire o n)).1 o n := by
  rcases Int.lt_or_le n 0 with hn | hn
  · exact Or.inl hn
  · refine Or.inr ⟨?_, Function.update_self ..⟩
    show (if 0 ≤ n then Function.update k.holder n (some o) else k.holder) n = some o
    rw [if_pos hn, Function.update_self]

@[simp] theorem holder_release (k : Kernel ι) (o : ι) (n : Int) :
    (call k (.release o n)).1.holder n = none := Function.update_self ..

theorem holder_acquire_of_neg (hm : m < 0) :
    (call k (.acquire o m)).1.holder = k.holder := if_neg (Int.not_le.mpr hm)

theorem holder_acquire (hn : 0 ≤ n) : (call k (.acquire o n)).1.holder n = some o :=
  (holds_acquire k o n).holder hn

/-- One call of another owner leaves the record right. -/
theorem holds_call_of_ne {c : Call ι} (hne : c.owner ≠ o) (hlawful : Lawful k c)
    (howned : Owned k c) (h : Holds k o n) : Holds (call k c).1 o n := by
  refine h.imp_right fun ⟨hholder, hlatest⟩ => ?_
  cases c with
  | acquire o' m =>
    refine ⟨?_, (Function.update_of_ne hne.symm ..).trans hlatest⟩
    -- a number that is held is not handed out
    show (if 0 ≤ m then Function.update k.holder m (some o') else k.holder) n = some o
    split_ifs with hm
    · rw [Function.update_of_ne, hholder]
      rintro rfl
      rw [hlawful hm] at hholder
      cases hholder
    · exact hholder
  | release o' m =>
    refine ⟨?_, hlatest⟩
    show Function.update k.holder m none n = some o
    rw [Function.update_of_ne, hholder]
    rintro rfl
    exact hne (Option.some.inj (howned.symm.trans hholder))
  | use o' m => exact ⟨hholder, hlatest⟩

/-- No call of another owner gives the owner a number. -/
theorem holds_of_call_of_ne {c : Call ι} (hne : c.owner ≠ o) (h : Holds (call k c).1 o n) :
    Holds k o n := by
  refine h.imp_right fun ⟨hholder, hlatest⟩ => ?_
  -- another owner's call can only take the handle away, which would show in its holder
  cases c with
  | acquire o' m =>
    refine ⟨?_, (Function.update_of_ne hne.symm ..).symm.trans hlatest⟩
    change (if 0 ≤ m then Function.update k.holder m (some o') else k.holder) n = some o at hholder
    split_ifs at hholder with hm
    · rwa [Function.update_of_ne] at hholder
      rintro rfl
      rw [Function.update_self] at hholder
      exact hne (Option.some.inj hholder)
    · exact hholder
  | release o' m =>
    refine ⟨?_, hlatest⟩
    change Function.update k.holder m none n = some o at hholder
    rwa [Function.update_of_ne] at hholder
    rintro rfl
    rw [Function.update_self] at hholder
    cases hholder
  | use o' m => exact ⟨hholder, hlatest⟩

end

/-- **The calls of others** leave an owner's record right. -/
theorem holds_run_of_ne [DecidableEq ι] {k : Kernel ι} {o : ι} {n : Int} {cs : List (Call ι)}
    (hne : ∀ c ∈ cs, c.owner ≠ o) (hlawful : Along call Lawful k cs)
    (howned : Along call Owned k cs) (h : Holds k o n) :
    Holds (finalState call k cs) o n := by
  induction cs generalizing k with
  | nil => exact h
  | cons c cs ih =>
    rw [List.forall_mem_cons] at hne
    exact ih hne.2 hlawful.2 howned.2 (holds_call_of_ne hne.1 hlawful.1 howned.1 h)

theorem holds_of_run_of_ne [DecidableEq ι] {k : Kernel ι} {o : ι} {n : Int} {cs : List (Call ι)}
    (hne : ∀ c ∈ cs, c.owner ≠ o) (h : Holds (finalState call k cs) o n) : Holds k o n := by
  induction cs generalizing k with
  | nil => exact h
  | cons c cs ih =>
    rw [List.forall_mem_cons] at hne
    exact holds_of_call_of_ne hne.1 (ih hne.2 h)

end Handles
