import SN110.Lib.Run
import Mathlib.Logic.Function.Basic

/-!
# The spinlock of `minithread.c`

`pthread_mutex_lock` swaps a 1 into the lock until it gets a 0 back, and `pthread_mutex_unlock`
stores a 0. The threads here lock, work on what they share and unlock; a section of this work is a
list of machine steps, between which any other thread may run.

* `mutex_serializable`: every interleaving leaves what the sections leave one after the other, in
  the order in which the lock was taken.
* `mutex_released`: a thread inside that runs often enough gives the lock back, whatever the others
  do meanwhile.
-/

namespace SN110

open Run

variable {τ σ ρ : Type*} [DecidableEq τ]

/-! ## The code -/

/-- `arm_swap`: what was there, and what is there now. -/
def armSwap (lock val : Int) : Int × Int := (lock, val)

/-- `pthread_mutex_init`, and `PTHREAD_MUTEX_INITIALIZER`. -/
def pthreadMutexInit : Int := 0

/-- One round of the loop of `pthread_mutex_lock`: the lock, and whether the loop ends. -/
def pthreadMutexLockRound (lock : Int) : Int × Bool :=
  ((armSwap lock 1).2, decide ((armSwap lock 1).1 = 0))

/-- The loop ends when the lock was free. -/
theorem lockRound_iff {lock : Int} : (pthreadMutexLockRound lock).2 = true ↔ lock = 0 :=
  decide_eq_true_iff

/-- `pthread_mutex_unlock`. -/
def pthreadMutexUnlock (_lock : Int) : Int := 0

/-! ## Threads -/

/-- One machine step of a thread: on what is shared and on the thread's own registers. -/
abbrev Instr (σ ρ : Type*) := σ × ρ → σ × ρ

/-- Where a thread is: outside, in `pthread_mutex_lock` with its section to come, or inside with the
rest of its section. -/
inductive Pc (σ ρ : Type*) where
  | outside
  | locking (body : List (Instr σ ρ))
  | inside (rest : List (Instr σ ρ))

/-- What is shared, and the registers of every thread. -/
structure Mem (τ σ ρ : Type*) where
  shared : σ
  regs : τ → ρ

/-- The lock, where the threads are, and what they work on. -/
structure Threads (τ σ ρ : Type*) where
  lock : Int
  pc : τ → Pc σ ρ
  mem : Mem τ σ ρ

/-- What the scheduler lets happen: a thread that is outside calls `pthread_mutex_lock`, or a thread
takes its next step. -/
inductive Move (τ σ ρ : Type*) where
  | call (t : τ) (body : List (Instr σ ρ))
  | run (t : τ)

/-- A machine step of thread `t`. -/
def Mem.exec (t : τ) (m : Mem τ σ ρ) (f : Instr σ ρ) : Mem τ σ ρ where
  shared := (f (m.shared, m.regs t)).1
  regs := Function.update m.regs t (f (m.shared, m.regs t)).2

/-- What a move does, and the section that it enters. -/
def threadsStep (s : Threads τ σ ρ) : Move τ σ ρ → Threads τ σ ρ × List (τ × List (Instr σ ρ))
  | .call t body =>
    match s.pc t with
    | .outside => ({ s with pc := Function.update s.pc t (.locking body) }, [])
    | _ => (s, [])
  | .run t =>
    match s.pc t with
    | .outside => (s, [])
    | .locking body =>
      if (pthreadMutexLockRound s.lock).2 then
        ({ s with
            lock := (pthreadMutexLockRound s.lock).1
            pc := Function.update s.pc t (.inside body) }, [(t, body)])
      else ({ s with lock := (pthreadMutexLockRound s.lock).1 }, [])
    | .inside (f :: rest) =>
      ({ s with
          mem := s.mem.exec t f
          pc := Function.update s.pc t (.inside rest) }, [])
    | .inside [] =>
      ({ s with
          lock := pthreadMutexUnlock s.lock
          pc := Function.update s.pc t .outside }, [])

/-- All threads are outside a mutex that has been set up. -/
def Threads.start (mem : Mem τ σ ρ) : Threads τ σ ρ where
  lock := pthreadMutexInit
  pc := fun _ => .outside
  mem := mem

/-! ## One section after the other -/

/-- A section run from its start to its end. -/
def Mem.section (m : Mem τ σ ρ) (s : τ × List (Instr σ ρ)) : Mem τ σ ρ := s.2.foldl (Mem.exec s.1) m

/-- The thread is inside. -/
def Threads.Inside (s : Threads τ σ ρ) (t : τ) : Prop := ∃ rest, s.pc t = .inside rest

/-- Nobody is inside: the lock is free and the sections entered are done. -/
structure AllOutside (m : Mem τ σ ρ) (entered : List (τ × List (Instr σ ρ)))
    (s : Threads τ σ ρ) : Prop where
  lock : s.lock = 0
  outside : ∀ t, ¬ s.Inside t
  mem : s.mem = entered.foldl Mem.section m

/-- One thread is inside, alone: the lock is taken, the sections entered before its own are done,
and of its own one what is not left. -/
structure OneInside (m : Mem τ σ ρ) (entered : List (τ × List (Instr σ ρ))) (s : Threads τ σ ρ)
    (t : τ) (rest : List (Instr σ ρ)) : Prop where
  lock : s.lock = 1
  inside : s.pc t = .inside rest
  alone : ∀ t', s.Inside t' → t' = t
  mem : ∃ before ran, entered = before ++ [(t, ran ++ rest)] ∧
    s.mem = ran.foldl (Mem.exec t) (before.foldl Mem.section m)

/-- The threads have done what the sections entered do one after the other. -/
def Serial (m : Mem τ σ ρ) (entered : List (τ × List (Instr σ ρ))) (s : Threads τ σ ρ) : Prop :=
  AllOutside m entered s ∨ ∃ t rest, OneInside m entered s t rest

section

variable {m : Mem τ σ ρ} {entered : List (τ × List (Instr σ ρ))} {s : Threads τ σ ρ} {t : τ}

/-- A thread goes from outside the lock to `pthread_mutex_lock`, which does not take it. -/
theorem inside_update_locking {body : List (Instr σ ρ)} (hout : s.pc t = .outside) (t' : τ)
    (rest : List (Instr σ ρ)) :
    Function.update s.pc t (.locking body) t' = .inside rest ↔ s.pc t' = .inside rest := by
  by_cases ht : t' = t
  · rw [ht, Function.update_self, hout]
    exact iff_of_false nofun nofun
  · rw [Function.update_of_ne ht]

theorem serial_enter {body : List (Instr σ ρ)} (h : AllOutside m entered s) :
    OneInside m (entered ++ [(t, body)])
      { s with lock := 1, pc := Function.update s.pc t (.inside body) } t body where
  lock := rfl
  inside := Function.update_self ..
  alone := by
    rintro t' ⟨rest, hrest⟩
    by_contra hne
    exact h.outside t' ⟨rest, (Function.update_of_ne hne _ _).symm.trans hrest⟩
  mem := ⟨entered, [], rfl, h.mem⟩

theorem serial_exec {f : Instr σ ρ} {rest : List (Instr σ ρ)}
    (h : OneInside m entered s t (f :: rest)) :
    OneInside m entered
      { s with mem := s.mem.exec t f, pc := Function.update s.pc t (.inside rest) } t rest where
  lock := h.lock
  inside := Function.update_self ..
  alone := by
    rintro t' ⟨rest', hrest⟩
    by_contra hne
    exact hne (h.alone t' ⟨rest', (Function.update_of_ne hne _ _).symm.trans hrest⟩)
  mem := by
    obtain ⟨before, ran, hentered, hmem⟩ := h.mem
    refine ⟨before, ran ++ [f], ?_, ?_⟩
    · rw [hentered, List.append_assoc, List.singleton_append]
    · rw [List.foldl_append, ← hmem]
      rfl

theorem serial_leave (h : OneInside m entered s t []) :
    AllOutside m entered
      { s with lock := 0, pc := Function.update s.pc t .outside } where
  lock := rfl
  outside := by
    rintro t' ⟨rest, hrest⟩
    by_cases ht : t' = t
    · rw [ht] at hrest
      have houtside := (Function.update_self t Pc.outside s.pc).symm.trans hrest
      cases houtside
    · exact ht (h.alone t' ⟨rest, (Function.update_of_ne ht _ _).symm.trans hrest⟩)
  mem := by
    obtain ⟨before, ran, hentered, hmem⟩ := h.mem
    rw [hentered, List.foldl_append, List.append_nil]
    exact hmem

/-- A free lock is taken by the next swap, and a taken one is left. -/
theorem run_locking {body : List (Instr σ ρ)} (hpc : s.pc t = .locking body) :
    threadsStep s (.run t) =
      if s.lock = 0 then
        ({ s with lock := 1, pc := Function.update s.pc t (.inside body) }, [(t, body)])
      else ({ s with lock := 1 }, []) := by
  simp only [threadsStep, hpc]
  by_cases hfree : s.lock = 0
  · rw [if_pos (lockRound_iff.mpr hfree), if_pos hfree]
    rfl
  · rw [if_neg fun htrue => hfree (lockRound_iff.mp htrue), if_neg hfree]
    rfl

/-- A step of the thread inside. -/
theorem run_inside {rest : List (Instr σ ρ)} (h : OneInside m entered s t rest) :
    (threadsStep s (.run t)).2 = [] ∧
      match rest with
      | [] => AllOutside m entered (threadsStep s (.run t)).1
      | _ :: rest => OneInside m entered (threadsStep s (.run t)).1 t rest := by
  have hpc := h.inside
  cases rest with
  | nil =>
    simp only [threadsStep, hpc]
    exact ⟨trivial, serial_leave h⟩
  | cons f rest =>
    simp only [threadsStep, hpc]
    exact ⟨trivial, serial_exec h⟩

/-- No other move gets the lock, or disturbs the thread inside. -/
theorem oneInside_step {rest : List (Instr σ ρ)} (h : OneInside m entered s t rest)
    {move : Move τ σ ρ} (hmove : move ≠ .run t) :
    (threadsStep s move).2 = [] ∧ OneInside m entered (threadsStep s move).1 t rest := by
  cases move with
  | call t' body =>
    cases hpc : s.pc t' with
    | outside =>
      simp only [threadsStep, hpc]
      have hsame := @inside_update_locking τ σ ρ _ s t' body hpc
      exact ⟨trivial, h.lock, (hsame t rest).mpr h.inside,
        fun u ⟨rest', hrest'⟩ => h.alone u ⟨rest', (hsame u rest').mp hrest'⟩, h.mem⟩
    | locking body' => simpa only [threadsStep, hpc, true_and] using h
    | inside rest' => simpa only [threadsStep, hpc, true_and] using h
  | run t' =>
    cases hpc : s.pc t' with
    | outside => simpa only [threadsStep, hpc, true_and] using h
    | locking body =>
      rw [run_locking hpc, if_neg (by rw [h.lock]; decide)]
      exact ⟨rfl, rfl, h.inside, h.alone, h.mem⟩
    | inside rest' => exact absurd (congrArg Move.run (h.alone t' ⟨rest', hpc⟩)) hmove

/-- With nobody inside, a move lets one thread in at most. -/
theorem allOutside_step (h : AllOutside m entered s) (move : Move τ σ ρ) :
    Serial m (entered ++ (threadsStep s move).2) (threadsStep s move).1 := by
  cases move with
  -- a thread that asks for the lock is not inside yet
  | call t body =>
    cases hpc : s.pc t with
    | outside =>
      simp only [threadsStep, hpc, List.append_nil]
      refine Or.inl ⟨h.lock, fun u ⟨rest, hrest⟩ => ?_, h.mem⟩
      exact h.outside u ⟨rest, (inside_update_locking hpc u rest).mp hrest⟩
    | locking body' =>
      simp only [threadsStep, hpc, List.append_nil]
      exact Or.inl h
    | inside rest => exact absurd ⟨rest, hpc⟩ (h.outside t)
  | run t =>
    cases hpc : s.pc t with
    | outside =>
      simp only [threadsStep, hpc, List.append_nil]
      exact Or.inl h
    -- the lock is free, so the thread that swaps it is in
    | locking body =>
      rw [run_locking hpc, if_pos h.lock]
      exact Or.inr ⟨t, body, serial_enter h⟩
    | inside rest => exact absurd ⟨rest, hpc⟩ (h.outside t)

/-- **The step lemma.** -/
theorem serial_step (h : Serial m entered s) (move : Move τ σ ρ) :
    Serial m (entered ++ (threadsStep s move).2) (threadsStep s move).1 := by
  rcases h with h | ⟨t, rest, h⟩
  · exact allOutside_step h move
  · by_cases hmove : move = .run t
    · obtain ⟨hnone, hrun⟩ := run_inside h
      rw [hmove, hnone, List.append_nil]
      cases rest with
      | nil => exact Or.inl hrun
      | cons f rest => exact Or.inr ⟨t, rest, hrun⟩
    · obtain ⟨hnone, hkept⟩ := oneInside_step h hmove
      rw [hnone, List.append_nil]
      exact Or.inr ⟨t, rest, hkept⟩

end

/-- Every run. -/
theorem serial_run (m : Mem τ σ ρ) (moves : List (Move τ σ ρ)) :
    Serial m (trace threadsStep (Threads.start m) moves)
      (finalState threadsStep (Threads.start m) moves) := by
  induction moves using List.reverseRecOn with
  | nil => exact Or.inl ⟨rfl, fun t ⟨rest, hrest⟩ => (nomatch hrest), rfl⟩
  | append_singleton moves move ih =>
    rw [trace_append, finalState_concat, trace_cons, trace_nil, List.append_nil]
    exact serial_step ih move

/-- **Sections do not interleave.** Whatever threads there are and however they are scheduled, the
lock is free exactly when nobody is inside, at most one thread is inside, and what the threads share
is what the sections leave that are run one after the other, in the order in which they took the
lock. -/
theorem mutex_serializable (m : Mem τ σ ρ) (moves : List (Move τ σ ρ)) :
    Serial m (trace threadsStep (Threads.start m) moves)
      (finalState threadsStep (Threads.start m) moves) :=
  serial_run m moves

/-! ## Giving the lock back -/

/-- The move is a step of thread `t`. -/
def Move.isRun (t : τ) : Move τ σ ρ → Bool
  | .run t' => decide (t' = t)
  | .call _ _ => false

/-- The steps of a thread among the moves. -/
def runsOf (t : τ) (moves : List (Move τ σ ρ)) : Nat := moves.countP (Move.isRun t)

theorem isRun_iff {t : τ} {move : Move τ σ ρ} : move.isRun t = true ↔ move = .run t := by
  cases move with
  | run t' => exact decide_eq_true_iff.trans ⟨congrArg Move.run, Move.run.inj⟩
  | call t' body => exact iff_of_false nofun nofun

/-- The thread inside leaves once it has run one step more than are left of its section. -/
theorem leaves_of_runs {m : Mem τ σ ρ} {entered : List (τ × List (Instr σ ρ))}
    {s : Threads τ σ ρ} {t : τ} {rest : List (Instr σ ρ)} (h : OneInside m entered s t rest)
    {moves : List (Move τ σ ρ)} (hruns : rest.length < runsOf t moves) :
    ∃ before, before <+: moves ∧ AllOutside m entered (finalState threadsStep s before) := by
  induction moves generalizing s rest with
  | nil => exact absurd hruns (Nat.not_lt_zero rest.length)
  | cons move moves ih =>
    by_cases hmove : move = .run t
    · obtain ⟨-, hrun⟩ := run_inside h
      rw [runsOf, List.countP_cons_of_pos (isRun_iff.mpr hmove), ← runsOf] at hruns
      rw [← hmove] at hrun
      cases rest with
      | nil => exact ⟨[move], List.prefix_append [move] moves, hrun⟩
      | cons f rest =>
        obtain ⟨before, hpre, hfree⟩ := ih hrun (Nat.lt_of_succ_lt_succ hruns)
        exact ⟨move :: before, List.prefix_cons_inj move |>.mpr hpre, hfree⟩
    · obtain ⟨-, hkept⟩ := oneInside_step h hmove
      rw [runsOf, List.countP_cons_of_neg (fun hrun => hmove (isRun_iff.mp hrun)), ← runsOf]
        at hruns
      obtain ⟨before, hpre, hfree⟩ := ih hkept hruns
      exact ⟨move :: before, List.prefix_cons_inj move |>.mpr hpre, hfree⟩

/-- **The lock comes free.** When a thread is inside, and runs one step more than are left of its
section, then there is a moment at which nobody is inside, whatever the other threads do meanwhile;
and any thread that is then in `pthread_mutex_lock` gets the lock with its next step. -/
theorem mutex_released (m : Mem τ σ ρ) (moves later : List (Move τ σ ρ)) (t : τ)
    (rest : List (Instr σ ρ))
    (hinside : (finalState threadsStep (Threads.start m) moves).pc t = .inside rest)
    (hruns : rest.length < runsOf t later) :
    ∃ before, before <+: later ∧
      (∀ u, ¬ (finalState threadsStep (Threads.start m) (moves ++ before)).Inside u) ∧
      ∀ u body, (finalState threadsStep (Threads.start m) (moves ++ before)).pc u = .locking body →
        (threadsStep (finalState threadsStep (Threads.start m) (moves ++ before)) (.run u)).2
          = [(u, body)] := by
  have hserial := serial_run m moves
  rcases hserial with h | ⟨t', rest', h⟩
  · exact absurd ⟨rest, hinside⟩ (h.outside t)
  · obtain rfl := h.alone t ⟨rest, hinside⟩
    obtain rfl := Pc.inside.inj (h.inside.symm.trans hinside)
    obtain ⟨before, hpre, hfree⟩ := leaves_of_runs h hruns
    rw [← finalState_append] at hfree
    refine ⟨before, hpre, hfree.outside, fun u body hlocking => ?_⟩
    rw [run_locking hlocking, if_pos hfree.lock]

/-- One step: count up what is shared. -/
def countUp : Instr Nat Nat := fun x => (x.1 + 1, x.2)

/-- Thread `true` has entered a section of one step, and thread `false` is at the lock. -/
def contended : List (Move Bool Nat Nat) :=
  [.call true [countUp], .run true, .call false [countUp], .run false]

/-- While `false` goes on spinning, `true` does its step and unlocks. -/
def spinning : List (Move Bool Nat Nat) := [.run false, .run true, .run false, .run true]

/-- Nothing is shared but a counter, which is 0. -/
def counterAtZero : Mem Bool Nat Nat := ⟨0, fun _ => 0⟩

/-- The lock comes free with `false` still at it, and `false` takes it. -/
theorem contended_released :
    ∃ before, before <+: spinning ∧
      (∀ u, ¬ (finalState threadsStep (Threads.start counterAtZero)
        (contended ++ before)).Inside u) ∧
      (finalState threadsStep (Threads.start counterAtZero) (contended ++ before)).pc false
        = .locking [countUp] ∧
      (threadsStep (finalState threadsStep (Threads.start counterAtZero) (contended ++ before))
        (.run false)).2 = [(false, [countUp])] := by
  obtain ⟨before, hpre, hfree, htakes⟩ :=
    mutex_released counterAtZero contended spinning true [countUp] rfl (by decide)
  -- the swaps of `false` leave it where it is
  have hspins :
      (finalState threadsStep (Threads.start counterAtZero) (contended ++ before)).pc false
        = .locking [countUp] := by
    unfold spinning at hpre
    simp only [List.prefix_cons_iff, List.prefix_nil] at hpre
    rcases hpre with rfl | ⟨_, rfl, rfl | ⟨_, rfl, rfl | ⟨_, rfl, rfl | ⟨_, rfl, rfl⟩⟩⟩⟩ <;> rfl
  exact ⟨before, hpre, hfree, hspins, htakes false [countUp] hspins⟩

end SN110
