import SN110.Minilib.Malloc
import SN110.Lib.Words

/-!
# Starting threads (`minithread.c`, `syscalls.S`)

`pthread_create` takes a stack of 8 KiB from the heap, which is never given back, and
`_thread_create` puts the function and its argument on top of it before the `clone`. The child runs
when the scheduler lets it, and only then loads the two words. Until then its parent may have
started others, and these may have run and ended.

* `threadCreate` and `childPath`: the two sides of `_thread_create`.
* `spawnStep`: what the caller sees, a function and its argument for each child.
* `threads_refine`: every child enters the function that it was created with, and the stacks do not
  overlap.
-/

namespace SN110

open Run Words

/-! ## The code -/

/-- A `start_routine` and its `arg`. -/
structure Routine where
  fn : UInt32
  arg : UInt32

/-- `_thread_create` up to the `clone`: what it has put on the child's stack, and the `sp` of the
child. -/
def threadCreate (mem : Nat → UInt8) (stackTop : UInt32) (r : Routine) :
    (Nat → UInt8) × UInt32 :=
  let r0 := stackTop &&& ~~~7
  let r0 := r0 - 4
  let mem := setWord mem r0.toNat r.arg
  let r0 := r0 - 4
  let mem := setWord mem r0.toNat r.fn
  (mem, r0)

/-- `_thread_create` in the child up to the call: the function and the argument that it loads, and
its `sp`. -/
def childPath (mem : Nat → UInt8) (sp : UInt32) : Routine × UInt32 :=
  (⟨word mem sp.toNat, word mem (sp + 4).toNat⟩, sp + 8)

/-- A child, with its `sp`: it has not run yet, or it has come to its function. -/
inductive Child where
  | cloned (sp : UInt32)
  | running (sp : UInt32)

/-- The heap, the memory and the children by their `pid`. -/
structure Process where
  heap : HeapState
  mem : Nat → UInt8
  children : Int → Option Child

/-- `pthread_create`, when `clone` returns `pid`. -/
def pthreadCreate (buf : HeapBuf) (s : Process) (r : Routine) (pid : Int) : Process × Int :=
  match (malloc buf s.heap threadStackSize).2 with
  | none => ({ s with heap := (malloc buf s.heap threadStackSize).1 }, 12)
  | some stack =>
    let created := threadCreate s.mem (stack + threadStackSize) r
    let s := { s with heap := (malloc buf s.heap threadStackSize).1, mem := created.1 }
    if pid < 0 then (s, -pid)
    else ({ s with children := Function.update s.children pid (some (.cloned created.2)) }, 0)

/-! ## Runs -/

/-- What happens: a thread calls `pthread_create`, the scheduler lets a child run for the first
time, a child or another thread stores a byte, or a child's function returns. -/
inductive ProcessEvent where
  | create (r : Routine) (pid : Int)
  | start (pid : Int)
  | store (pid : Int) (addr : Nat) (v : UInt8)
  | exit (pid : Int)

/-- What there is to see: the value of `pthread_create`, and the call that a child makes. -/
inductive ThreadAction where
  | created (ret : Int)
  | entered (pid : Int) (r : Routine)

def processStep (buf : HeapBuf) (s : Process) : ProcessEvent → Process × List ThreadAction
  | .create r pid => ((pthreadCreate buf s r pid).1, [.created (pthreadCreate buf s r pid).2])
  | .start pid =>
    match s.children pid with
    | some (.cloned sp) =>
      ({ s with
          children := Function.update s.children pid (some (.running (childPath s.mem sp).2)) },
        [.entered pid (childPath s.mem sp).1])
    | _ => (s, [])
  | .store _ addr v => ({ s with mem := Function.update s.mem addr v }, [])
  | .exit pid => ({ s with children := Function.update s.children pid none }, [])

/-- A process that has not started a thread. -/
def Process.initial (mem : Nat → UInt8) : Process := ⟨.initial, mem, fun _ => none⟩

/-- The stack of a child that has come to its function: 8 KiB below where it started from. -/
def Process.OnStack (s : Process) (pid : Int) (addr : Nat) : Prop :=
  ∃ sp, s.children pid = some (.running sp) ∧
    sp.toNat ≤ addr + threadStackSize.toNat ∧ addr < sp.toNat

/-- What the threads see to: they store to their own stacks or outside the heap, which holds nothing
but stacks. -/
def ProcessEvent.Proper (buf : HeapBuf) (s : Process) : ProcessEvent → Prop
  | .store pid addr _ =>
    s.OnStack pid addr ∨ addr < buf.addr.toNat ∨ buf.addr.toNat + heapBufSize.toNat ≤ addr
  | _ => True

/-! ## The threads as the caller sees them -/

/-- How many stacks have been taken, and the children that have not run yet. -/
structure Spawned where
  taken : Nat
  waiting : Int → Option Routine

/-- The heap has room for four stacks, and each call takes one, even if `clone` fails. -/
def spawnStep (s : Spawned) : ProcessEvent → Spawned × List ThreadAction
  | .create r pid =>
    if 4 ≤ s.taken then (s, [.created 12])
    else if pid < 0 then ({ s with taken := s.taken + 1 }, [.created (-pid)])
    else (⟨s.taken + 1, Function.update s.waiting pid (some r)⟩, [.created 0])
  | .start pid =>
    match s.waiting pid with
    | some r => ({ s with waiting := Function.update s.waiting pid none }, [.entered pid r])
    | none => (s, [])
  | .store _ _ _ => (s, [])
  | .exit pid => ({ s with waiting := Function.update s.waiting pid none }, [])

/-! ## One stack -/

/-- The end of the `k`-th stack, counted from 0. -/
def stackEnd (buf : HeapBuf) (k : Nat) : Nat := buf.addr.toNat + 8192 * (k + 1)

section Stack

variable {buf : HeapBuf} {heap : HeapState} {k : Nat}

/-- `pthread_create` takes the next stack as long as there are fewer than four. -/
theorem malloc_stack (hk : heap.heapUsed.toNat = 8192 * k) (hroom : k < 4) :
    ∃ stack, (malloc buf heap threadStackSize).2 = some stack ∧
      (malloc buf heap threadStackSize).1.heapUsed.toNat = 8192 * (k + 1) ∧
      (stack + threadStackSize).toNat = stackEnd buf k := by
  have hround : roundUp8 threadStackSize.toNat = 8192 := by decide
  have hfits := buf.fits
  have hsize : heapBufSize.toNat = 32768 := by decide
  obtain ⟨hstack, hused⟩ := @malloc_granted buf heap threadStackSize (by rw [hround, hsize]; omega)
  rw [hround] at hused
  refine ⟨_, hstack, by omega, ?_⟩
  rw [UInt32.toNat_add, UInt32.toNat_add, stackEnd]
  rw [show threadStackSize.toNat = 8192 by decide]
  omega

/-- A fifth stack does not fit the heap: `malloc` fails with `ENOMEM`. -/
theorem malloc_noStack (hk : heap.heapUsed.toNat = 8192 * k) (hfull : k = 4) :
    malloc buf heap threadStackSize = ({ heap with errno := 12 }, none) := by
  have hround : roundUp8 threadStackSize.toNat = 8192 := by decide
  have hsize : heapBufSize.toNat = 32768 := by decide
  exact malloc_refused (by rw [hround, hsize]; omega) (by rw [hround]; omega)

/-- What `_thread_create` leaves: the two words in front of the stack's end, and nothing else. -/
theorem threadCreate_eq {stackTop : UInt32} (htop : stackTop.toNat = stackEnd buf k) (hroom : k < 4)
    (mem : Nat → UInt8) (r : Routine) :
    (threadCreate mem stackTop r).2.toNat + 8 = stackEnd buf k ∧
      (threadCreate mem stackTop r).1
        = setWord (setWord mem (stackEnd buf k - 4) r.arg) (stackEnd buf k - 8) r.fn := by
  have haligned := buf.aligned
  have hfits := buf.fits
  have hsize : heapBufSize.toNat = 32768 := by decide
  have hend : stackEnd buf k = buf.addr.toNat + 8192 * (k + 1) := rfl
  have hmask : (stackTop &&& ~~~7).toNat = stackEnd buf k := by
    rw [toNat_and_not_seven, htop]
    omega
  -- argument and routine are stored in the two words below the aligned top
  have hfour : ((stackTop &&& ~~~7) - 4).toNat = stackEnd buf k - 4 := by
    rw [UInt32.toNat_sub, hmask]
    show (2 ^ 32 - 4 + _) % 2 ^ 32 = _
    omega
  have height : ((stackTop &&& ~~~7) - 4 - 4).toNat = stackEnd buf k - 8 := by
    rw [UInt32.toNat_sub, hfour]
    show (2 ^ 32 - 4 + _) % 2 ^ 32 = _
    omega
  refine ⟨?_, ?_⟩
  · show ((stackTop &&& ~~~7) - 4 - 4).toNat + 8 = _
    omega
  · unfold threadCreate
    dsimp only
    rw [hfour, height]

/-- The child loads what has been put on its stack. -/
theorem childPath_eq {mem : Nat → UInt8} {sp : UInt32} {r : Routine} {e : Nat}
    (hsp : sp.toNat + 8 = e) (hlt : e < 2 ^ 32) (hfn : word mem (e - 8) = r.fn)
    (harg : word mem (e - 4) = r.arg) :
    (childPath mem sp).1 = r ∧ (childPath mem sp).2.toNat = e := by
  -- the stack lies within the address space, so the sums do not wrap
  have hfour : (sp + 4).toNat = e - 4 := by
    rw [UInt32.toNat_add]
    show (_ + 4) % 2 ^ 32 = _
    omega
  have hzero : sp.toNat = e - 8 := by omega
  refine ⟨?_, ?_⟩
  · unfold childPath
    dsimp only
    rw [hfour, hzero, hfn, harg]
  · show (sp + 8).toNat = e
    rw [UInt32.toNat_add]
    show (_ + 8) % 2 ^ 32 = _
    omega

end Stack

/-! ## All stacks -/

/-- Where the stack of a child ends. -/
def Child.stackEnd : Child → Nat
  | .cloned sp => sp.toNat + 8
  | .running sp => sp.toNat

/-- The words that a child has still to load are those of its routine. -/
def Waits (mem : Nat → UInt8) (child : Option Child) (waiting : Option Routine) : Prop :=
  match child with
  | some (.cloned sp) =>
    ∃ r, waiting = some r ∧ word mem (sp.toNat + 8 - 8) = r.fn ∧
      word mem (sp.toNat + 8 - 4) = r.arg
  | _ => waiting = none

/-- The process does what the caller sees: the heap is the stacks that have been taken, each child
has one of its own, and those that have not run yet have their words. -/
structure Process.Sim (buf : HeapBuf) (s : Process) (sp : Spawned) : Prop where
  heap : s.heap.heapUsed.toNat = 8192 * sp.taken
  taken_le : sp.taken ≤ 4
  stack : ∀ {pid c}, s.children pid = some c → ∃ k < sp.taken, c.stackEnd = stackEnd buf k
  distinct : ∀ {pid pid' c c'}, s.children pid = some c → s.children pid' = some c' →
    c.stackEnd = c'.stackEnd → pid = pid'
  waiting : ∀ pid, Waits s.mem (s.children pid) (sp.waiting pid)

/-- The children's stacks lie in the heap and do not overlap. -/
structure Process.StacksSound (buf : HeapBuf) (s : Process) : Prop where
  inside : ∀ {pid c}, s.children pid = some c →
    buf.addr.toNat + threadStackSize.toNat ≤ c.stackEnd ∧
      c.stackEnd ≤ buf.addr.toNat + heapBufSize.toNat
  apart : ∀ {pid pid' c c'}, s.children pid = some c → s.children pid' = some c' → pid ≠ pid' →
    c.stackEnd + threadStackSize.toNat ≤ c'.stackEnd ∨
      c'.stackEnd + threadStackSize.toNat ≤ c.stackEnd

section Sim

variable {buf : HeapBuf} {s : Process} {sp : Spawned} {pid : Int}

/-- The end of a stack is an address. -/
theorem stackEnd_lt (buf : HeapBuf) {k : Nat} (hk : k < 4) : stackEnd buf k < 2 ^ 32 := by
  have hfits := buf.fits
  have hsize : heapBufSize.toNat = 32768 := by decide
  unfold stackEnd
  omega

/-- In simulation, the stacks of the live children lie in the heap and apart. -/
theorem Process.Sim.stacksSound (h : s.Sim buf sp) : s.StacksSound buf where
  inside hc := by
    obtain ⟨k, hk, hend⟩ := h.stack hc
    have hle := h.taken_le
    rw [hend, stackEnd, show threadStackSize.toNat = 8192 by decide,
      show heapBufSize.toNat = 32768 by decide]
    omega
  apart hc hc' hne := by
    obtain ⟨k, -, hend⟩ := h.stack hc
    -- two children have two numbers, and the stacks are numbered upwards
    obtain ⟨k', -, hend'⟩ := h.stack hc'
    have hends := mt (h.distinct hc hc') hne
    rw [hend, hend'] at hends ⊢
    unfold stackEnd at hends ⊢
    rw [show threadStackSize.toNat = 8192 by decide]
    omega

/-- At start-up no child was made. -/
theorem sim_initial (buf : HeapBuf) (mem : Nat → UInt8) :
    (Process.initial mem).Sim buf ⟨0, fun _ => none⟩ where
  heap := rfl
  taken_le := by decide
  stack h := nomatch h
  distinct h := nomatch h
  waiting _ := rfl

/-- A store that keeps out of the two words on top of a stack leaves what waits there. -/
theorem Waits.congr {mem mem' : Nat → UInt8} {child : Option Child} {waiting : Option Routine}
    (h : Waits mem child waiting)
    (hmem : ∀ sp, child = some (.cloned sp) → ∀ k < 8, mem' (sp.toNat + k) = mem (sp.toNat + k)) :
    Waits mem' child waiting := by
  rcases child with - | sp | sp
  · exact h
  -- the two words below the top are as they were
  · obtain ⟨r, hwaiting, hfn, harg⟩ := h
    refine ⟨r, hwaiting, ?_, ?_⟩
    · rw [← hfn]
      exact word_congr fun k hk => hmem sp rfl k (by omega)
    · rw [← harg]
      refine word_congr fun k hk => ?_
      rw [show sp.toNat + 8 - 4 + k = sp.toNat + (4 + k) by omega]
      exact hmem sp rfl (4 + k) (by omega)
  · exact h

/-- A child with a stack of its own comes to the others. -/
theorem Process.Sim.clone (h : s.Sim buf sp) (hroom : sp.taken < 4) {heap : HeapState}
    (hheap : heap.heapUsed.toNat = 8192 * (sp.taken + 1)) {mem : Nat → UInt8}
    (hmem : ∀ a < stackEnd buf sp.taken - 8, mem a = s.mem a) :
    Process.Sim buf { s with heap := heap, mem := mem } ⟨sp.taken + 1, sp.waiting⟩ where
  heap := hheap
  taken_le := hroom
  stack hc := by
    obtain ⟨k, hk, hend⟩ := h.stack hc
    exact ⟨k, Nat.lt_succ_of_lt hk, hend⟩
  distinct := h.distinct
  -- an older stack ends before the new one starts
  waiting pid := by
    refine (h.waiting pid).congr fun stackPtr hc k hk => hmem _ ?_
    obtain ⟨j, hj, hend⟩ := h.stack hc
    have hend' : stackPtr.toNat + 8 = stackEnd buf j := hend
    unfold stackEnd at hend' ⊢
    omega

/-- A child is entered by its `pid`: with a stack that nobody has and its words on it. -/
theorem Process.Sim.adopt (h : s.Sim buf sp) {ptr : UInt32} {r : Routine} {k : Nat}
    (hk : k < sp.taken) (hend : ptr.toNat + 8 = stackEnd buf k)
    (hnew : ∀ {pid c}, s.children pid = some c → c.stackEnd ≠ stackEnd buf k)
    (hfn : word s.mem (ptr.toNat + 8 - 8) = r.fn) (harg : word s.mem (ptr.toNat + 8 - 4) = r.arg) :
    Process.Sim buf { s with children := Function.update s.children pid (some (.cloned ptr)) }
      { sp with waiting := Function.update sp.waiting pid (some r) } where
  heap := h.heap
  taken_le := h.taken_le
  stack {pid' c} hc := by
    dsimp only at hc
    by_cases hpid : pid' = pid
    · rw [hpid, Function.update_self] at hc
      cases hc
      exact ⟨k, hk, hend⟩
    · rw [Function.update_of_ne hpid] at hc
      exact h.stack hc
  distinct {pid₁ pid₂ c₁ c₂} hc₁ hc₂ heq := by
    dsimp only at hc₁ hc₂
    by_cases h₁ : pid₁ = pid <;> by_cases h₂ : pid₂ = pid
    · exact h₁.trans h₂.symm
    · rw [h₁, Function.update_self] at hc₁
      rw [Function.update_of_ne h₂] at hc₂
      cases hc₁
      exact absurd (heq.symm.trans hend) (hnew hc₂)
    · rw [h₂, Function.update_self] at hc₂
      rw [Function.update_of_ne h₁] at hc₁
      cases hc₂
      exact absurd (heq.trans hend) (hnew hc₁)
    · rw [Function.update_of_ne h₁] at hc₁
      rw [Function.update_of_ne h₂] at hc₂
      exact h.distinct hc₁ hc₂ heq
  waiting pid' := by
    dsimp only
    by_cases hpid : pid' = pid
    · rw [hpid, Function.update_self, Function.update_self]
      exact ⟨r, rfl, hfn, harg⟩
    · rw [Function.update_of_ne hpid, Function.update_of_ne hpid]
      exact h.waiting pid'

/-- A child that waits no longer: it keeps its stack, or it is gone. -/
theorem Process.Sim.retire (h : s.Sim buf sp) {child : Option Child}
    (hkept : ∀ c, child = some c →
      ∃ stackPtr, c = .running stackPtr ∧ ∃ c', s.children pid = some c' ∧
        c'.stackEnd = stackPtr.toNat) :
    Process.Sim buf { s with children := Function.update s.children pid child }
      { sp with waiting := Function.update sp.waiting pid none } where
  heap := h.heap
  taken_le := h.taken_le
  stack {pid' c} hc := by
    dsimp only at hc
    by_cases hpid : pid' = pid
    · rw [hpid, Function.update_self] at hc
      obtain ⟨stackPtr, rfl, c', hc', hend⟩ := hkept c hc
      obtain ⟨k, hk, hend'⟩ := h.stack hc'
      exact ⟨k, hk, hend.symm.trans hend'⟩
    · rw [Function.update_of_ne hpid] at hc
      exact h.stack hc
  distinct {pid₁ pid₂ c₁ c₂} hc₁ hc₂ heq := by
    dsimp only at hc₁ hc₂
    by_cases h₁ : pid₁ = pid <;> by_cases h₂ : pid₂ = pid
    · exact h₁.trans h₂.symm
    · rw [h₁, Function.update_self] at hc₁
      rw [Function.update_of_ne h₂] at hc₂
      obtain ⟨stackPtr, rfl, c', hc', hend⟩ := hkept c₁ hc₁
      exact h₁.trans (h.distinct hc' hc₂ (hend.trans heq))
    · rw [h₂, Function.update_self] at hc₂
      rw [Function.update_of_ne h₁] at hc₁
      obtain ⟨stackPtr, rfl, c', hc', hend⟩ := hkept c₂ hc₂
      exact (h.distinct hc₁ hc' (heq.trans hend.symm)).trans h₂.symm
    · rw [Function.update_of_ne h₁] at hc₁
      rw [Function.update_of_ne h₂] at hc₂
      exact h.distinct hc₁ hc₂ heq
  waiting pid' := by
    dsimp only
    by_cases hpid : pid' = pid
    · rw [hpid, Function.update_self, Function.update_self]
      cases child with
      | none => rfl
      | some c =>
        obtain ⟨stackPtr, rfl, -⟩ := hkept c rfl
        rfl
    · rw [Function.update_of_ne hpid, Function.update_of_ne hpid]
      exact h.waiting pid'

/-- The step of the process and of the caller's view show the same, and they agree afterwards. -/
def Process.Agrees (buf : HeapBuf) (s : Process) (sp : Spawned) (e : ProcessEvent) : Prop :=
  (processStep buf s e).2 = (spawnStep sp e).2 ∧
    (processStep buf s e).1.Sim buf (spawnStep sp e).1

/-- An event agrees when both sides act alike and stay in simulation. -/
theorem agrees_of_eq {e : ProcessEvent} {s' : Process} {sp' : Spawned}
    {actions : List ThreadAction} (hprocess : processStep buf s e = (s', actions))
    (hspawn : spawnStep sp e = (sp', actions)) (hsim : s'.Sim buf sp') : s.Agrees buf sp e := by
  unfold Process.Agrees
  rw [hprocess, hspawn]
  exact ⟨rfl, hsim⟩

/-- `pthread_create` with a stack. -/
theorem pthreadCreate_stack {stack : UInt32}
    (hstack : (malloc buf s.heap threadStackSize).2 = some stack) (r : Routine) (pid : Int) :
    pthreadCreate buf s r pid =
      if pid < 0 then
        ({ s with
            heap := (malloc buf s.heap threadStackSize).1
            mem := (threadCreate s.mem (stack + threadStackSize) r).1 }, -pid)
      else
        ({ heap := (malloc buf s.heap threadStackSize).1
           mem := (threadCreate s.mem (stack + threadStackSize) r).1
           children := Function.update s.children pid
             (some (.cloned (threadCreate s.mem (stack + threadStackSize) r).2)) }, 0) := by
  unfold pthreadCreate
  rw [hstack]

/-- A created thread gets a stack of its own, or the creation fails where none is left. -/
theorem agrees_create (h : s.Sim buf sp) (r : Routine) : s.Agrees buf sp (.create r pid) := by
  by_cases hfull : 4 ≤ sp.taken
  · have hnone := @malloc_noStack buf s.heap _ h.heap (Nat.le_antisymm h.taken_le hfull)
    have hcreate :
        pthreadCreate buf s r pid = ({ s with heap := ⟨s.heap.heapUsed, 12⟩ }, 12) := by
      unfold pthreadCreate
      rw [hnone]
    have hsim : Process.Sim buf { s with heap := ⟨s.heap.heapUsed, 12⟩ } sp :=
      ⟨h.heap, h.taken_le, h.stack, h.distinct, h.waiting⟩
    exact agrees_of_eq (by rw [processStep, hcreate]) (by rw [spawnStep, if_pos hfull]) hsim
  · have hroom : sp.taken < 4 := Nat.lt_of_not_le hfull
    obtain ⟨stack, hstack, hused, htop⟩ := @malloc_stack buf s.heap _ h.heap hroom
    obtain ⟨hend, hmem⟩ := threadCreate_eq htop hroom s.mem r
    have hcreate := pthreadCreate_stack hstack r pid
    generalize (malloc buf s.heap threadStackSize).1 = heap at hused hcreate
    generalize threadCreate s.mem (stack + threadStackSize) r = created at hend hmem hcreate
    have hfloor : 8 ≤ stackEnd buf sp.taken := by
      unfold stackEnd
      omega
    -- what is stored lies inside the new stack's own block
    have hframe : ∀ a < stackEnd buf sp.taken - 8, created.1 a = s.mem a := by
      intro a ha
      rw [hmem, setWord_of_outside (Or.inl ha), setWord_of_outside (Or.inl (by omega))]
    have hclone := h.clone hroom hused hframe
    -- the stack stays taken also when `clone` fails
    by_cases hpid : pid < 0
    · rw [if_pos hpid] at hcreate
      exact agrees_of_eq (by rw [processStep, hcreate])
        (by rw [spawnStep, if_neg hfull, if_pos hpid]) hclone
    · rw [if_neg hpid] at hcreate
      refine agrees_of_eq (by rw [processStep, hcreate])
        (by rw [spawnStep, if_neg hfull, if_neg hpid])
        (hclone.adopt (Nat.lt_succ_self sp.taken) hend (fun {pid' c} hc heq => ?_) ?_ ?_)
      · -- the stacks taken before end earlier
        obtain ⟨k, hk, hend'⟩ := h.stack hc
        rw [hend'] at heq
        unfold stackEnd at heq
        omega
      · dsimp only
        rw [hend, hmem, word_setWord_self]
      · dsimp only
        rw [hend, hmem, word_setWord_of_separate (Or.inl (by omega)), word_setWord_self]

/-- A child starts in its routine with its argument, whatever ran in between. -/
theorem agrees_start (h : s.Sim buf sp) : s.Agrees buf sp (.start pid) := by
  have hwaits := h.waiting pid
  rcases hchild : s.children pid with - | ptr | ptr
  · rw [hchild] at hwaits
    have hnone : sp.waiting pid = none := hwaits
    exact agrees_of_eq (by rw [processStep, hchild]) (by rw [spawnStep, hnone]) h
  · rw [hchild] at hwaits
    obtain ⟨r, hwaiting, hfn, harg⟩ := hwaits
    -- nothing has written to the child's two words since they were stored
    obtain ⟨k, hk, hend⟩ := h.stack hchild
    have hlt := stackEnd_lt buf (Nat.lt_of_lt_of_le hk h.taken_le)
    rw [← hend, Child.stackEnd] at hlt
    obtain ⟨hroutine, hptr⟩ := childPath_eq rfl hlt hfn harg
    refine agrees_of_eq (by rw [processStep, hchild]) (by rw [spawnStep, hwaiting, hroutine])
      (h.retire fun c hc => ?_)
    cases hc
    exact ⟨_, rfl, _, hchild, hptr.symm⟩
  · rw [hchild] at hwaits
    have hnone : sp.waiting pid = none := hwaits
    exact agrees_of_eq (by rw [processStep, hchild]) (by rw [spawnStep, hnone]) h

/-- A byte of a thread's own stack, or outside the heap, is on top of nobody's stack. -/
theorem agrees_store (h : s.Sim buf sp) {addr : Nat} {v : UInt8}
    (hstore : (ProcessEvent.store pid addr v).Proper buf s) :
    s.Agrees buf sp (.store pid addr v) := by
  refine agrees_of_eq rfl rfl ⟨h.heap, h.taken_le, h.stack, h.distinct, fun pid' => ?_⟩
  refine (h.waiting pid').congr fun ptr hchild k hk => Function.update_of_ne ?_ ..
  obtain ⟨hlow, hhigh⟩ := h.stacksSound.inside hchild
  have hstack : threadStackSize.toNat = 8192 := by decide
  have hend : (Child.cloned ptr).stackEnd = ptr.toNat + 8 := rfl
  rcases hstore with ⟨own, hown, hfrom, hto⟩ | hbefore | hbehind
  · -- another's stack ends below this one or begins above it
    have hne : pid' ≠ pid := by
      rintro rfl
      rw [hchild] at hown
      cases hown
    have hends : (Child.running own).stackEnd = own.toNat := rfl
    have hapart := h.stacksSound.apart hchild hown hne
    omega
  · omega
  · omega

/-- **One event**: the process does what the caller sees. -/
theorem process_step (h : s.Sim buf sp) {e : ProcessEvent} (he : e.Proper buf s) :
    s.Agrees buf sp e := by
  cases e with
  | create r pid => exact agrees_create h r
  | start pid => exact agrees_start h
  | store pid addr v => exact agrees_store h he
  | exit pid => exact agrees_of_eq rfl rfl (h.retire fun c hc => nomatch hc)

/-- **A run.** -/
theorem process_run (h : s.Sim buf sp) {es : List ProcessEvent}
    (hes : Along (processStep buf) (ProcessEvent.Proper buf) s es) :
    trace (processStep buf) s es = trace spawnStep sp es ∧
      (finalState (processStep buf) s es).Sim buf (finalState spawnStep sp es) := by
  induction es generalizing s sp with
  | nil => exact ⟨rfl, h⟩
  | cons e es ih =>
    obtain ⟨hshown, hsim⟩ := process_step h hes.1
    obtain ⟨hrest, hfinal⟩ := ih hsim hes.2
    refine ⟨?_, hfinal⟩
    rw [trace_cons, trace_cons, hshown, hrest]

end Sim

/-- **Every child enters its own function.** However late a child runs, whatever threads its parent
has started meanwhile and whatever these have stored to their stacks, it calls the function with the
argument that `pthread_create` was given for it. There are four threads at most, counting those
whose `clone` has failed, and their stacks do not overlap. -/
theorem threads_refine (buf : HeapBuf) (mem : Nat → UInt8) {es : List ProcessEvent}
    (h : Along (processStep buf) (ProcessEvent.Proper buf) (.initial mem) es) :
    trace (processStep buf) (.initial mem) es = trace spawnStep ⟨0, fun _ => none⟩ es ∧
      (finalState (processStep buf) (.initial mem) es).StacksSound buf := by
  obtain ⟨hshown, hsim⟩ := process_run (sim_initial buf mem) h
  exact ⟨hshown, hsim.stacksSound⟩

/-- Two threads are created before the first of them runs. -/
def twoThreads : List ProcessEvent :=
  [.create ⟨0x100, 1⟩ 7, .create ⟨0x200, 2⟩ 8, .start 8, .store 8 0 42, .start 7]

/-- `threads_refine` on two threads, the second created before the first starts. -/
theorem twoThreads_refine :
    trace (processStep someHeapBuf) (.initial fun _ => 0) twoThreads
        = trace spawnStep ⟨0, fun _ => none⟩ twoThreads ∧
      (finalState (processStep someHeapBuf) (.initial fun _ => 0) twoThreads).StacksSound
        someHeapBuf :=
  threads_refine someHeapBuf (fun _ => 0)
    ⟨trivial, trivial, trivial, Or.inr (Or.inl (by decide)), trivial, trivial⟩

end SN110
