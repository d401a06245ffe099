import SN110.Daemon.Loop
import SN110.Config.Defaults
import SN110.Lib.Handles

/-!
# Who owns the output descriptors

`fds[port]` is the port's record of a descriptor. `dmx_tx_write` closes it and opens the device
again, twice, and when the first of the two opens fails the record keeps the number just closed,
which the kernel can have given to somebody else by the time of the next frame.

The kernel here is `Handles.Kernel`, and the ports share it with the daemon's sockets and files. A
negative record is no descriptor: the code tests `fds[port] < 0`.

* `round_owned` and `round_stale`: what a round of `dmx_output_cycle` does to the port's record.
* `descriptorsOwned_iff`: the runs in which every record stays right.
-/

namespace SN110

open Run Handles

/-- Who can hold a descriptor: a DMX port, or the rest of the daemon. -/
inductive Holder where
  | port (i : Port)
  | other
deriving DecidableEq

/-- A port's system call, as the kernel sees it. -/
def portCall (i : Port) : Syscall → Call Holder
  | .close fd => .release (.port i) fd
  | .open _ fd => .acquire (.port i) fd
  | .write _ fd _ => .use (.port i) fd

/-- The calls of one round of `dmx_output_cycle`'s loop. -/
def roundCalls (cfg : NodeConfig) (t : UInt32) (o : Opens) (i : Port) (p : PortState) :
    List (Call Holder) :=
  (outputPort cfg t o i p).2.map (portCall i)

/-- The calls of `dmx_output_cycle`. -/
def cycleCalls (cfg : NodeConfig) (ms : Nat) (opens : Port → Opens) (st : DaemonState) :
    List (Call Holder) :=
  roundCalls cfg (nowMs ms) (opens 0) 0 (st 0) ++ roundCalls cfg (nowMs ms) (opens 1) 1 (st 1)

/-- The daemon and its kernel. -/
structure System where
  daemon : DaemonState
  kernel : Kernel Holder

/-- What happens to descriptors: the event loop, and what the rest of the daemon opens and
closes. -/
inductive SystemEvent where
  | loop (e : Event)
  | otherOpen (fd : Int)
  | otherClose (fd : Int)

/-- The calls of an event. -/
def SystemEvent.calls (cfg : NodeConfig) (st : DaemonState) : SystemEvent → List (Call Holder)
  | .loop (.outputCycle ms opens) => cycleCalls cfg ms opens st
  | .loop _ => []
  | .otherOpen fd => [.acquire .other fd]
  | .otherClose fd => [.release .other fd]

/-- What an event makes of the daemon. -/
def SystemEvent.daemon (cfg : NodeConfig) (st : DaemonState) : SystemEvent → DaemonState
  | .loop e => (step cfg st e).1
  | _ => st

/-- What the system does on an event. -/
def systemStep (cfg : NodeConfig) (s : System) (e : SystemEvent) : System × List (Call Holder) :=
  ({ daemon := e.daemon cfg s.daemon
     kernel := finalState call s.kernel (e.calls cfg s.daemon) }, e.calls cfg s.daemon)

/-- The kernel hands out no number in use, and the rest of the daemon closes what it opened. -/
def Plausible (cfg : NodeConfig) (s : System) (e : SystemEvent) : Prop :=
  Along call Lawful s.kernel (e.calls cfg s.daemon) ∧
    ∀ fd, e = .otherClose fd → s.kernel.holder fd = some .other

/-- The call that opens a port's device, which a port in mode OFF is spared. -/
def openCalls (cfg : NodeConfig) (opened : Port → Int) (i : Port) : List (Call Holder) :=
  if (cfg.ports i).mode = dmxModeOff then [] else [.acquire (.port i) (opened i)]

/-- What `main` calls before its loop. -/
def startCalls (cfg : NodeConfig) (opened : Port → Int) : List (Call Holder) :=
  openCalls cfg opened 0 ++ openCalls cfg opened 1

/-- The system as `main` enters its loop. -/
def startedSystem (cfg : NodeConfig) (opened : Port → Int) (k : Kernel Holder) : System where
  daemon := initialState cfg opened
  kernel := finalState call k (startCalls cfg opened)

/-- What `main` calls after its loop. -/
def shutdownCalls (st : DaemonState) : List (Call Holder) :=
  [(0 : Port), 1].flatMap fun i => if (st i).fd ≥ 0 then [.release (.port i) (st i).fd] else []

/-- Every port's record is right, and shutting down now would close the ports' own descriptors
only. -/
structure OwnsDescriptors (s : System) : Prop where
  record : ∀ i, Holds s.kernel (.port i) (s.daemon i).fd
  shutdown : Along call Owned s.kernel (shutdownCalls s.daemon)

/-- In every state of the run the ports own their descriptors, and they close and write to no
other. -/
def DescriptorsOwned (cfg : NodeConfig) (s : System) (es : List SystemEvent) : Prop :=
  Along (systemStep cfg)
      (fun s e => OwnsDescriptors s ∧ Along call Owned s.kernel (e.calls cfg s.daemon)) s es ∧
    OwnsDescriptors (finalState (systemStep cfg) s es)

/-- Where a cycle writes, the first `open` of `dmx_tx_write` succeeds. -/
def FirstOpensSucceed (cfg : NodeConfig) (s : System) : SystemEvent → Prop
  | .loop (.outputCycle ms opens) =>
    ∀ i, portAction cfg (nowMs ms) i (s.daemon i) ≠ .leave → 0 ≤ (opens i).first
  | _ => True

/-! ## One round -/

section

variable {cfg : NodeConfig} {t : UInt32} {o : Opens} {i : Port} {p : PortState}
  {k : Kernel Holder}

/-- The calls of a port's round are the port's. -/
theorem owner_roundCalls {c : Call Holder} (h : c ∈ roundCalls cfg t o i p) :
    c.owner = .port i := by
  obtain ⟨s, -, rfl⟩ := List.mem_map.mp h
  cases s <;> rfl

/-- The calls of a write, and the record it leaves. -/
theorem dmxTxWrite_calls {fd : Int} (hfd : 0 ≤ fd) (data : Slots) :
    (dmxTxWrite i fd data o).2.map (portCall i) =
        (if o.first < 0 then [.release (.port i) fd, .acquire (.port i) o.first]
        else [.release (.port i) fd, .acquire (.port i) o.first, .use (.port i) o.first,
          .release (.port i) o.first, .acquire (.port i) o.again]) ∧
      (dmxTxWrite i fd data o).1 = if o.first < 0 then fd else o.again := by
  unfold dmxTxWrite
  rw [if_pos hfd]
  split_ifs <;> exact ⟨rfl, rfl⟩

/-- A round that leaves the port alone, or writes a frame. -/
theorem outputPort_cases (cfg : NodeConfig) (t : UInt32) (o : Opens) (i : Port) (p : PortState) :
    portAction cfg t i p = .leave ∧ outputPort cfg t o i p = (p, []) ∨
      portAction cfg t i p ≠ .leave ∧ 0 ≤ p.fd ∧
        ∃ data, (outputPort cfg t o i p).2 = (dmxTxWrite i p.fd data o).2 ∧
          (outputPort cfg t o i p).1.fd = (dmxTxWrite i p.fd data o).1 := by
  have hopen : portAction cfg t i p ≠ .leave → 0 ≤ p.fd := by
    intro hact
    by_contra hclosed
    exact hact (if_pos (not_le.mp hclosed))
  rw [outputPort_eq]
  cases hact : portAction cfg t i p with
  | leave => exact Or.inl ⟨rfl, rfl⟩
  | send => exact Or.inr ⟨by simp, hopen (by simp [hact]), p.out.data, rfl, rfl⟩
  | blank => exact Or.inr ⟨by simp, hopen (by simp [hact]), blankFrame, rfl, rfl⟩

/-- The old descriptor is closed and the device opened: whatever follows, these calls are the
port's own. -/
theorem owned_roundCalls (h : Holds k (.port i) p.fd) :
    Along call Owned k (roundCalls cfg t o i p) := by
  unfold roundCalls
  rcases outputPort_cases cfg t o i p with ⟨-, hround⟩ | ⟨-, hfd, data, hcalls, -⟩
  · rw [hround]
    exact along_nil
  · rw [hcalls, (dmxTxWrite_calls hfd data).1]
    have hclose : Owned k (.release (.port i) p.fd) := h.holder hfd
    -- after a first open that fails nothing is written
    split_ifs with hfirst
    · exact ⟨hclose, trivial, trivial⟩
    · have hfirst := not_lt.mp hfirst
      exact ⟨hclose, trivial, holder_acquire hfirst, holder_acquire hfirst, trivial, trivial⟩

/-- **A round whose first `open` succeeds** leaves the record right: it is what the second `open`
returned. -/
theorem round_owned (h : Holds k (.port i) p.fd)
    (hfirst : portAction cfg t i p ≠ .leave → 0 ≤ o.first) :
    Holds (finalState call k (roundCalls cfg t o i p)) (.port i)
      (outputPort cfg t o i p).1.fd := by
  unfold roundCalls
  rcases outputPort_cases cfg t o i p with ⟨-, hround⟩ | ⟨hact, hfd, data, hcalls, hrecord⟩
  · rw [hround]
    exact h
  · obtain ⟨hcalls', hrecord'⟩ := dmxTxWrite_calls (i := i) (o := o) hfd data
    rw [if_neg (not_lt.mpr (hfirst hact))] at hcalls' hrecord'
    rw [hcalls, hrecord, hcalls', hrecord']
    exact holds_acquire _ _ _

/-- **A round whose first `open` fails** leaves a number that is nobody's. -/
theorem round_stale (hact : portAction cfg t i p ≠ .leave) (hfirst : o.first < 0) :
    ¬ Holds (finalState call k (roundCalls cfg t o i p)) (.port i)
      (outputPort cfg t o i p).1.fd := by
  unfold roundCalls
  rcases outputPort_cases cfg t o i p with ⟨hleave, -⟩ | ⟨-, hfd, data, hcalls, hrecord⟩
  · exact absurd hleave hact
  -- the old number is closed, and the failed open has given no new one
  · obtain ⟨hcalls', hrecord'⟩ := dmxTxWrite_calls (i := i) (o := o) hfd data
    rw [if_pos hfirst] at hcalls' hrecord'
    rw [hcalls, hrecord, hcalls', hrecord']
    refine not_holds_of_free hfd ?_
    show (call (call k (.release (.port i) p.fd)).1 (.acquire (.port i) o.first)).1.holder p.fd
      = none
    rw [holder_acquire_of_neg hfirst, holder_release]

end

/-! ## One event -/

section

variable {cfg : NodeConfig} {s : System} {e : SystemEvent}

/-- They are not another port's. -/
theorem ne_port_of_mem_roundCalls {t : UInt32} {o : Opens} {i j : Port} {p : PortState}
    (hne : i ≠ j) : ∀ c ∈ roundCalls cfg t o i p, c.owner ≠ .port j := by
  intro c hc
  rw [owner_roundCalls hc]
  exact fun heq => hne (Holder.port.inj heq)

/-- An output cycle runs each port's round on its own state. -/
theorem daemon_outputCycle (cfg : NodeConfig) (st : DaemonState) (ms : Nat)
    (opens : Port → Opens) (i : Port) :
    (SystemEvent.loop (.outputCycle ms opens)).daemon cfg st i
      = (outputPort cfg (nowMs ms) (opens i) i (st i)).1 :=
  (dmxOutputCycle_apply cfg ms opens st i).1

/-- An event other than a cycle leaves the records alone. -/
theorem daemon_fd_of_not_cycle (he : ∀ ms opens, e ≠ .loop (.outputCycle ms opens))
    (st : DaemonState) (i : Port) : (e.daemon cfg st i).fd = (st i).fd := by
  cases e with
  | otherOpen fd => rfl
  | otherClose fd => rfl
  | loop e =>
    refine step_fd_of_not_cycle ?_ cfg st i
    cases e with
    | outputCycle ms opens => exact absurd rfl (he ms opens)
    | _ => rfl

/-- Nor do its calls touch the ports' descriptors. -/
theorem calls_of_not_cycle (he : ∀ ms opens, e ≠ .loop (.outputCycle ms opens))
    (hallowed : Plausible cfg s e) :
    Along call Owned s.kernel (e.calls cfg s.daemon) ∧
      ∀ i, ∀ c ∈ e.calls cfg s.daemon, c.owner ≠ Holder.port i := by
  cases e with
  | otherOpen fd =>
    refine ⟨⟨trivial, trivial⟩, fun i c hc => ?_⟩
    obtain rfl := List.mem_singleton.mp hc
    exact Holder.noConfusion
  | otherClose fd =>
    refine ⟨⟨hallowed.2 fd rfl, trivial⟩, fun i c hc => ?_⟩
    obtain rfl := List.mem_singleton.mp hc
    exact Holder.noConfusion
  | loop e =>
    cases e with
    | outputCycle ms opens => exact absurd rfl (he ms opens)
    | _ => exact ⟨trivial, fun _ _ hc => absurd hc List.not_mem_nil⟩

/-- What a cycle does, round by round: all its calls are the ports' own, and what a round makes of
its port's record is not changed by the other round. -/
theorem cycle_rounds {ms : Nat} {opens : Port → Opens}
    (hrecord : ∀ i, Holds s.kernel (.port i) (s.daemon i).fd)
    (hlawful : Along call Lawful s.kernel (cycleCalls cfg ms opens s.daemon)) :
    Along call Owned s.kernel (cycleCalls cfg ms opens s.daemon) ∧
      ∀ i, ∃ k, Holds k (.port i) (s.daemon i).fd ∧
        (Holds (finalState call s.kernel (cycleCalls cfg ms opens s.daemon)) (.port i)
            (outputPort cfg (nowMs ms) (opens i) i (s.daemon i)).1.fd ↔
          Holds (finalState call k (roundCalls cfg (nowMs ms) (opens i) i (s.daemon i))) (.port i)
            (outputPort cfg (nowMs ms) (opens i) i (s.daemon i)).1.fd) := by
  unfold cycleCalls at hlawful ⊢
  rw [along_append] at hlawful ⊢
  rw [finalState_append]
  obtain ⟨hlawful0, hlawful1⟩ := hlawful
  have howned0 : Along call Owned s.kernel
      (roundCalls cfg (nowMs ms) (opens 0) 0 (s.daemon 0)) := owned_roundCalls (hrecord 0)
  have h01 : (0 : Port) ≠ 1 := by decide
  -- the first round leaves the second port's record right
  have hrecord1 := holds_run_of_ne (ne_port_of_mem_roundCalls h01) hlawful0 howned0 (hrecord 1)
  have howned1 : Along call Owned _
      (roundCalls cfg (nowMs ms) (opens 1) 1 (s.daemon 1)) := owned_roundCalls hrecord1
  refine ⟨⟨howned0, howned1⟩, fun i => ?_⟩
  match i with
  | 0 =>
    exact ⟨s.kernel, hrecord 0, fun h => holds_of_run_of_ne (ne_port_of_mem_roundCalls h01.symm) h,
      fun h => holds_run_of_ne (ne_port_of_mem_roundCalls h01.symm) hlawful1 howned1 h⟩
  | 1 => exact ⟨_, hrecord1, Iff.rfl⟩

/-- Right records make shutting down safe: the two ports have different descriptors. -/
theorem ownsDescriptors_of_record (h : ∀ i, Holds s.kernel (.port i) (s.daemon i).fd) :
    OwnsDescriptors s := by
  refine ⟨h, ?_⟩
  have h01 : Holder.port 0 ≠ Holder.port 1 := by decide
  unfold shutdownCalls
  rw [List.flatMap_cons, List.flatMap_cons, List.flatMap_nil, List.append_nil]
  -- the shutdown closes what is recorded, and the two records differ
  split_ifs with h0 h1 h1
  · refine ⟨(h 0).holder h0, ?_, trivial⟩
    show Function.update s.kernel.holder (s.daemon 0).fd none (s.daemon 1).fd = some (.port 1)
    rw [Function.update_of_ne (ne_of_holds (h 1) (h 0) h01.symm h1 h0)]
    exact (h 1).holder h1
  · exact ⟨(h 0).holder h0, trivial⟩
  · exact ⟨(h 1).holder h1, trivial⟩
  · exact trivial

/-- **One event, the opens succeeding**: all its calls are on the callers' own descriptors, and
the records stay right. -/
theorem systemStep_owned (hrecord : ∀ i, Holds s.kernel (.port i) (s.daemon i).fd)
    (hallowed : Plausible cfg s e) (hfirst : FirstOpensSucceed cfg s e) :
    Along call Owned s.kernel (e.calls cfg s.daemon) ∧
      ∀ i, Holds (systemStep cfg s e).1.kernel (.port i) ((systemStep cfg s e).1.daemon i).fd := by
  show _ ∧ ∀ i, Holds (finalState call s.kernel (e.calls cfg s.daemon)) (.port i)
    (e.daemon cfg s.daemon i).fd
  -- only an output cycle makes calls for the ports
  rcases Classical.em (∃ ms opens, e = .loop (.outputCycle ms opens)) with ⟨ms, opens, rfl⟩ | he
  · obtain ⟨howned, hrounds⟩ := cycle_rounds hrecord hallowed.1
    refine ⟨howned, fun i => ?_⟩
    obtain ⟨k, hk, hiff⟩ := hrounds i
    rw [daemon_outputCycle]
    exact hiff.mpr (round_owned hk (hfirst i))
  · have he' : ∀ ms opens, e ≠ .loop (.outputCycle ms opens) :=
      fun ms opens heq => he ⟨ms, opens, heq⟩
    obtain ⟨howned, hne⟩ := calls_of_not_cycle he' hallowed
    refine ⟨howned, fun i => ?_⟩
    rw [daemon_fd_of_not_cycle he']
    exact holds_run_of_ne (hne i) hallowed.1 howned (hrecord i)

/-- **One event with a failing first `open`** leaves a port a number that is not its own. -/
theorem systemStep_stale (hrecord : ∀ i, Holds s.kernel (.port i) (s.daemon i).fd)
    (hallowed : Plausible cfg s e) (hfirst : ¬ FirstOpensSucceed cfg s e) :
    ¬ OwnsDescriptors (systemStep cfg s e).1 := by
  intro howns
  cases e with
  | otherOpen fd => exact hfirst trivial
  | otherClose fd => exact hfirst trivial
  | loop e =>
    cases e with
    -- a port whose first open fails has lost the descriptor in its record
    | outputCycle ms opens =>
      refine hfirst fun i hact => ?_
      by_contra hneg
      obtain ⟨k, -, hiff⟩ := (cycle_rounds hrecord hallowed.1).2 i
      have hafter := howns.record i
      change Holds (finalState call s.kernel (cycleCalls cfg ms opens s.daemon)) (.port i)
        ((SystemEvent.loop (.outputCycle ms opens)).daemon cfg s.daemon i).fd at hafter
      rw [daemon_outputCycle] at hafter
      exact round_stale hact (not_le.mp hneg) (hiff.mp hafter)
    | _ => exact hfirst trivial

end

/-! ## Runs -/

/-- Where every call is on an own descriptor, each port holds the one it has recorded. -/
theorem ownsDescriptors_of_descriptorsOwned {cfg : NodeConfig} {s : System}
    {es : List SystemEvent} (h : DescriptorsOwned cfg s es) : OwnsDescriptors s := by
  cases es with
  | nil => exact h.2
  | cons e es => exact h.1.1.1

/-- From records that are right, the descriptors are owned exactly while the first opens
succeed. -/
theorem descriptorsOwned_iff_of_record {cfg : NodeConfig} {s : System} {es : List SystemEvent}
    (hrecord : ∀ i, Holds s.kernel (.port i) (s.daemon i).fd)
    (hallowed : Along (systemStep cfg) (Plausible cfg) s es) :
    DescriptorsOwned cfg s es ↔ Along (systemStep cfg) (FirstOpensSucceed cfg) s es := by
  induction es generalizing s with
  | nil => exact iff_of_true ⟨trivial, ownsDescriptors_of_record hrecord⟩ trivial
  | cons e es ih =>
    rcases Classical.em (FirstOpensSucceed cfg s e) with hfirst | hfirst
    · obtain ⟨howned, hnext⟩ := systemStep_owned hrecord hallowed.1 hfirst
      have hrest := ih hnext hallowed.2
      constructor
      · rintro ⟨⟨-, halong⟩, hfinal⟩
        exact ⟨hfirst, hrest.mp ⟨halong, hfinal⟩⟩
      · rintro ⟨-, halong⟩
        obtain ⟨hrun, hfinal⟩ := hrest.mpr halong
        exact ⟨⟨⟨ownsDescriptors_of_record hrecord, howned⟩, hrun⟩, hfinal⟩
    · -- the record that this event leaves is wrong in the next state
      refine iff_of_false (fun h => ?_) fun halong => hfirst halong.1
      exact systemStep_stale hrecord hallowed.1 hfirst
        (ownsDescriptors_of_descriptorsOwned ⟨h.1.2, h.2⟩)

section

variable {cfg : NodeConfig} {opened : Port → Int} {k : Kernel Holder}

/-- Opening a port's device gives it a right record. -/
theorem holds_openCalls (cfg : NodeConfig) (opened : Port → Int) (k : Kernel Holder) (i : Port) :
    Holds (finalState call k (openCalls cfg opened i)) (.port i)
      (initialState cfg opened i).fd := by
  show Holds _ _ (if (cfg.ports i).mode = dmxModeOff then -1 else opened i)
  unfold openCalls
  split_ifs
  · exact Or.inl (by decide)
  · exact holds_acquire k (.port i) (opened i)

/-- At start-up a port uses only the descriptor it has just opened. -/
theorem owned_openCalls (i : Port) : Along call Owned k (openCalls cfg opened i) := by
  unfold openCalls
  split_ifs
  · exact trivial
  · exact ⟨trivial, trivial⟩

/-- The calls at start-up are the port's. -/
theorem owner_openCalls {i : Port} {c : Call Holder} (h : c ∈ openCalls cfg opened i) :
    c.owner = .port i := by
  unfold openCalls at h
  split_ifs at h
  · cases h
  · rw [List.mem_singleton.mp h]
    rfl

/-- The records hold what the devices were opened as. -/
theorem record_startedSystem (h : Along call Lawful k (startCalls cfg opened)) (i : Port) :
    Holds (startedSystem cfg opened k).kernel (.port i) (initialState cfg opened i).fd := by
  show Holds (finalState call k (startCalls cfg opened)) _ _
  unfold startCalls at h ⊢
  rw [along_append] at h
  rw [finalState_append]
  -- the first port's open comes before the second one's, which leaves it alone
  match i with
  | 1 => exact holds_openCalls cfg opened _ 1
  | 0 =>
    refine holds_run_of_ne (fun c hc => ?_) h.2 (owned_openCalls 1) (holds_openCalls cfg opened k 0)
    rw [owner_openCalls hc]
    decide

end

/-- **The ports own their descriptors** in exactly the runs in which no first `open` of a write
fails. -/
theorem descriptorsOwned_iff (cfg : NodeConfig) (opened : Port → Int) (k : Kernel Holder)
    (es : List SystemEvent) (hstart : Along call Lawful k (startCalls cfg opened))
    (hallowed : Along (systemStep cfg) (Plausible cfg) (startedSystem cfg opened k) es) :
    DescriptorsOwned cfg (startedSystem cfg opened k) es ↔
      Along (systemStep cfg) (FirstOpensSucceed cfg) (startedSystem cfg opened k) es :=
  descriptorsOwned_iff_of_record (record_startedSystem hstart) hallowed

/-- A kernel before any call. -/
def freshKernel : Kernel Holder where
  holder := fun _ => none
  latest := fun _ => -1

/-- The system with descriptor 3 for the first port and 4 for the second. -/
def twoOpened : System := startedSystem configDefaults (fun i => if i = 0 then 3 else 4) freshKernel

theorem lawful_twoOpened :
    Along call Lawful freshKernel
      (startCalls configDefaults fun i => if i = 0 then 3 else 4) :=
  ⟨fun _ => rfl, fun _ => rfl, trivial⟩

/-- A frame for the first port, and the cycle that sends it. -/
def frameEvents (ms : Nat) (o : Opens) : List SystemEvent :=
  [.loop (.artnet (artnetLevel 1 255) (.at ms)), .loop (.outputCycle ms fun _ => o)]

/-- `descriptorsOwned_iff` on the frame of one packet. -/
theorem descriptorsOwned_oneFrame :
    DescriptorsOwned configDefaults twoOpened (frameEvents 100 { first := 3, again := 3 }) := by
  refine (descriptorsOwned_iff configDefaults _ freshKernel _ lawful_twoOpened ?_).mpr ?_
  · refine ⟨⟨trivial, fun _ h => by cases h⟩, ⟨?_, fun _ h => by cases h⟩, trivial⟩
    exact ⟨trivial, fun _ => rfl, trivial, trivial, fun _ => rfl, trivial⟩
  · exact ⟨trivial, fun _ _ => (by decide : (0 : Int) ≤ 3), trivial⟩

/-- The device cannot be opened, and the number that the port keeps goes to the debug file. -/
def staleRun : List SystemEvent :=
  frameEvents 100 { first := -1, again := -1 } ++ [.otherOpen 3]

/-- The next frame closes the debug file. -/
theorem staleRun_closesOther :
    Along (systemStep configDefaults) (Plausible configDefaults) twoOpened staleRun ∧
      (finalState (systemStep configDefaults) twoOpened staleRun).kernel.holder 3 = some .other ∧
      ((finalState (systemStep configDefaults) twoOpened staleRun).daemon 0).fd = 3 ∧
      ¬ DescriptorsOwned configDefaults twoOpened staleRun := by
  have hallowed : Along (systemStep configDefaults) (Plausible configDefaults) twoOpened
      staleRun := by
    refine ⟨⟨trivial, fun _ h => by cases h⟩, ⟨?_, fun _ h => by cases h⟩,
      ⟨⟨fun _ => rfl, trivial⟩, fun _ h => by cases h⟩, trivial⟩
    exact ⟨trivial, fun h => absurd h (by decide), trivial⟩
  refine ⟨hallowed, rfl, rfl, fun h => ?_⟩
  have hrecord : ∀ i, Holds twoOpened.kernel (.port i) (twoOpened.daemon i).fd :=
    record_startedSystem lawful_twoOpened
  obtain ⟨-, hfirst, -⟩ := (descriptorsOwned_iff_of_record hrecord hallowed).mp h
  have hsend : portAction configDefaults (nowMs 100) 0
      ((systemStep configDefaults twoOpened
        (.loop (.artnet (artnetLevel 1 255) (.at 100)))).1.daemon 0) = .send := rfl
  have hneg : (0 : Int) ≤ -1 := hfirst 0 (by rw [hsend]; exact PortAction.noConfusion)
  exact absurd hneg (by decide)

end SN110
