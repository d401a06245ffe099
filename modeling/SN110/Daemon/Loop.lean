import SN110.Daemon.Output
import SN110.Lib.Run

/-!
# The event loop (`main`)

`main` polls its socket, hands a packet to its handler, and runs `dmx_output_cycle`, for ever.
An `Event` is one of these with the clock readings it makes and, for an output cycle, the
descriptors the kernel returns. `step` is the loop's reaction to one event, so that a run of the
daemon is a list of events taken from `initialState`.

`dmx_input_cycle` touches neither `g_dmx_out` nor a TX port's device and is left out.
-/

namespace SN110

open Run

/-- Something the event loop does. -/
inductive Event where
  | sacn (pkt : SacnPacket) (clk : HandlerClock)
  | artnet (pkt : ArtnetDmxPacket) (clk : HandlerClock)
  | shownet (pkt : ShownetPacket) (clk : HandlerClock)
  | outputCycle (ms : Nat) (opens : Port → Opens)

/-- What the loop does on one event. -/
def step (cfg : NodeConfig) (st : DaemonState) : Event → DaemonState × List Syscall
  | .sacn pkt clk => (handleSacnPacket cfg pkt clk st, [])
  | .artnet pkt clk => (handleArtnetPacket cfg pkt clk st, [])
  | .shownet pkt clk => (handleShownetPacket cfg pkt clk st, [])
  | .outputCycle ms opens => dmxOutputCycle cfg ms opens st

/-- The state in which `main` enters its loop: `opened` is what opening the devices returned,
which a port in mode OFF is spared. -/
def initialState (cfg : NodeConfig) (opened : Port → Int) : DaemonState := fun i =>
  { out := DmxFrame.zero
    lastWrite := 0
    fd := if (cfg.ports i).mode = dmxModeOff then -1 else opened i }

/-- The frames a run writes to port `i`, in order. -/
def framesTo (cfg : NodeConfig) (i : Port) (st : DaemonState) (es : List Event) : List Slots :=
  (trace (step cfg) st es).filterMap (frameTo i)

/-! ## Events -/

/-- The event is an output cycle. -/
def Event.isCycle : Event → Bool
  | .outputCycle .. => true
  | _ => false

/-- The universe a packet is addressed to. -/
def Event.addressedTo : Event → Option UInt16
  | .sacn pkt _ => some pkt.dmxUniverse
  | .artnet pkt _ => some pkt.dmxUniverse
  | .shownet pkt _ => some (shownetUniverse pkt.netSlot)
  | .outputCycle .. => none

/-- The readings of the clock the event makes, in the order it makes them. -/
def Event.readings : Event → List Nat
  | .sacn _ clk | .artnet _ clk | .shownet _ clk =>
    [clk.check 0, clk.store 0, clk.check 1, clk.store 1]
  | .outputCycle ms _ => [ms]

/-- Every `open` of the event returns a descriptor. -/
def Event.OpensSucceed : Event → Prop
  | .outputCycle _ opens => ∀ i, (opens i).Succeed
  | _ => True

/-- The reading that stamps port `i`'s frame, if the event is a packet that is applied to it. -/
def Event.appliedAt (cfg : NodeConfig) (i : Port) (st : DaemonState) : Event → Option Nat
  | .sacn pkt clk =>
    if pkt.startCode = 0 ∧ Routed cfg pkt.dmxUniverse i ∧ sacnAccepts pkt clk i (st i).out = true
    then some (clk.store i) else none
  | .artnet pkt clk => if Routed cfg pkt.dmxUniverse i then some (clk.store i) else none
  | .shownet pkt clk =>
    if Routed cfg (shownetUniverse pkt.netSlot) i then some (clk.store i) else none
  | .outputCycle .. => none

/-! ## Clocks -/

/-- The clock never goes back. -/
def ClockMonotone (es : List Event) : Prop := (es.flatMap Event.readings).Pairwise (· ≤ ·)

instance (es : List Event) : Decidable (ClockMonotone es) := by
  unfold ClockMonotone
  infer_instance

theorem ClockMonotone.of_append {es rest : List Event} (h : ClockMonotone (es ++ rest)) :
    ClockMonotone es := by
  unfold ClockMonotone at h ⊢
  rw [List.flatMap_append, List.pairwise_append] at h
  exact h.1

/-- An earlier event's readings are no later than a later one's. -/
theorem ClockMonotone.le {es rest : List Event} (h : ClockMonotone (es ++ rest)) {e e' : Event}
    (he : e ∈ es) (he' : e' ∈ rest) {r r' : Nat} (hr : r ∈ e.readings) (hr' : r' ∈ e'.readings) :
    r ≤ r' := by
  unfold ClockMonotone at h
  rw [List.flatMap_append, List.pairwise_append] at h
  exact h.2.2 r (List.mem_flatMap.mpr ⟨e, he, hr⟩) r' (List.mem_flatMap.mpr ⟨e', he', hr'⟩)

@[simp] theorem check_mem_readings (clk : HandlerClock) (i : Port) :
    clk.check i ∈ [clk.check 0, clk.store 0, clk.check 1, clk.store 1] := by
  match i with
  | 0 => simp
  | 1 => simp

@[simp] theorem store_mem_readings (clk : HandlerClock) (i : Port) :
    clk.store i ∈ [clk.check 0, clk.store 0, clk.check 1, clk.store 1] := by
  match i with
  | 0 => simp
  | 1 => simp

/-- A packet is applied with one of its event's readings. -/
theorem mem_readings_of_applied {cfg : NodeConfig} {i : Port} {st : DaemonState} {e : Event}
    {u : Nat} (h : e.appliedAt cfg i st = some u) : u ∈ e.readings := by
  -- every packet that is applied stamps with the port's own `store` reading
  cases e with
  | outputCycle ms opens => cases h
  | _ =>
    obtain ⟨_, rfl⟩ := Option.ite_some_none_eq_some.mp h
    exact store_mem_readings _ i

/-! ## One step, one port -/

/-- What an sACN packet does to one port: its levels are stored where it is routed there and
accepted. -/
theorem handleSacnPacket_apply (cfg : NodeConfig) (pkt : SacnPacket) (clk : HandlerClock)
    (st : DaemonState) (i : Port) :
    handleSacnPacket cfg pkt clk st i =
      if pkt.startCode = 0 ∧ Routed cfg pkt.dmxUniverse i ∧
          sacnAccepts pkt clk i (st i).out = true then
        { st i with out := sacnStore pkt clk i (st i).out }
      else st i := by
  unfold handleSacnPacket
  by_cases hcode : pkt.startCode = 0
  · rw [if_neg (not_not.mpr hcode), applyToPorts_apply]
    simp only [hcode, true_and]
  · rw [if_pos hcode, if_neg (fun h => hcode h.1)]

/-- What an Art-Net packet does to one port. -/
theorem handleArtnetPacket_apply (cfg : NodeConfig) (pkt : ArtnetDmxPacket) (clk : HandlerClock)
    (st : DaemonState) (i : Port) :
    handleArtnetPacket cfg pkt clk st i =
      if Routed cfg pkt.dmxUniverse i then
        { st i with out := artnetStore pkt clk i (st i).out }
      else st i := by
  unfold handleArtnetPacket
  rw [applyToPorts_apply]
  simp only [and_true]

/-- What a ShowNet packet does to one port. -/
theorem handleShownetPacket_apply (cfg : NodeConfig) (pkt : ShownetPacket) (clk : HandlerClock)
    (st : DaemonState) (i : Port) :
    handleShownetPacket cfg pkt clk st i =
      if Routed cfg (shownetUniverse pkt.netSlot) i then
        { st i with out := shownetStore pkt clk i (st i).out }
      else st i := by
  unfold handleShownetPacket
  rw [applyToPorts_apply]
  simp only [and_true]

/-- A packet that is not applied to a port leaves the port alone. -/
theorem step_of_not_applied {cfg : NodeConfig} {st : DaemonState} {e : Event} {i : Port}
    (hpkt : e.isCycle = false) (h : e.appliedAt cfg i st = none) : (step cfg st e).1 i = st i := by
  cases e with
  | sacn pkt clk =>
    simp only [Event.appliedAt, ite_eq_right_iff, reduceCtorEq, imp_false] at h
    simp only [step, handleSacnPacket_apply, if_neg h]
  | artnet pkt clk =>
    simp only [Event.appliedAt, ite_eq_right_iff, reduceCtorEq, imp_false] at h
    simp only [step, handleArtnetPacket_apply, if_neg h]
  | shownet pkt clk =>
    simp only [Event.appliedAt, ite_eq_right_iff, reduceCtorEq, imp_false] at h
    simp only [step, handleShownetPacket_apply, if_neg h]
  | outputCycle ms opens => cases hpkt

/-- A packet that is applied to a port gives it a frame stamped with the packet's reading, and
changes nothing else of the port. -/
theorem step_of_applied {cfg : NodeConfig} {st : DaemonState} {e : Event} {i : Port} {u : Nat}
    (h : e.appliedAt cfg i st = some u) :
    ∃ f : DmxFrame, (step cfg st e).1 i = { st i with out := f } ∧ f.lastUpdateMs = nowMs u := by
  cases e with
  | sacn pkt clk =>
    obtain ⟨hc, hu⟩ := Option.ite_some_none_eq_some.mp h
    exact ⟨_, by simp only [step, handleSacnPacket_apply, if_pos hc]; rfl, by rw [← hu]; rfl⟩
  | artnet pkt clk =>
    obtain ⟨hc, hu⟩ := Option.ite_some_none_eq_some.mp h
    exact ⟨_, by simp only [step, handleArtnetPacket_apply, if_pos hc]; rfl, by rw [← hu]; rfl⟩
  | shownet pkt clk =>
    obtain ⟨hc, hu⟩ := Option.ite_some_none_eq_some.mp h
    exact ⟨_, by simp only [step, handleShownetPacket_apply, if_pos hc]; rfl, by rw [← hu]; rfl⟩
  | outputCycle ms opens => cases h

/-- Only an output cycle touches the descriptors. -/
theorem step_fd_of_not_cycle {e : Event} (hpkt : e.isCycle = false) (cfg : NodeConfig)
    (st : DaemonState) (i : Port) : ((step cfg st e).1 i).fd = (st i).fd := by
  cases happlied : e.appliedAt cfg i st with
  | none => rw [step_of_not_applied hpkt happlied]
  | some u =>
    obtain ⟨f, hf, -⟩ := step_of_applied happlied
    rw [hf]

/-- Only an output cycle makes system calls. -/
theorem step_silent {cfg : NodeConfig} {st : DaemonState} {e : Event}
    (hpkt : e.isCycle = false) : (step cfg st e).2 = [] := by
  cases e with
  | sacn pkt clk => rfl
  | artnet pkt clk => rfl
  | shownet pkt clk => rfl
  | outputCycle ms opens => cases hpkt

/-- Only a TX port on the universe a packet is addressed to can have it applied. -/
theorem routed_of_applied {cfg : NodeConfig} {st : DaemonState} {e : Event} {i : Port} {u : Nat}
    (h : e.appliedAt cfg i st = some u) :
    e.addressedTo = some (cfg.ports i).dmxUniverse ∧ (cfg.ports i).mode = dmxModeTx := by
  cases e with
  | sacn pkt clk =>
    obtain ⟨⟨_, hr, _⟩, _⟩ := Option.ite_some_none_eq_some.mp h
    exact ⟨congrArg some hr.1.symm, hr.2⟩
  | artnet pkt clk =>
    obtain ⟨hr, _⟩ := Option.ite_some_none_eq_some.mp h
    exact ⟨congrArg some hr.1.symm, hr.2⟩
  | shownet pkt clk =>
    obtain ⟨hr, _⟩ := Option.ite_some_none_eq_some.mp h
    exact ⟨congrArg some hr.1.symm, hr.2⟩
  | outputCycle ms opens => cases h

/-! ## Events of the concrete runs -/

/-- Opens that all return descriptor 3. -/
def openedOk : Port → Opens := fun _ => { first := 3, again := 3 }

theorem openedOk_succeed (i : Port) : (openedOk i).Succeed := by
  unfold openedOk
  decide

/-- Levels that are 0 but for the first. -/
def oneLevel (level : UInt8) : Slots := (Vector.replicate dmxUniverseSize 0).set 0 level

/-- An Art-Net packet that sets the first slots of a universe. -/
def artnetLevel (dmxUniverse : UInt16) (level : UInt8) : ArtnetDmxPacket where
  sequence := 0
  physical := 0
  dmxUniverse := dmxUniverse
  dmxData := oneLevel level
  dmxLength := 2

/-- An sACN packet of the given priority that sets the first slot of a universe. -/
def sacnLevel (dmxUniverse : UInt16) (priority level : UInt8) : SacnPacket where
  cid := Vector.replicate 16 0
  sourceName := Vector.replicate 64 0
  priority := priority
  sequence := 0
  dmxUniverse := dmxUniverse
  options := 0
  startCode := 0
  dmxData := oneLevel level
  dmxLength := 1

end SN110
