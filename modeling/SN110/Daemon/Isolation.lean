import SN110.Daemon.Loop
import SN110.Config.Defaults

/-!
# The ports do not interfere

What reaches one DMX port is decided by the packets on that port's universe and by that port's
configuration. Each part is an unwinding over the run, at its own view of the daemon's state:

* packets on other universes can be erased: the view is the port's whole state;
* the other port's configuration does not matter, nor which descriptors the kernel hands out:
  the view is the port's state with the descriptor cut down to whether it is open;
* a port that is not in TX mode is never touched: the view is the port's state, and no event
  changes it.
-/

namespace SN110

open Run

/-! ## Erasing the packets of other universes -/

/-- The event survives when the packets on universes other than `u` are deleted. -/
def Event.keptFor (u : UInt16) (e : Event) : Bool :=
  match e.addressedTo with
  | none => true
  | some v => v == u

theorem isCycle_of_addressedTo {e : Event} {u : UInt16} (h : e.addressedTo = some u) :
    e.isCycle = false := by
  cases e <;> first | rfl | cases h

/-- One event acts on a port as a function of that port's state. -/
theorem step_apply_congr (cfg : NodeConfig) (i : Port) (e : Event) {st st' : DaemonState}
    (h : st i = st' i) :
    (step cfg st e).1 i = (step cfg st' e).1 i ∧
      (step cfg st e).2.filterMap (frameTo i) = (step cfg st' e).2.filterMap (frameTo i) := by
  cases e with
  | sacn pkt clk => simp only [step, handleSacnPacket_apply, h, and_self]
  | artnet pkt clk => simp only [step, handleArtnetPacket_apply, h, and_self]
  | shownet pkt clk => simp only [step, handleShownetPacket_apply, h, and_self]
  | outputCycle ms opens =>
    obtain ⟨hst, hframes⟩ := dmxOutputCycle_apply cfg ms opens st i
    obtain ⟨hst', hframes'⟩ := dmxOutputCycle_apply cfg ms opens st' i
    simp only [step]
    rw [hst, hframes, hst', hframes', h]
    exact ⟨rfl, rfl⟩

/-- A packet on another universe does nothing at the port. -/
theorem step_elsewhere {cfg : NodeConfig} {i : Port} {e : Event}
    (h : e.keptFor (cfg.ports i).dmxUniverse = false) (st : DaemonState) :
    (step cfg st e).1 i = st i ∧ (step cfg st e).2.filterMap (frameTo i) = [] := by
  unfold Event.keptFor at h
  cases hto : e.addressedTo with
  | none => simp [hto] at h
  | some v =>
    have hne : v ≠ (cfg.ports i).dmxUniverse := by simpa [hto] using h
    have hpkt := isCycle_of_addressedTo hto
    -- whatever is applied to the port was addressed to its universe
    have hnot : e.appliedAt cfg i st = none := by
      cases happ : e.appliedAt cfg i st with
      | none => rfl
      | some u =>
        have hroute := (routed_of_applied happ).1
        rw [hto] at hroute
        exact absurd (Option.some.inj hroute) hne
    exact ⟨step_of_not_applied hpkt hnot, by rw [step_silent hpkt, List.filterMap_nil]⟩

/-- **Universes are isolated.** Deleting the packets on other universes changes neither the
frames written to a port nor the port's final state. -/
theorem framesTo_erase (cfg : NodeConfig) (i : Port) (st : DaemonState) (es : List Event) :
    finalState (step cfg) st es i
        = finalState (step cfg) st (es.filter (Event.keptFor (cfg.ports i).dmxUniverse)) i ∧
      framesTo cfg i st es
        = framesTo cfg i st (es.filter (Event.keptFor (cfg.ports i).dmxUniverse)) :=
  trace_eq_of_erase (step cfg) (frameTo i) (fun st : DaemonState => st i) _ es st st
    (fun e _ _ _ h => step_apply_congr cfg i e h)
    (fun _ _ hdrop st => step_elsewhere hdrop st) rfl

/-! ## The other port's configuration -/

/-- Two events that differ at most in the descriptors the kernel returns, both without a
failing `open`. -/
inductive SameButDescriptors : Event → Event → Prop where
  | packet {e : Event} (h : e.isCycle = false) : SameButDescriptors e e
  | outputCycle {ms : Nat} {opens opens' : Port → Opens} (h : ∀ i, (opens i).Succeed)
      (h' : ∀ i, (opens' i).Succeed) :
      SameButDescriptors (.outputCycle ms opens) (.outputCycle ms opens')

/-- What of a port decides the frames it is sent: all but the descriptor's number. -/
def PortState.view (p : PortState) : DmxFrame × UInt32 × Bool :=
  (p.out, p.lastWrite, decide (p.fd < 0))

theorem timedOut_congr {cfg cfg' : NodeConfig} (h : cfg.dmxHoldTime = cfg'.dmxHoldTime)
    (t : UInt32) (f : DmxFrame) : timedOut cfg t f = timedOut cfg' t f := by
  unfold timedOut
  rw [h]

/-- The loop's body acts on views, whatever descriptors it is given. -/
theorem outputPort_view_congr {cfg cfg' : NodeConfig} {i : Port} {o o' : Opens}
    {p p' : PortState} (t : UInt32) (hport : cfg.ports i = cfg'.ports i)
    (hhold : cfg.dmxHoldTime = cfg'.dmxHoldTime) (ho : o.Succeed) (ho' : o'.Succeed)
    (h : p.view = p'.view) :
    (outputPort cfg t o i p).1.view = (outputPort cfg' t o' i p').1.view ∧
      (outputPort cfg t o i p).2.filterMap (frameTo i)
        = (outputPort cfg' t o' i p').2.filterMap (frameTo i) := by
  obtain ⟨hout, hlast, hfd⟩ : p.out = p'.out ∧ p.lastWrite = p'.lastWrite ∧
      (p.fd < 0 ↔ p'.fd < 0) := by
    simpa [PortState.view] using h
  -- the cases are the branches of the loop's body; the view decides which one is taken
  by_cases htx : (cfg.ports i).mode = dmxModeTx
  swap
  · rw [outputPort_idle htx, outputPort_idle (hport ▸ htx)]
    exact ⟨h, rfl⟩
  by_cases hclosed : p.fd < 0
  · rw [outputPort, if_pos hclosed, outputPort, if_pos (hfd.mp hclosed)]
    exact ⟨h, rfl⟩
  have hopen : 0 ≤ p.fd := not_lt.mp hclosed
  have hopen' : 0 ≤ p'.fd := not_lt.mp (fun hlt => hclosed (hfd.mpr hlt))
  -- after a frame has been sent both devices are open again
  have hsent : ∀ (frame : Slots),
      ((dmxTxWrite i p.fd frame o).1 < 0 ↔ (dmxTxWrite i p'.fd frame o').1 < 0) := fun frame =>
    iff_of_false (not_lt.mpr (dmxTxWrite_fd_nonneg i _ frame ho))
      (not_lt.mpr (dmxTxWrite_fd_nonneg i _ frame ho'))
  by_cases hfresh : p.out.lastUpdateMs > p.lastWrite
  · rw [outputPort_fresh hopen htx hfresh,
      outputPort_fresh hopen' (hport ▸ htx) (by rw [← hout, ← hlast]; exact hfresh)]
    refine ⟨by simp [PortState.view, hout, hsent], ?_⟩
    rw [dmxTxWrite_frameTo i _ _ ho, dmxTxWrite_frameTo i _ _ ho', hout]
  · rw [outputPort_stale hopen htx hfresh,
      outputPort_stale hopen' (hport ▸ htx) (by rw [← hout, ← hlast]; exact hfresh),
      ← hout, timedOut_congr hhold]
    split_ifs
    · refine ⟨by simp [PortState.view, hlast, hsent], ?_⟩
      rw [dmxTxWrite_frameTo i _ _ ho, dmxTxWrite_frameTo i _ _ ho']
    · exact ⟨h, rfl⟩

/-- Related events act alike on the view of a port that both configurations agree on. -/
theorem step_view_congr {cfg cfg' : NodeConfig} {i : Port} (hport : cfg.ports i = cfg'.ports i)
    (hhold : cfg.dmxHoldTime = cfg'.dmxHoldTime) {e e' : Event} {st st' : DaemonState}
    (he : SameButDescriptors e e') (h : (st i).view = (st' i).view) :
    ((step cfg st e).1 i).view = ((step cfg' st' e').1 i).view ∧
      (step cfg st e).2.filterMap (frameTo i) = (step cfg' st' e').2.filterMap (frameTo i) := by
  cases he with
  | outputCycle ho ho' =>
    obtain ⟨hst, hframes⟩ := dmxOutputCycle_apply cfg _ _ st i
    obtain ⟨hst', hframes'⟩ := dmxOutputCycle_apply cfg' _ _ st' i
    simp only [step]
    rw [hst, hframes, hst', hframes']
    exact outputPort_view_congr _ hport hhold (ho i) (ho' i) h
  | packet hpkt =>
    have hroute : ∀ u, Routed cfg u i ↔ Routed cfg' u i := fun u => by
      unfold Routed
      rw [hport]
    obtain ⟨hout, hlast, hfd⟩ : (st i).out = (st' i).out ∧
        (st i).lastWrite = (st' i).lastWrite ∧ ((st i).fd < 0 ↔ (st' i).fd < 0) := by
      simpa [PortState.view] using h
    rw [step_silent hpkt, step_silent hpkt]
    refine ⟨?_, rfl⟩
    -- each handler tests and updates the frame alone, on which both states agree
    cases e with
    | sacn pkt clk =>
      simp only [step, handleSacnPacket_apply, hroute, hout]
      split_ifs
      · simp [PortState.view, hlast, hfd]
      · exact h
    | artnet pkt clk =>
      simp only [step, handleArtnetPacket_apply, hroute, hout]
      split_ifs
      · simp [PortState.view, hlast, hfd]
      · exact h
    | shownet pkt clk =>
      simp only [step, handleShownetPacket_apply, hroute, hout]
      split_ifs
      · simp [PortState.view, hlast, hfd]
      · exact h
    | outputCycle ms opens => cases hpkt

theorem initialState_view_congr {cfg cfg' : NodeConfig} {i : Port} {opened opened' : Port → Int}
    (hport : cfg.ports i = cfg'.ports i) (ho : 0 ≤ opened i) (ho' : 0 ≤ opened' i) :
    (initialState cfg opened i).view = (initialState cfg' opened' i).view := by
  unfold initialState PortState.view
  simp only [hport]
  -- a port that is off has descriptor -1 in both, any other port is open in both
  split_ifs
  · rfl
  · simp only [not_lt.mpr ho, not_lt.mpr ho']

/-- **Configurations are isolated.** Two configurations that agree on a port and on the hold
time write the same frames to it, whatever descriptors the kernel hands out in the two runs. -/
theorem framesTo_congr_config {cfg cfg' : NodeConfig} {i : Port}
    (hport : cfg.ports i = cfg'.ports i) (hhold : cfg.dmxHoldTime = cfg'.dmxHoldTime)
    {opened opened' : Port → Int} (ho : 0 ≤ opened i) (ho' : 0 ≤ opened' i)
    {es es' : List Event} (hes : List.Forall₂ SameButDescriptors es es') :
    framesTo cfg i (initialState cfg opened) es
      = framesTo cfg' i (initialState cfg' opened') es' :=
  (trace_eq_of_related (step cfg) (step cfg') (frameTo i)
    (fun st : DaemonState => (st i).view) (fun st : DaemonState => (st i).view)
    (fun _ _ _ _ he h => step_view_congr hport hhold he h) hes _ _
    (initialState_view_congr hport ho ho')).2

/-! ## Ports that do not transmit -/

/-- No event touches a port that is not in TX mode. -/
theorem step_not_tx {cfg : NodeConfig} {i : Port} (h : (cfg.ports i).mode ≠ dmxModeTx)
    (e : Event) (st : DaemonState) :
    (step cfg st e).1 i = st i ∧ (step cfg st e).2.filterMap (frameTo i) = [] := by
  cases hcycle : e.isCycle with
  | false =>
    have hnot : e.appliedAt cfg i st = none := by
      cases happ : e.appliedAt cfg i st with
      | none => rfl
      | some u => exact absurd (routed_of_applied happ).2 h
    exact ⟨step_of_not_applied hcycle hnot, by rw [step_silent hcycle, List.filterMap_nil]⟩
  | true =>
    cases e with
    | outputCycle ms opens =>
      obtain ⟨hst, hframes⟩ := dmxOutputCycle_apply cfg ms opens st i
      rw [outputPort_idle h] at hst hframes
      exact ⟨hst, hframes⟩
    | _ => cases hcycle

/-- No run touches a port that is not in TX mode. -/
theorem framesTo_not_tx {cfg : NodeConfig} {i : Port} (h : (cfg.ports i).mode ≠ dmxModeTx)
    (st : DaemonState) (es : List Event) :
    finalState (step cfg) st es i = st i ∧ framesTo cfg i st es = [] := by
  -- for such a port every event is one to erase
  have herase := trace_eq_of_erase (step cfg) (frameTo i) (fun st : DaemonState => st i)
    (fun _ => false) es st st
    (fun e _ _ _ h => step_apply_congr cfg i e h) (fun e _ _ st => step_not_tx h e st) rfl
  simpa [framesTo] using herase

/-! ## Isolation -/

/-- **Universe isolation.** In every run in which the device opens succeed, a port is written
the same frames when the packets on other universes are deleted, and when the rest of the
configuration is another one (the descriptors then being any others); a port that is not in TX
mode keeps its frame and is written nothing. -/
theorem universe_isolation (cfg : NodeConfig) (i : Port) (opened : Port → Int)
    (es : List Event) (hopened : ∀ j, 0 ≤ opened j) :
    framesTo cfg i (initialState cfg opened) es
        = framesTo cfg i (initialState cfg opened)
            (es.filter (Event.keptFor (cfg.ports i).dmxUniverse)) ∧
      (∀ (cfg' : NodeConfig) (opened' : Port → Int) (es' : List Event),
        cfg.ports i = cfg'.ports i → cfg.dmxHoldTime = cfg'.dmxHoldTime →
        (∀ j, 0 ≤ opened' j) → List.Forall₂ SameButDescriptors es es' →
        framesTo cfg i (initialState cfg opened) es
          = framesTo cfg' i (initialState cfg' opened') es') ∧
      ((cfg.ports i).mode ≠ dmxModeTx →
        (finalState (step cfg) (initialState cfg opened) es i).out
            = (initialState cfg opened i).out ∧
          framesTo cfg i (initialState cfg opened) es = []) := by
  refine ⟨(framesTo_erase cfg i _ es).2, ?_, ?_⟩
  · intro cfg' opened' es' hport hhold hopened' hes
    exact framesTo_congr_config hport hhold (hopened i) (hopened' i) hes
  · intro hmode
    obtain ⟨hst, hframes⟩ := framesTo_not_tx hmode (initialState cfg opened) es
    exact ⟨by rw [hst], hframes⟩

/-- The default configuration with port 1 off. -/
def portOneOff : NodeConfig :=
  { configDefaults with
    ports := Function.update configDefaults.ports 1
      { configDefaults.ports 1 with mode := dmxModeOff } }

/-- Packets for both universes of the default configuration, and an output cycle. -/
def twoUniverseRun : List Event :=
  [.artnet (artnetLevel 1 10) (HandlerClock.at 1000),
    .artnet (artnetLevel 2 20) (HandlerClock.at 1001), .outputCycle 1023 openedOk]

theorem twoUniverseRun_isolated :
    framesTo configDefaults 0 (initialState configDefaults fun _ => 3) twoUniverseRun
        = framesTo configDefaults 0 (initialState configDefaults fun _ => 3)
            (twoUniverseRun.filter (Event.keptFor 1)) ∧
      framesTo configDefaults 0 (initialState configDefaults fun _ => 3) twoUniverseRun
        = framesTo portOneOff 0 (initialState portOneOff fun _ => 5) twoUniverseRun ∧
      framesTo portOneOff 1 (initialState portOneOff fun _ => 5) twoUniverseRun = [] := by
  have hsame : List.Forall₂ SameButDescriptors twoUniverseRun twoUniverseRun :=
    .cons (.packet rfl) (.cons (.packet rfl)
      (.cons (.outputCycle openedOk_succeed openedOk_succeed) .nil))
  have h0 := universe_isolation configDefaults 0 (fun _ => 3) twoUniverseRun (by decide)
  have h1 := universe_isolation portOneOff 1 (fun _ => 5) twoUniverseRun (by decide)
  exact ⟨h0.1, h0.2.1 portOneOff (fun _ => 5) twoUniverseRun rfl rfl (by decide) hsame,
    (h1.2.2 (by decide)).2⟩

end SN110
