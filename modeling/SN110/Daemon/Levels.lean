import SN110.Daemon.Isolation
import SN110.Daemon.Hold

/-!
# Whose levels are on the output?

`handle_sacn_packet` copies the `dmx_length` slots a packet has into the stored frame, and
`dmx_output_cycle` writes all 512. What a packet does not set is what an earlier one left there:

* `livePackets` are the packets applied to a port since its last source timeout, and `levelOf` the
  level they give a channel, each covering the ones before it as far as it is long; `LevelInv`
  says that this is what the port stores.
* A run and the run with other payload bytes go through states that differ in the stored levels
  alone (`bare_run`), and a cycle looks at those only to send them (`framesTo_congr_pending`).
* So a source that takes over rids the output of the one before exactly when its packet sets every
  channel that one had set (`noStaleLevels_iff`).
-/

namespace SN110

open Run

/-! ## The property -/

/-- The packet carries a level for the channel. -/
def SacnPacket.Sets (pkt : SacnPacket) (c : Fin dmxUniverseSize) : Prop :=
  c.val < pkt.dmxLength.toNat

instance (pkt : SacnPacket) (c : Fin dmxUniverseSize) : Decidable (pkt.Sets c) :=
  inferInstanceAs (Decidable (c.val < pkt.dmxLength.toNat))

/-- The packet takes port `i` over: it outranks the stored frame, or the source of that frame has
timed out. -/
def Supersedes (cfg : NodeConfig) (i : Port) (st : DaemonState) (pkt : SacnPacket)
    (clk : HandlerClock) : Prop :=
  pkt.startCode = 0 ∧ Routed cfg pkt.dmxUniverse i ∧
    (pkt.priority > (st i).out.priority ∨
      nowMs (clk.check i) - (st i).out.lastUpdateMs > sacnTimeoutMs)

instance (cfg : NodeConfig) (i : Port) (st : DaemonState) (pkt : SacnPacket)
    (clk : HandlerClock) : Decidable (Supersedes cfg i st pkt clk) := by
  unfold Supersedes
  infer_instance

/-- The event with other payload bytes, if it is an sACN packet. -/
def Event.withPayload (data : Slots) : Event → Event
  | .sacn pkt clk => .sacn { pkt with dmxData := data } clk
  | e => e

/-- The two events differ at most in the payload bytes of an sACN packet. -/
def SameButPayload (e e' : Event) : Prop := ∃ data, e' = e.withPayload data

/-- After the run `pre` and the packet `pkt`, until the next packet is applied to port `i`,
nothing on the output comes from the packets of `pre`. -/
structure NoStaleLevels (cfg : NodeConfig) (i : Port) (st : DaemonState) (pre : List Event)
    (pkt : SacnPacket) (clk : HandlerClock) : Prop where
  /-- Each channel of each frame is the packet's, or zero. -/
  own : ∀ mid, NoneApplied cfg i (finalState (step cfg) st (pre ++ [.sacn pkt clk])) mid →
    ∀ frame ∈ framesTo cfg i (finalState (step cfg) st (pre ++ [.sacn pkt clk])) mid,
      ∀ c : Fin dmxUniverseSize, frame[c] = 0 ∨ (pkt.Sets c ∧ frame[c] = pkt.dmxData[c])
  /-- The frames are those of every run that differs in earlier payload bytes. -/
  blind : ∀ mid, NoneApplied cfg i (finalState (step cfg) st (pre ++ [.sacn pkt clk])) mid →
    ∀ pre', List.Forall₂ SameButPayload pre pre' →
      framesTo cfg i (finalState (step cfg) st (pre ++ [.sacn pkt clk])) mid
        = framesTo cfg i (finalState (step cfg) st (pre' ++ [.sacn pkt clk])) mid

/-! ## The stored levels -/

/-- One event's effect on the packets a port's levels come from. -/
def notePackets (cfg : NodeConfig) (i : Port) (st : DaemonState) (e : Event)
    (pkts : List SacnPacket) : List SacnPacket :=
  if e.timesOut cfg i st then []
  else
    match e with
    | .sacn pkt _ => if (e.appliedAt cfg i st).isSome then pkt :: pkts else pkts
    | _ => pkts

/-- The packets applied to port `i` since its last source timeout, the latest first. -/
def livePackets (cfg : NodeConfig) (i : Port) (st : DaemonState) (es : List Event) :
    List SacnPacket :=
  history (step cfg) (notePackets cfg i) st [] es

/-- The level the packets give a channel: that of the latest one which sets it. -/
def levelOf (c : Fin dmxUniverseSize) : List SacnPacket → UInt8
  | [] => 0
  | pkt :: pkts => if pkt.Sets c then pkt.dmxData[c] else levelOf c pkts

/-- The frame stores the levels of the packets. -/
def LevelInv (f : DmxFrame) (pkts : List SacnPacket) : Prop :=
  ∀ c : Fin dmxUniverseSize, f.data[c] = levelOf c pkts

theorem blankFrame_apply (c : Fin dmxUniverseSize) : blankFrame[c] = 0 := by
  simp [blankFrame]

/-- The copy takes the packet's slots and keeps the frame's behind them. -/
theorem sacnStore_apply (pkt : SacnPacket) (clk : HandlerClock) (i : Port) (f : DmxFrame)
    (c : Fin dmxUniverseSize) :
    (sacnStore pkt clk i f).data[c] = if pkt.Sets c then pkt.dmxData[c] else f.data[c] :=
  getElem_memcpySlots f.data pkt.dmxData pkt.dmxLength.toNat c.val c.isLt

/-- A packet or an output cycle keeps the invariant, with the packets noted. -/
theorem levelInv_step {cfg : NodeConfig} {i : Port} {st : DaemonState} {pkts : List SacnPacket}
    {e : Event} (hkind : e.isSacnOrCycle = true) (h : LevelInv (st i).out pkts) :
    LevelInv ((step cfg st e).1 i).out (notePackets cfg i st e pkts) := by
  intro c
  unfold notePackets
  cases e with
  | sacn pkt clk =>
    simp only [Event.timesOut, Bool.false_eq_true, if_false]
    -- a packet that is taken covers its slots, and the others stay
    cases happ : (Event.sacn pkt clk).appliedAt cfg i st with
    | none =>
      rw [step_of_not_applied rfl happ]
      exact h c
    | some u =>
      obtain ⟨hacc, _⟩ := Option.ite_some_none_eq_some.mp happ
      simp only [step, handleSacnPacket_apply, if_pos hacc, Option.isSome_some, if_true, levelOf]
      rw [sacnStore_apply, h c]
  | outputCycle ms opens =>
    rw [outputPort_out]
    split_ifs
    · exact blankFrame_apply c
    · exact h c
  | _ => cases hkind

/-- So the invariant holds over every run of sACN packets and output cycles. -/
theorem levelInv_run (cfg : NodeConfig) (i : Port) (opened : Port → Int) {es : List Event}
    (hes : ∀ e ∈ es, e.isSacnOrCycle = true) :
    LevelInv (finalState (step cfg) (initialState cfg opened) es i).out
      (livePackets cfg i (initialState cfg opened) es) := by
  revert hes
  refine run_induction (step cfg) (s := initialState cfg opened)
    (P := fun es st => (∀ e ∈ es, e.isSacnOrCycle = true) →
      LevelInv (st i).out (livePackets cfg i (initialState cfg opened) es)) ?_ ?_ es
  · intro _ c
    exact blankFrame_apply c
  · intro es e ih hes
    unfold livePackets at ih ⊢
    rw [history_concat]
    exact levelInv_step (hes e (by simp)) (ih fun e' he' => hes e' (by simp [he']))

/-- A channel that no packet sets is dark. -/
theorem levelOf_of_unset {c : Fin dmxUniverseSize} {pkts : List SacnPacket}
    (h : ∀ q ∈ pkts, ¬ q.Sets c) : levelOf c pkts = 0 := by
  induction pkts with
  | nil => rfl
  | cons pkt pkts ih =>
    rw [levelOf, if_neg (h pkt (by simp))]
    exact ih fun q hq => h q (by simp [hq])

/-- Packets that all carry `data` give a channel that one of them sets its level in `data`. -/
theorem levelOf_of_uniform {c : Fin dmxUniverseSize} {pkts : List SacnPacket} {data : Slots}
    (h : ∀ q ∈ pkts, q.dmxData = data) (hset : ∃ q ∈ pkts, q.Sets c) :
    levelOf c pkts = data[c] := by
  induction pkts with
  | nil =>
    obtain ⟨q, hq, _⟩ := hset
    cases hq
  | cons pkt pkts ih =>
    rw [levelOf]
    split_ifs with hpkt
    · rw [h pkt (by simp)]
    · obtain ⟨q, hq, hsets⟩ := hset
      refine ih (fun q hq => h q (by simp [hq])) ⟨q, ?_, hsets⟩
      exact List.mem_of_ne_of_mem (fun heq : q = pkt => hpkt (heq ▸ hsets)) hq

/-! ## Runs that differ in payload bytes -/

/-- A port without its levels. -/
def PortState.bare (p : PortState) : PortState :=
  { p with out := { p.out with data := blankFrame } }

/-- Two ports that differ in their levels only agree on everything else. -/
theorem bare_eq_iff {p q : PortState} :
    p.bare = q.bare ↔ p.out.length = q.out.length ∧ p.out.priority = q.out.priority ∧
      p.out.sequence = q.out.sequence ∧ p.out.lastUpdateMs = q.out.lastUpdateMs ∧
      p.lastWrite = q.lastWrite ∧ p.fd = q.fd := by
  simp [PortState.bare, and_assoc]

/-- Two port states with the same levels and the same rest are the same. -/
theorem eq_of_bare_eq {p q : PortState} (h : p.bare = q.bare) (hdata : p.out.data = q.out.data) :
    p = q := by
  obtain ⟨⟨_, _, _, _, _⟩, _, _⟩ := p
  obtain ⟨⟨_, _, _, _, _⟩, _, _⟩ := q
  obtain ⟨rfl, rfl, rfl, rfl, rfl, rfl⟩ := bare_eq_iff.mp h
  cases hdata
  rfl

section Payload

variable {cfg : NodeConfig} {i : Port} {st st' : DaemonState}

/-- The merge test looks at a frame's priority and stamp. -/
theorem sacnAccepts_congr {f g : DmxFrame} (pkt : SacnPacket) (clk : HandlerClock)
    (hprio : f.priority = g.priority) (hstamp : f.lastUpdateMs = g.lastUpdateMs) :
    sacnAccepts pkt clk i f = sacnAccepts pkt clk i g := by
  unfold sacnAccepts
  rw [hprio, hstamp]

/-- Whether a packet is applied does not depend on the stored levels. -/
theorem appliedAt_congr (e : Event) (h : (st i).bare = (st' i).bare) :
    e.appliedAt cfg i st = e.appliedAt cfg i st' := by
  obtain ⟨_, hprio, _, hstamp, _, _⟩ := bare_eq_iff.mp h
  cases e with
  | sacn pkt clk => simp only [Event.appliedAt, sacnAccepts_congr pkt clk hprio hstamp]
  | _ => rfl

/-- Nor does it depend on the packet's own. -/
theorem appliedAt_withPayload (e : Event) (data : Slots) (h : (st i).bare = (st' i).bare) :
    (e.withPayload data).appliedAt cfg i st' = e.appliedAt cfg i st := by
  rw [appliedAt_congr e h]
  cases e <;> rfl

/-- Whether a cycle times out does not depend on the levels of a packet. -/
theorem timesOut_withPayload (e : Event) (data : Slots) (h : (st i).bare = (st' i).bare) :
    (e.withPayload data).timesOut cfg i st' = e.timesOut cfg i st := by
  obtain ⟨_, _, _, hstamp, hwrite, hfd⟩ := bare_eq_iff.mp h
  cases e with
  | outputCycle ms opens =>
    simp only [Event.withPayload, Event.timesOut, timedOut, hstamp, hwrite, hfd]
  | _ => rfl

/-- What an output cycle does is decided by everything but the levels. -/
theorem portAction_congr {t : UInt32} {p q : PortState} (h : p.bare = q.bare) :
    portAction cfg t i p = portAction cfg t i q := by
  obtain ⟨_, _, _, hstamp, hwrite, hfd⟩ := bare_eq_iff.mp h
  unfold portAction timedOut
  rw [hstamp, hwrite, hfd]

/-- Which descriptor a write leaves does not depend on what it writes. -/
theorem dmxTxWrite_fd_congr (fd : Int) (data data' : Slots) (o : Opens) :
    (dmxTxWrite i fd data o).1 = (dmxTxWrite i fd data' o).1 := by
  unfold dmxTxWrite
  split_ifs <;> rfl

/-- The loop's body looks at a port's levels only to send them. -/
theorem outputPort_bare {t : UInt32} {o : Opens} {p q : PortState} (h : p.bare = q.bare) :
    (outputPort cfg t o i p).1.bare = (outputPort cfg t o i q).1.bare := by
  obtain ⟨hlen, hprio, hseq, hstamp, hwrite, hfd⟩ := bare_eq_iff.mp h
  rw [outputPort_eq, outputPort_eq, portAction_congr h]
  cases portAction cfg t i q with
  | leave => exact h
  | send =>
    refine bare_eq_iff.mpr ⟨hlen, hprio, hseq, hstamp, hstamp, ?_⟩
    rw [hfd]
    exact dmxTxWrite_fd_congr q.fd _ _ o
  | blank =>
    refine bare_eq_iff.mpr ⟨hlen, rfl, hseq, rfl, hwrite, ?_⟩
    rw [hfd]

/-- Related events act alike on a port without its levels. -/
theorem step_bare (e : Event) (data : Slots) (h : (st i).bare = (st' i).bare) :
    ((step cfg st e).1 i).bare = ((step cfg st' (e.withPayload data)).1 i).bare := by
  cases hcycle : e.isCycle with
  -- an output cycle decides by the rest of the state
  | true =>
    cases e with
    | outputCycle ms opens =>
      simp only [step, Event.withPayload]
      rw [(dmxOutputCycle_apply cfg ms opens st i).1, (dmxOutputCycle_apply cfg ms opens st' i).1]
      exact outputPort_bare h
    | _ => cases hcycle
  | false =>
    -- a packet is taken by priority and stamp, which the levels are no part of
    obtain ⟨_, hprio, hseq, hstamp, hwrite, hfd⟩ := bare_eq_iff.mp h
    cases e with
    | sacn pkt clk =>
      have hacc := sacnAccepts_congr (i := i) pkt clk hprio hstamp
      have hacc' : sacnAccepts { pkt with dmxData := data } clk i (st' i).out
          = sacnAccepts pkt clk i (st' i).out := rfl
      simp only [step, Event.withPayload, handleSacnPacket_apply, hacc, hacc']
      split_ifs
      · simp [bare_eq_iff, sacnStore, hwrite, hfd]
      · exact h
    | artnet pkt clk =>
      simp only [step, Event.withPayload, handleArtnetPacket_apply]
      split_ifs
      · simp [bare_eq_iff, artnetStore, hprio, hwrite, hfd]
      · exact h
    | shownet pkt clk =>
      simp only [step, Event.withPayload, handleShownetPacket_apply]
      split_ifs
      · simp [bare_eq_iff, shownetStore, hprio, hseq, hwrite, hfd]
      · exact h
    | outputCycle ms opens => cases hcycle

/-- The lengths of the live packets do not depend on payload bytes either. -/
theorem notePackets_lengths (e : Event) (data : Slots) {pkts pkts' : List SacnPacket}
    (h : (st i).bare = (st' i).bare)
    (hlen : pkts.map SacnPacket.dmxLength = pkts'.map SacnPacket.dmxLength) :
    (notePackets cfg i st e pkts).map SacnPacket.dmxLength
      = (notePackets cfg i st' (e.withPayload data) pkts').map SacnPacket.dmxLength := by
  unfold notePackets
  rw [appliedAt_withPayload e data h, timesOut_withPayload e data h]
  cases e.timesOut cfg i st with
  | true => rfl
  | false =>
    cases e with
    | sacn pkt clk =>
      simp only [Event.withPayload, Bool.false_eq_true, if_false]
      split_ifs
      · simp [hlen]
      · exact hlen
    | _ => exact hlen

/-- Two runs that differ in payload bytes only end in states that differ in levels only. -/
theorem bare_run {es es' : List Event} (hes : List.Forall₂ SameButPayload es es')
    {pkts pkts' : List SacnPacket} (h : (st i).bare = (st' i).bare)
    (hlen : pkts.map SacnPacket.dmxLength = pkts'.map SacnPacket.dmxLength) :
    (finalState (step cfg) st es i).bare = (finalState (step cfg) st' es' i).bare ∧
      (history (step cfg) (notePackets cfg i) st pkts es).map SacnPacket.dmxLength
        = (history (step cfg) (notePackets cfg i) st' pkts' es').map SacnPacket.dmxLength := by
  induction hes generalizing st st' pkts pkts' with
  | nil => exact ⟨h, hlen⟩
  | cons he _ ih =>
    obtain ⟨data, rfl⟩ := he
    exact ih (step_bare _ data h) (notePackets_lengths _ data h hlen)

/-- From one state such runs leave one port but for its levels, and live packets of one length. -/
theorem bare_run_same {es es' : List Event} (hes : List.Forall₂ SameButPayload es es')
    (st : DaemonState) :
    (finalState (step cfg) st es i).bare = (finalState (step cfg) st es' i).bare ∧
      (livePackets cfg i st es).map SacnPacket.dmxLength
        = (livePackets cfg i st es').map SacnPacket.dmxLength :=
  bare_run hes rfl rfl

end Payload

/-- A noted packet was noted before or is the one just received. -/
theorem mem_notePackets {cfg : NodeConfig} {i : Port} {st : DaemonState} {e : Event}
    {pkts : List SacnPacket} {q : SacnPacket} (hq : q ∈ notePackets cfg i st e pkts) :
    q ∈ pkts ∨ ∃ clk, e = .sacn q clk := by
  unfold notePackets at hq
  cases hout : e.timesOut cfg i st with
  | true =>
    rw [if_pos hout] at hq
    cases hq
  | false =>
    rw [if_neg (by simp [hout])] at hq
    cases e with
    | sacn pkt clk =>
      simp only at hq
      split_ifs at hq
      · rcases List.mem_cons.mp hq with rfl | hq
        · exact Or.inr ⟨clk, rfl⟩
        · exact Or.inl hq
      · exact Or.inl hq
    | _ => exact Or.inl hq

/-- A live packet came with the run. -/
theorem mem_of_livePackets {cfg : NodeConfig} {i : Port} {st : DaemonState} {es : List Event}
    {q : SacnPacket} (hq : q ∈ livePackets cfg i st es) : ∃ clk, Event.sacn q clk ∈ es := by
  revert hq
  refine run_induction (step cfg) (s := st)
    (P := fun es _ => q ∈ livePackets cfg i st es → ∃ clk, Event.sacn q clk ∈ es) ?_ ?_ es
  · intro hq
    cases hq
  · intro es e ih hq
    unfold livePackets at ih hq
    rw [history_concat] at hq
    rcases mem_notePackets hq with hold | ⟨clk, rfl⟩
    · obtain ⟨clk, hmem⟩ := ih hold
      exact ⟨clk, List.mem_append_left _ hmem⟩
    · exact ⟨clk, by simp⟩

/-! ## What a cycle sends -/

/-- The port as far as a cycle can send it: without its levels unless they are pending. -/
def PortState.pending (p : PortState) : PortState := if p.Pending then p else p.bare

theorem pending_of_pending {p : PortState} (h : p.Pending) : p.pending = p := if_pos h

theorem pending_of_not {p : PortState} (h : ¬ p.Pending) : p.pending = p.bare := if_neg h

/-- Two states with the same pending part have the same rest. -/
theorem bare_of_pending_eq {p q : PortState} (h : p.pending = q.pending) : p.bare = q.bare := by
  have hbare : ∀ p : PortState, p.pending.bare = p.bare := by
    intro p
    unfold PortState.pending
    split_ifs <;> rfl
  rw [← hbare p, h, hbare q]

/-- Whether levels wait is decided by the rest. -/
theorem Pending_congr {p q : PortState} (h : p.bare = q.bare) : p.Pending ↔ q.Pending := by
  obtain ⟨_, _, _, hstamp, hwrite, hfd⟩ := bare_eq_iff.mp h
  unfold PortState.Pending
  rw [hstamp, hwrite, hfd]

/-- While levels wait, the pending part is the whole state. -/
theorem pending_eq_of_pending {p q : PortState} (h : p.pending = q.pending) (hp : p.Pending) :
    p = q := by
  have hq := (Pending_congr (bare_of_pending_eq h)).mp hp
  rwa [pending_of_pending hp, pending_of_pending hq] at h

/-- A frame that `dmx_tx_write` writes is the one it was given. -/
theorem eq_of_mem_dmxTxWrite {i : Port} {fd : Int} {data frame : Slots} {o : Opens}
    (h : frame ∈ (dmxTxWrite i fd data o).2.filterMap (frameTo i)) : frame = data := by
  unfold dmxTxWrite at h
  split_ifs at h
  all_goals simp only [List.filterMap_append, List.filterMap_cons, frameTo_close, frameTo_open,
    frameTo_write_self, List.filterMap_nil, List.nil_append, List.mem_singleton,
    List.not_mem_nil] at h
  all_goals exact h

/-- **One cycle.** A cycle sends the pending levels or a blank frame, and what is pending after it
was pending before. -/
theorem outputPort_pending (cfg : NodeConfig) (i : Port) (t : UInt32) (o : Opens) (p : PortState) :
    (∀ frame ∈ (outputPort cfg t o i p).2.filterMap (frameTo i),
      frame = blankFrame ∨ frame = p.pending.out.data) ∧
    ((outputPort cfg t o i p).1 = p ∨
      (outputPort cfg t o i p).1.pending.out.data = blankFrame) := by
  rw [outputPort_eq]
  cases haction : portAction cfg t i p with
  | leave => exact ⟨fun frame hmem => (by cases hmem), Or.inl rfl⟩
  | send =>
    -- the frame is sent and no longer pending
    rw [pending_of_pending (portAction_send haction)]
    refine ⟨fun frame hmem => Or.inr (eq_of_mem_dmxTxWrite hmem), Or.inr ?_⟩
    rw [pending_of_not (by simp [PortState.Pending])]
    rfl
  | blank =>
    refine ⟨fun frame hmem => Or.inl (eq_of_mem_dmxTxWrite hmem), Or.inr ?_⟩
    rw [pending_of_not (by simp [PortState.Pending])]
    rfl

/-- Ports that agree on what is pending are sent the same and go on agreeing. -/
theorem outputPort_congr_pending {cfg : NodeConfig} {i : Port} {t : UInt32} {o : Opens}
    {p q : PortState} (h : p.pending = q.pending) :
    (outputPort cfg t o i p).1.pending = (outputPort cfg t o i q).1.pending ∧
      (outputPort cfg t o i p).2 = (outputPort cfg t o i q).2 := by
  by_cases hp : p.Pending
  · rw [pending_eq_of_pending h hp]
    exact ⟨rfl, rfl⟩
  · have hbare := bare_of_pending_eq h
    obtain ⟨hlen, _, hseq, _, hwrite, hfd⟩ := bare_eq_iff.mp hbare
    rw [outputPort_eq, outputPort_eq, portAction_congr hbare]
    -- nothing is pending, so the levels play no part
    cases haction : portAction cfg t i q with
    | leave => exact ⟨h, rfl⟩
    | send => exact absurd ((Pending_congr hbare).mpr (portAction_send haction)) hp
    | blank =>
      rw [hfd]
      refine ⟨?_, rfl⟩
      rw [pending_of_not (by simp [PortState.Pending]),
        pending_of_not (by simp [PortState.Pending])]
      exact bare_eq_iff.mpr ⟨hlen, rfl, hseq, rfl, hwrite, rfl⟩

section Quiet

variable {cfg : NodeConfig} {i : Port}

/-- Until the next packet is applied each frame is blank or what was pending. -/
theorem framesTo_of_noneApplied {st : DaemonState} {mid : List Event}
    (hmid : NoneApplied cfg i st mid) :
    ∀ frame ∈ framesTo cfg i st mid, frame = blankFrame ∨ frame = (st i).pending.out.data := by
  induction mid generalizing st with
  | nil =>
    intro frame hmem
    cases hmem
  | cons e mid ih =>
    obtain ⟨hnone, hrest⟩ := hmid
    intro frame hmem
    rw [framesTo, trace_cons, List.filterMap_append, List.mem_append] at hmem
    cases hcycle : e.isCycle with
    -- a packet writes nothing, and this one is not applied
    | false =>
      rw [step_silent hcycle, List.filterMap_nil] at hmem
      rcases hmem with hmem | hmem
      · cases hmem
      · have hlater := ih hrest frame hmem
        rwa [step_of_not_applied hcycle hnone] at hlater
    | true =>
      cases e with
      | outputCycle ms opens =>
        -- what a cycle sends is pending or blank, and so is what it leaves
        obtain ⟨hsent, hleft⟩ := outputPort_pending cfg i (nowMs ms) (opens i) (st i)
        obtain ⟨hst, hframes⟩ := dmxOutputCycle_apply cfg ms opens st i
        rcases hmem with hmem | hmem
        · simp only [step] at hmem
          rw [hframes] at hmem
          exact hsent frame hmem
        · have hlater := ih hrest frame hmem
          simp only [step] at hlater
          rw [hst] at hlater
          rcases hleft with hsame | hblank
          · rwa [hsame] at hlater
          · rw [hblank, or_self] at hlater
            exact Or.inl hlater
      | _ => cases hcycle

/-- Until the next packet is applied, two states that agree on what is pending at the port are
sent the same frames. -/
theorem framesTo_congr_pending {st st' : DaemonState} {mid : List Event}
    (hmid : NoneApplied cfg i st mid) (h : (st i).pending = (st' i).pending) :
    framesTo cfg i st mid = framesTo cfg i st' mid := by
  induction mid generalizing st st' with
  | nil => rfl
  | cons e mid ih =>
    obtain ⟨hnone, hrest⟩ := hmid
    -- one event keeps the pending parts the same and shows the same frames
    have hstep : ((step cfg st e).1 i).pending = ((step cfg st' e).1 i).pending ∧
        (step cfg st e).2.filterMap (frameTo i) = (step cfg st' e).2.filterMap (frameTo i) := by
      cases hcycle : e.isCycle with
      | false =>
        have hnone' := (appliedAt_congr e (bare_of_pending_eq h)).symm.trans hnone
        rw [step_of_not_applied hcycle hnone, step_of_not_applied hcycle hnone',
          step_silent hcycle, step_silent hcycle]
        exact ⟨h, rfl⟩
      | true =>
        cases e with
        | outputCycle ms opens =>
          obtain ⟨hst, hframes⟩ := dmxOutputCycle_apply cfg ms opens st i
          obtain ⟨hst', hframes'⟩ := dmxOutputCycle_apply cfg ms opens st' i
          obtain ⟨hpend, hsent⟩ := @outputPort_congr_pending cfg i (nowMs ms) (opens i) _ _ h
          simp only [step]
          rw [hst, hst', hframes, hframes', hsent]
          exact ⟨hpend, rfl⟩
        | _ => cases hcycle
    have htail := ih hrest hstep.1
    unfold framesTo at htail ⊢
    rw [trace_cons, trace_cons, List.filterMap_append, List.filterMap_append, hstep.2, htail]

end Quiet

/-! ## Taking a port over -/

section TakeOver

variable {cfg : NodeConfig} {i : Port} {st : DaemonState} {pkt : SacnPacket} {clk : HandlerClock}

/-- A packet that takes a port over is applied to it. -/
theorem step_of_supersedes (h : Supersedes cfg i st pkt clk) :
    (step cfg st (.sacn pkt clk)).1 i = { st i with out := sacnStore pkt clk i (st i).out } := by
  obtain ⟨hcode, hroute, hover⟩ := h
  have hacc : sacnAccepts pkt clk i (st i).out = true :=
    decide_eq_true (hover.imp_left UInt8.le_of_lt)
  simp only [step, handleSacnPacket_apply]
  rw [if_pos ⟨hcode, hroute, hacc⟩]

/-- Whether a packet supersedes is decided by everything but the levels. -/
theorem Supersedes.congr {st' : DaemonState} (h : Supersedes cfg i st pkt clk)
    (hbare : (st i).bare = (st' i).bare) : Supersedes cfg i st' pkt clk := by
  obtain ⟨_, hprio, _, hstamp, _, _⟩ := bare_eq_iff.mp hbare
  unfold Supersedes at h ⊢
  rwa [← hprio, ← hstamp]

/-- The levels after the packet: its own, and those of the live packets where it has none. -/
theorem data_of_supersedes {pkts : List SacnPacket} (h : Supersedes cfg i st pkt clk)
    (hinv : LevelInv (st i).out pkts) (c : Fin dmxUniverseSize) :
    ((step cfg st (.sacn pkt clk)).1 i).out.data[c] = levelOf c (pkt :: pkts) := by
  rw [step_of_supersedes h, sacnStore_apply, hinv c, levelOf]

/-- A packet's frame is pending when its stamp is past the last one sent. -/
theorem pending_of_supersedes (h : Supersedes cfg i st pkt clk) :
    ((step cfg st (.sacn pkt clk)).1 i).Pending ↔
      0 ≤ (st i).fd ∧ nowMs (clk.store i) > (st i).lastWrite := by
  rw [step_of_supersedes h]
  rfl

end TakeOver

/-- The packet's frame will be sent by the next cycle: the device is open and the stamp is past the
last one sent. -/
def WillBeSent (i : Port) (st : DaemonState) (clk : HandlerClock) : Prop :=
  0 ≤ (st i).fd ∧ nowMs (clk.store i) > (st i).lastWrite

instance (i : Port) (st : DaemonState) (clk : HandlerClock) : Decidable (WillBeSent i st clk) := by
  unfold WillBeSent
  infer_instance

/-- The packet sets every channel that a live packet of the run sets. -/
def CoversLive (cfg : NodeConfig) (i : Port) (st : DaemonState) (pre : List Event)
    (pkt : SacnPacket) : Prop :=
  ∀ q ∈ livePackets cfg i st pre, ∀ c : Fin dmxUniverseSize, q.Sets c → pkt.Sets c

/-- Where the live packets set nothing else, a channel is the packet's or dark. -/
theorem levelOf_of_covers {pkt : SacnPacket} {pkts : List SacnPacket} {c : Fin dmxUniverseSize}
    (h : ∀ q ∈ pkts, q.Sets c → pkt.Sets c) :
    levelOf c (pkt :: pkts) = if pkt.Sets c then pkt.dmxData[c] else 0 := by
  rw [levelOf]
  split_ifs with hset
  · rfl
  · exact levelOf_of_unset fun q hq hsets => hset (h q hq hsets)

/-- Packets of the same lengths set the same channels. -/
theorem exists_sets_of_lengths {pkts pkts' : List SacnPacket} {q : SacnPacket}
    (hlen : pkts.map SacnPacket.dmxLength = pkts'.map SacnPacket.dmxLength) (hq : q ∈ pkts) :
    ∃ q' ∈ pkts', ∀ c, q'.Sets c ↔ q.Sets c := by
  have hmem : q.dmxLength ∈ pkts'.map SacnPacket.dmxLength := hlen ▸ List.mem_map_of_mem hq
  obtain ⟨q', hq', heq⟩ := List.mem_map.mp hmem
  exact ⟨q', hq', fun c => by unfold SacnPacket.Sets; rw [heq]⟩

/-- A run and the run with other payload bytes. -/
theorem forall₂_withPayload (pre : List Event) (data : Slots) :
    List.Forall₂ SameButPayload pre (pre.map (Event.withPayload data)) :=
  List.forall₂_map_right_iff.mpr (List.forall₂_same.mpr fun _ _ => ⟨data, rfl⟩)

section TakeOverRun

variable {cfg : NodeConfig} {i : Port} {opened : Port → Int} {pre : List Event}
  {pkt : SacnPacket} {clk : HandlerClock}
  (hes : ∀ e ∈ pre, e.isSacnOrCycle = true)
  (hsup : Supersedes cfg i (finalState (step cfg) (initialState cfg opened) pre) pkt clk)

/-- Runs that differ in levels only have the same kinds of events. -/
theorem isSacnOrCycle_of_sameButPayload {pre' : List Event}
    (h : List.Forall₂ SameButPayload pre pre') (hpre : ∀ e ∈ pre, e.isSacnOrCycle = true) :
    ∀ e ∈ pre', e.isSacnOrCycle = true := by
  induction h with
  | nil =>
    intro e he
    cases he
  | cons he _ ih =>
    obtain ⟨data, rfl⟩ := he
    intro e hmem
    rcases List.mem_cons.mp hmem with rfl | hmem
    · have hkind := hpre _ List.mem_cons_self
      cases ‹Event› <;> exact hkind
    · exact ih (fun e' he' => hpre e' (List.mem_cons_of_mem _ he')) e hmem

include hes hsup

/-- A packet that covers the live ones leaves nothing else on the port. -/
theorem data_of_covers (hcover : CoversLive cfg i (initialState cfg opened) pre pkt)
    (c : Fin dmxUniverseSize) :
    (finalState (step cfg) (initialState cfg opened) (pre ++ [.sacn pkt clk]) i).out.data[c]
      = if pkt.Sets c then pkt.dmxData[c] else 0 := by
  rw [finalState_concat, data_of_supersedes hsup (levelInv_run cfg i opened hes),
    levelOf_of_covers fun q hq => hcover q hq c]

/-- After two runs that differ in payload bytes the packet finds, and leaves, the same port but
for its levels. -/
theorem pending_of_sameButPayload {pre' : List Event}
    (hpre' : List.Forall₂ SameButPayload pre pre')
    (h : WillBeSent i (finalState (step cfg) (initialState cfg opened) pre) clk →
      CoversLive cfg i (initialState cfg opened) pre pkt) :
    (finalState (step cfg) (initialState cfg opened) (pre ++ [.sacn pkt clk]) i).pending
      = (finalState (step cfg) (initialState cfg opened) (pre' ++ [.sacn pkt clk]) i).pending := by
  obtain ⟨hbare, hlen⟩ := @bare_run_same cfg i _ _ hpre' (initialState cfg opened)
  have hsup' := hsup.congr hbare
  have hbare' : (finalState (step cfg) (initialState cfg opened) (pre ++ [.sacn pkt clk]) i).bare
      = (finalState (step cfg) (initialState cfg opened) (pre' ++ [.sacn pkt clk]) i).bare := by
    rw [finalState_concat, finalState_concat]
    exact step_bare (.sacn pkt clk) pkt.dmxData hbare
  by_cases hpend : (finalState (step cfg) (initialState cfg opened)
      (pre ++ [.sacn pkt clk]) i).Pending
  · -- both frames are sent, and the packet decides all their channels
    have hsent := hpend
    rw [finalState_concat, pending_of_supersedes hsup] at hsent
    have hcover := h hsent
    have hcover' : CoversLive cfg i (initialState cfg opened) pre' pkt := by
      intro q hq c hset
      obtain ⟨q₀, hq₀, hsame⟩ := exists_sets_of_lengths hlen.symm hq
      exact hcover q₀ hq₀ c ((hsame c).mpr hset)
    have hes' := isSacnOrCycle_of_sameButPayload hpre' hes
    have hdata : (finalState (step cfg) (initialState cfg opened)
        (pre ++ [.sacn pkt clk]) i).out.data
        = (finalState (step cfg) (initialState cfg opened)
          (pre' ++ [.sacn pkt clk]) i).out.data := by
      apply Vector.ext
      intro c hc
      exact (data_of_covers hes hsup hcover ⟨c, hc⟩).trans
        (data_of_covers hes' hsup' hcover' ⟨c, hc⟩).symm
    rw [eq_of_bare_eq hbare' hdata]
  · rw [pending_of_not hpend, pending_of_not (fun hp => hpend ((Pending_congr hbare').mpr hp)),
      hbare']

/-- A packet that covers the live ones, or whose frame is not sent, leaves nothing stale. -/
theorem noStaleLevels_of_covers
    (h : WillBeSent i (finalState (step cfg) (initialState cfg opened) pre) clk →
      CoversLive cfg i (initialState cfg opened) pre pkt) :
    NoStaleLevels cfg i (initialState cfg opened) pre pkt clk where
  own := by
    intro mid hmid frame hmem c
    rcases framesTo_of_noneApplied hmid frame hmem with rfl | rfl
    · exact Or.inl (blankFrame_apply c)
    · by_cases hpend : (finalState (step cfg) (initialState cfg opened)
          (pre ++ [.sacn pkt clk]) i).Pending
      · have hsent := hpend
        rw [finalState_concat, pending_of_supersedes hsup] at hsent
        rw [pending_of_pending hpend, data_of_covers hes hsup (h hsent)]
        split_ifs with hset
        · exact Or.inr ⟨hset, rfl⟩
        · exact Or.inl rfl
      · rw [pending_of_not hpend]
        exact Or.inl (blankFrame_apply c)
  blind := by
    intro mid hmid pre' hpre'
    exact framesTo_congr_pending hmid (pending_of_sameButPayload hes hsup hpre' h)

/-- With every payload of the run replaced by `data`, a channel that a live packet sets and the
packet does not is sent its level in `data`. -/
theorem framesTo_uniform (hsent : WillBeSent i
      (finalState (step cfg) (initialState cfg opened) pre) clk)
    {q : SacnPacket} (hq : q ∈ livePackets cfg i (initialState cfg opened) pre)
    {c : Fin dmxUniverseSize} (hset : q.Sets c) (hunset : ¬ pkt.Sets c) (data : Slots) :
    ∃ frame : Slots, frame[c] = data[c] ∧
      framesTo cfg i (finalState (step cfg) (initialState cfg opened)
        (pre.map (Event.withPayload data) ++ [.sacn pkt clk])) [.outputCycle 0 openedOk]
      = [frame] := by
  have hrel := forall₂_withPayload pre data
  obtain ⟨hbare, hlen⟩ := @bare_run_same cfg i _ _ hrel (initialState cfg opened)
  have hsup' := hsup.congr hbare
  have hes' := isSacnOrCycle_of_sameButPayload hrel hes
  obtain ⟨_, _, _, _, hwrite, hfd⟩ := bare_eq_iff.mp hbare
  obtain ⟨hopen, hfresh⟩ := (pending_of_supersedes hsup').mpr
    ⟨by rw [← hfd]; exact hsent.1, by rw [← hwrite]; exact hsent.2⟩
  have hframes := (dmxOutputCycle_apply cfg 0 openedOk (finalState (step cfg)
    (initialState cfg opened) (pre.map (Event.withPayload data) ++ [.sacn pkt clk])) i).2
  rw [finalState_concat] at hframes ⊢
  rw [outputPort_fresh hopen hsup'.2.1.2 hfresh, dmxTxWrite_frameTo i _ _ (openedOk_succeed i)]
    at hframes
  refine ⟨_, ?_, by
    rw [framesTo, trace_cons, trace_nil, List.append_nil]
    exact hframes⟩
  rw [data_of_supersedes hsup' (levelInv_run cfg i opened hes'), levelOf, if_neg hunset]
  refine levelOf_of_uniform ?_ ?_
  · -- every live packet came with the run, whose payloads are all `data`
    intro q' hq'
    obtain ⟨clk', hmem⟩ := mem_of_livePackets hq'
    obtain ⟨e, _, heq⟩ := List.mem_map.mp hmem
    cases e with
    | sacn p clk₀ =>
      obtain ⟨rfl, _⟩ := Event.sacn.inj heq
      rfl
    | _ => cases heq
  · obtain ⟨q', hq', hsame⟩ := exists_sets_of_lengths hlen hq
    exact ⟨q', hq', (hsame c).mpr hset⟩

/-- A packet whose frame is sent and that leaves a live channel unset lets earlier payload bytes
through. -/
theorem covers_of_noStaleLevels (h : NoStaleLevels cfg i (initialState cfg opened) pre pkt clk)
    (hsent : WillBeSent i (finalState (step cfg) (initialState cfg opened) pre) clk) :
    CoversLive cfg i (initialState cfg opened) pre pkt := by
  intro q hq c hset
  by_contra hunset
  have hquiet : NoneApplied cfg i (finalState (step cfg) (initialState cfg opened)
      (pre ++ [.sacn pkt clk])) [.outputCycle 0 openedOk] := ⟨rfl, trivial⟩
  -- the run with dark payloads and the run with full ones would be sent the same frame
  obtain ⟨dark, hdark, hframes⟩ := framesTo_uniform hes hsup hsent hq hset hunset blankFrame
  obtain ⟨full, hfull, hframes'⟩ := framesTo_uniform hes hsup hsent hq hset hunset
    (Vector.replicate dmxUniverseSize 255)
  have hsame := (h.blind _ hquiet _ (forall₂_withPayload pre blankFrame)).symm.trans
    (h.blind _ hquiet _ (forall₂_withPayload pre (Vector.replicate dmxUniverseSize 255)))
  rw [hframes, hframes'] at hsame
  obtain rfl := List.singleton_inj.mp hsame
  rw [hdark, blankFrame_apply] at hfull
  simp at hfull

end TakeOverRun

/-- **Whose levels are on the output.** After any run of sACN packets and output cycles, a packet
that takes a port over leaves nothing of the earlier packets on its output if and only if, when its
frame is going to be sent, it sets every channel set by a packet applied to the port since its last
source timeout. -/
theorem noStaleLevels_iff (cfg : NodeConfig) (i : Port) (opened : Port → Int) (pre : List Event)
    (pkt : SacnPacket) (clk : HandlerClock) (hes : ∀ e ∈ pre, e.isSacnOrCycle = true)
    (hsup : Supersedes cfg i (finalState (step cfg) (initialState cfg opened) pre) pkt clk) :
    NoStaleLevels cfg i (initialState cfg opened) pre pkt clk ↔
      (WillBeSent i (finalState (step cfg) (initialState cfg opened) pre) clk →
        CoversLive cfg i (initialState cfg opened) pre pkt) :=
  ⟨covers_of_noStaleLevels hes hsup, noStaleLevels_of_covers hes hsup⟩

/-- A source of priority 100, sent, and then taken over by `sacnLevel 1 150 2`. -/
def takenOverRun (pkt : SacnPacket) : List Event :=
  [.sacn pkt (HandlerClock.at 1000), .outputCycle 1000 openedOk]

/-- `noStaleLevels_iff` on a run in which a source of higher priority takes over. -/
theorem takenOverRun_noStaleLevels :
    NoStaleLevels configDefaults 0 (initialState configDefaults fun _ => 3)
      (takenOverRun (sacnLevel 1 100 1)) (sacnLevel 1 150 2) (HandlerClock.at 1030) := by
  refine (noStaleLevels_iff configDefaults 0 (fun _ => 3) (takenOverRun (sacnLevel 1 100 1))
    (sacnLevel 1 150 2) (HandlerClock.at 1030) (by decide) (by decide)).mpr ?_
  intro _ q hq c hset
  have hlive : livePackets configDefaults 0 (initialState configDefaults fun _ => 3)
      (takenOverRun (sacnLevel 1 100 1)) = [sacnLevel 1 100 1] := rfl
  rw [hlive, List.mem_singleton] at hq
  subst hq
  exact hset

/-- All 512 channels at 200. -/
def sacnFull : SacnPacket :=
  { sacnLevel 1 100 0 with dmxData := Vector.replicate dmxUniverseSize 200, dmxLength := 512 }

/-- When the first source has set all channels, a packet of one slot leaves 511 of them on. -/
theorem sacnFull_left_on :
    Supersedes configDefaults 0 (finalState (step configDefaults) (initialState configDefaults
        fun _ => 3) (takenOverRun sacnFull)) (sacnLevel 1 150 2) (HandlerClock.at 1030) ∧
      ¬ NoStaleLevels configDefaults 0 (initialState configDefaults fun _ => 3)
        (takenOverRun sacnFull) (sacnLevel 1 150 2) (HandlerClock.at 1030) := by
  have hsup : Supersedes configDefaults 0 (finalState (step configDefaults)
      (initialState configDefaults fun _ => 3) (takenOverRun sacnFull)) (sacnLevel 1 150 2)
      (HandlerClock.at 1030) := by decide
  refine ⟨hsup, fun h => ?_⟩
  have hlive : livePackets configDefaults 0 (initialState configDefaults fun _ => 3)
      (takenOverRun sacnFull) = [sacnFull] := rfl
  -- channel 1 is set by the first packet and not by the second
  have hset := covers_of_noStaleLevels (by decide) hsup h (by decide) sacnFull
    (by rw [hlive]; exact List.mem_singleton_self _) 1 (by decide)
  exact absurd hset (by decide)

end SN110
