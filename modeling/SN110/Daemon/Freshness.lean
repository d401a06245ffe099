import SN110.Daemon.Loop
import SN110.Config.Defaults

/-!
# Does every accepted update reach the wire?

`dmx_output_cycle` decides that a frame is fresh by comparing two 32-bit stamps,
`last_update_ms > last_write`. The comparison is right as long as the stamps grow from one
frame to send to the next, and goes wrong where the counter wraps between two of them.

* `Backlog` is what the run has applied to a port and not yet had a cycle for, with the stamp
  of the last frame sent; the code keeps neither.
* `OutputInv` ties the code's two stamps to the backlog. A packet keeps it
  (`outputInv_packet`), and so does an output cycle at which the stamps advance
  (`outputInv_cycle`).
* Between two wraps of the counter the stamps advance (`stampsAdvance_of_sameEpoch`).
* In a run whose stamps advance at every cycle no update is lost. Where they do not one is
  (`lost_of_stamp_not_advanced`), as in `wrapRun`.
-/

namespace SN110

open Run

/-! ## The property -/

/-- A packet has been applied to port `i` since the last output cycle of the run. -/
def AppliedSinceCycle (cfg : NodeConfig) (i : Port) (st : DaemonState) (es : List Event) : Prop :=
  ∃ pre e mid, es = pre ++ e :: mid ∧
    (e.appliedAt cfg i (finalState (step cfg) st pre)).isSome ∧ ∀ e' ∈ mid, e'.isCycle = false

/-- Every output cycle of the run that has an update to send to port `i` sends it the data
stored there. -/
def NoLostUpdate (cfg : NodeConfig) (i : Port) (st : DaemonState) (es : List Event) : Prop :=
  ∀ pre ms opens post, es = pre ++ .outputCycle ms opens :: post →
    AppliedSinceCycle cfg i st pre →
    (step cfg (finalState (step cfg) st pre) (.outputCycle ms opens)).2.filterMap (frameTo i)
      = [(finalState (step cfg) st pre i).out.data]

/-- The clock never goes back, and a packet is received at least 1 ms after the output cycle
before it. -/
def ClockAdvances (es : List Event) : Prop :=
  ClockMonotone es ∧
    es.Pairwise fun e e' => e.isCycle = true → e'.isCycle = false →
      ∀ r ∈ e.readings, ∀ r' ∈ e'.readings, r < r'

/-! ## What is waiting to be sent -/

/-- The reading that stamped the last packet applied to a port since the last output cycle, and
the one that stamped the last packet an output cycle has found waiting before. -/
structure Backlog where
  waiting : Option Nat
  sent : Option Nat

/-- The stamp of the last packet found waiting, and 0 at the start. -/
def Backlog.sentStamp (b : Backlog) : UInt32 := b.sent.elim 0 nowMs

/-- One event's effect on the backlog. -/
def Backlog.note (cfg : NodeConfig) (i : Port) (st : DaemonState) (e : Event) (b : Backlog) :
    Backlog :=
  if e.isCycle then
    match b.waiting with
    | none => b
    | some u => { waiting := none, sent := some u }
  else
    match e.appliedAt cfg i st with
    | none => b
    | some u => { b with waiting := some u }

/-- The backlog after a run. -/
def backlog (cfg : NodeConfig) (i : Port) (st : DaemonState) (es : List Event) : Backlog :=
  history (step cfg) (Backlog.note cfg i) st { waiting := none, sent := none } es

/-- At every output cycle that finds a packet waiting, its stamp is greater, as a 32-bit number,
than the stamp of the packet found waiting before. -/
def StampsAdvance (cfg : NodeConfig) (i : Port) (st : DaemonState) (es : List Event) : Prop :=
  ∀ pre ms opens post, es = pre ++ .outputCycle ms opens :: post →
    ∀ u, (backlog cfg i st pre).waiting = some u →
      nowMs u > (backlog cfg i st pre).sentStamp

section

variable {cfg : NodeConfig} {i : Port} {st : DaemonState} {e : Event} {b : Backlog}

/-- An output cycle with nothing waiting changes nothing. -/
theorem note_cycle_none {ms : Nat} {opens : Port → Opens} (h : b.waiting = none) :
    b.note cfg i st (.outputCycle ms opens) = b := by
  simp [Backlog.note, Event.isCycle, h]

/-- An output cycle with an update waiting sends it. -/
theorem note_cycle_some {ms : Nat} {opens : Port → Opens} {u : Nat} (h : b.waiting = some u) :
    b.note cfg i st (.outputCycle ms opens) = { waiting := none, sent := some u } := by
  simp [Backlog.note, Event.isCycle, h]

/-- A packet that is not applied to the port is not waiting to be sent. -/
theorem note_not_applied (hpkt : e.isCycle = false) (h : e.appliedAt cfg i st = none) :
    b.note cfg i st e = b := by
  simp [Backlog.note, hpkt, h]

/-- A packet that is applied to the port waits to be sent. -/
theorem note_applied (hpkt : e.isCycle = false) {u : Nat} (h : e.appliedAt cfg i st = some u) :
    b.note cfg i st e = { b with waiting := some u } := by
  simp [Backlog.note, hpkt, h]

/-- An event that applies levels is no output cycle. -/
theorem isCycle_of_applied {u : Nat} (h : e.appliedAt cfg i st = some u) :
    e.isCycle = false := by
  cases e <;> first | rfl | cases h

end

/-- Packets keep a waiting packet waiting. -/
theorem waiting_of_packets {cfg : NodeConfig} {i : Port} {es : List Event}
    (hes : ∀ e ∈ es, e.isCycle = false) (st : DaemonState) {b : Backlog}
    (hb : b.waiting.isSome) :
    (history (step cfg) (Backlog.note cfg i) st b es).waiting.isSome := by
  induction es generalizing st b with
  | nil => exact hb
  | cons e es ih =>
    have hpkt := hes e (by simp)
    refine ih (fun e' he' => hes e' (by simp [he'])) _ ?_
    -- an unapplied packet leaves the backlog, an applied one replaces what waits
    cases happ : e.appliedAt cfg i st with
    | none => rw [note_not_applied hpkt happ]; exact hb
    | some u => rw [note_applied hpkt happ]; rfl

/-- What was applied since the last cycle is waiting. -/
theorem waiting_of_appliedSinceCycle {cfg : NodeConfig} {i : Port} {st : DaemonState}
    {es : List Event} (h : AppliedSinceCycle cfg i st es) :
    (backlog cfg i st es).waiting.isSome := by
  obtain ⟨pre, e, mid, rfl, happ, hmid⟩ := h
  obtain ⟨u, hu⟩ := Option.isSome_iff_exists.mp happ
  unfold backlog
  rw [history_append, history_cons]
  refine waiting_of_packets hmid _ ?_
  rw [note_applied (isCycle_of_applied hu) hu]
  rfl

/-! ## The invariant -/

/-- What the backlog says about the stamps the code keeps for an open port. -/
structure OutputInv (p : PortState) (b : Backlog) : Prop where
  device : 0 ≤ p.fd
  lastWrite : p.lastWrite = b.sentStamp
  waiting : ∀ u, b.waiting = some u → p.out.lastUpdateMs = nowMs u
  idle : b.waiting = none → p.out.lastUpdateMs = p.lastWrite ∨ p.out.lastUpdateMs = 0

/-- A packet keeps the invariant. -/
theorem outputInv_packet {cfg : NodeConfig} {i : Port} {st : DaemonState} {e : Event}
    {b : Backlog} (hpkt : e.isCycle = false) (h : OutputInv (st i) b) :
    OutputInv ((step cfg st e).1 i) (b.note cfg i st e) := by
  cases happ : e.appliedAt cfg i st with
  | none =>
    rw [step_of_not_applied hpkt happ, note_not_applied hpkt happ]
    exact h
  | some u =>
    obtain ⟨f, hf, hstamp⟩ := step_of_applied happ
    rw [hf, note_applied hpkt happ]
    -- only the stamp of the waiting packet moves; `last_write` belongs to the output cycle
    exact {
      device := h.device
      lastWrite := h.lastWrite
      waiting := fun v hv => by rw [← Option.some.inj hv]; exact hstamp
      idle := fun hnone => by cases hnone }

/-- A port with nothing waiting is not fresh. -/
theorem not_fresh_of_idle {p : PortState} {b : Backlog} (h : OutputInv p b)
    (hb : b.waiting = none) : ¬ p.out.lastUpdateMs > p.lastWrite := by
  obtain heq | hzero := h.idle hb
  · simp [heq]
  · simp [hzero]

/-- **The step lemma.** An output cycle keeps the invariant of a TX port, if a waiting packet's
stamp has advanced. -/
theorem outputInv_cycle {cfg : NodeConfig} {i : Port} {st : DaemonState} {b : Backlog} {ms : Nat}
    {opens : Port → Opens} (htx : (cfg.ports i).mode = dmxModeTx) (ho : (opens i).Succeed)
    (hadv : ∀ u, b.waiting = some u → nowMs u > b.sentStamp) (h : OutputInv (st i) b) :
    OutputInv ((step cfg st (.outputCycle ms opens)).1 i)
      (b.note cfg i st (.outputCycle ms opens)) := by
  simp only [step]
  rw [(dmxOutputCycle_apply cfg ms opens st i).1]
  -- the code sends exactly when the stored stamp is past `last_write`; the invariant says that
  -- this is when a packet waits
  cases hb : b.waiting with
  | none =>
    rw [note_cycle_none hb, outputPort_stale h.device htx (not_fresh_of_idle h hb)]
    split_ifs
    · -- the source timed out: the stamp is reset to 0 and the backlog stays empty
      exact {
        device := dmxTxWrite_fd_nonneg i _ _ ho
        lastWrite := h.lastWrite
        waiting := fun u hu => by rw [hb] at hu; cases hu
        idle := fun _ => Or.inr rfl }
    · exact h
  | some u =>
    have hfresh : (st i).out.lastUpdateMs > (st i).lastWrite := by
      rw [h.waiting u hb, h.lastWrite]
      exact hadv u hb
    rw [note_cycle_some hb, outputPort_fresh h.device htx hfresh]
    exact {
      device := dmxTxWrite_fd_nonneg i _ _ ho
      lastWrite := h.waiting u hb
      waiting := fun v hv => by cases hv
      idle := fun _ => Or.inl rfl }

theorem StampsAdvance.of_append {cfg : NodeConfig} {i : Port} {st : DaemonState}
    {es rest : List Event} (h : StampsAdvance cfg i st (es ++ rest)) :
    StampsAdvance cfg i st es := by
  rintro pre ms opens post rfl
  exact h pre ms opens (post ++ rest) (by simp)

/-- At start-up nothing waits and nothing was sent. -/
theorem outputInv_initial {cfg : NodeConfig} {i : Port} {opened : Port → Int}
    (htx : (cfg.ports i).mode = dmxModeTx) (hopened : 0 ≤ opened i) :
    OutputInv (initialState cfg opened i) { waiting := none, sent := none } where
  device := by
    simp only [initialState, htx]
    exact hopened
  lastWrite := rfl
  waiting := fun u hu => by cases hu
  idle := fun _ => Or.inl rfl

/-- The invariant holds after every run whose stamps advance. -/
theorem outputInv_run {cfg : NodeConfig} {i : Port} {opened : Port → Int}
    (htx : (cfg.ports i).mode = dmxModeTx) (hopened : 0 ≤ opened i) (es : List Event)
    (hopens : ∀ e ∈ es, e.OpensSucceed)
    (hadv : StampsAdvance cfg i (initialState cfg opened) es) :
    OutputInv (finalState (step cfg) (initialState cfg opened) es i)
      (backlog cfg i (initialState cfg opened) es) := by
  -- the side conditions go into the property: the induction needs them of each shorter run
  revert hopens hadv
  refine run_induction (step cfg) (s := initialState cfg opened)
    (P := fun es st => (∀ e ∈ es, e.OpensSucceed) →
      StampsAdvance cfg i (initialState cfg opened) es →
      OutputInv (st i) (backlog cfg i (initialState cfg opened) es)) ?_ ?_ es
  · intro _ _
    exact outputInv_initial htx hopened
  · intro es e ih hopens hadv
    have hinv := ih (fun e' he' => hopens e' (by simp [he'])) hadv.of_append
    have hlast := hopens e (by simp)
    unfold backlog at hinv ⊢
    rw [history_concat]
    cases e with
    | outputCycle ms opens =>
      exact outputInv_cycle htx (hlast i) (hadv es ms opens [] rfl) hinv
    | _ => exact outputInv_packet rfl hinv

/-! ## Between two wraps -/

/-- The readings of the run lie strictly between two moments at which the counter is 0. -/
def SameEpoch (es : List Event) : Prop :=
  ∃ q : Nat, ∀ e ∈ es, ∀ r ∈ e.readings, q * 2 ^ 32 < r ∧ r < (q + 1) * 2 ^ 32

/-- Within an epoch the stamps are ordered as the readings are. -/
theorem nowMs_lt_nowMs {q a b : Nat} (ha : q * 2 ^ 32 < a) (hab : a < b)
    (hb : b < (q + 1) * 2 ^ 32) : nowMs a < nowMs b := by
  rw [UInt32.lt_iff_toNat_lt, nowMs, nowMs, UInt32.toNat_ofNat', UInt32.toNat_ofNat']
  omega

/-- Strictly within an epoch the millisecond counter is not 0. -/
theorem nowMs_pos {q a : Nat} (ha : q * 2 ^ 32 < a) (hb : a < (q + 1) * 2 ^ 32) :
    0 < nowMs a := by
  rw [UInt32.lt_iff_toNat_lt, nowMs, UInt32.toNat_ofNat', UInt32.toNat_zero]
  omega

/-- Where the readings in the backlog come from: each was made in the run, the one sent by the
time of some output cycle, the one waiting after all that was sent. -/
structure BacklogOrder (es : List Event) (b : Backlog) : Prop where
  waiting : ∀ u, b.waiting = some u → ∃ e ∈ es, u ∈ e.readings
  sent : ∀ w, b.sent = some w →
    (∃ e ∈ es, w ∈ e.readings) ∧ ∃ ms opens, .outputCycle ms opens ∈ es ∧ w ≤ ms
  order : ∀ u w, b.waiting = some u → b.sent = some w → w < u

/-- One more event leaves the order of what waits and what was sent. -/
theorem BacklogOrder.mono {es : List Event} {b : Backlog} (h : BacklogOrder es b) (e : Event) :
    BacklogOrder (es ++ [e]) b where
  waiting := fun u hu => by
    obtain ⟨e', he', hmem⟩ := h.waiting u hu
    exact ⟨e', by simp [he'], hmem⟩
  sent := fun w hw => by
    obtain ⟨⟨e', he', hmem⟩, ms, opens, hcycle, hle⟩ := h.sent w hw
    exact ⟨⟨e', by simp [he'], hmem⟩, ms, opens, by simp [hcycle], hle⟩
  order := h.order

theorem ClockAdvances.of_append {es rest : List Event} (h : ClockAdvances (es ++ rest)) :
    ClockAdvances es := by
  obtain ⟨hmono, hstrict⟩ := h
  exact ⟨hmono.of_append, (List.pairwise_append.mp hstrict).1⟩

/-- The order of the backlog holds in every run whose clock advances. -/
theorem backlogOrder_run (cfg : NodeConfig) (i : Port) (st : DaemonState) (es : List Event)
    (hclock : ClockAdvances es) : BacklogOrder es (backlog cfg i st es) := by
  revert hclock
  refine run_induction (step cfg) (s := st)
    (P := fun es _ => ClockAdvances es → BacklogOrder es (backlog cfg i st es)) ?_ ?_ es
  · intro _
    exact {
      waiting := fun u hu => by cases hu
      sent := fun w hw => by cases hw
      order := fun u w hu _ => by cases hu }
  · intro es e ih hclock
    have hord := ih hclock.of_append
    have hstrict := (List.pairwise_append.mp hclock.2).2.2
    unfold backlog at hord ⊢
    rw [history_concat]
    -- a packet may only add a waiting reading, which lies past every cycle so far; a cycle moves
    -- the waiting reading to `sent`, and is itself the cycle that bounds it
    cases hcycle : e.isCycle with
    | false =>
      cases happ : e.appliedAt cfg i (finalState (step cfg) st es) with
      | none =>
        rw [note_not_applied hcycle happ]
        exact hord.mono e
      | some u =>
        rw [note_applied hcycle happ]
        have hu := mem_readings_of_applied happ
        have hext := hord.mono e
        exact {
          waiting := fun v hv => ⟨e, by simp, by rw [← Option.some.inj hv]; exact hu⟩
          sent := hext.sent
          order := fun v w hv hw => by
            obtain ⟨_, ms, opens, hmem, hle⟩ := hord.sent w hw
            -- the packet comes after the cycle that sent `w`, so the clock has moved on
            have hlt : ms < u := hstrict _ hmem e (by simp) rfl hcycle ms (by
              simp [Event.readings]) u hu
            rw [← Option.some.inj hv]
            omega }
    | true =>
      cases e with
      | outputCycle ms opens =>
        cases hw : (history (step cfg) (Backlog.note cfg i) st
            { waiting := none, sent := none } es).waiting with
        | none =>
          rw [note_cycle_none hw]
          exact hord.mono _
        | some u =>
          rw [note_cycle_some hw]
          obtain ⟨e, he, hu⟩ := hord.waiting u hw
          have hle : u ≤ ms := hclock.1.le he (List.mem_singleton_self _) hu
            (List.mem_singleton_self ms)
          exact {
            waiting := fun v hv => by cases hv
            sent := fun v hv => by
              rw [← Option.some.inj hv]
              exact ⟨⟨e, by simp [he], hu⟩, ms, opens, by simp, hle⟩
            order := fun v w hv _ => by cases hv }
      | _ => cases hcycle

/-- **Between two wraps the stamps advance**, so that no update is lost there. -/
theorem stampsAdvance_of_sameEpoch (cfg : NodeConfig) (i : Port) (st : DaemonState)
    {es : List Event} (hclock : ClockAdvances es) (hepoch : SameEpoch es) :
    StampsAdvance cfg i st es := by
  rintro pre ms opens post rfl u hu
  obtain ⟨q, hq⟩ := hepoch
  have hord := backlogOrder_run cfg i st pre hclock.of_append
  have hreading : ∀ r, (∃ e ∈ pre, r ∈ e.readings) → q * 2 ^ 32 < r ∧ r < (q + 1) * 2 ^ 32 := by
    rintro r ⟨e, he, hr⟩
    exact hq e (by simp [he]) r hr
  obtain ⟨hlo, hhi⟩ := hreading u (hord.waiting u hu)
  unfold Backlog.sentStamp
  -- before the first send `last_write` is 0, the one stamp an epoch leaves out
  cases hsent : (backlog cfg i st pre).sent with
  | none => exact nowMs_pos hlo hhi
  | some w =>
    obtain ⟨hwlo, _⟩ := hreading w (hord.sent w hsent).1
    exact nowMs_lt_nowMs hwlo (hord.order u w hu hsent) hhi

/-! ## No lost update -/

/-- **No update is lost while the stamps advance.** In every run in which the device opens
succeed and the stamp of the packet an output cycle finds waiting is greater than that of the
packet found waiting before, every such cycle sends the port the data stored there. -/
theorem noLostUpdate_of_stampsAdvance (cfg : NodeConfig) (i : Port) (opened : Port → Int)
    (es : List Event) (hopened : ∀ j, 0 ≤ opened j) (hopens : ∀ e ∈ es, e.OpensSucceed)
    (hadv : StampsAdvance cfg i (initialState cfg opened) es) :
    NoLostUpdate cfg i (initialState cfg opened) es := by
  rintro pre ms opens post rfl happ
  obtain ⟨u, hu⟩ := Option.isSome_iff_exists.mp (waiting_of_appliedSinceCycle happ)
  -- a packet was applied to the port, so the port is a TX port
  have htx : (cfg.ports i).mode = dmxModeTx := by
    obtain ⟨pre', e, mid, -, hsome, -⟩ := happ
    obtain ⟨v, hv⟩ := Option.isSome_iff_exists.mp hsome
    exact (routed_of_applied hv).2
  have hinv := outputInv_run htx (hopened i) pre (fun e he => hopens e (by simp [he]))
    hadv.of_append
  -- the invariant before the cycle turns the advance of the stamps into the code's own test
  have hfresh : (finalState (step cfg) (initialState cfg opened) pre i).out.lastUpdateMs
      > (finalState (step cfg) (initialState cfg opened) pre i).lastWrite := by
    rw [hinv.waiting u hu, hinv.lastWrite]
    exact hadv pre ms opens post rfl u hu
  have ho : (opens i).Succeed := hopens (.outputCycle ms opens) (by simp) i
  simp only [step]
  rw [(dmxOutputCycle_apply cfg ms opens _ i).2, outputPort_fresh hinv.device htx hfresh]
  exact dmxTxWrite_frameTo i _ _ ho

/-- Two packets and their cycles, within an epoch. -/
def steadyRun : List Event :=
  [.artnet (artnetLevel 1 1) (HandlerClock.at 1000), .outputCycle 1023 openedOk,
    .artnet (artnetLevel 1 2) (HandlerClock.at 1030), .outputCycle 1046 openedOk]

/-- `noLostUpdate_of_stampsAdvance` on a run with one packet for each output cycle. -/
theorem steadyRun_noLostUpdate :
    NoLostUpdate configDefaults 0 (initialState configDefaults fun _ => 3) steadyRun := by
  refine noLostUpdate_of_stampsAdvance configDefaults 0 (fun _ => 3) steadyRun (by decide) ?_
    (stampsAdvance_of_sameEpoch _ _ _ (by unfold ClockAdvances; decide) ⟨0, by decide⟩)
  intro e he
  simp only [steadyRun, List.mem_cons, List.not_mem_nil, or_false] at he
  rcases he with rfl | rfl | rfl | rfl
  all_goals first
    | trivial
    | exact openedOk_succeed

/-- **Where the stamps do not advance the update is lost.** At the first output cycle whose
waiting packet has a stamp no greater than the one before, the port is not sent the stored data,
unless that is the blank frame of a source timeout. -/
theorem lost_of_stamp_not_advanced (cfg : NodeConfig) (i : Port) (opened : Port → Int)
    (es : List Event) {ms : Nat} {opens : Port → Opens} {u : Nat} (hopened : ∀ j, 0 ≤ opened j)
    (hopens : ∀ e ∈ es, e.OpensSucceed) (ho : (opens i).Succeed)
    (htx : (cfg.ports i).mode = dmxModeTx)
    (hadv : StampsAdvance cfg i (initialState cfg opened) es)
    (hu : (backlog cfg i (initialState cfg opened) es).waiting = some u)
    (hstale : ¬ nowMs u > (backlog cfg i (initialState cfg opened) es).sentStamp)
    (hdata : (finalState (step cfg) (initialState cfg opened) es i).out.data ≠ blankFrame) :
    (step cfg (finalState (step cfg) (initialState cfg opened) es)
        (.outputCycle ms opens)).2.filterMap (frameTo i)
      ≠ [(finalState (step cfg) (initialState cfg opened) es i).out.data] := by
  have hinv := outputInv_run htx (hopened i) es hopens hadv
  rw [← hinv.waiting u hu, ← hinv.lastWrite] at hstale
  simp only [step]
  rw [(dmxOutputCycle_apply cfg ms opens _ i).2, outputPort_stale hinv.device htx hstale]
  -- a stale port either times out, and is sent the blank frame, or is sent nothing
  split_ifs
  · rw [dmxTxWrite_frameTo i _ _ ho]
    exact fun h => hdata (List.singleton_inj.mp h).symm
  · exact List.cons_ne_nil _ _ |>.symm

/-! ## A run across the wrap of the counter -/

/-- A packet and its cycle in the last millisecond before the 32-bit counter wraps, and a packet
and its cycle in the second millisecond after it. -/
def wrapRun : List Event :=
  [.artnet (artnetLevel 1 1) (HandlerClock.at 4294967295), .outputCycle 4294967295 openedOk,
    .artnet (artnetLevel 1 2) (HandlerClock.at 4294967297), .outputCycle 4294967297 openedOk]

/-- The second update of `wrapRun` is lost: its stamp is 1 and `last_write` is `0xFFFFFFFF`. -/
theorem wrapRun_loses_update :
    ClockAdvances wrapRun ∧ (∀ e ∈ wrapRun, e.OpensSucceed) ∧
      ¬ NoLostUpdate configDefaults 0 (initialState configDefaults fun _ => 3) wrapRun := by
  refine ⟨by unfold ClockAdvances; decide, ?_, ?_⟩
  · intro e he
    simp only [wrapRun, List.mem_cons, List.not_mem_nil, or_false] at he
    rcases he with rfl | rfl | rfl | rfl
    all_goals first
      | trivial
      | exact openedOk_succeed
  · intro h
    -- the packet stamped 1 is applied, and the cycle at 2 ^ 32 + 1 then sends nothing
    have happ : AppliedSinceCycle configDefaults 0 (initialState configDefaults fun _ => 3)
        (wrapRun.take 3) :=
      ⟨wrapRun.take 2, _, [], rfl, by decide, by simp⟩
    have hsent := h (wrapRun.take 3) 4294967297 openedOk [] rfl happ
    have hlen := congrArg List.length hsent
    revert hlen
    decide

end SN110
