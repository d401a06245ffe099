import SN110.Daemon.Loop
import SN110.Config.Defaults

/-!
# When a frame cannot be written

`dmx_output_cycle` marks a frame as written before it calls `dmx_tx_write`, whose two opens can
fail. When the first fails the frame is lost; when the second fails the port is left without a
descriptor, and no later cycle looks at it again.

* `writesThrough_iff`: what a cycle has to find for neither to happen.
* `keepsUpdates_iff`: the runs that lose no frame and no port.
-/

namespace SN110

open Run

/-- The event is a cycle that would find the port's device ready to be opened. -/
def Event.CanOpen (i : Port) : Event → Prop
  | .outputCycle _ opens => 0 ≤ (opens i).first
  | _ => False

/-- The event is a cycle that has not written the port's pending frame. -/
def Missed (cfg : NodeConfig) (i : Port) (st : DaemonState) (e : Event) : Prop :=
  e.isCycle = true ∧ (st i).Pending ∧ (step cfg st e).2.filterMap (frameTo i) = []

/-- What a run that loses no update and no port has to be. -/
structure KeepsUpdates (cfg : NodeConfig) (i : Port) (st : DaemonState) (es : List Event) :
    Prop where
  /-- A frame that could not be written stays pending. -/
  pending : ∀ before e, before ++ [e] <+: es → Missed cfg i (finalState (step cfg) st before) e →
    (finalState (step cfg) st (before ++ [e]) i).Pending
  /-- The first cycle that can open the device writes what is then the port's frame. -/
  retried : ∀ before e mid e', before ++ [e] ++ mid ++ [e'] <+: es →
    Missed cfg i (finalState (step cfg) st before) e → (∀ m ∈ mid, ¬ m.CanOpen i) → e'.CanOpen i →
    (step cfg (finalState (step cfg) st (before ++ [e] ++ mid)) e').2.filterMap (frameTo i)
      = [(finalState (step cfg) st (before ++ [e] ++ mid) i).out.data]
  /-- The port keeps a descriptor, without which the cycles skip it. -/
  device : ∀ before, before <+: es → 0 ≤ (finalState (step cfg) st before i).fd

/-- The opens that a cycle makes for the port succeed, where the frame or the port depends on
it. -/
def WritesThrough (cfg : NodeConfig) (i : Port) (st : DaemonState) : Event → Prop
  | .outputCycle ms opens =>
    match portAction cfg (nowMs ms) i (st i) with
    | .leave => True
    | .send => (opens i).Succeed
    | .blank => 0 ≤ (opens i).first → 0 ≤ (opens i).again
  | _ => True

/-! ## One event -/

section

variable {cfg : NodeConfig} {i : Port} {st : DaemonState} {e : Event}

theorem dmxTxWrite_fd (port : Port) (fd : Int) (data : Slots) (o : Opens) :
    (dmxTxWrite port fd data o).1 = if o.first < 0 then fd else o.again := by
  unfold dmxTxWrite
  split_ifs <;> rfl

theorem dmxTxWrite_frameTo_eq_nil {fd : Int} {data : Slots} {o : Opens} :
    (dmxTxWrite i fd data o).2.filterMap (frameTo i) = [] ↔ o.first < 0 := by
  unfold dmxTxWrite
  split_ifs <;> simp_all

/-- A pending frame is what the next cycle sends. -/
theorem portAction_of_pending (htx : (cfg.ports i).mode = dmxModeTx) {p : PortState}
    (h : p.Pending) (t : UInt32) : portAction cfg t i p = .send := by
  unfold portAction
  rw [if_neg (not_lt.mpr h.1), if_neg (not_not.mpr htx), if_pos h.2]

/-- **What a cycle has to find**: a pending frame is then written, and a descriptor is left. -/
theorem writesThrough_iff (htx : (cfg.ports i).mode = dmxModeTx) (hfd : 0 ≤ (st i).fd) :
    WritesThrough cfg i st e ↔
      (Missed cfg i st e → ((step cfg st e).1 i).Pending) ∧ 0 ≤ ((step cfg st e).1 i).fd := by
  cases e with
  | outputCycle ms opens =>
    have hstate : (step cfg st (.outputCycle ms opens)).1 i
        = (outputPort cfg (nowMs ms) (opens i) i (st i)).1 :=
      (dmxOutputCycle_apply cfg ms opens st i).1
    have hframes : (step cfg st (.outputCycle ms opens)).2.filterMap (frameTo i)
        = (outputPort cfg (nowMs ms) (opens i) i (st i)).2.filterMap (frameTo i) :=
      (dmxOutputCycle_apply cfg ms opens st i).2
    unfold Missed
    rw [hstate, hframes, outputPort_eq]
    cases haction : portAction cfg (nowMs ms) i (st i) with
    | leave =>
      simp only [WritesThrough, haction]
      -- a port that is left alone had nothing pending
      refine iff_of_true trivial ⟨fun hmissed => ?_, hfd⟩
      rw [portAction_of_pending htx hmissed.2.1] at haction
      cases haction
    | send =>
      simp only [WritesThrough, haction, dmxTxWrite_frameTo_eq_nil, dmxTxWrite_fd]
      have hpending : (st i).Pending := portAction_send haction
      -- the frame counts as written, so that it is pending no longer
      have hconsumed : ¬ PortState.Pending
          { st i with
            lastWrite := (st i).out.lastUpdateMs
            fd := if (opens i).first < 0 then (st i).fd else (opens i).again } :=
        fun h => UInt32.lt_irrefl (st i).out.lastUpdateMs h.2
      constructor
      · rintro ⟨hfirst, hagain⟩
        rw [if_neg (not_lt.mpr hfirst)]
        exact ⟨fun hmissed => absurd hmissed.2.2 (not_lt.mpr hfirst), hagain⟩
      · rintro ⟨hmissed, hrecord⟩
        have hfirst : ¬ (opens i).first < 0 := fun hneg =>
          hconsumed (hmissed ⟨rfl, hpending, hneg⟩)
        rw [if_neg hfirst] at hrecord
        exact ⟨not_lt.mp hfirst, hrecord⟩
    | blank =>
      simp only [WritesThrough, haction, dmxTxWrite_frameTo_eq_nil, dmxTxWrite_fd]
      have hidle : ¬ (st i).Pending := fun h => by
        rw [portAction_of_pending htx h] at haction
        cases haction
      constructor
      · intro h
        refine ⟨fun hmissed => absurd hmissed.2.1 hidle, ?_⟩
        split_ifs with hfirst
        · exact hfd
        · exact h (not_lt.mp hfirst)
      · rintro ⟨-, hrecord⟩ hfirst
        rwa [if_neg (not_lt.mpr hfirst)] at hrecord
  | _ =>
    refine iff_of_true trivial ⟨fun hmissed => Bool.noConfusion hmissed.1, ?_⟩
    rwa [step_fd_of_not_cycle rfl]

/-- Then no pending frame is missed. -/
theorem not_missed_of_writesThrough (htx : (cfg.ports i).mode = dmxModeTx)
    (h : WritesThrough cfg i st e) : ¬ Missed cfg i st e := by
  rintro ⟨hcycle, hpending, hframes⟩
  cases e with
  | outputCycle ms opens =>
    have haction := portAction_of_pending htx hpending (nowMs ms)
    simp only [WritesThrough, haction] at h
    change (dmxOutputCycle cfg ms opens st).2.filterMap (frameTo i) = [] at hframes
    rw [(dmxOutputCycle_apply cfg ms opens st i).2, outputPort_eq, haction] at hframes
    exact absurd (dmxTxWrite_frameTo_eq_nil.mp hframes) (not_lt.mpr h.1)
  | _ => cases hcycle

end

/-! ## Runs -/

/-- A run keeps every update and the port as long as its cycles write through. -/
theorem keepsUpdates_iff_of_open {cfg : NodeConfig} {i : Port} {st : DaemonState}
    (htx : (cfg.ports i).mode = dmxModeTx) (hfd : 0 ≤ (st i).fd) (es : List Event) :
    KeepsUpdates cfg i st es ↔ Along (step cfg) (WritesThrough cfg i) st es := by
  constructor
  · intro h
    rw [along_iff_forall]
    intro before e hpre
    have hbefore : before <+: es := (List.prefix_append before [e]).trans hpre
    rw [writesThrough_iff htx (h.device before hbefore)]
    have hnext := h.device (before ++ [e]) hpre
    have hpending := h.pending before e hpre
    rw [finalState_concat] at hnext hpending
    exact ⟨hpending, hnext⟩
  · intro h
    -- the descriptor is kept up to every event, and so no frame is missed there
    have hdevice : ∀ before, before <+: es → 0 ≤ (finalState (step cfg) st before i).fd := by
      intro before
      induction before using List.reverseRecOn with
      | nil => exact fun _ => hfd
      | append_singleton before e ih =>
        intro hpre
        have hopen := ih ((List.prefix_append before [e]).trans hpre)
        rw [finalState_concat]
        exact ((writesThrough_iff htx hopen).mp (along_iff_forall.mp h before e hpre)).2
    have hmissed : ∀ before e, before ++ [e] <+: es →
        ¬ Missed cfg i (finalState (step cfg) st before) e := fun before e hpre =>
      not_missed_of_writesThrough htx (along_iff_forall.mp h before e hpre)
    refine ⟨fun before e hpre hmiss => absurd hmiss (hmissed before e hpre),
      fun before e mid e' hpre hmiss => absurd hmiss (hmissed before e ?_), hdevice⟩
    exact ((List.prefix_append _ mid).trans (List.prefix_append _ [e'])).trans hpre

/-- **Which runs keep every update**: those in which the opens of every write of a frame succeed,
and no write of a blank frame loses the descriptor. -/
theorem keepsUpdates_iff (cfg : NodeConfig) (i : Port) (opened : Port → Int) (es : List Event)
    (htx : (cfg.ports i).mode = dmxModeTx) (hopened : 0 ≤ opened i) :
    KeepsUpdates cfg i (initialState cfg opened) es ↔
      Along (step cfg) (WritesThrough cfg i) (initialState cfg opened) es := by
  refine keepsUpdates_iff_of_open htx ?_ es
  show 0 ≤ if (cfg.ports i).mode = dmxModeOff then -1 else opened i
  rw [htx]
  exact hopened

/-- A packet for the first port, and the cycle that sends its frame. -/
def frameRun (o : Opens) : List Event :=
  [.artnet (artnetLevel 1 255) (.at 1000), .outputCycle 1023 fun _ => o]

theorem keepsUpdates_frameRun :
    KeepsUpdates configDefaults 0 (initialState configDefaults fun _ => 3)
      (frameRun { first := 3, again := 3 }) :=
  (keepsUpdates_iff configDefaults 0 (fun _ => 3) _ rfl (by decide)).mpr
    ⟨trivial, ⟨by decide, by decide⟩, trivial⟩

/-- The frame of a cycle that cannot open the device is not pending any more, and a cycle that
cannot open it again leaves the port without a descriptor. -/
theorem frameRun_lost :
    ¬ KeepsUpdates configDefaults 0 (initialState configDefaults fun _ => 3)
        (frameRun { first := -1, again := 3 }) ∧
      ¬ KeepsUpdates configDefaults 0 (initialState configDefaults fun _ => 3)
        (frameRun { first := 3, again := -1 }) := by
  have hopen : 0 ≤ (initialState configDefaults (fun _ => 3) 0).fd := by decide
  refine ⟨fun h => ?_, fun h => ?_⟩
  · obtain ⟨-, hsend, -⟩ := (keepsUpdates_iff_of_open rfl hopen _).mp h
    have hfirst : (0 : Int) ≤ -1 := hsend.1
    exact absurd hfirst (by decide)
  · obtain ⟨-, hsend, -⟩ := (keepsUpdates_iff_of_open rfl hopen _).mp h
    have hagain : (0 : Int) ≤ -1 := hsend.2
    exact absurd hagain (by decide)

end SN110
