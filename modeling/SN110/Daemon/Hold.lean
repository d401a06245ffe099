import SN110.Daemon.Priority

/-!
# Hold, then blackout

`last_update_ms` is two things at once: the time of the last packet, and, when it is 0, the mark
of a port that has none. The source timeout of `dmx_output_cycle` reads it as both. Over a run the
port is a timer that an applied packet starts and a timeout stops, and `holding` is that timer: the
time of the packet held since the last timeout.

* `HoldInv` ties the stored frame to `holding`; every event keeps it (`holdInv_step`).
* `holding` is the last packet applied (`lastApplied_of_holding`), a timeout empties it, and only
  an applied packet fills it again: the three parts of `HoldThenBlackout`.
* The hold time runs from the last packet, not from the moment the source counts as lost, so a
  hold time below 3 s blanks a source that is still live (`neverDarkensLive_iff`).
-/

namespace SN110

open Run

/-! ## The last packet applied -/

/-- No packet of the run is applied to port `i`. -/
def NoneApplied (cfg : NodeConfig) (i : Port) (st : DaemonState) (es : List Event) : Prop :=
  Along (step cfg) (fun st e => e.appliedAt cfg i st = none) st es

/-- The last packet of the run applied to port `i` was stamped with the reading `u`. -/
def LastApplied (cfg : NodeConfig) (i : Port) (st : DaemonState) (es : List Event) (u : Nat) :
    Prop :=
  ∃ pre e post, es = pre ++ e :: post ∧
    e.appliedAt cfg i (finalState (step cfg) st pre) = some u ∧
    NoneApplied cfg i (finalState (step cfg) st (pre ++ [e])) post

/-- What a port's source timeouts do in the runs that begin with `es`: they come when the last
packet applied is older than the hold time, each belongs to a packet of its own, and what they
leave behind stays until the next packet. -/
structure HoldThenBlackout (cfg : NodeConfig) (i : Port) (st : DaemonState) (es : List Event) :
    Prop where
  /-- A timeout at `ms` finds the last packet more than the hold time old, modulo `2 ^ 32`. -/
  held : ∀ pre ms opens post, es = pre ++ .outputCycle ms opens :: post →
    (Event.outputCycle ms opens).timesOut cfg i (finalState (step cfg) st pre) = true →
    ∃ u, LastApplied cfg i st pre u ∧
      (cfg.dmxHoldTime.toNat : Int) * 1000 < ((ms : Int) - u) % 2 ^ 32
  /-- Between two timeouts a packet is applied. -/
  once : ∀ pre e mid e' post, es = (pre ++ [e]) ++ mid ++ e' :: post →
    e.timesOut cfg i (finalState (step cfg) st pre) = true →
    e'.timesOut cfg i (finalState (step cfg) st (pre ++ [e] ++ mid)) = true →
    ¬ NoneApplied cfg i (finalState (step cfg) st (pre ++ [e])) mid
  /-- From a timeout to the next packet applied the port is dark, and accepts any priority. -/
  dark : ∀ pre e mid post, es = (pre ++ [e]) ++ mid ++ post →
    e.timesOut cfg i (finalState (step cfg) st pre) = true →
    NoneApplied cfg i (finalState (step cfg) st (pre ++ [e])) mid →
    (finalState (step cfg) st (pre ++ [e] ++ mid) i).out.data = blankFrame ∧
      (finalState (step cfg) st (pre ++ [e] ++ mid) i).out.priority = 0 ∧
      ∀ pkt clk, pkt.startCode = 0 → Routed cfg pkt.dmxUniverse i →
        (Event.sacn pkt clk).appliedAt cfg i (finalState (step cfg) st (pre ++ [e] ++ mid))
          = some (clk.store i)

/-! ## The timer -/

/-- One event's effect on the packet a port holds. -/
def noteHolding (cfg : NodeConfig) (i : Port) (st : DaemonState) (e : Event)
    (held : Option Nat) : Option Nat :=
  if e.timesOut cfg i st then none else (e.appliedAt cfg i st).or held

/-- When the packet was applied that port `i` holds, if any since the last timeout. -/
def holding (cfg : NodeConfig) (i : Port) (st : DaemonState) (es : List Event) : Option Nat :=
  history (step cfg) (noteHolding cfg i) st none es

/-- What the timer says about the stored frame. -/
structure HoldInv (f : DmxFrame) (held : Option Nat) : Prop where
  stamp : ∀ u, held = some u → f.lastUpdateMs = nowMs u
  dark : held = none → f.data = blankFrame ∧ f.priority = 0 ∧ f.lastUpdateMs = 0

theorem timesOut_of_packet {cfg : NodeConfig} {i : Port} {st : DaemonState} {e : Event}
    (hpkt : e.isCycle = false) : e.timesOut cfg i st = false := by
  cases e with
  | outputCycle ms opens => cases hpkt
  | _ => rfl

/-- **The step lemma.** Every event keeps the frame and the timer together. -/
theorem holdInv_step {cfg : NodeConfig} {i : Port} {st : DaemonState} {held : Option Nat}
    (e : Event) (h : HoldInv (st i).out held) :
    HoldInv ((step cfg st e).1 i).out (noteHolding cfg i st e held) := by
  unfold noteHolding
  cases hcycle : e.isCycle with
  | false =>
    rw [timesOut_of_packet hcycle]
    cases happ : e.appliedAt cfg i st with
    | none =>
      rw [step_of_not_applied hcycle happ]
      exact h
    | some u =>
      obtain ⟨f, hf, hstamp⟩ := step_of_applied happ
      rw [hf]
      exact {
        stamp := fun v hv => by rw [← Option.some.inj hv]; exact hstamp
        dark := fun hnone => by cases hnone }
  | true =>
    cases e with
    | outputCycle ms opens =>
      rw [outputPort_out]
      -- a timeout darkens the frame and empties the timer; a cycle without one leaves both
      split_ifs
      · exact {
          stamp := fun u hu => by cases hu
          dark := fun _ => ⟨rfl, rfl, rfl⟩ }
      · exact h
    | _ => cases hcycle

/-- The frame and the timer agree after every run. -/
theorem holdInv_run (cfg : NodeConfig) (i : Port) (opened : Port → Int) (es : List Event) :
    HoldInv (finalState (step cfg) (initialState cfg opened) es i).out
      (holding cfg i (initialState cfg opened) es) :=
  history_induction (step cfg) (noteHolding cfg i)
    (P := fun st held => HoldInv (st i).out held) (fun _ _ e h => holdInv_step e h)
    { stamp := fun u hu => by cases hu
      dark := fun _ => ⟨rfl, rfl, rfl⟩ } es

/-! ## What the timer says about the run -/

theorem lastApplied_concat {cfg : NodeConfig} {i : Port} {st : DaemonState} {es : List Event}
    {u : Nat} {e : Event} (h : LastApplied cfg i st es u)
    (hnone : e.appliedAt cfg i (finalState (step cfg) st es) = none) :
    LastApplied cfg i st (es ++ [e]) u := by
  obtain ⟨pre, e', post, rfl, happ, hpost⟩ := h
  refine ⟨pre, e', post ++ [e], by simp, happ, along_concat.mpr ⟨hpost, ?_⟩⟩
  rw [← finalState_append]
  simpa using hnone

/-- The packet held is the last one applied. -/
theorem lastApplied_of_holding (cfg : NodeConfig) (i : Port) (st : DaemonState)
    (es : List Event) : ∀ u, holding cfg i st es = some u → LastApplied cfg i st es u := by
  refine run_induction (step cfg) (s := st)
    (P := fun es _ => ∀ u, holding cfg i st es = some u → LastApplied cfg i st es u) ?_ ?_ es
  · intro u hu
    cases hu
  · intro es e ih u hu
    unfold holding at ih hu
    rw [history_concat] at hu
    unfold noteHolding at hu
    split_ifs at hu
    -- an applied packet is the last one from now on, any other event leaves the last one
    cases happ : e.appliedAt cfg i (finalState (step cfg) st es) with
    | none =>
      rw [happ, Option.none_or] at hu
      exact lastApplied_concat (ih u hu) happ
    | some v =>
      rw [happ, Option.some_or] at hu
      exact ⟨es, e, [], rfl, by rw [happ, hu], along_nil⟩

theorem holding_of_timesOut {cfg : NodeConfig} {i : Port} {st : DaemonState} {es : List Event}
    {e : Event} (h : e.timesOut cfg i (finalState (step cfg) st es) = true) :
    holding cfg i st (es ++ [e]) = none := by
  unfold holding
  rw [history_concat, noteHolding, if_pos h]

/-- While nothing is applied an empty timer stays empty. -/
theorem history_noteHolding_none {cfg : NodeConfig} {i : Port} {st : DaemonState}
    {es : List Event} (h : NoneApplied cfg i st es) :
    history (step cfg) (noteHolding cfg i) st none es = none := by
  induction es generalizing st with
  | nil => rfl
  | cons e es ih =>
    obtain ⟨hnone, hrest⟩ := h
    have hstep : noteHolding cfg i st e none = none := by
      unfold noteHolding
      rw [hnone, Option.none_or, ite_self]
    rw [history_cons, hstep]
    exact ih hrest

/-- From a timeout on the timer stays empty until a packet is applied. -/
theorem holding_none_of_noneApplied {cfg : NodeConfig} {i : Port} {st : DaemonState}
    {pre mid : List Event} {e : Event}
    (hout : e.timesOut cfg i (finalState (step cfg) st pre) = true)
    (hmid : NoneApplied cfg i (finalState (step cfg) st (pre ++ [e])) mid) :
    holding cfg i st (pre ++ [e] ++ mid) = none := by
  have hstart := holding_of_timesOut hout
  unfold holding at hstart ⊢
  rw [history_append, hstart]
  exact history_noteHolding_none hmid

/-- What a timeout says of the stamp it finds, and of the packet held. -/
theorem timesOut_holding {cfg : NodeConfig} {i : Port} {opened : Port → Int} {es : List Event}
    {ms : Nat} {opens : Port → Opens}
    (h : (Event.outputCycle ms opens).timesOut cfg i
      (finalState (step cfg) (initialState cfg opened) es) = true) :
    ∃ u, holding cfg i (initialState cfg opened) es = some u ∧
      nowMs ms - nowMs u > cfg.dmxHoldTime.toUInt32 * 1000 := by
  have hinv := holdInv_run cfg i opened es
  have hage := timesOut_iff h
  simp only [timedOut, decide_eq_true_eq] at hage
  cases hheld : holding cfg i (initialState cfg opened) es with
  | none =>
    -- the stamp of a dark port is 0, which the code reads as no data
    have hpos := hage.1
    rw [(hinv.dark hheld).2.2] at hpos
    exact absurd hpos (by decide)
  | some u =>
    have hold := hage.2
    rw [hinv.stamp u hheld] at hold
    exact ⟨u, rfl, hold⟩

/-- `dmx_hold_time * 1000` is computed in 32 bits, where no 16-bit hold time overflows. -/
theorem holdMs_toNat (hold : UInt16) : (hold.toUInt32 * 1000).toNat = hold.toNat * 1000 := by
  have hlt := hold.toNat_lt
  simp only [UInt32.toNat_mul, UInt16.toNat_toUInt32]
  exact Nat.mod_eq_of_lt (by simp; omega)

/-- The 32-bit difference of two readings is their difference modulo `2 ^ 32`. -/
theorem nowMs_sub_toNat (a b : Nat) :
    ((nowMs a - nowMs b).toNat : Int) = ((a : Int) - b) % 2 ^ 32 := by
  rw [UInt32.toNat_sub, nowMs, nowMs, UInt32.toNat_ofNat', UInt32.toNat_ofNat']
  omega

/-! ## Hold, then blackout -/

/-- **Hold, then blackout.** In every run of packets and output cycles, on any clock: a port is
blanked only when the last packet applied to it is more than the hold time old, once for each
packet, and it then stays dark and open to any priority until the next packet is applied. -/
theorem hold_then_blackout (cfg : NodeConfig) (i : Port) (opened : Port → Int)
    (es : List Event) : HoldThenBlackout cfg i (initialState cfg opened) es where
  held := by
    intro pre ms opens post _ hout
    obtain ⟨u, hu, hage⟩ := timesOut_holding hout
    refine ⟨u, lastApplied_of_holding cfg i _ pre u hu, ?_⟩
    rw [gt_iff_lt, UInt32.lt_iff_toNat_lt, holdMs_toNat] at hage
    rw [← nowMs_sub_toNat]
    omega
  once := by
    intro pre e mid e' post _ hout hout' hmid
    -- nothing was applied, so the second timeout finds the timer empty
    have hnone := holding_none_of_noneApplied hout hmid
    cases e' with
    | outputCycle ms opens =>
      obtain ⟨u, hu, _⟩ := timesOut_holding hout'
      rw [hnone] at hu
      cases hu
    | _ => cases hout'
  dark := by
    intro pre e mid post _ hout hmid
    have hinv := holdInv_run cfg i opened (pre ++ [e] ++ mid)
    obtain ⟨hdata, hprio, _⟩ := hinv.dark (holding_none_of_noneApplied hout hmid)
    refine ⟨hdata, hprio, ?_⟩
    intro pkt clk hcode hroute
    refine if_pos ⟨hcode, hroute, decide_eq_true (Or.inl ?_)⟩
    rw [hprio, ge_iff_le, UInt8.le_iff_toNat_le]
    exact Nat.zero_le _

/-! ## Live sources -/

/-- In every run of sACN packets and output cycles on a clock that neither goes back nor wraps, a
source timeout finds the last packet applied to port `i` more than `SACN_TIMEOUT_MS` old. -/
def NeverDarkensLive (cfg : NodeConfig) (i : Port) (opened : Port → Int) : Prop :=
  ∀ es, (∀ e ∈ es, e.isSacnOrCycle = true) → ClockMonotone es → NoWrap es →
    ∀ pre ms opens post, es = pre ++ .outputCycle ms opens :: post →
      (Event.outputCycle ms opens).timesOut cfg i
        (finalState (step cfg) (initialState cfg opened) pre) = true →
      ∀ u, LastApplied cfg i (initialState cfg opened) pre u → u + 2500 < ms

/-- An applied packet is not behind one after which nothing is applied. -/
theorem length_le_of_noneApplied {cfg : NodeConfig} {i : Port} {st : DaemonState}
    {pre pre' post post' : List Event} {e e' : Event} {v : Nat}
    (heq : pre ++ e :: post = pre' ++ e' :: post')
    (hpost : NoneApplied cfg i (finalState (step cfg) st (pre ++ [e])) post)
    (happ : e'.appliedAt cfg i (finalState (step cfg) st pre') = some v) :
    pre'.length ≤ pre.length := by
  rcases List.append_eq_append_iff.mp heq with ⟨mid, rfl, hrest⟩ | ⟨mid, rfl, _⟩
  · cases mid with
    | nil => simp
    | cons e₀ mid =>
      obtain ⟨rfl, rfl⟩ := List.cons.inj hrest
      have hnone := (along_append.mp hpost).2.1
      rw [← finalState_append, List.append_assoc, List.singleton_append, happ] at hnone
      cases hnone
  · simp

/-- The last packet applied is one. -/
theorem lastApplied_unique {cfg : NodeConfig} {i : Port} {st : DaemonState} {es : List Event}
    {u v : Nat} (hu : LastApplied cfg i st es u) (hv : LastApplied cfg i st es v) : u = v := by
  obtain ⟨pre, e, post, rfl, happ, hpost⟩ := hu
  obtain ⟨pre', e', post', heq, happ', hpost'⟩ := hv
  have hle := length_le_of_noneApplied heq hpost happ'
  have hge := length_le_of_noneApplied heq.symm hpost' happ
  obtain ⟨rfl, hrest⟩ := List.append_inj heq (le_antisymm hge hle)
  obtain ⟨rfl, _⟩ := List.cons.inj hrest
  exact Option.some.inj (happ.symm.trans happ')

/-- With a hold time of 3 s or more a source is lost before its port is blanked. -/
theorem neverDarkensLive_of_hold {cfg : NodeConfig} {i : Port} {opened : Port → Int}
    (hhold : 3 ≤ cfg.dmxHoldTime) : NeverDarkensLive cfg i opened := by
  intro es _ hclock hwrap pre ms opens post hes hout u hu
  have hholdNat : 3 ≤ cfg.dmxHoldTime.toNat := UInt16.le_iff_toNat_le.mp hhold
  obtain ⟨v, hv, hage⟩ := timesOut_holding hout
  have hv' := lastApplied_of_holding cfg i _ pre v hv
  rw [← lastApplied_unique hu hv'] at hage
  obtain ⟨pre', e, post', rfl, happ, _⟩ := hu
  subst hes
  -- the packet comes before the cycle, so their 32-bit difference is the true one
  have hms_read : ms ∈ (Event.outputCycle ms opens).readings := by simp [Event.readings]
  have hle : u ≤ ms := hclock.le (by simp) (by simp) (mem_readings_of_applied happ) hms_read
  have hms : ms < 2 ^ 32 := hwrap (.outputCycle ms opens) (by simp) ms (by simp [Event.readings])
  have hsub := nowMs_sub_toNat ms u
  rw [gt_iff_lt, UInt32.lt_iff_toNat_lt, holdMs_toNat] at hage
  omega

/-- An sACN source on port `i`'s universe sends one packet; the cycles come with it and
2001 ms later. -/
def briefRun (cfg : NodeConfig) (i : Port) : List Event :=
  [.sacn (sacnLevel (cfg.ports i).dmxUniverse 100 1) (HandlerClock.at 1000),
    .outputCycle 1000 openedOk, .outputCycle 3001 openedOk]

/-- The state in which the second cycle of `briefRun` finds the port: sent, and stamped 1000. -/
theorem briefRun_sent {cfg : NodeConfig} {i : Port} {opened : Port → Int}
    (htx : (cfg.ports i).mode = dmxModeTx) (hopened : 0 ≤ opened i) :
    let p := finalState (step cfg) (initialState cfg opened) ((briefRun cfg i).take 2) i
    0 ≤ p.fd ∧ p.out.lastUpdateMs = 1000 ∧ p.lastWrite = 1000 := by
  have hroute : Routed cfg (sacnLevel (cfg.ports i).dmxUniverse 100 1).dmxUniverse i := ⟨rfl, htx⟩
  have hacc : sacnAccepts (sacnLevel (cfg.ports i).dmxUniverse 100 1) (HandlerClock.at 1000) i
      (initialState cfg opened i).out = true :=
    decide_eq_true (Or.inl (by simp [sacnLevel, initialState, DmxFrame.zero]))
  have hcode : (sacnLevel (cfg.ports i).dmxUniverse 100 1).startCode = 0 := rfl
  have hfd : (initialState cfg opened i).fd = opened i := by
    simp [initialState, htx]
  have hpkt := handleSacnPacket_apply cfg (sacnLevel (cfg.ports i).dmxUniverse 100 1)
    (HandlerClock.at 1000) (initialState cfg opened) i
  rw [if_pos ⟨hcode, hroute, hacc⟩] at hpkt
  -- the packet is fresh at the first cycle: its stamp is past a `last_write` of 0
  simp only [briefRun, List.take_succ_cons, List.take_zero, finalState_cons, finalState_nil, step]
  rw [(dmxOutputCycle_apply cfg 1000 openedOk _ i).1, hpkt,
    outputPort_fresh (by rw [hfd]; exact hopened) htx (by
      simp only [sacnStore, initialState, HandlerClock.at]
      decide)]
  exact ⟨dmxTxWrite_fd_nonneg i _ _ (openedOk_succeed i), rfl, rfl⟩

/-- With a hold time of 2 s or less `briefRun` blanks the port 2001 ms after its packet. -/
theorem not_neverDarkensLive {cfg : NodeConfig} {i : Port} {opened : Port → Int}
    (htx : (cfg.ports i).mode = dmxModeTx) (hopened : 0 ≤ opened i)
    (hhold : ¬ 3 ≤ cfg.dmxHoldTime) : ¬ NeverDarkensLive cfg i opened := by
  intro h
  obtain ⟨hfd, hstamp, hwrite⟩ := @briefRun_sent cfg i opened htx hopened
  have hage : timedOut cfg (nowMs 3001) (finalState (step cfg) (initialState cfg opened)
      ((briefRun cfg i).take 2) i).out = true := by
    have hsub : (nowMs 3001 - (1000 : UInt32)).toNat = 2001 := by decide
    rw [UInt16.le_iff_toNat_le, show (3 : UInt16).toNat = 3 from rfl] at hhold
    rw [timedOut, hstamp, decide_eq_true_eq, gt_iff_lt, gt_iff_lt, UInt32.lt_iff_toNat_lt,
      UInt32.lt_iff_toNat_lt, holdMs_toNat, hsub]
    exact ⟨by decide, by omega⟩
  have hout : (Event.outputCycle 3001 openedOk).timesOut cfg i (finalState (step cfg)
      (initialState cfg opened) ((briefRun cfg i).take 2)) = true := by
    simp only [Event.timesOut, hage, Bool.and_true, decide_eq_true_eq, hstamp, hwrite]
    exact ⟨hfd, htx, by simp⟩
  obtain ⟨v, hv, _⟩ := timesOut_holding hout
  have hlast := lastApplied_of_holding cfg i _ _ v hv
  have hclock : ClockMonotone (briefRun cfg i) := by
    simp [ClockMonotone, briefRun, Event.readings, HandlerClock.at]
  have hwrap : NoWrap (briefRun cfg i) := by
    intro e he r hr
    simp only [briefRun, List.mem_cons, List.not_mem_nil, or_false] at he
    rcases he with rfl | rfl | rfl
    all_goals
      simp only [Event.readings, HandlerClock.at, List.mem_cons, List.not_mem_nil, or_false,
        or_self] at hr
      omega
  -- the only packet of the run carries the reading 1000
  have hlate := h (briefRun cfg i) (by simp [briefRun, Event.isSacnOrCycle]) hclock hwrap
    ((briefRun cfg i).take 2) 3001 openedOk [] rfl hout v hlast
  have hv1000 : v = 1000 := by
    obtain ⟨pre, e, post, heq, happ, _⟩ := hlast
    have hmem : e ∈ (briefRun cfg i).take 2 := by rw [heq]; simp
    have hread := mem_readings_of_applied happ
    simp only [briefRun, List.take_succ_cons, List.take_zero, List.mem_cons, List.not_mem_nil,
      or_false] at hmem
    rcases hmem with rfl | rfl
    all_goals simpa [Event.readings, HandlerClock.at] using hread
  omega

/-- **A live source is blanked exactly by hold times below 3 s.** For a TX port whose device is
open, no run blanks it within `SACN_TIMEOUT_MS` of the last packet applied if and only if
`dmx_hold_time` is at least 3. -/
theorem neverDarkensLive_iff (cfg : NodeConfig) (i : Port) (opened : Port → Int)
    (htx : (cfg.ports i).mode = dmxModeTx) (hopened : 0 ≤ opened i) :
    NeverDarkensLive cfg i opened ↔ 3 ≤ cfg.dmxHoldTime := by
  constructor
  · intro h
    by_contra hshort
    exact not_neverDarkensLive htx hopened hshort h
  · exact neverDarkensLive_of_hold

theorem neverDarkensLive_default :
    NeverDarkensLive configDefaults 0 (fun _ => 3) ↔ 3 ≤ configDefaults.dmxHoldTime :=
  neverDarkensLive_iff configDefaults 0 (fun _ => 3) rfl (by decide)

/-- The settings page's lowest hold times are of this kind: at 1 s a port is blanked 2001 ms after
its last packet. -/
theorem holdOne_darkens_live :
    ¬ NeverDarkensLive { configDefaults with dmxHoldTime := 1 } 0 (fun _ => 3) :=
  not_neverDarkensLive rfl (by decide) (by decide)

end SN110
