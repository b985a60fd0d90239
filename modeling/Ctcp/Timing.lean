import Ctcp.Retransmit
import Ctcp.Teardown

/-!
# Retransmission Timing

When the retransmission timer fires, counted in calls of `ctcp_timer`.

§1 takes the registry walk apart. One call of `ctcp_timer` is a map over the registry: each
engine, in order, gets one run of the loop body, and a second run when the first ends in the
`continue` of the sixth timeout, since that `continue` skips the step to the next engine
(`timerWalk_sound`, `ctcpTimer_visits_each`). So one call is not one tick per engine: at the
sixth timeout an engine is ticked twice, and with `timer_overflow = 1` it times out a seventh
time and sends a second FIN in the same call.

§2 says what each call does to `ack_state`, and §3 that a disarmed timer is at rest in every
reachable state. §4 puts them together: from the call that arms the timer, as long as no ACK
segment arrives, the `k`-th timeout (`k ≤ 6`) comes exactly `k` times `timer_overflow` calls
of `ctcp_timer` later. `timer_overflow` is `⌈rt_timeout / timer⌉` stored in a `uint8_t`, so the
period is that quotient only when it is at most `256`; above, it is the quotient modulo `256`
(`256` for `0`).

## Results

- `ctcpTimer_visits_each`: the walk, given enough fuel, returns the per-engine map.
- `sixth_timeout_ticks_twice`: a reachable engine at its sixth timeout, on which one call of
  `ctcp_timer` is not one tick.
- `timeouts_on_schedule`: the timeouts come every `ticksPerTimeout cfg` ticks.
- `first_timeout_after_one_tick`: with `⌈rt_timeout / timer⌉ = 257`, the first timeout comes
  after one tick.
-/

namespace Ctcp

/-! ## §1 One call of `ctcp_timer` on a registry -/

/-- What one `ctcp_timer` call does to the engine at its cursor: one run of the loop body, and
one more after a `continue`. Returns the engine, the events, and the sink answers left. -/
def timerStay (ans : List (List SinkAnswer)) (st : CtcpState) :
    CtcpState × List Event × List (List SinkAnswer) :=
  let v := timerVisit (ans.headD []) st
  if v.1 then
    let w := timerVisit (ans.tail.headD []) v.2.1
    (w.2.1, v.2.2 ++ w.2.2, ans.tail.tail)
  else (v.2.1, v.2.2, ans.tail)

/-- `ctcp_timer` as a map over the registry, front first. -/
def timerMap : List (List SinkAnswer) → List CtcpState → List CtcpState × List Event
  | _, [] => ([], [])
  | ans, st :: rest =>
    let t := timerStay ans st
    let r := timerMap t.2.2 rest
    (t.1 :: r.1, t.2.1 ++ r.2)

/-- The run of the body that a `continue` causes does not end in `continue`. -/
theorem timerVisit_after_continue {ans ans' : List SinkAnswer} {st : CtcpState}
    (h : (timerVisit ans st).1 = true) : (timerVisit ans' (timerVisit ans st).2.1).1 = false := by
  have h6 := (timerVisit_continue h).2
  cases hw : (timerVisit ans' (timerVisit ans st).2.1).1
  · rfl
  · have := (timerVisit_continue hw).1
    rw [h6] at this
    exact absurd this (by decide)

/-- A walk that returns has computed the per-engine map. -/
theorem timerWalk_sound : ∀ (fuel : Nat) (ans : List (List SinkAnswer)) (sts : List CtcpState)
    (r : List CtcpState × List Event), timerWalk fuel ans sts = some r → r = timerMap ans sts
  | 0, _, _, _, h => by simp [timerWalk] at h
  | _ + 1, _, [], r, h => by simp only [timerWalk, Option.some.injEq] at h; rw [← h]; rfl
  | fuel + 1, ans, st :: rest, r, h => by
    simp only [timerWalk] at h
    split at h
    · rename_i hv
      obtain ⟨r', hr', rfl⟩ := Option.map_eq_some'.mp h
      rw [timerWalk_sound fuel _ _ r' hr']
      simp only [timerMap, timerStay, hv, timerVisit_after_continue hv, ↓reduceIte,
        Bool.false_eq_true, List.append_assoc]
    · rename_i hv
      obtain ⟨r', hr', rfl⟩ := Option.map_eq_some'.mp h
      rw [timerWalk_sound fuel _ _ r' hr']
      simp only [timerMap, timerStay, hv, Bool.false_eq_true, ↓reduceIte]

/-- Two runs of the body per engine, and one more step at the end, are enough fuel. -/
theorem timerWalk_returns : ∀ (fuel : Nat) (ans : List (List SinkAnswer)) (sts : List CtcpState),
    2 * sts.length < fuel → ∃ r, timerWalk fuel ans sts = some r
  | 0, _, _, h => absurd h (Nat.not_lt_zero _)
  | _ + 1, _, [], _ => ⟨_, rfl⟩
  | fuel + 1, ans, st :: rest, h => by
    simp only [List.length_cons] at h
    simp only [timerWalk]
    split
    · rename_i hv
      obtain ⟨fuel, rfl⟩ : ∃ f, fuel = f + 1 := ⟨fuel - 1, by omega⟩
      obtain ⟨r, hr⟩ := timerWalk_returns fuel ans.tail.tail rest (by omega)
      simp only [timerWalk, timerVisit_after_continue hv, Bool.false_eq_true, ↓reduceIte, hr,
        Option.map_some']
      exact ⟨_, rfl⟩
    · obtain ⟨r, hr⟩ := timerWalk_returns fuel ans.tail rest (by omega)
      rw [hr]
      exact ⟨_, rfl⟩

/-- **One call of `ctcp_timer` is a map over the registry.** Given two runs of the body per
engine and one more, the walk returns; it hands back, in order, each engine after one run of
the body, or two when the first ends in the `continue` of the sixth timeout, and it sends the
events of those runs in the same order. -/
theorem ctcpTimer_visits_each (fuel : Nat) (ans : List (List SinkAnswer))
    (engines : List CtcpState) (hfuel : 2 * engines.length < fuel) :
    ctcpTimer fuel ans engines = some (timerMap ans engines) := by
  obtain ⟨r, hr⟩ := timerWalk_returns fuel ans engines hfuel
  rw [ctcpTimer, hr, timerWalk_sound fuel ans engines r hr]

/-- A registry of two fresh engines, walked with five runs of the body. -/
theorem ctcpTimer_visits_each_two :
    2 * [ctcpInit ⟨2000, 2000, 40, 40⟩, ctcpInit ⟨2000, 2000, 40, 40⟩].length < 5 ∧
      ctcpTimer 5 [] [ctcpInit ⟨2000, 2000, 40, 40⟩, ctcpInit ⟨2000, 2000, 40, 40⟩] =
        some (timerMap [] [ctcpInit ⟨2000, 2000, 40, 40⟩, ctcpInit ⟨2000, 2000, 40, 40⟩]) :=
  ⟨by decide, ctcpTimer_visits_each 5 [] _ (by decide)⟩

/-- The walk as a tick per engine: the body run once on each engine, in registry order. -/
def timerOnceEach : List (List SinkAnswer) → List CtcpState → List CtcpState × List Event
  | _, [] => ([], [])
  | ans, st :: rest =>
    let v := timerVisit (ans.headD []) st
    let r := timerOnceEach ans.tail rest
    (v.2.1 :: r.1, v.2.2 ++ r.2)

/-- **At the sixth timeout one call is two ticks.** With `rt_timeout = timer`, every tick of an
armed timer is a timeout. After one byte is sent and five calls of `ctcp_timer`, the sixth call
sends the forced FIN and, after the `continue`, runs the body on the same engine again: a
seventh timeout, and a second FIN. One tick would leave `time_out_num` at `6` with one FIN. -/
theorem sixth_timeout_ticks_twice :
    ∃ st tr, Reachable ⟨2000, 2000, 40, 40⟩ st tr ∧
      ctcpTimer 3 [] [st] ≠ some (timerOnceEach [] [st]) ∧
      (∃ st' evs, ctcpTimer 3 [] [st] = some ([st'], evs) ∧
        st'.ack_state.time_out_num = 7 ∧ (sends evs).map Segment.flags = [FIN, FIN]) ∧
      (timerOnceEach [] [st]).1.map (·.ack_state.time_out_num) = [6] ∧
      (sends (timerOnceEach [] [st]).2).map Segment.flags = [FIN] := by
  refine ⟨_, _, @reachable_of_runEngine ⟨2000, 2000, 40, 40⟩ _ _
    (EngineAction.read 1 [.data [97]] :: List.replicate 5 (EngineAction.timer 3 [])) rfl,
    ?_, ⟨_, _, rfl, ?_, ?_⟩, ?_, ?_⟩ <;> decide

/-! ## §2 What a call does to the timer fields -/

/-- One run of the loop body on the fields of an armed timer: a tick, and a timeout when the
count reaches `timer_overflow`. -/
def AckState.tick (a : AckState) : AckState :=
  if a.counter + 1 = a.timer_overflow then
    { a with counter := 0, time_out_num := a.time_out_num + 1 }
  else { a with counter := a.counter + 1 }

@[simp] theorem AckState.tick_time_out (a : AckState) : a.tick.time_out = a.time_out := by
  unfold AckState.tick; split <;> rfl

@[simp] theorem AckState.tick_timer_overflow (a : AckState) :
    a.tick.timer_overflow = a.timer_overflow := by
  unfold AckState.tick; split <;> rfl

/-- A call that leaves the timer's counts alone and can only arm it. -/
def AckQuiet (st st' : CtcpState) : Prop :=
  ∃ t, st'.ack_state = { st.ack_state with time_out := st.ack_state.time_out || t }

theorem AckQuiet.of_eq {st st' : CtcpState} (h : st'.ack_state = st.ack_state) :
    AckQuiet st st' :=
  ⟨false, by rw [h, Bool.or_false]⟩

theorem AckQuiet.trans {st₁ st₂ st₃ : CtcpState} (h₁ : AckQuiet st₁ st₂) (h₂ : AckQuiet st₂ st₃) :
    AckQuiet st₁ st₃ := by
  obtain ⟨t₁, h₁⟩ := h₁
  obtain ⟨t₂, h₂⟩ := h₂
  exact ⟨t₁ || t₂, by rw [h₂, h₁, Bool.or_assoc]⟩

theorem ackQuiet_pass (st : CtcpState) : AckQuiet st (ctcpSendPossibleDataSegment st).1 := by
  rw [ctcpSendPossibleDataSegment_eq]; exact ⟨_, rfl⟩

theorem ackQuiet_output (ans : List SinkAnswer) (st : CtcpState) :
    AckQuiet st (ctcpOutput ans st).1 :=
  .of_eq (by rw [ctcpOutput_frame])

theorem ackQuiet_read {fuel : Nat} {input : List InputAnswer} {st st' : CtcpState}
    {evs : List Event} (h : ctcpRead fuel input st = some (st', evs)) : AckQuiet st st' := by
  obtain ⟨⟨st₁, evs₁⟩, hloop, hr'⟩ := Option.map_eq_some'.mp h
  simp only [Prod.mk.injEq] at hr'
  obtain ⟨rfl, rfl⟩ := hr'
  obtain ⟨cs, hst, -⟩ := readLoop_spec hloop
  refine AckQuiet.trans ?_ (ackQuiet_pass st₁)
  rcases hst with rfl | rfl
  exacts [.of_eq rfl, ⟨true, by simp⟩]

/-- The `ACK_SEG` case either leaves the timer fields or resets both counts. -/
theorem receiveAck_ack (st : CtcpState) (A : UInt32) :
    (receiveAck st A).ack_state = st.ack_state ∨
      ((receiveAck st A).ack_state.counter = 0 ∧ (receiveAck st A).ack_state.time_out_num = 0 ∧
        (receiveAck st A).ack_state.timer_overflow = st.ack_state.timer_overflow) := by
  unfold receiveAck
  split
  · exact .inl rfl
  · split
    · rw [ackLoop_eq]
      dsimp only
      split <;> exact .inr ⟨rfl, rfl, rfl⟩
    · exact .inl rfl

/-- **What `ctcp_receive` does to the timer fields**: nothing but arm it, except that an ACK
segment may reset both counts. -/
theorem ctcpReceive_ack {fuel : Nat} {ans : List SinkAnswer} {seg : Segment}
    {st st' : CtcpState} {evs : List Event}
    (h : ctcpReceive fuel ans seg st = some (some st', evs)) :
    AckQuiet st st' ∨
      (segmentType seg.flags = .ACK_SEG ∧ st'.ack_state.counter = 0 ∧
        st'.ack_state.time_out_num = 0 ∧
        st'.ack_state.timer_overflow = st.ack_state.timer_overflow) := by
  rcases ctcpReceive_live h with ⟨rfl, -⟩ | ⟨rfl, -⟩ | ⟨-, hd⟩ | ⟨hty, -, rfl, -⟩ |
    ⟨-, -, rfl, -⟩
  · exact .inl (.of_eq rfl)
  · exact .inl (.of_eq rfl)
  · obtain ⟨a, l, u, q, hst⟩ := ctcpReceiveDataSegment_frame ans st seg
    exact .inl (.of_eq (by rw [show st' = _ from congrArg Prod.fst hd, hst]))
  · rcases receiveAck_ack st seg.ackno with he | hr
    exacts [.inl (.of_eq he), .inr ⟨hty, hr⟩]
  · exact .inl ⟨true, by simp⟩

/-- On a disarmed timer the body runs the pass and drains the Receive Queue: it does not end
in `continue` and only arms the timer. -/
theorem timerVisit_disarmed {ans : List SinkAnswer} {st : CtcpState}
    (ht : st.ack_state.time_out = false) :
    (timerVisit ans st).1 = false ∧ AckQuiet st (timerVisit ans st).2.1 := by
  unfold timerVisit
  simp only [ht, Bool.false_eq_true, if_false]
  split
  · exact ⟨rfl, (ackQuiet_pass st).trans (ackQuiet_output _ _)⟩
  · exact ⟨rfl, ackQuiet_pass st⟩

/-- On an armed timer the body ticks it; it ends in `continue` exactly at the sixth consecutive
timeout, which leaves the engine in `ACTIVE_CLOSE`. -/
theorem timerVisit_armed {ans : List SinkAnswer} {st : CtcpState}
    (ht : st.ack_state.time_out = true) :
    (timerVisit ans st).2.1.ack_state = st.ack_state.tick ∧
      ((timerVisit ans st).1 = true ↔ st.ack_state.counter + 1 = st.ack_state.timer_overflow ∧
        st.ack_state.time_out_num + 1 = 6) ∧
      ((timerVisit ans st).1 = true →
        (timerVisit ans st).2.1.segment_teardown = .ACTIVE_CLOSE) := by
  unfold timerVisit AckState.tick
  simp only [ht, if_true]
  by_cases hc : st.ack_state.counter + 1 = st.ack_state.timer_overflow
  · by_cases hn : st.ack_state.time_out_num + 1 = 6
    · simp [hc, hn, ht]
    · split_ifs <;> simp [hc, hn, ht, ctcpSendPossibleDataSegment_eq]
  · simp [hc]

/-- A `ctcp_timer` call on a lone engine that returns leaves it as `timerStay` does. -/
theorem timerWalk_stay {fuel : Nat} {ans : List (List SinkAnswer)} {st st' : CtcpState}
    {evs : List Event} (hw : timerWalk fuel ans [st] = some ([st'], evs)) :
    st' = (timerStay ans st).1 := by
  have := timerWalk_sound fuel ans [st] _ hw
  simp only [timerMap, Prod.mk.injEq, List.cons.injEq] at this
  exact this.1.1

/-- On an armed timer one call ticks it once, and once more after the `continue` of the sixth
consecutive timeout, which leaves the engine in `ACTIVE_CLOSE`. -/
theorem timerStay_armed {ans : List (List SinkAnswer)} {st : CtcpState}
    (ht : st.ack_state.time_out = true) :
    (timerStay ans st).1.ack_state =
        (if st.ack_state.counter + 1 = st.ack_state.timer_overflow ∧
            st.ack_state.time_out_num + 1 = 6 then st.ack_state.tick.tick
          else st.ack_state.tick) ∧
      (st.ack_state.counter + 1 = st.ack_state.timer_overflow ∧ st.ack_state.time_out_num + 1 = 6 →
        (timerStay ans st).1.segment_teardown = .ACTIVE_CLOSE) := by
  obtain ⟨hv, hflag, hact⟩ := @timerVisit_armed (ans.headD []) st ht
  unfold timerStay
  by_cases hc : st.ack_state.counter + 1 = st.ack_state.timer_overflow ∧
      st.ack_state.time_out_num + 1 = 6
  · have hv1 := hflag.mpr hc
    have ht' : (timerVisit (ans.headD []) st).2.1.ack_state.time_out = true := by rw [hv]; simpa
    obtain ⟨hw, -, -⟩ := @timerVisit_armed (ans.tail.headD []) _ ht'
    simp only [hv1, if_true, if_pos hc, hw, hv, true_and]
    intro _
    rcases timerVisit_teardown (ans.tail.headD []) (timerVisit (ans.headD []) st).2.1 with h | h
    · rw [h]; exact hact hv1
    · exact h
  · have hv1 : (timerVisit (ans.headD []) st).1 = false := by
      cases h : (timerVisit (ans.headD []) st).1
      · rfl
      · exact absurd (hflag.mp h) hc
    simp only [hv1, Bool.false_eq_true, if_false, if_neg hc, hv]
    exact ⟨trivial, fun h => absurd h hc⟩

/-- A call on an armed timer keeps it armed and keeps `timer_overflow`. -/
theorem timerStay_armed_fields {ans : List (List SinkAnswer)} {st : CtcpState}
    (ht : st.ack_state.time_out = true) :
    (timerStay ans st).1.ack_state.time_out = true ∧
      (timerStay ans st).1.ack_state.timer_overflow = st.ack_state.timer_overflow := by
  rw [(timerStay_armed ht).1]; split <;> simp [ht]

/-- On a disarmed timer one call only arms it. -/
theorem timerStay_disarmed {ans : List (List SinkAnswer)} {st : CtcpState}
    (ht : st.ack_state.time_out = false) : AckQuiet st (timerStay ans st).1 := by
  obtain ⟨hv1, hq⟩ := @timerVisit_disarmed (ans.headD []) st ht
  unfold timerStay
  simpa only [hv1, Bool.false_eq_true, if_false] using hq

/-- Is the call a `ctcp_timer` call? -/
def EngineAction.isTimer : EngineAction → Bool
  | .timer _ _ => true
  | _ => false

/-- The call does not hand the engine an ACK segment (`ACK_SEG`), the one kind that stops the
timer. -/
def EngineAction.ackFree : EngineAction → Bool
  | .receive _ _ seg => segmentType seg.flags != .ACK_SEG
  | _ => true

/-- **What one call does to the timer fields.** A `ctcp_timer` call on an armed timer ticks it
as `timerStay` does; a call that hands over an ACK segment may reset both counts; any other call
can only arm the timer. -/
theorem engineStep_ack {st st' : CtcpState} {a : EngineAction} {evs : List Event}
    (h : engineStep st a = some (some st', evs)) :
    (∃ fuel ans, a = .timer fuel ans ∧ st.ack_state.time_out = true ∧
        st' = (timerStay ans st).1) ∨
      (a.ackFree = false ∧ st'.ack_state.counter = 0 ∧ st'.ack_state.time_out_num = 0 ∧
        st'.ack_state.timer_overflow = st.ack_state.timer_overflow) ∨
      ((a.isTimer = false ∨ st.ack_state.time_out = false) ∧ AckQuiet st st') := by
  cases a with
  | read fuel input =>
    obtain ⟨r, hr, hr'⟩ := Option.map_eq_some'.mp h
    simp only [Prod.mk.injEq, Option.some.injEq] at hr'
    obtain ⟨rfl, rfl⟩ := hr'
    exact .inr (.inr ⟨.inl rfl, ackQuiet_read hr⟩)
  | receive fuel ans seg =>
    rcases ctcpReceive_ack (h : ctcpReceive fuel ans seg st = _) with hq | ⟨hty, hr⟩
    · exact .inr (.inr ⟨.inl rfl, hq⟩)
    · exact .inr (.inl ⟨by simp [EngineAction.ackFree, hty], hr⟩)
  | output ans =>
    simp only [engineStep, Option.some.injEq, Prod.mk.injEq] at h
    exact .inr (.inr ⟨.inl rfl, h.1 ▸ ackQuiet_output ans st⟩)
  | timer fuel ans =>
    obtain ⟨_, _, hw, hr⟩ := engineStep_timer_inv h
    simp only [Prod.mk.injEq, Option.some.injEq] at hr
    obtain ⟨rfl, rfl⟩ := hr
    rw [timerWalk_stay hw]
    cases ht : st.ack_state.time_out
    · exact .inr (.inr ⟨.inr rfl, timerStay_disarmed ht⟩)
    · exact .inl ⟨fuel, ans, rfl, rfl, rfl⟩

/-! ## §3 A disarmed timer is at rest -/

/-- The timer fields of a reachable engine: `timer_overflow` as `ctcp_init` set it, and a
disarmed timer with both counts at zero. -/
structure TimerRest (cfg : CtcpConfig) (st : CtcpState) : Prop where
  overflow : st.ack_state.timer_overflow = timerOverflow cfg
  rest : st.ack_state.time_out = false →
    st.ack_state.counter = 0 ∧ st.ack_state.time_out_num = 0

theorem TimerRest.quiet {cfg : CtcpConfig} {st st' : CtcpState} (h : TimerRest cfg st)
    (hq : AckQuiet st st') : TimerRest cfg st' := by
  obtain ⟨t, hq⟩ := hq
  refine ⟨by rw [hq]; exact h.overflow, fun hoff => ?_⟩
  rw [hq] at hoff ⊢
  exact h.rest (Bool.or_eq_false_iff.mp hoff).1

/-- Every call keeps the timer fields at rest while disarmed: only the `ACK_SEG` case disarms,
and it resets both counts. -/
theorem TimerRest.step {cfg : CtcpConfig} {st st' : CtcpState} {a : EngineAction}
    {evs : List Event} (h : TimerRest cfg st) (hs : engineStep st a = some (some st', evs)) :
    TimerRest cfg st' := by
  rcases engineStep_ack hs with ⟨_, _, -, ht, rfl⟩ | ⟨-, hc, hn, ho⟩ | ⟨-, hq⟩
  · obtain ⟨hon, ho⟩ := timerStay_armed_fields ht
    exact ⟨ho.trans h.overflow, fun hoff => Bool.noConfusion (hon.symm.trans hoff)⟩
  · exact ⟨ho.trans h.overflow, fun _ => ⟨hc, hn⟩⟩
  · exact h.quiet hq

theorem timerRest_reachable {cfg : CtcpConfig} {st : CtcpState} {tr : List Event}
    (h : Reachable cfg st tr) : TimerRest cfg st := by
  induction h with
  | init => exact ⟨rfl, fun _ => ⟨rfl, rfl⟩⟩
  | step a _ hstep ih => exact ih.step hstep

/-! ## §4 The retransmission schedule -/

/-- The calls of `ctcp_timer` in a run. -/
def timerCalls (as : List EngineAction) : Nat := as.countP EngineAction.isTimer

/-- `⌈rt_timeout / timer⌉` as `ctcp_init` computes it, before it is stored in a `uint8_t`. -/
def timeoutQuotient (cfg : CtcpConfig) : Nat :=
  if cfg.rt_timeout % cfg.timer = 0 then cfg.rt_timeout / cfg.timer
  else cfg.rt_timeout / cfg.timer + 1

/-- Ticks from one timeout to the next for a stored `timer_overflow`: the count wraps at `256`,
so `0` stands for `256`. -/
def overflowTicks (o : UInt8) : Nat := (o.toNat + 255) % 256 + 1

/-- Ticks from one timeout to the next under `cfg`: `⌈rt_timeout / timer⌉` brought into
`1, …, 256` modulo `256`. -/
def ticksPerTimeout (cfg : CtcpConfig) : Nat := (timeoutQuotient cfg + 255) % 256 + 1

example :
    ticksPerTimeout ⟨2000, 2000, 256, 1⟩ = 256 ∧ ticksPerTimeout ⟨2000, 2000, 257, 1⟩ = 1 := by
  decide

theorem overflowTicks_timerOverflow (cfg : CtcpConfig) :
    overflowTicks (timerOverflow cfg) = ticksPerTimeout cfg := by
  have : (timerOverflow cfg).toNat = timeoutQuotient cfg % 256 := BitVec.toNat_ofNat _ 8
  simp only [overflowTicks, ticksPerTimeout, this]; omega

/-- The formula of `ctcp_init` is the ceiling of the quotient. -/
theorem timeoutQuotient_eq_ceil {cfg : CtcpConfig} (h : 0 < cfg.timer) :
    timeoutQuotient cfg = (cfg.rt_timeout + cfg.timer - 1) / cfg.timer := by
  have hd := Nat.div_add_mod cfg.rt_timeout cfg.timer
  have hm := Nat.mod_lt cfg.rt_timeout h
  have h1 := Nat.add_one_mul (cfg.rt_timeout / cfg.timer) cfg.timer
  have h2 := Nat.add_one_mul (cfg.rt_timeout / cfg.timer + 1) cfg.timer
  rw [Nat.mul_comm] at hd
  unfold timeoutQuotient
  split <;> refine (Nat.div_eq_of_lt_le ?_ ?_).symm <;> omega

/-- A tick adds at most one timeout. -/
theorem AckState.tick_time_out_num (a : AckState) :
    a.tick.time_out_num = a.time_out_num ∨ a.tick.time_out_num = a.time_out_num + 1 := by
  unfold AckState.tick; split
  exacts [.inr rfl, .inl rfl]

/-- One tick `i` ticks into the schedule, short of the sixth timeout: it brings the sixth
timeout exactly when `i + 1 = 6 T`, and otherwise moves the counts one tick along. -/
theorem AckState.tick_counts {a : AckState} {T i : Nat} (hT : overflowTicks a.timer_overflow = T)
    (hi : i < 6 * T) (h : a.time_out_num.toNat * T + a.counter.toNat = i)
    (hc : a.counter.toNat < T) :
    (a.counter + 1 = a.timer_overflow ∧ a.time_out_num + 1 = 6 ↔ i + 1 = 6 * T) ∧
      (i + 1 < 6 * T → a.tick.time_out_num.toNat * T + a.tick.counter.toNat = i + 1 ∧
        a.tick.counter.toNat < T) ∧
      (i + 1 = 6 * T → a.tick.time_out_num.toNat = 6) := by
  have ho := UInt8.toNat_lt a.timer_overflow
  have hT256 : T ≤ 256 := by unfold overflowTicks at hT; omega
  have h6 : (6 : UInt8).toNat = 6 := rfl
  have hn : a.time_out_num.toNat < 6 := Nat.lt_of_mul_lt_mul_right (a := T) (by omega)
  have hco : a.counter + 1 = a.timer_overflow ↔ a.counter.toNat + 1 = T := by
    rw [UInt8.ext_iff, UInt8.toNat_add, u8_toNat_one, UInt8.size]; unfold overflowTicks at hT; omega
  have hno : a.time_out_num + 1 = 6 ↔ a.time_out_num.toNat = 5 := by
    rw [UInt8.ext_iff, UInt8.toNat_add, u8_toNat_one, h6, UInt8.size]; omega
  have hn1 : (a.time_out_num.toNat + 1) % 256 = a.time_out_num.toNat + 1 :=
    Nat.mod_eq_of_lt (by omega)
  -- the next multiple of `T` is at most `6 T`, and is `6 T` only after the fifth timeout
  have hmul := Nat.add_one_mul a.time_out_num.toNat T
  have hle : (a.time_out_num.toNat + 1) * T ≤ 6 * T := Nat.mul_le_mul_right T hn
  have hsix : (a.time_out_num.toNat + 1) * T = 6 * T ↔ a.time_out_num.toNat = 5 :=
    ⟨fun h => by have := Nat.eq_of_mul_eq_mul_right (by omega) h; omega, fun h => by rw [h]⟩
  unfold AckState.tick
  by_cases hct : a.counter + 1 = a.timer_overflow
  · have hcT := hco.mp hct
    simp only [hct, ↓reduceIte, true_and, hno, UInt8.toNat_add, UInt8.size, u8_toNat_one,
      u8_toNat_zero, hn1]
    omega
  · have hcT : a.counter.toNat + 1 < T := by have := hco.not.mp hct; omega
    simp only [hct, ↓reduceIte, false_and, false_iff, UInt8.toNat_add, UInt8.size, u8_toNat_one]
    omega

/-- `i` ticks into the schedule of an armed timer with period `T`: short of the sixth timeout,
`time_out_num` periods and `counter` ticks make up `i`; at the sixth, at least six timeouts and
`ACTIVE_CLOSE`. -/
structure OnSchedule (T i : Nat) (st : CtcpState) : Prop where
  armed : st.ack_state.time_out = true
  period : overflowTicks st.ack_state.timer_overflow = T
  counts : i < 6 * T → st.ack_state.time_out_num.toNat * T + st.ack_state.counter.toNat = i ∧
    st.ack_state.counter.toNat < T
  sixth : i = 6 * T → 6 ≤ st.ack_state.time_out_num.toNat ∧ st.segment_teardown = .ACTIVE_CLOSE

/-- A call that leaves the counts alone keeps the schedule. -/
theorem OnSchedule.quiet {T i : Nat} {st st' : CtcpState} (h : OnSchedule T i st)
    (hq : AckQuiet st st') (htd : st.segment_teardown.rank ≤ st'.segment_teardown.rank) :
    OnSchedule T i st' := by
  obtain ⟨t, hq⟩ := hq
  refine ⟨by simp [hq, h.armed], by rw [hq]; exact h.period, by rw [hq]; exact h.counts,
    fun hi => ⟨by rw [hq]; exact (h.sixth hi).1, ?_⟩⟩
  rw [(h.sixth hi).2] at htd
  exact TeardownState.eq_active_of_rank htd

/-- A `ctcp_timer` call moves the schedule one tick along. -/
theorem OnSchedule.tick {T i : Nat} {st : CtcpState} {ans : List (List SinkAnswer)}
    (h : OnSchedule T i st) : OnSchedule T (i + 1) (timerStay ans st).1 := by
  obtain ⟨hack, hact⟩ := @timerStay_armed ans st h.armed
  obtain ⟨harmed, hov⟩ := @timerStay_armed_fields ans st h.armed
  by_cases hi : i < 6 * T
  · obtain ⟨hC, hstep, hsix⟩ := AckState.tick_counts h.period hi (h.counts hi).1 (h.counts hi).2
    refine ⟨harmed, hov ▸ h.period, fun hi1 => ?_, fun hi1 => ?_⟩
    · rw [hack, if_neg fun hc => absurd (hC.mp hc) (by omega)]
      exact hstep hi1
    · have hc := hC.mpr hi1
      refine ⟨?_, hact hc⟩
      rw [hack, if_pos hc]
      rcases AckState.tick_time_out_num st.ack_state.tick with he | he <;>
        rw [he] <;> simp only [UInt8.toNat_add, UInt8.size, u8_toNat_one, hsix hi1] <;> omega
  · exact ⟨harmed, hov ▸ h.period, fun hi1 => absurd hi1 (by omega),
      fun hi1 => absurd hi1 (by omega)⟩

/-- **Step lemma**: a call that hands over no ACK segment keeps the schedule, one tick further
on a `ctcp_timer` call. -/
theorem OnSchedule.step {T i : Nat} {st st' : CtcpState} {a : EngineAction} {evs : List Event}
    (h : OnSchedule T i st) (hs : engineStep st a = some (some st', evs))
    (hack : a.ackFree = true) : OnSchedule T (i + if a.isTimer then 1 else 0) st' := by
  rcases engineStep_ack hs with ⟨_, _, rfl, -, rfl⟩ | ⟨hf, -⟩ | ⟨hnt | hoff, hq⟩
  · exact h.tick
  · exact absurd hack (by rw [hf]; decide)
  · rw [hnt]; exact h.quiet hq (engineStep_teardown hs)
  · exact absurd (hoff.symm.trans h.armed) Bool.false_ne_true

/-- **Run lemma**: along a run with no ACK segment the schedule advances by its `ctcp_timer`
calls. -/
theorem OnSchedule.run {T i : Nat} {st st' : CtcpState} {as : List EngineAction}
    {evs : List Event} (h : OnSchedule T i st) (hrun : runEngine st as = some (st', evs))
    (hack : ∀ b ∈ as, b.ackFree = true) : OnSchedule T (i + timerCalls as) st' := by
  induction as generalizing i st evs with
  | nil =>
    simp only [runEngine, Option.some.injEq, Prod.mk.injEq] at hrun
    obtain ⟨rfl, -⟩ := hrun
    exact h
  | cons a as ih =>
    obtain ⟨_, _, _, hs, hr, -⟩ := runEngine_cons_inv hrun
    have := ih (h.step hs (hack a (List.mem_cons_self _ _))) hr
      fun b hb => hack b (List.mem_cons_of_mem _ hb)
    simp only [timerCalls, List.countP_cons] at this ⊢
    rwa [Nat.add_comm _ (ite _ _ _), ← Nat.add_assoc]

/-- The call that arms a disarmed timer of a reachable engine starts the schedule. -/
theorem onSchedule_of_arming {cfg : CtcpConfig} {st st₁ : CtcpState} {tr evs : List Event}
    {a : EngineAction} (h : Reachable cfg st tr) (hoff : st.ack_state.time_out = false)
    (harm : engineStep st a = some (some st₁, evs)) (hon : st₁.ack_state.time_out = true) :
    OnSchedule (ticksPerTimeout cfg) 0 st₁ := by
  have hr := timerRest_reachable h
  obtain ⟨hc, hn⟩ := hr.rest hoff
  have hcounts : st₁.ack_state.counter = 0 ∧ st₁.ack_state.time_out_num = 0 ∧
      st₁.ack_state.timer_overflow = timerOverflow cfg := by
    rcases engineStep_ack harm with ⟨_, _, -, ht, -⟩ | ⟨-, hc', hn', ho⟩ | ⟨-, t, hq⟩
    · exact absurd (hoff.symm.trans ht) Bool.false_ne_true
    · exact ⟨hc', hn', ho.trans hr.overflow⟩
    · rw [hq]; exact ⟨hc, hn, hr.overflow⟩
  obtain ⟨hc₁, hn₁, ho₁⟩ := hcounts
  have hT : 0 < ticksPerTimeout cfg := Nat.succ_pos _
  refine ⟨hon, by rw [ho₁, overflowTicks_timerOverflow], fun _ => ?_, fun h0 => by omega⟩
  rw [hc₁, hn₁]
  exact ⟨by simp, hT⟩

/-- **The retransmission schedule.** After a call arms a disarmed timer, along any run without
an ACK the timer stays armed; after `j` timer calls, `j / T` timeouts have come and `j % T`
ticks since the last while `j < 6 T`, at `j = 6 T` the engine is in `ACTIVE_CLOSE`, and
`T = ⌈rt_timeout / timer⌉` when that is at most `256`. -/
theorem timeouts_on_schedule {cfg : CtcpConfig} {st st₁ st' : CtcpState}
    {tr evs evs' : List Event} {a : EngineAction} {as : List EngineAction}
    (h : Reachable cfg st tr) (hoff : st.ack_state.time_out = false)
    (harm : engineStep st a = some (some st₁, evs)) (hon : st₁.ack_state.time_out = true)
    (hrun : runEngine st₁ as = some (st', evs')) (hack : ∀ b ∈ as, b.ackFree = true) :
    st'.ack_state.time_out = true ∧
      (timerCalls as < 6 * ticksPerTimeout cfg →
        st'.ack_state.time_out_num.toNat = timerCalls as / ticksPerTimeout cfg ∧
        st'.ack_state.counter.toNat = timerCalls as % ticksPerTimeout cfg) ∧
      (timerCalls as = 6 * ticksPerTimeout cfg →
        6 ≤ st'.ack_state.time_out_num.toNat ∧ st'.segment_teardown = .ACTIVE_CLOSE) ∧
      (1 ≤ cfg.timer → 1 ≤ cfg.rt_timeout →
        (cfg.rt_timeout + cfg.timer - 1) / cfg.timer ≤ 256 →
        ticksPerTimeout cfg = (cfg.rt_timeout + cfg.timer - 1) / cfg.timer) := by
  have hs := (onSchedule_of_arming h hoff harm hon).run hrun hack
  rw [Nat.zero_add] at hs
  refine ⟨hs.armed, fun hj => ?_, hs.sixth, fun ht hrt hq => ?_⟩
  · obtain ⟨hsum, hc⟩ := hs.counts hj
    have hT : 0 < ticksPerTimeout cfg := Nat.succ_pos _
    have hdm : timerCalls as / ticksPerTimeout cfg = st'.ack_state.time_out_num.toNat ∧
        timerCalls as % ticksPerTimeout cfg = st'.ack_state.counter.toNat :=
      (Nat.div_mod_unique hT).mpr ⟨by rw [Nat.mul_comm]; omega, hc⟩
    exact ⟨hdm.1.symm, hdm.2.symm⟩
  · have hpos : 0 < (cfg.rt_timeout + cfg.timer - 1) / cfg.timer := Nat.div_pos (by omega) ht
    unfold ticksPerTimeout
    rw [timeoutQuotient_eq_ceil ht]
    omega

/-- With `rt_timeout = 200` and `timer = 40` (`T = 5`), a fresh engine armed by sending one byte
has, seven calls of `ctcp_timer` later, timed out once and ticked twice since. -/
theorem timeouts_on_schedule_seven :
    let cfg : CtcpConfig := ⟨2000, 2000, 200, 40⟩
    let as := List.replicate 7 (EngineAction.timer 3 [])
    ∃ st₁ st' evs evs', Reachable cfg (ctcpInit cfg) [] ∧
      (ctcpInit cfg).ack_state.time_out = false ∧
      engineStep (ctcpInit cfg) (.read 1 [.data [97]]) = some (some st₁, evs) ∧
      st₁.ack_state.time_out = true ∧ runEngine st₁ as = some (st', evs') ∧
      (∀ b ∈ as, b.ackFree = true) ∧
      st'.ack_state.time_out_num.toNat = 1 ∧ st'.ack_state.counter.toNat = 2 := by
  refine ⟨_, _, _, _, .init, rfl, rfl, rfl, rfl, by decide, ?_⟩
  exact (@timeouts_on_schedule ⟨2000, 2000, 200, 40⟩ _ _ _ _ _ _ (.read 1 [.data [97]])
    (List.replicate 7 (.timer 3 [])) .init rfl rfl rfl rfl (by decide)).2.1 (by decide)

/-- **The period is not always the quotient.** With `rt_timeout = 257` and `timer = 1`,
`⌈rt_timeout / timer⌉ = 257`, but `timer_overflow` keeps `257 mod 256 = 1`: the first timeout
comes on the first call of `ctcp_timer` after the arming. -/
theorem first_timeout_after_one_tick :
    let cfg : CtcpConfig := ⟨2000, 2000, 257, 1⟩
    (cfg.rt_timeout + cfg.timer - 1) / cfg.timer = 257 ∧
      ∃ st₁ st' evs evs', (ctcpInit cfg).ack_state.time_out = false ∧
        engineStep (ctcpInit cfg) (.read 1 [.data [97]]) = some (some st₁, evs) ∧
        st₁.ack_state.time_out = true ∧
        runEngine st₁ [.timer 3 []] = some (st', evs') ∧ st'.ack_state.time_out_num = 1 := by
  refine ⟨rfl, _, _, _, _, rfl, rfl, rfl, rfl, ?_⟩
  decide

end Ctcp
