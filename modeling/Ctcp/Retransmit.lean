import Ctcp.SendWindow

/-!
# The Retransmission Timer

Two facts about `ack_state` over runs of one engine.

- §1 While a transmitted element waits in the Send Queue (nonzero tag), or the engine is in
  `PASSIVE_CLOSE`, the timer is armed. The only disarming write is in the `ACK_SEG` case, on
  an acknowledgement equal to `next_seqno`, and by the send-window invariant that
  acknowledgement removes every transmitted element. `ACTIVE_CLOSE` is not covered: that same
  acknowledgement disarms the timer while our FIN is unacknowledged.
- §2 With only timer ticks, an armed engine sends segments without end. Every tick counts;
  `counter` and `time_out_num` are `uint8_t` and wrap, so a timeout comes within 256 ticks
  and the sixth timeout within 256 timeouts; it forces `ACTIVE_CLOSE`, after which every
  timeout resends the FIN. `ctcp_timer` never destroys an engine.
-/

namespace Ctcp

/-! ## §1 The timer is armed while something is outstanding -/

/-- Some transmitted element is still in the Send Queue, or we are in `PASSIVE_CLOSE`, so the
timer must be armed. -/
def ArmedInv (st : CtcpState) : Prop :=
  (∃ e ∈ st.tx_state, e.segment_next_seqno ≠ 0) ∨ st.segment_teardown = .PASSIVE_CLOSE →
    st.ack_state.time_out = true

theorem ArmedInv.frame {st st' : CtcpState} (h : ArmedInv st) (hq : st'.tx_state = st.tx_state)
    (htd : st'.segment_teardown = st.segment_teardown)
    (ht : st'.ack_state.time_out = st.ack_state.time_out) : ArmedInv st' := by
  rw [ArmedInv, hq, htd, ht]; exact h

theorem ArmedInv.of_armed {st : CtcpState} (ht : st.ack_state.time_out = true) : ArmedInv st :=
  fun _ => ht

/-- The pass arms the timer whenever it sends, and when it sends nothing the queue is as it
was. -/
theorem ArmedInv.pass {st : CtcpState} (h : ArmedInv st) :
    ArmedInv (ctcpSendPossibleDataSegment st).1 := by
  rw [ctcpSendPossibleDataSegment_eq]
  intro hpre
  simp only [Bool.or_eq_true, decide_eq_true_eq]
  rcases Nat.eq_zero_or_pos (fitCount st.conn_state.send_window.toNat 0 st.tx_state) with hk | hk
  · simp only [hk, List.take_zero, retag, List.nil_append, List.drop_zero] at hpre
    exact .inl (h hpre)
  · exact .inr hk

/-- Appended elements are untagged. -/
theorem ArmedInv.enqueue {st : CtcpState} (h : ArmedInv st) (cs : List (List UInt8)) :
    ArmedInv { st with tx_state := st.tx_state ++ cs.map TxState.fresh } := by
  rintro (⟨e, he, hne⟩ | hp)
  · rcases List.mem_append.mp he with he | he
    · exact h (.inl ⟨e, he, hne⟩)
    · obtain ⟨c, -, rfl⟩ := List.mem_map.mp he
      exact absurd rfl hne
  · exact h (.inr hp)

/-- An acknowledgement that reaches `next_seqno` passes the tag of every transmitted element. -/
theorem TxLayout.le_ackCount {b : Nat} {q : List TxState} {k : Nat} (h : TxLayout b q k)
    (hb : 1 ≤ b) {A : UInt32} (hA : b + txBytes (q.take k) ≤ A.toNat) : k ≤ ackCount A q := by
  induction q generalizing b k with
  | nil => cases k <;> simp_all
  | cons e q ih =>
    cases k with
    | zero => exact Nat.zero_le _
    | succ k =>
      simp only [List.take_succ_cons, txBytes_cons] at hA
      have hc : e.segment_next_seqno ≤ A ∧ 0 < e.segment_next_seqno := by
        rw [u32_le_iff, u32_lt_iff, h.1, UInt32.toNat_zero]; omega
      simp only [ackCount, hc, and_self, if_true]
      exact Nat.succ_le_succ (ih h.2 (by omega) (by omega))

/-- **The `ACK_SEG` case keeps the timer armed while needed.** It disarms only on an
acknowledgement equal to `next_seqno`, which removes every transmitted element. -/
theorem ArmedInv.receiveAck {st : CtcpState} {S : List UInt8} (h : ArmedInv st)
    (hs : SendInv st S) (hp : st.segment_teardown ≠ .PASSIVE_CLOSE) (A : UInt32) :
    ArmedInv (receiveAck st A) := by
  obtain ⟨h1, -, -, k, hk, hn, -, -⟩ := hs
  unfold Ctcp.receiveAck
  split
  · exact h
  · split
    · rw [ackLoop_eq]
      dsimp only
      split
      · rename_i hA
        have hj : ackCount A st.tx_state = k :=
          le_antisymm (hk.ackCount_le A) (hk.le_ackCount h1 (by rw [hA, hn]))
        rintro (⟨e, he, hne⟩ | hp')
        · rw [hj] at he
          exact absurd (hk.drop_untagged e he) hne
        · exact absurd hp' hp
      · rintro (⟨e, he, hne⟩ | hp')
        · exact h (.inl ⟨e, List.mem_of_mem_drop he, hne⟩)
        · exact h (.inr hp')
    · exact h

/-- A run of the timer body keeps `time_out` and at most forces `ACTIVE_CLOSE` before it
sends. -/
theorem ArmedInv.timerVisit {st : CtcpState} (h : ArmedInv st) (ans : List SinkAnswer) :
    ArmedInv (timerVisit ans st).2.1 := by
  obtain ⟨a, td, ha, htd, hv⟩ := timerVisit_shape ans st
  have h₀ : ArmedInv { st with ack_state := a, segment_teardown := td } := by
    rintro (hq | hp)
    · exact ha.trans (h (.inl hq))
    · rcases htd with rfl | rfl
      · exact ha.trans (h (.inr hp))
      · cases hp
  rcases hv with ⟨hst, -⟩ | hp | hpo
  · rw [hst]; exact h₀
  · rw [hp]; exact h₀.pass
  · rw [hpo]
    exact h₀.pass.frame (by rw [ctcpOutput_frame]) (by rw [ctcpOutput_frame])
      (by rw [ctcpOutput_frame])

theorem ArmedInv.read {st st' : CtcpState} {evs : List Event} (h : ArmedInv st)
    {fuel : Nat} {input : List InputAnswer} (hr : ctcpRead fuel input st = some (st', evs)) :
    ArmedInv st' := by
  obtain ⟨⟨st₁, evs₁⟩, hloop, hr'⟩ := Option.map_eq_some'.mp hr
  simp only [Prod.mk.injEq] at hr'
  obtain ⟨rfl, rfl⟩ := hr'
  obtain ⟨cs, hst, -⟩ := readLoop_spec hloop
  refine ArmedInv.pass ?_
  rcases hst with rfl | rfl
  · exact h.enqueue cs
  · exact ArmedInv.of_armed rfl

theorem ArmedInv.receive {st st' : CtcpState} {S : List UInt8} {evs : List Event}
    (h : ArmedInv st) (hs : SendInv st S) {fuel : Nat} {ans : List SinkAnswer} {seg : Segment}
    (hr : ctcpReceive fuel ans seg st = some (some st', evs)) : ArmedInv st' := by
  rcases ctcpReceive_live hr with ⟨rfl, -⟩ | ⟨rfl, -⟩ | ⟨-, hd⟩ | ⟨-, hp, rfl, -⟩ |
    ⟨-, -, rfl, -⟩
  · exact h
  · exact h
  · obtain ⟨a, l, u, q, hst⟩ := ctcpReceiveDataSegment_frame ans st seg
    rw [show st' = _ from congrArg Prod.fst hd, hst]
    exact h.frame rfl rfl rfl
  · exact h.receiveAck hs hp seg.ackno
  · exact ArmedInv.of_armed rfl

theorem ArmedInv.step {st st' : CtcpState} {S : List UInt8} {evs : List Event}
    (h : ArmedInv st) (hs : SendInv st S) {a : EngineAction}
    (hstep : engineStep st a = some (some st', evs)) : ArmedInv st' := by
  rcases engineStep_cases hstep with ⟨_, _, hr⟩ | ⟨_, _, _, hr⟩ | ⟨ans, hr⟩ | ⟨_, _, hw⟩
  · exact h.read hr
  · exact h.receive hs hr
  · rw [show st' = (ctcpOutput ans st).1 by rw [hr]]
    exact h.frame (by rw [ctcpOutput_frame]) (by rw [ctcpOutput_frame])
      (by rw [ctcpOutput_frame])
  · exact @timerWalk_single (fun s _ => ArmedInv s) (fun ans _ _ hs => hs.timerVisit ans)
      _ _ _ _ [] evs hw h

theorem armedInv_reachable {cfg : CtcpConfig} {st : CtcpState} {tr : List Event}
    (h : Reachable cfg st tr) (hS : (outbound tr).length + 1 < 2 ^ 32) : ArmedInv st := by
  induction h with
  | init =>
    rintro (⟨e, he, -⟩ | hp)
    · cases he
    · cases hp
  | @step _ _ tr₁ _ a hr hstep ih =>
    have hS' : (outbound tr₁).length + 1 < 2 ^ 32 := by
      simp only [outbound_append, List.length_append] at hS; omega
    exact (ih hS').step (sendRunInv_reachable hr hS').1 hstep

/-- **The timer stays armed while something is outstanding.** In every reachable state whose
outbound stream is below `2³² − 2` bytes, if some Send Queue element has been transmitted and
not removed, or the engine is in `PASSIVE_CLOSE`, then `time_out` is set. -/
theorem retransmission_armed {cfg : CtcpConfig} {st : CtcpState} {tr : List Event}
    (h : Reachable cfg st tr) (hS : (outbound tr).length < 2 ^ 32 - 2)
    (hout : (∃ e ∈ st.tx_state, e.segment_next_seqno ≠ 0) ∨
      st.segment_teardown = .PASSIVE_CLOSE) :
    st.ack_state.time_out = true :=
  armedInv_reachable h (by omega) hout

/-- After reading `"hi"` the element is in flight and the timer armed. -/
theorem retransmission_armed_hi :
    ∃ st tr, runEngine (ctcpInit ⟨2000, 2000, 40, 40⟩) [.read 1 [.data [104, 105]]] =
        some (st, tr) ∧ (outbound tr).length < 2 ^ 32 - 2 ∧
      ((∃ e ∈ st.tx_state, e.segment_next_seqno ≠ 0) ∨ st.segment_teardown = .PASSIVE_CLOSE) ∧
      st.ack_state.time_out = true := by
  refine ⟨_, _, rfl, ?_, ?_, retransmission_armed
    (@reachable_of_runEngine ⟨2000, 2000, 40, 40⟩ _ _ [.read 1 [.data [104, 105]]] rfl)
    ?_ ?_⟩ <;> decide

/-- The acknowledgement `seg.ackno = 2` of a one-byte stream, from a peer at sequence number
`1`. -/
def ackOfOneByte : Segment := Segment.seal ⟨1, 2, 18, 0, ACK, 0, []⟩

/-- **`ACTIVE_CLOSE` can be left unarmed.** Send one byte, let six timeouts force
`ACTIVE_CLOSE` (the FIN is sent), then acknowledge the byte: `ackno = next_seqno` disarms the
timer although the FIN is unacknowledged. -/
theorem active_close_disarmed :
    ∃ st tr, Reachable ⟨2000, 2000, 40, 40⟩ st tr ∧
      st.segment_teardown = .ACTIVE_CLOSE ∧ st.ack_state.time_out = false := by
  refine ⟨_, _, @reachable_of_runEngine ⟨2000, 2000, 40, 40⟩ _ _
    ([EngineAction.read 1 [.data [97]]] ++ List.replicate 6 (EngineAction.timer 3 []) ++
      [EngineAction.receive 1 [] ackOfOneByte])
    rfl, ?_, ?_⟩ <;> decide

/-! ## §2 Timer-only runs -/

/-- The body ends in `continue` only at the sixth timeout, which leaves the count at six; so
the run it causes never ends in `continue`. -/
theorem timerVisit_continue {ans : List SinkAnswer} {st : CtcpState}
    (h : (timerVisit ans st).1 = true) :
    st.ack_state.time_out_num + 1 = 6 ∧ (timerVisit ans st).2.1.ack_state.time_out_num = 6 := by
  unfold timerVisit at h ⊢
  dsimp only at h ⊢
  split at h
  · rename_i ht
    split at h
    · rename_i hc
      split at h
      · rename_i hn
        exact ⟨hn, by simp only [ht, hc, hn, if_true]⟩
      · split at h <;> nomatch h
    · nomatch h
  · split at h <;> nomatch h

/-- The effect of one `ctcp_timer` call on a registry holding one engine: the body, and once
more after a `continue`. -/
def timerTick (st : CtcpState) : CtcpState × List Event :=
  let v := timerVisit [] st
  if v.1 then ((timerVisit [] v.2.1).2.1, v.2.2 ++ (timerVisit [] v.2.1).2.2) else v.2

/-- Three runs of the body are always enough for one engine. -/
theorem engineStep_timer (st : CtcpState) :
    engineStep st (.timer 3 []) = some (some (timerTick st).1, (timerTick st).2) := by
  simp only [engineStep, ctcpTimer, timerWalk, List.headD_nil, List.tail_nil, timerTick]
  by_cases hv : (timerVisit [] st).1
  · have h6 := (timerVisit_continue hv).2
    have hv' : (timerVisit [] (timerVisit [] st).2.1).1 = false := by
      by_contra hc
      have := (timerVisit_continue (Bool.eq_true_of_not_eq_false hc)).1
      rw [h6] at this
      exact absurd this (by decide)
    simp [hv, hv']
  · simp [hv]

/-- An armed timer stays armed through a run of the body. -/
theorem timerVisit_time_out {st : CtcpState} (ht : st.ack_state.time_out = true)
    (ans : List SinkAnswer) : (timerVisit ans st).2.1.ack_state.time_out = true := by
  obtain ⟨a, td, ha, -, hv⟩ := timerVisit_shape ans st
  have hp : (ctcpSendPossibleDataSegment
      { st with ack_state := a, segment_teardown := td }).1.ack_state.time_out = true := by
    rw [ctcpSendPossibleDataSegment_eq]; simp [ha, ht]
  rcases hv with ⟨hst, -⟩ | hpe | hpo
  · rw [hst]; exact ha.trans ht
  · rw [hpe]; exact hp
  · rw [hpo, ctcpOutput_frame]; exact hp

theorem timerTick_time_out {st : CtcpState} (ht : st.ack_state.time_out = true) :
    (timerTick st).1.ack_state.time_out = true := by
  unfold timerTick
  dsimp only
  split
  · exact timerVisit_time_out (timerVisit_time_out ht _) _
  · exact timerVisit_time_out ht _

/-- Ticks, then timeouts, still to come before the sixth consecutive timeout: `counter` and
`time_out_num` count modulo 256. -/
def timeoutDistance (a : AckState) : Nat :=
  (261 - a.time_out_num.toNat) % 256 * 256 + (a.timer_overflow.toNat + 255 - a.counter.toNat) % 256

/-- A tick that does not time out sends nothing and brings the sixth timeout one tick
closer. -/
theorem timerTick_count {st : CtcpState} (ht : st.ack_state.time_out = true)
    (hc : st.ack_state.counter + 1 ≠ st.ack_state.timer_overflow) :
    (timerTick st).2 = [] ∧
      timeoutDistance (timerTick st).1.ack_state + 1 = timeoutDistance st.ack_state := by
  have hc' := mt UInt8.ext_iff.mpr hc
  rw [UInt8.toNat_add, UInt8.size] at hc'
  have hst : timerTick st = ({ st with ack_state.counter := st.ack_state.counter + 1 }, []) := by
    simp [timerTick, timerVisit, ht, hc]
  have := UInt8.toNat_lt st.ack_state.counter
  have := UInt8.toNat_lt st.ack_state.timer_overflow
  refine ⟨by rw [hst], ?_⟩
  simp only [hst, timeoutDistance, UInt8.toNat_add, UInt8.size, u8_toNat_one] at hc' ⊢
  omega

/-- A timeout short of the sixth, outside the closing states, runs the pass and brings the
sixth timeout closer. -/
theorem timerTick_pass {st : CtcpState} (ht : st.ack_state.time_out = true)
    (hc : st.ack_state.counter + 1 = st.ack_state.timer_overflow)
    (hn : st.ack_state.time_out_num + 1 ≠ 6) (htd : st.segment_teardown = .NO_CLOSE) :
    timeoutDistance (timerTick st).1.ack_state < timeoutDistance st.ack_state := by
  have hn' := mt UInt8.ext_iff.mpr hn
  rw [UInt8.toNat_add, UInt8.size] at hn'
  have hst : (timerTick st).1.ack_state.time_out_num = st.ack_state.time_out_num + 1 ∧
      (timerTick st).1.ack_state.counter = 0 ∧
      (timerTick st).1.ack_state.timer_overflow = st.ack_state.timer_overflow := by
    simp [timerTick, timerVisit, ht, hc, hn, htd, ctcpSendPossibleDataSegment_eq]
  have := UInt8.toNat_lt st.ack_state.time_out_num
  have := UInt8.toNat_lt st.ack_state.timer_overflow
  simp only [hst.1, hst.2.1, hst.2.2, timeoutDistance, UInt8.toNat_add, UInt8.size, u8_toNat_zero,
    u8_toNat_one, show (6 : UInt8).toNat = 6 from rfl] at hn' ⊢
  omega

/-- Any other timeout sends a FIN. -/
theorem timerTick_fin {st : CtcpState} (ht : st.ack_state.time_out = true)
    (hc : st.ack_state.counter + 1 = st.ack_state.timer_overflow)
    (hfin : st.ack_state.time_out_num + 1 = 6 ∨ st.segment_teardown ≠ .NO_CLOSE) :
    0 < (sends (timerTick st).2).length := by
  by_cases hn : st.ack_state.time_out_num + 1 = 6
  · simp [timerTick, timerVisit, ht, hc, hn, Event.segment]
  · have htd : st.segment_teardown = .ACTIVE_CLOSE ∨ st.segment_teardown = .PASSIVE_CLOSE := by
      have := hfin.resolve_left hn
      cases h : st.segment_teardown <;> simp_all
    simp [timerTick, timerVisit, ht, hc, hn, htd, Event.segment]

/-- One tick of the timer, then a run. -/
theorem runEngine_tick {st st' : CtcpState} {m : Nat} {evs : List Event}
    (h : runEngine (timerTick st).1 (List.replicate m (.timer 3 [])) = some (st', evs)) :
    runEngine st (List.replicate (m + 1) (.timer 3 [])) = some (st', (timerTick st).2 ++ evs) := by
  simp [List.replicate_succ, runEngine, engineStep_timer, h]

/-- **From an armed state the timer alone sends again**: some number of ticks sends at least
one segment and leaves the timer armed. -/
theorem armed_ticks_send {st : CtcpState} (ht : st.ack_state.time_out = true) :
    ∃ m st' evs, runEngine st (List.replicate (m + 1) (.timer 3 [])) = some (st', evs) ∧
      0 < (sends evs).length ∧ st'.ack_state.time_out = true := by
  obtain ⟨d, hd⟩ : ∃ d, timeoutDistance st.ack_state = d := ⟨_, rfl⟩
  induction d using Nat.strong_induction_on generalizing st with
  | _ d ih =>
    by_cases hfire : st.ack_state.counter + 1 = st.ack_state.timer_overflow ∧
        (st.ack_state.time_out_num + 1 = 6 ∨ st.segment_teardown ≠ .NO_CLOSE)
    · exact ⟨0, _, _, runEngine_tick rfl, by simpa using timerTick_fin ht hfire.1 hfire.2,
        timerTick_time_out ht⟩
    · have hlt : timeoutDistance (timerTick st).1.ack_state < d := by
        by_cases hc : st.ack_state.counter + 1 = st.ack_state.timer_overflow
        · have hfin : ¬ (st.ack_state.time_out_num + 1 = 6 ∨ st.segment_teardown ≠ .NO_CLOSE) :=
            fun h => hfire ⟨hc, h⟩
          push_neg at hfin
          exact hd ▸ timerTick_pass ht hc hfin.1 hfin.2
        · have := (timerTick_count ht hc).2; omega
      obtain ⟨m, st', evs, hrun, hsend, ht'⟩ := ih _ hlt (timerTick_time_out ht) rfl
      refine ⟨m + 1, st', _, runEngine_tick hrun, ?_, ht'⟩
      simp only [sends_append, List.length_append]; omega

/-- Timer ticks alone send more segments than any bound from an armed state, and leave it
armed. -/
theorem armed_ticks_unbounded {st : CtcpState} (ht : st.ack_state.time_out = true) (N : Nat) :
    ∃ m st' evs, runEngine st (List.replicate m (.timer 3 [])) = some (st', evs) ∧
      N < (sends evs).length ∧ st'.ack_state.time_out = true := by
  induction N with
  | zero =>
    obtain ⟨m, st', evs, h, hs, ht'⟩ := armed_ticks_send ht
    exact ⟨m + 1, st', evs, h, hs, ht'⟩
  | succ N ih =>
    obtain ⟨m, st₁, evs₁, h₁, hN, ht₁⟩ := ih
    obtain ⟨m', st', evs', h₂, hs, ht'⟩ := armed_ticks_send ht₁
    refine ⟨m + (m' + 1), st', evs₁ ++ evs', ?_, ?_, ht'⟩
    · rw [List.replicate_add]; exact runEngine_append h₁ h₂
    · simp only [sends_append, List.length_append]; omega

/-- The walk of `ctcp_timer` hands back as many engines as it was given. -/
theorem timerWalk_length : ∀ (fuel : Nat) (ans : List (List SinkAnswer))
    (sts sts' : List CtcpState) (evs : List Event),
    timerWalk fuel ans sts = some (sts', evs) → sts'.length = sts.length
  | 0, _, _, _, _, h => by simp [timerWalk] at h
  | _ + 1, _, [], _, _, h => by
    simp only [timerWalk, Option.some.injEq, Prod.mk.injEq] at h
    rw [← h.1]
  | fuel + 1, ans, st :: rest, sts', evs, h => by
    simp only [timerWalk] at h
    split at h
    · obtain ⟨r, hr, hr'⟩ := Option.map_eq_some'.mp h
      simp only [Prod.mk.injEq] at hr'
      rw [← hr'.1, timerWalk_length fuel _ _ _ _ hr]
      rfl
    · obtain ⟨r, hr, hr'⟩ := Option.map_eq_some'.mp h
      simp only [Prod.mk.injEq] at hr'
      rw [← hr'.1]
      simp [timerWalk_length fuel _ _ _ _ hr]

/-- **`ctcp_timer` retransmits without end.** It never destroys an engine, and from every state
whose timer is armed, timer ticks alone make the engine send more than any bound. -/
theorem timer_retransmits_forever :
    (∀ (fuel : Nat) (ans : List (List SinkAnswer)) (engines engines' : List CtcpState)
      (evs : List Event), ctcpTimer fuel ans engines = some (engines', evs) →
        engines'.length = engines.length) ∧
    ∀ st : CtcpState, st.ack_state.time_out = true → ∀ N : Nat,
      ∃ m st' evs, runEngine st (List.replicate m (.timer 3 [])) = some (st', evs) ∧
        N < (sends evs).length :=
  ⟨timerWalk_length, fun _ ht N =>
    (armed_ticks_unbounded ht N).imp fun _ ⟨st', evs, h, hN, _⟩ => ⟨st', evs, h, hN⟩⟩

/-- A tick keeps the one engine of a fresh registry, and after one byte is sent, ticks alone
send more than ten segments. -/
theorem timer_retransmits_forever_one_byte :
    (∃ engines' evs, ctcpTimer 3 [] [ctcpInit ⟨2000, 2000, 40, 40⟩] = some (engines', evs) ∧
      engines'.length = 1) ∧
    ∃ st tr, runEngine (ctcpInit ⟨2000, 2000, 40, 40⟩) [.read 1 [.data [97]]] = some (st, tr) ∧
      st.ack_state.time_out = true ∧
      ∃ m st' evs, runEngine st (List.replicate m (.timer 3 [])) = some (st', evs) ∧
        10 < (sends evs).length := by
  refine ⟨⟨_, _, rfl, timer_retransmits_forever.1 3 [] [ctcpInit ⟨2000, 2000, 40, 40⟩] _ _ rfl⟩,
    _, _, rfl, rfl, timer_retransmits_forever.2 _ rfl 10⟩

/-- **Timer ticks alone never stop the sending.** From the reachable state that has sent one
byte, for every bound some number of ticks sends more segments than it. -/
theorem timer_only_sends_unbounded :
    ∃ st tr, Reachable ⟨2000, 2000, 40, 40⟩ st tr ∧ ∀ N : Nat,
      ∃ m st' evs, runEngine st (List.replicate m (.timer 3 [])) = some (st', evs) ∧
        N < (sends evs).length := by
  refine ⟨_, _, @reachable_of_runEngine ⟨2000, 2000, 40, 40⟩ _ _ [.read 1 [.data [97]]] rfl,
    fun N => (armed_ticks_unbounded ?_ N).imp fun _ ⟨st', evs, h, hN, _⟩ => ⟨st', evs, h, hN⟩⟩
  rfl

end Ctcp
