import Ctcp.Engine

/-!
# What One Call Sends, Accepts and Closes

The system-level results of `Ctcp.Exchange` read four things off each call into an engine:
the kinds of segment it hands to `conn_send`, the payload it takes into the Receive Queue,
how it moves the teardown state, and, when it destroys the engine, why. This module says them
once per handler and once for a whole call (`engineStep_effects`), so that the system
invariants never unfold a handler again.

- §1 The segments an engine builds: DATA segments (flags `0`) from the pass, pure ACKs and
  pure FINs from `ctcp_send_flags`. No handler ever sets both flags.
- §2 Each handler: `ctcp_read`, `ctcp_receive`, `ctcp_output` and the loop body of
  `ctcp_timer`.
- §3 One call: `StepEffects`.
- §4 An engine that has left `NO_CLOSE` has sent a FIN, over every run (`ClosingInv`).
-/

namespace Ctcp

/-! ## §1 The kinds of segment -/

/-- The segments an engine builds: a DATA segment (flags `0`), a pure ACK or a pure FIN. -/
def SegKind (seg : Segment) : Prop := seg.flags = 0 ∨ seg.flags = ACK ∨ seg.flags = FIN

instance : DecidablePred SegKind := fun _ => inferInstanceAs (Decidable (_ ∨ _ ∨ _))

/-- Among the three kinds, `ctcp_receive` takes exactly the flag-less one for DATA. -/
theorem SegKind.data_iff {seg : Segment} (h : SegKind seg) :
    segmentType seg.flags = .DATA_SEG ↔ seg.flags = 0 := by
  rcases h with h | h | h <;> rw [h] <;> decide

/-- No segment of the three kinds is a FIN+ACK. -/
theorem SegKind.not_fin_ack {seg : Segment} (h : SegKind seg) :
    segmentType seg.flags ≠ .FIN_WITH_ACK := by
  rcases h with h | h | h <;> rw [h] <;> decide

/-- Among the three kinds, `ctcp_receive` takes exactly the pure FIN for a FIN without ACK. -/
theorem SegKind.fin_of_no_ack {seg : Segment} (h : SegKind seg)
    (hty : segmentType seg.flags = .FIN_WITH_NO_ACK) : seg.flags = FIN := by
  rcases h with h | h | h <;> rw [h] at hty ⊢ <;> first | rfl | cases hty

theorem mem_sends_of_send {seg : Segment} {tr : List Event} (h : Event.send seg ∈ tr) :
    seg ∈ sends tr :=
  List.mem_filterMap.mpr ⟨_, h, rfl⟩

/-- A FIN was among the segments handed to `conn_send`. -/
def FinSent (tr : List Event) : Prop := ∃ seg ∈ sends tr, seg.flags = FIN

theorem FinSent.append_left {tr : List Event} (h : FinSent tr) (evs : List Event) :
    FinSent (tr ++ evs) :=
  let ⟨seg, hs, hf⟩ := h
  ⟨seg, by rw [sends_append]; exact List.mem_append_left _ hs, hf⟩

theorem FinSent.append_right {evs : List Event} (h : FinSent evs) (tr : List Event) :
    FinSent (tr ++ evs) :=
  let ⟨seg, hs, hf⟩ := h
  ⟨seg, by rw [sends_append]; exact List.mem_append_right _ hs, hf⟩

theorem dataSegs_flags (ackno : UInt32) (window : UInt16) :
    ∀ (n : UInt32) (es : List TxState), ∀ seg ∈ dataSegs ackno window n es, seg.flags = 0
  | _, [] => by simp [dataSegs]
  | n, e :: es => by
    simp only [dataSegs, List.forall_mem_cons]
    exact ⟨by simp [dataSegment], dataSegs_flags ackno window _ es⟩

/-- The pass sends only DATA segments, accepts nothing and keeps the teardown state. -/
theorem pass_effects (st : CtcpState) :
    (∀ seg ∈ sends (ctcpSendPossibleDataSegment st).2, seg.flags = 0) ∧
      acceptedBytes (ctcpSendPossibleDataSegment st).2 = [] ∧
      (ctcpSendPossibleDataSegment st).1.segment_teardown = st.segment_teardown := by
  rw [ctcpSendPossibleDataSegment_eq]
  exact ⟨by simpa using dataSegs_flags _ _ _ _, by simp, rfl⟩

/-! ## §2 Each handler -/

/-- The read loop changes the teardown state only at end-of-source, where it enters
`ACTIVE_CLOSE` and sends a FIN. -/
theorem readLoop_closing {fuel : Nat} {st st' : CtcpState} {input : List InputAnswer}
    {evs : List Event} (h : readLoop fuel st input = some (st', evs)) :
    st'.segment_teardown = st.segment_teardown ∨
      st'.segment_teardown = .ACTIVE_CLOSE ∧ FinSent evs := by
  induction input generalizing st st' evs with
  | nil =>
    simp only [readLoop, Option.some.injEq, Prod.mk.injEq] at h
    exact .inl (h.1 ▸ rfl)
  | cons a rest ih =>
    cases a with
    | eof =>
      obtain ⟨_, -, h⟩ := Option.bind_eq_some.mp h
      obtain ⟨_, -, h⟩ := Option.map_eq_some'.mp h
      simp only [Prod.mk.injEq] at h
      obtain ⟨rfl, rfl⟩ := h
      exact .inr ⟨rfl, _, mem_sends_of_send (.head _), ctcpSendFlags_flags _ _ _⟩
    | data bytes =>
      simp only [readLoop] at h
      split at h
      · simp only [Option.some.injEq, Prod.mk.injEq] at h
        exact .inl (h.1 ▸ rfl)
      split at h
      · simp only [Option.some.injEq, Prod.mk.injEq] at h
        exact .inl (h.1 ▸ rfl)
      obtain ⟨r, hr, hr'⟩ := Option.map_eq_some'.mp h
      cases hr'
      exact (ih hr).imp_right fun h => ⟨h.1, h.2.append_right [_]⟩

/-- **`ctcp_read`**: it sends FINs and DATA segments, accepts nothing, and changes the teardown
state only by entering `ACTIVE_CLOSE` with a FIN. -/
theorem ctcpRead_effects {fuel : Nat} {input : List InputAnswer} {st st' : CtcpState}
    {evs : List Event} (h : ctcpRead fuel input st = some (st', evs)) :
    (∀ seg ∈ sends evs, SegKind seg) ∧ acceptedBytes evs = [] ∧
      (st'.segment_teardown = st.segment_teardown ∨
        st'.segment_teardown = .ACTIVE_CLOSE ∧ FinSent evs) := by
  obtain ⟨⟨st₁, evs₁⟩, hloop, hr'⟩ := Option.map_eq_some'.mp h
  simp only [Prod.mk.injEq] at hr'
  obtain ⟨rfl, rfl⟩ := hr'
  obtain ⟨-, -, -, hacc, -, hfin, -⟩ := readLoop_spec hloop
  obtain ⟨hp, hpacc, hptd⟩ := pass_effects st₁
  refine ⟨fun seg hs => ?_, by simp [hacc, hpacc], ?_⟩
  · rcases List.mem_append.mp (by simpa using hs) with hs | hs
    exacts [.inr (.inr (hfin seg hs).1), .inl (hp seg hs)]
  · rw [hptd]
    exact (readLoop_closing hloop).imp_right fun h => ⟨h.1, h.2.append_left _⟩

theorem ctcpReceiveDataSegment_accepted (ans : List SinkAnswer) (st : CtcpState)
    (seg : Segment) :
    acceptedBytes (ctcpReceiveDataSegment ans st seg).2 = [] ∨
      acceptedBytes (ctcpReceiveDataSegment ans st seg).2 = seg.data := by
  unfold ctcpReceiveDataSegment
  dsimp only
  split
  · exact .inr (by simp [Event.accepted, (ctcpOutput_events _ _).2.1])
  · exact .inl (ctcpOutput_events ans st).2.1

/-- **`ctcp_receive`**: it sends only ACKs and FINs; it accepts the payload of a DATA segment
or nothing; a call that keeps the engine changes its teardown state only on the peer's FIN,
which it acknowledges at `seqno + 1` and answers with a FIN; a call that destroys the engine
sends only ACKs, on an ACK in `PASSIVE_CLOSE`, a FIN+ACK, or a FIN in `ACTIVE_CLOSE` (which it
acknowledges at `seqno + 1`). -/
theorem ctcpReceive_effects {fuel : Nat} {ans : List SinkAnswer} {seg : Segment}
    {st : CtcpState} {r : Option CtcpState × List Event}
    (h : ctcpReceive fuel ans seg st = some r) :
    (∀ s ∈ sends r.2, s.flags = ACK ∨ s.flags = FIN) ∧
      (acceptedBytes r.2 = [] ∨ segmentType seg.flags = .DATA_SEG ∧ acceptedBytes r.2 = seg.data) ∧
      (∀ st', r.1 = some st' → st'.segment_teardown = st.segment_teardown ∨
        st'.segment_teardown = .PASSIVE_CLOSE ∧ FinSent r.2 ∧
          segmentType seg.flags = .FIN_WITH_NO_ACK ∧
          ∃ a ∈ sends r.2, a.flags = ACK ∧ a.ackno = seg.seqno + 1) ∧
      (r.1 = none → (∀ ev ∈ r.2, ∃ s, ev = .send s ∧ s.flags = ACK) ∧
        ((segmentType seg.flags = .ACK_SEG ∧ st.segment_teardown = .PASSIVE_CLOSE) ∨
          segmentType seg.flags = .FIN_WITH_ACK ∨
          (segmentType seg.flags = .FIN_WITH_NO_ACK ∧ st.segment_teardown = .ACTIVE_CLOSE ∧
            ∃ a ∈ sends r.2, a.ackno = seg.seqno + 1))) := by
  unfold ctcpReceive at h
  split at h
  · cases h; simp [Event.segment, Event.accepted]
  split at h
  · cases h; simp
  split at h
  · rename_i hty
    cases h
    obtain ⟨a, l, u, q, hst⟩ := ctcpReceiveDataSegment_frame ans st seg
    exact ⟨fun s hs => .inl ((ctcpReceiveDataSegment_events ans st seg).2 s hs).1,
      (ctcpReceiveDataSegment_accepted ans st seg).imp_right (⟨hty, ·⟩),
      fun st' h' => .inl (by rw [← Option.some_inj.mp h', hst]), nofun⟩
  · rename_i hty
    split at h <;> cases h
    · exact ⟨by simp, by simp, nofun, fun _ => ⟨by simp, .inl ⟨hty, ‹_›⟩⟩⟩
    · obtain ⟨_, _, _, _, _, _, hst⟩ := receiveAck_frame st seg.ackno
      exact ⟨by simp, by simp, fun st' h' => .inl (by rw [← Option.some_inj.mp h', hst]), nofun⟩
  · rename_i hty
    cases h
    exact ⟨by simp [Event.segment], by simp [Event.accepted], nofun,
      fun _ => ⟨by simp, .inr (.inl hty)⟩⟩
  · rename_i hty
    unfold ctcpReceiveFinWithNoAck at h
    dsimp only at h
    split at h
    · obtain ⟨_, -, rfl⟩ := Option.map_eq_some'.mp h
      refine ⟨by simp [Event.segment], by simp [Event.accepted], fun st' h' => .inr ?_, nofun⟩
      cases h'
      exact ⟨rfl, ⟨_, mem_sends_of_send (.tail _ (.tail _ (.head _))), rfl⟩, hty, _,
        mem_sends_of_send (.tail _ (.head _)), rfl, rfl⟩
    · rename_i hact
      cases h
      refine ⟨by simp [Event.segment], by simp [Event.accepted], nofun,
        fun _ => ⟨by simp, .inr (.inr ⟨hty, not_not.mp hact, _, mem_sends_of_send (.head _), rfl⟩)⟩⟩

/-- **`ctcp_output`** sends only ACKs, accepts nothing and keeps the teardown state. -/
theorem ctcpOutput_effects (ans : List SinkAnswer) (st : CtcpState) :
    (∀ seg ∈ sends (ctcpOutput ans st).2, SegKind seg) ∧
      acceptedBytes (ctcpOutput ans st).2 = [] ∧
      (ctcpOutput ans st).1.segment_teardown = st.segment_teardown := by
  obtain ⟨-, hacc, hs⟩ := ctcpOutput_events ans st
  exact ⟨fun seg h => .inr (.inl (hs seg h).1), hacc, by rw [ctcpOutput_frame]⟩

/-- One run of the timer body changes the teardown state only at the sixth timeout, where it
enters `ACTIVE_CLOSE` and sends a FIN. -/
theorem timerVisit_closing (ans : List SinkAnswer) (st : CtcpState) :
    (timerVisit ans st).2.1.segment_teardown = st.segment_teardown ∨
      (timerVisit ans st).2.1.segment_teardown = .ACTIVE_CLOSE ∧
        FinSent (timerVisit ans st).2.2 := by
  unfold timerVisit
  by_cases ht : st.ack_state.time_out
  · rw [if_pos ht]
    dsimp only
    split
    · split
      · exact .inr ⟨rfl, _, mem_sends_of_send (.head _), ctcpSendFlags_flags _ _ _⟩
      · split
        exacts [.inl rfl, .inl (pass_effects _).2.2]
    · exact .inl rfl
  · rw [if_neg ht]
    dsimp only
    split
    · exact .inl (by rw [(ctcpOutput_effects _ _).2.2, (pass_effects _).2.2])
    · exact .inl (pass_effects _).2.2

/-- **One run of the timer body** sends DATA segments, ACKs and FINs, accepts nothing, and
changes the teardown state only by entering `ACTIVE_CLOSE` with a FIN. -/
theorem timerVisit_effects (ans : List SinkAnswer) (st : CtcpState) :
    (∀ seg ∈ sends (timerVisit ans st).2.2, SegKind seg) ∧
      acceptedBytes (timerVisit ans st).2.2 = [] ∧
      ((timerVisit ans st).2.1.segment_teardown = st.segment_teardown ∨
        (timerVisit ans st).2.1.segment_teardown = .ACTIVE_CLOSE ∧
          FinSent (timerVisit ans st).2.2) := by
  refine ⟨?_, ?_, timerVisit_closing ans st⟩ <;>
  obtain ⟨a, td, -, -, hv⟩ := timerVisit_shape ans st
  · rcases hv with ⟨-, hfin⟩ | hp | hpo
    · exact fun seg hs => .inr (.inr ((sendsOnly hfin).2.2.2 seg hs).1)
    · rw [hp]; exact fun seg hs => .inl ((pass_effects _).1 seg hs)
    · rw [hpo]
      intro seg hs
      rcases List.mem_append.mp (by simpa using hs) with hs | hs
      exacts [.inl ((pass_effects _).1 seg hs), (ctcpOutput_effects _ _).1 seg hs]
  · rcases hv with ⟨-, hfin⟩ | hp | hpo
    · exact (sendsOnly hfin).2.2.1
    · rw [hp]; exact (pass_effects _).2.1
    · rw [hpo, acceptedBytes_append, (pass_effects _).2.1, (ctcpOutput_effects _ _).2.1]; rfl

theorem timerWalk_effects {fuel : Nat} {ans : List (List SinkAnswer)} {st st' : CtcpState}
    {evs : List Event} (hw : timerWalk fuel ans [st] = some ([st'], evs)) :
    (∀ seg ∈ sends evs, SegKind seg) ∧ acceptedBytes evs = [] ∧
      (st'.segment_teardown = st.segment_teardown ∨
        st'.segment_teardown = .ACTIVE_CLOSE ∧ FinSent evs) := by
  refine (@timerWalk_single
    (fun s t => (∀ seg ∈ sends t, SegKind seg) ∧ acceptedBytes t = [] ∧
      (s.segment_teardown = st.segment_teardown ∨
        s.segment_teardown = .ACTIVE_CLOSE ∧ FinSent t))
    (fun ans s t hs => ?_) fuel ans st st' [] evs hw ⟨by simp, rfl, .inl rfl⟩)
  obtain ⟨hk, ha, hc⟩ := timerVisit_effects ans s
  refine ⟨fun seg h => ?_, by rw [acceptedBytes_append, hs.2.1, ha]; rfl, ?_⟩
  · rcases List.mem_append.mp (by simpa using h) with h | h
    exacts [hs.1 seg h, hk seg h]
  · rcases hc with hc | ⟨hc, hf⟩
    · rw [hc]; exact hs.2.2.imp_right fun h => ⟨h.1, h.2.append_left _⟩
    · exact .inr ⟨hc, hf.append_right _⟩

/-! ## §3 One call -/

/-- What one call into an engine did, as the system invariants read it. -/
structure StepEffects (st : CtcpState) (a : EngineAction) (r : Option CtcpState × List Event) :
    Prop where
  /-- It sent only DATA segments, pure ACKs and pure FINs. -/
  kinds : ∀ seg ∈ sends r.2, SegKind seg
  /-- It accepted nothing, or it was handed a DATA segment and accepted its payload. -/
  accepted : acceptedBytes r.2 = [] ∨ ∃ fuel ans seg, a = .receive fuel ans seg ∧
    segmentType seg.flags = .DATA_SEG ∧ acceptedBytes r.2 = seg.data
  /-- A call that keeps the engine keeps its teardown state, or enters `ACTIVE_CLOSE` with a
  FIN, or is handed the peer's FIN and enters `PASSIVE_CLOSE`, acknowledging it at
  `seqno + 1` and answering with a FIN. -/
  closing : ∀ st', r.1 = some st' →
    st'.segment_teardown = st.segment_teardown ∨
    st'.segment_teardown = .ACTIVE_CLOSE ∧ FinSent r.2 ∨
    st'.segment_teardown = .PASSIVE_CLOSE ∧ FinSent r.2 ∧ ∃ fuel ans seg,
      a = .receive fuel ans seg ∧ segmentType seg.flags = .FIN_WITH_NO_ACK ∧
      ∃ ack ∈ sends r.2, ack.flags = ACK ∧ ack.ackno = seg.seqno + 1
  /-- A call that destroys the engine sends only ACKs, and was handed an ACK in
  `PASSIVE_CLOSE`, a FIN+ACK, or a FIN in `ACTIVE_CLOSE`, which it acknowledges. -/
  destroyed : r.1 = none → (∀ ev ∈ r.2, ∃ s, ev = .send s ∧ s.flags = ACK) ∧
    ∃ fuel ans seg, a = .receive fuel ans seg ∧
      ((segmentType seg.flags = .ACK_SEG ∧ st.segment_teardown = .PASSIVE_CLOSE) ∨
        segmentType seg.flags = .FIN_WITH_ACK ∨
        (segmentType seg.flags = .FIN_WITH_NO_ACK ∧ st.segment_teardown = .ACTIVE_CLOSE ∧
          ∃ ack ∈ sends r.2, ack.ackno = seg.seqno + 1))

/-- **The effects of every call**, read off the four handlers. -/
theorem engineStep_effects {st : CtcpState} {a : EngineAction}
    {r : Option CtcpState × List Event} (h : engineStep st a = some r) : StepEffects st a r := by
  cases a with
  | read fuel input =>
    obtain ⟨⟨st', evs⟩, hread, rfl⟩ := Option.map_eq_some'.mp h
    obtain ⟨hk, hacc, hc⟩ := ctcpRead_effects hread
    exact ⟨hk, .inl hacc, fun _ h' => by cases h'; exact hc.imp_right .inl, nofun⟩
  | receive fuel ans seg =>
    obtain ⟨hk, hacc, hc, hd⟩ := ctcpReceive_effects h
    refine ⟨fun s hs => (hk s hs).elim (.inr ∘ .inl) (.inr ∘ .inr),
      hacc.imp_right (⟨fuel, ans, seg, rfl, ·⟩), fun st' h' => ?_,
      fun h' => ⟨(hd h').1, fuel, ans, seg, rfl, (hd h').2⟩⟩
    exact (hc st' h').imp_right fun ⟨hp, hf, hty, hack⟩ =>
      .inr ⟨hp, hf, fuel, ans, seg, rfl, hty, hack⟩
  | output ans =>
    cases h
    obtain ⟨hk, hacc, hc⟩ := ctcpOutput_effects ans st
    exact ⟨hk, .inl hacc, fun _ h' => by cases h'; exact .inl hc, nofun⟩
  | timer fuel ans =>
    obtain ⟨st', evs, hw, rfl⟩ := engineStep_timer_inv h
    obtain ⟨hk, hacc, hc⟩ := timerWalk_effects hw
    exact ⟨hk, .inl hacc, fun _ h' => by cases h'; exact hc.imp_right .inl, nofun⟩

/-! ## §4 Closing engines have sent a FIN -/

/-- An engine that has left `NO_CLOSE` has sent a FIN. -/
def ClosingInv (st : CtcpState) (tr : List Event) : Prop :=
  st.segment_teardown ≠ .NO_CLOSE → FinSent tr

theorem ClosingInv.step {st : CtcpState} {tr : List Event} (h : ClosingInv st tr)
    {a : EngineAction} {r : Option CtcpState × List Event} (hr : engineStep st a = some r)
    {st' : CtcpState} (h' : r.1 = some st') : ClosingInv st' (tr ++ r.2) := fun hne =>
  match (engineStep_effects hr).closing st' h' with
  | .inl htd => (h (htd ▸ hne)).append_left _
  | .inr (.inl ⟨_, hf⟩) => hf.append_right _
  | .inr (.inr ⟨_, hf, _⟩) => hf.append_right _

theorem closingInv_reachable {cfg : CtcpConfig} {st : CtcpState} {tr : List Event}
    (h : Reachable cfg st tr) : ClosingInv st tr := by
  induction h with
  | init => exact fun h => absurd rfl h
  | step a _ hstep ih => exact ih.step hstep rfl

/-- **A closing engine has sent its FIN.** Over every run of one engine, once the teardown
state has left `NO_CLOSE` a FIN is among the segments handed to `conn_send`: end-of-source,
the sixth timeout and the peer's FIN each send one as they leave `NO_CLOSE`. -/
theorem closing_engine_sent_fin {cfg : CtcpConfig} {st : CtcpState} {tr : List Event}
    (h : Reachable cfg st tr) (hne : st.segment_teardown ≠ .NO_CLOSE) :
    ∃ seg ∈ sends tr, seg.flags = FIN :=
  closingInv_reachable h hne

/-- End-of-source on a fresh engine enters `ACTIVE_CLOSE`, and the FIN is sent. -/
theorem closing_engine_sent_fin_eof :
    ∃ st tr, runEngine (ctcpInit ⟨2000, 2000, 40, 40⟩) [.read 1 [.eof]] = some (st, tr) ∧
      st.segment_teardown ≠ .NO_CLOSE ∧ ∃ seg ∈ sends tr, seg.flags = FIN :=
  ⟨_, _, rfl, nofun, closing_engine_sent_fin
    (@reachable_of_runEngine ⟨2000, 2000, 40, 40⟩ _ _ [.read 1 [.eof]] rfl) nofun⟩

end Ctcp
