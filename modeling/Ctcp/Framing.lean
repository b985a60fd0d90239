import Ctcp.Network

/-!
# Every Segment Sent Passes the Receiver's Check

`ctcp_receive` drops a datagram whose declared length is not its size, or whose checksum does
not match. Every segment an engine hands to `conn_send` is built by `ctcp_send_flags` or
`ctcp_send_data_segment`, which seal it; it declares its own length as long as its payload fits
the 16-bit `len` field with the header. `ctcp_read` cuts the source into chunks of at most
`MAX_SEG_DATA_SIZE` bytes, so every Send Queue element fits, and so does every DATA segment.

## Results

- `ChunksFit`: every Send Queue element holds at most `MAX_SEG_DATA_SIZE` bytes. Each call
  keeps it and sends only segments that pass the check, whether or not the call destroys the
  engine (`ChunksFit.step`).
- In every reachable system every segment in the carrier passes the check: a segment that
  arrives unchanged is never dropped as malformed.
-/

namespace Ctcp

/-! ## §1 Chunks that fit a segment -/

/-- Every Send Queue element holds at most `MAX_SEG_DATA_SIZE` bytes. -/
def ChunksFit (q : List TxState) : Prop := ∀ e ∈ q, e.buffer_size ≤ MAX_SEG_DATA_SIZE

/-- Every segment among the events passes the receiver's length and checksum check. -/
def SendsVerify (evs : List Event) : Prop := ∀ seg ∈ sends evs, seg.verifies = true

theorem SendsVerify.append {a b : List Event} (ha : SendsVerify a) (hb : SendsVerify b) :
    SendsVerify (a ++ b) := by
  intro seg hseg
  rw [sends_append, List.mem_append] at hseg
  exact hseg.elim (ha seg) (hb seg)

theorem ChunksFit.append {q r : List TxState} (hq : ChunksFit q) (hr : ChunksFit r) :
    ChunksFit (q ++ r) := fun e he => (List.mem_append.mp he).elim (hq e) (hr e)

theorem ChunksFit.retag {es : List TxState} (h : ChunksFit es) (n : UInt32) :
    ChunksFit (retag n es) := by
  induction es generalizing n with
  | nil => exact fun _ => nofun
  | cons e es ih =>
    simp only [ChunksFit, Ctcp.retag, List.forall_mem_cons, TxState.buffer_size_retagged] at h ⊢
    exact ⟨h.1, ih h.2 _⟩

/-- The DATA segments of elements that fit all pass the check. -/
theorem dataSegs_verify (ackno : UInt32) (window : UInt16) :
    ∀ (n : UInt32) (es : List TxState), ChunksFit es →
      ∀ seg ∈ dataSegs ackno window n es, seg.verifies = true
  | _, [], _ => by simp [dataSegs]
  | n, e :: es, h => by
    simp only [dataSegs, List.forall_mem_cons]
    exact ⟨dataSegment_verifies _ _ _ (h e (List.mem_cons_self _ _)),
      dataSegs_verify ackno window _ es fun x hx => h x (List.mem_cons_of_mem _ hx)⟩

/-! ## §2 Each handler -/

/-- **The pass keeps the chunks and sends only segments that pass the check.** -/
theorem ChunksFit.pass {st : CtcpState} (h : ChunksFit st.tx_state) :
    ChunksFit (ctcpSendPossibleDataSegment st).1.tx_state ∧
      SendsVerify (ctcpSendPossibleDataSegment st).2 := by
  rw [ctcpSendPossibleDataSegment_eq]
  have htake : ∀ k, ChunksFit (st.tx_state.take k) := fun _ e he => h e (List.mem_of_mem_take he)
  refine ⟨ChunksFit.append ((htake _).retag _) fun e he => h e (List.mem_of_mem_drop he), ?_⟩
  simpa only [SendsVerify, sends_map_send] using dataSegs_verify _ _ _ _ (htake _)

theorem ctcpOutput_verify (ans : List SinkAnswer) (st : CtcpState) :
    SendsVerify (ctcpOutput ans st).2 :=
  fun seg hs => ((ctcpOutput_events ans st).2.2 seg hs).2

/-- Every segment `ctcp_receive` sends is header-only, so it passes the check, whether or not
the call destroys the engine. -/
theorem ctcpReceive_verify {fuel : Nat} {ans : List SinkAnswer} {seg : Segment}
    {st : CtcpState} {r : Option CtcpState × List Event}
    (h : ctcpReceive fuel ans seg st = some r) : SendsVerify r.2 := by
  unfold ctcpReceive at h
  split at h
  · cases h; simp [SendsVerify, Event.segment]
  split at h
  · cases h; simp [SendsVerify]
  split at h
  · cases h
    dsimp only
    exact fun s hs => ((ctcpReceiveDataSegment_events ans st seg).2 s hs).2
  · split at h <;> cases h <;> simp [SendsVerify]
  · cases h; simp [SendsVerify, Event.segment]
  · unfold ctcpReceiveFinWithNoAck at h
    dsimp only at h
    split at h
    · obtain ⟨_, -, rfl⟩ := Option.map_eq_some'.mp h
      simp [SendsVerify, Event.segment]
    · cases h; simp [SendsVerify, Event.segment]

/-- The `ACK_SEG` case only drops elements from the front. -/
theorem ChunksFit.receiveAck {st : CtcpState} (h : ChunksFit st.tx_state) (A : UInt32) :
    ChunksFit (receiveAck st A).tx_state := by
  unfold Ctcp.receiveAck
  split
  · exact h
  · split
    · rw [ackLoop_eq]
      dsimp only
      split <;> exact fun e he => h e (List.mem_of_mem_drop he)
    · exact h

theorem ChunksFit.receive {st st' : CtcpState} {evs : List Event} (h : ChunksFit st.tx_state)
    {fuel : Nat} {ans : List SinkAnswer} {seg : Segment}
    (hr : ctcpReceive fuel ans seg st = some (some st', evs)) : ChunksFit st'.tx_state := by
  rcases ctcpReceive_live hr with ⟨rfl, -⟩ | ⟨rfl, -⟩ | ⟨-, hd⟩ | ⟨-, -, rfl, -⟩ |
    ⟨-, -, rfl, -⟩
  · exact h
  · exact h
  · obtain ⟨a, l, u, q, hst⟩ := ctcpReceiveDataSegment_frame ans st seg
    rw [show st' = _ from congrArg Prod.fst hd, hst]
    exact h
  · exact h.receiveAck seg.ackno
  · exact h

/-- `ctcp_read` queues chunks of at most `MAX_SEG_DATA_SIZE` bytes, then runs the pass. -/
theorem ChunksFit.read {st st' : CtcpState} {evs : List Event} (h : ChunksFit st.tx_state)
    {fuel : Nat} {input : List InputAnswer} (hr : ctcpRead fuel input st = some (st', evs)) :
    ChunksFit st'.tx_state ∧ SendsVerify evs := by
  obtain ⟨⟨st₁, evs₁⟩, hloop, hr'⟩ := Option.map_eq_some'.mp hr
  simp only [Prod.mk.injEq] at hr'
  obtain ⟨rfl, rfl⟩ := hr'
  obtain ⟨cs, hst, -, -, -, hfin, hcs⟩ := readLoop_spec hloop
  have hq : ChunksFit (st.tx_state ++ cs.map TxState.fresh) :=
    h.append (by simpa [ChunksFit, TxState.fresh, TxState.buffer_size] using hcs)
  have h₁ : ChunksFit st₁.tx_state := by rcases hst with rfl | rfl <;> exact hq
  exact ⟨h₁.pass.1, SendsVerify.append (fun s hs => (hfin s hs).2.1) h₁.pass.2⟩

theorem ChunksFit.timerVisit {st : CtcpState} (h : ChunksFit st.tx_state)
    (ans : List SinkAnswer) :
    ChunksFit (timerVisit ans st).2.1.tx_state ∧ SendsVerify (timerVisit ans st).2.2 := by
  obtain ⟨a, td, -, -, hv⟩ := timerVisit_shape ans st
  have h₀ : ChunksFit { st with ack_state := a, segment_teardown := td }.tx_state := h
  rcases hv with ⟨hst, hfin⟩ | hp | hpo
  · rw [hst]
    exact ⟨h, fun s hs => ((sendsOnly hfin).2.2.2 s hs).2.1⟩
  · rw [hp]; exact h₀.pass
  · rw [hpo]
    refine ⟨?_, h₀.pass.2.append (ctcpOutput_verify ans _)⟩
    rw [ctcpOutput_frame]
    exact h₀.pass.1

theorem ChunksFit.timer {st st' : CtcpState} {evs : List Event} (h : ChunksFit st.tx_state)
    {fuel : Nat} {ans : List (List SinkAnswer)}
    (hw : timerWalk fuel ans [st] = some ([st'], evs)) :
    ChunksFit st'.tx_state ∧ SendsVerify evs := by
  simpa using @timerWalk_single (fun s t => ChunksFit s.tx_state ∧ SendsVerify t)
    (fun ans s _ hs => ⟨(hs.1.timerVisit ans).1, hs.2.append (hs.1.timerVisit ans).2⟩)
    fuel ans st st' [] evs hw ⟨h, by simp [SendsVerify]⟩

/-- **One call keeps the chunks and sends only segments that pass the check**, whether or not
it destroys the engine. -/
theorem ChunksFit.step {st : CtcpState} (h : ChunksFit st.tx_state) {a : EngineAction}
    {r : Option CtcpState × List Event} (hr : engineStep st a = some r) :
    (∀ st', r.1 = some st' → ChunksFit st'.tx_state) ∧ SendsVerify r.2 := by
  cases a with
  | read fuel input =>
    obtain ⟨⟨st', evs⟩, hread, rfl⟩ := Option.map_eq_some'.mp hr
    exact ⟨fun _ e => by cases e; exact (h.read hread).1, (h.read hread).2⟩
  | receive fuel ans seg =>
    refine ⟨fun st' e => ?_, ctcpReceive_verify hr⟩
    obtain ⟨_, evs⟩ := r
    cases e
    exact h.receive hr
  | output ans =>
    cases hr
    exact ⟨fun _ e => by cases e; rw [ctcpOutput_frame]; exact h, ctcpOutput_verify ans st⟩
  | timer fuel ans =>
    obtain ⟨_, _, hw, rfl⟩ := engineStep_timer_inv hr
    exact ⟨fun _ e => by cases e; exact (h.timer hw).1, (h.timer hw).2⟩

/-! ## §3 The carrier -/

/-- The invariant of the system: each live engine's chunks fit, and every segment in the
carrier passes the check. -/
structure FramedInv (n : Net) : Prop where
  chunks : ∀ s st, n.eng s = some st → ChunksFit st.tx_state
  carrier : ∀ s, ∀ seg ∈ n.sent s, seg.verifies = true

theorem framedInv_init (cfg : Side → CtcpConfig) : FramedInv (Net.init cfg) :=
  ⟨fun _ _ h => by cases h; simp [ChunksFit, ctcpInit], fun _ _ h => by cases h⟩

theorem FramedInv.step {n n' : Net} {act : NetAction} (h : FramedInv n)
    (hstep : netStep n act = some n') : FramedInv n' := by
  obtain ⟨st, c, r, hst, -, hr, rfl⟩ := netStep_eq hstep
  have hc := (h.chunks _ st hst).step hr
  refine ⟨fun t st' ht => ?_, fun t seg hseg => ?_⟩
  · rcases eq_or_ne t act.side with rfl | hne
    · simp only [Net.update_eng, if_true] at ht
      exact hc.1 st' ht
    · simp only [Net.update_eng, hne, if_false] at ht
      exact h.chunks t st' ht
  · rcases eq_or_ne t act.side with rfl | hne
    · simp only [Net.update_sent, if_true, List.mem_append] at hseg
      exact hseg.elim (h.carrier _ seg) (hc.2 seg)
    · simp only [Net.update_sent, hne, if_false] at hseg
      exact h.carrier t seg hseg

theorem framedInv_reachable {cfg : Side → CtcpConfig} {n : Net} (h : NetReachable cfg n) :
    FramedInv n := by
  induction h with
  | init => exact framedInv_init cfg
  | step _ _ hstep ih => exact ih.step hstep

/-- **Every segment in the carrier passes the receiver's check.** In every reachable system,
each segment either side has handed to `conn_send` declares its own length and carries a
matching checksum, so a delivery that does not corrupt it never makes `ctcp_receive` drop it
as malformed. -/
theorem carrier_segments_verify {cfg : Side → CtcpConfig} {n : Net} (h : NetReachable cfg n)
    (s : Side) : ∀ seg ∈ n.sent s, seg.verifies = true :=
  (framedInv_reachable h).carrier s

/-- `X` reads one byte and sends it. -/
theorem carrier_segments_verify_one_byte :
    ∃ n, runNet (Net.init fun _ => ⟨2000, 2000, 40, 40⟩) [.read .X 1 [.data [97]]] =
      some n ∧ n.sent .X ≠ [] ∧ ∀ seg ∈ n.sent .X, seg.verifies = true := by
  refine ⟨_, rfl, ?_, carrier_segments_verify
    ((@NetReachable.init fun _ => ⟨2000, 2000, 40, 40⟩).of_runNet [.read .X 1 [.data [97]]] rfl)
    .X⟩
  decide

end Ctcp
