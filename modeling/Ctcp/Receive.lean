import Ctcp.Send

/-!
# cTCP Receiving

`ctcp_output`, `ctcp_receive_data_segment`, `ctcp_receive_fin_with_no_ack` and
`ctcp_receive` of `ctcp.c`, with the cumulative-acknowledgement loop of the `ACK_SEG` case
as `ackLoop` and the whole case as `receiveAck`.

## Host answers

`ctcp_output` asks the host `conn_bufspace` and calls `conn_output` once per iteration. The
answers are a list of `SinkAnswer`s, one per iteration. `conn_output` may accept any count
from zero to what it is offered (§6), so an answer's `written` is read as that many bytes,
capped at the request: every list is a lawful host, and every lawful host is a list. When the
list runs out the sink is taken to report no free space.

## Destruction

`ctcp_receive` destroys the engine on a terminal segment. Its result is the engine after the
call, `none` once `ctcp_destroy` has run, with the events of the call. It is `Option` of that
because `ctcp_receive_fin_with_no_ack` can busy-wait forever (`spin`).
-/

namespace Ctcp

/-! ## §1 Delivery to the sink -/

/-- The host's answers to one iteration of `ctcp_output`'s loop. -/
structure SinkAnswer where
  /-- What `conn_bufspace` returns. -/
  space : Nat
  /-- How many of the offered bytes `conn_output` writes (capped at the request). -/
  written : Nat
deriving DecidableEq, Repr

/-- The bytes of a Receive Queue element not yet written, `rx_buffer + byte_used`. -/
def RxState.tail (e : RxState) : List UInt8 := e.rx_buffer.drop e.byte_used.toNat

/-- The loop of `ctcp_output` from a node on: while the sink has room for the whole
undelivered rest of the front element, write it; drop an element once it is fully written,
acknowledging it. Returns the state, the queue from the node reached, and the events. -/
def outputLoop (st : CtcpState) : List SinkAnswer → List RxState →
    CtcpState × List RxState × List Event
  | _, [] => (st, [], [])
  | [], e :: q => (st, e :: q, [])
  | a :: as, e :: q =>
    -- `byte_left > avai_space` compares after converting `byte_left` to `size_t`
    if a.space = 0 ∨ a.space < (e.byte_left % 2 ^ 64).toNat then (st, e :: q, [])
    else
      let w := min a.written e.byte_left.toNat
      let e' := { e with byte_used := e.byte_used + w, byte_left := e.byte_left - w }
      let st' := { st with conn_state.rcv_window_used :=
        st.conn_state.rcv_window_used - UInt16.ofNat w }
      let out := Event.output (e.tail.take w)
      if e'.byte_left ≤ 0 then
        let rest := outputLoop st' as q
        (rest.1, rest.2.1,
          out :: .send (ctcpSendFlags st' st'.conn_state.ackno ACK) :: rest.2.2)
      else (st', e' :: q, [out])

/-- `ctcp_output`: drain the Receive Queue into the sink as far as it has room. -/
def ctcpOutput (ans : List SinkAnswer) (st : CtcpState) : CtcpState × List Event :=
  let r := outputLoop st ans st.rx_state
  ({ r.1 with rx_state := r.2.1 }, r.2.2)

/-- `ctcp_output` changes only the Receive Queue and `rcv_window_used`. -/
theorem outputLoop_frame (st : CtcpState) (ans : List SinkAnswer) (q : List RxState) :
    (outputLoop st ans q).1 =
      { st with
        conn_state.rcv_window_used := (outputLoop st ans q).1.conn_state.rcv_window_used } := by
  induction q generalizing st ans with
  | nil => cases ans <;> rfl
  | cons e q ih =>
    cases ans with
    | nil => rfl
    | cons a as =>
      simp only [outputLoop]
      split
      · rfl
      · split
        · rw [ih]
        · rfl

/-- The events of `ctcp_output`: bytes to the sink and ACKs, nothing queued or accepted. -/
theorem outputLoop_events (st : CtcpState) (ans : List SinkAnswer) (q : List RxState) :
    outbound (outputLoop st ans q).2.2 = [] ∧ acceptedBytes (outputLoop st ans q).2.2 = [] ∧
      ∀ seg ∈ sends (outputLoop st ans q).2.2, seg.flags = ACK ∧ seg.verifies = true := by
  induction q generalizing st ans with
  | nil => cases ans <;> simp [outputLoop]
  | cons e q ih =>
    cases ans with
    | nil => simp [outputLoop]
    | cons a as =>
      simp only [outputLoop]
      split
      · simp
      · split
        · obtain ⟨h1, h2, h3⟩ := ih
            { st with conn_state.rcv_window_used := st.conn_state.rcv_window_used -
              UInt16.ofNat (min a.written e.byte_left.toNat) } as
          simp only [outbound_cons, acceptedBytes_cons, sends_cons, Event.enqueued,
            Event.accepted, Event.segment, h1, h2, List.nil_append, Option.toList,
            List.singleton_append, List.mem_cons, forall_eq_or_imp, ctcpSendFlags_flags,
            ctcpSendFlags_verifies]
          exact ⟨trivial, trivial, ⟨trivial, trivial⟩, h3⟩
        · simp [Event.enqueued, Event.accepted, Event.segment]

theorem ctcpOutput_frame (ans : List SinkAnswer) (st : CtcpState) :
    (ctcpOutput ans st).1 =
      { st with conn_state.rcv_window_used := (ctcpOutput ans st).1.conn_state.rcv_window_used,
                rx_state := (ctcpOutput ans st).1.rx_state } := by
  simp only [ctcpOutput]
  rw [outputLoop_frame]

theorem ctcpOutput_events (ans : List SinkAnswer) (st : CtcpState) :
    outbound (ctcpOutput ans st).2 = [] ∧ acceptedBytes (ctcpOutput ans st).2 = [] ∧
      ∀ seg ∈ sends (ctcpOutput ans st).2, seg.flags = ACK ∧ seg.verifies = true :=
  outputLoop_events st ans st.rx_state

/-! ## §2 The four kinds of segment -/

/-- The accepting branch of `ctcp_receive_data_segment` for a payload of `data_seg_len` bytes:
`last_ackno` takes `ackno`, `ackno` moves past the segment, the payload joins the Receive
Queue and its bytes are counted in `rcv_window_used`. -/
def rxAccept (st : CtcpState) (seg : Segment) (data_seg_len : Nat) : CtcpState :=
  { st with
    conn_state.last_ackno := st.conn_state.ackno,
    conn_state.ackno := seg.seqno + seg.len.toUInt32 - UInt32.ofNat headerSize,
    conn_state.rcv_window_used := st.conn_state.rcv_window_used + UInt16.ofNat data_seg_len,
    rx_state := st.rx_state ++
      [{ byte_used := 0, byte_left := data_seg_len, rx_buffer := seg.data.take data_seg_len }] }

/-- `ctcp_receive_data_segment`: accept the payload if it fits in the receive window, then try
to deliver. -/
def ctcpReceiveDataSegment (ans : List SinkAnswer) (st : CtcpState) (seg : Segment) :
    CtcpState × List Event :=
  let data_seg_len := seg.bytes.length - headerSize
  if st.conn_state.rcv_window_used.toNat + data_seg_len ≤ st.conn_state.rcv_window.toNat then
    let r := ctcpOutput ans (rxAccept st seg data_seg_len)
    (r.1, .accept (seg.data.take data_seg_len) :: r.2)
  else ctcpOutput ans st

/-- The cumulative-acknowledgement loop of the `ACK_SEG` case: while the front element is
acknowledged by `A` and has been sent (nonzero tag), advance `seqno` to its tag, release its
bytes from `send_window_used`, and remove it. -/
def ackLoop (A : UInt32) (st : CtcpState) : List TxState → CtcpState × List TxState
  | [] => (st, [])
  | e :: es =>
    if e.segment_next_seqno ≤ A ∧ 0 < e.segment_next_seqno then
      ackLoop A
        { st with
          conn_state.seqno := e.segment_next_seqno,
          conn_state.send_window_used :=
            st.conn_state.send_window_used - UInt16.ofNat e.buffer_size } es
    else (st, e :: es)

/-- How many elements, from the front, `ackLoop A` removes: the front run of sent elements
acknowledged by `A`. -/
def ackCount (A : UInt32) : List TxState → Nat
  | [] => 0
  | e :: es =>
    if e.segment_next_seqno ≤ A ∧ 0 < e.segment_next_seqno then ackCount A es + 1 else 0

/-- **The acknowledgement loop in closed form.** It removes the front `ackCount A` elements,
leaves `seqno` at the tag of the last one removed (unchanged if none), and takes their bytes
off `send_window_used`. -/
theorem ackLoop_eq (A : UInt32) (st : CtcpState) (q : List TxState) :
    ackLoop A st q =
      ({ st with
          conn_state.seqno := ((q.take (ackCount A q)).getLast?.map
            TxState.segment_next_seqno).getD st.conn_state.seqno,
          conn_state.send_window_used :=
            st.conn_state.send_window_used - UInt16.ofNat (txBytes (q.take (ackCount A q))) },
       q.drop (ackCount A q)) := by
  induction q generalizing st with
  | nil => simp [ackLoop, ackCount]
  | cons e es ih =>
    by_cases hc : e.segment_next_seqno ≤ A ∧ 0 < e.segment_next_seqno
    · simp only [ackLoop, ackCount, hc, and_self, if_true, ih, List.take_succ_cons,
        List.drop_succ_cons, txBytes_cons, u16_sub_sub, List.getLast?_cons, Option.map_some',
        Option.getD_some, Option.getD_map, Nat.add_comm]
    · simp [ackLoop, ackCount, hc]

/-- The `ACK_SEG` case of `ctcp_receive` outside `PASSIVE_CLOSE`, for acknowledgement number
`A`. With an empty Send Queue it returns at once; if `A` reaches the front element's tag it
runs `ackLoop`, disarms the timer when `A = next_seqno`, and resets the timeout counters. -/
def receiveAck (st : CtcpState) (A : UInt32) : CtcpState :=
  match st.tx_state with
  | [] => st
  | e :: _ =>
    if e.segment_next_seqno ≤ A then
      let r := ackLoop A st st.tx_state
      let st₁ := { r.1 with tx_state := r.2 }
      let st₂ := if A = st₁.conn_state.next_seqno then { st₁ with ack_state.time_out := false }
        else st₁
      { st₂ with ack_state.counter := 0, ack_state.time_out_num := 0 }
    else st

/-- The `ACK_SEG` case changes only `seqno`, `send_window_used`, the Send Queue and the timer's
`time_out`, `counter` and `time_out_num`. -/
theorem receiveAck_frame (st : CtcpState) (A : UInt32) :
    ∃ s u q t c n, receiveAck st A =
      { st with conn_state.seqno := s, conn_state.send_window_used := u, tx_state := q,
                ack_state.time_out := t, ack_state.counter := c, ack_state.time_out_num := n } := by
  unfold receiveAck
  split
  · exact ⟨_, _, _, _, _, _, rfl⟩
  · split
    · rw [ackLoop_eq]
      dsimp only
      split <;> exact ⟨_, _, _, _, _, _, rfl⟩
    · exact ⟨_, _, _, _, _, _, rfl⟩

/-- `ctcp_receive_fin_with_no_ack`: record the peer's FIN in `ackno`. Outside `ACTIVE_CLOSE`
deliver end-of-stream, acknowledge, wait for the Receive Queue to empty (`spin`), send our
FIN and enter `PASSIVE_CLOSE`; in `ACTIVE_CLOSE` acknowledge and destroy. -/
def ctcpReceiveFinWithNoAck (fuel : Nat) (st : CtcpState) (seg : Segment) :
    Option (Option CtcpState × List Event) :=
  let st₁ := { st with
    conn_state.last_ackno := st.conn_state.ackno, conn_state.ackno := seg.seqno + 1 }
  if st₁.segment_teardown ≠ .ACTIVE_CLOSE then
    (spin fuel (0 < st₁.rx_state.length)).map fun _ =>
      (some { st₁ with ack_state.time_out := true, segment_teardown := .PASSIVE_CLOSE },
       [.eof, .send (ctcpSendFlags st₁ st₁.conn_state.ackno ACK),
        .send (ctcpSendFlags st₁ st₁.conn_state.ackno FIN)])
  else some (none, [.send (ctcpSendFlags st₁ st₁.conn_state.ackno ACK)])

theorem ctcpReceiveDataSegment_frame (ans : List SinkAnswer) (st : CtcpState)
    (seg : Segment) :
    ∃ a l u q, (ctcpReceiveDataSegment ans st seg).1 =
      { st with conn_state.ackno := a, conn_state.last_ackno := l,
                conn_state.rcv_window_used := u, rx_state := q } := by
  unfold ctcpReceiveDataSegment
  dsimp only
  split <;> (rw [ctcpOutput_frame]; exact ⟨_, _, _, _, rfl⟩)

theorem ctcpReceiveDataSegment_events (ans : List SinkAnswer) (st : CtcpState)
    (seg : Segment) :
    outbound (ctcpReceiveDataSegment ans st seg).2 = [] ∧
      ∀ s ∈ sends (ctcpReceiveDataSegment ans st seg).2, s.flags = ACK ∧ s.verifies = true := by
  unfold ctcpReceiveDataSegment
  dsimp only
  split
  · obtain ⟨h1, -, h3⟩ := ctcpOutput_events ans (rxAccept st seg (seg.bytes.length - headerSize))
    simpa [Event.enqueued, Event.segment] using And.intro h1 h3
  · obtain ⟨h1, -, h3⟩ := ctcpOutput_events ans st
    exact ⟨h1, h3⟩

/-! ## §3 `ctcp_receive` -/

/-- `ctcp_receive`: the duplicate check (a segment at `last_ackno`, not at `ackno`, without
the ACK flag is answered with an ACK for `last_ackno`), then the length and checksum checks,
then dispatch on the segment type. -/
def ctcpReceive (fuel : Nat) (ans : List SinkAnswer) (seg : Segment) (st : CtcpState) :
    Option (Option CtcpState × List Event) :=
  if seg.seqno ≠ st.conn_state.ackno ∧ seg.seqno = st.conn_state.last_ackno ∧
      seg.flags &&& ACK = 0 then
    some (some st, [.send (ctcpSendFlags st st.conn_state.last_ackno ACK)])
  else if !seg.verifies then some (some st, [])
  else
    match segmentType seg.flags with
    | .DATA_SEG =>
      let r := ctcpReceiveDataSegment ans st seg
      some (some r.1, r.2)
    | .ACK_SEG =>
      if st.segment_teardown = .PASSIVE_CLOSE then some (none, [])
      else some (some (receiveAck st seg.ackno), [])
    | .FIN_WITH_ACK =>
      let st₁ := { st with conn_state.ackno := seg.seqno + 1 }
      some (none, [.send (ctcpSendFlags st₁ st₁.conn_state.ackno ACK)])
    | .FIN_WITH_NO_ACK => ctcpReceiveFinWithNoAck fuel st seg

/-- **What a call of `ctcp_receive` that leaves the engine alive did**: answered a duplicate,
dropped a malformed segment, handled DATA, handled an ACK outside `PASSIVE_CLOSE`, or took a
peer FIN outside `ACTIVE_CLOSE`. -/
theorem ctcpReceive_live {fuel : Nat} {ans : List SinkAnswer} {seg : Segment}
    {st st' : CtcpState} {evs : List Event}
    (h : ctcpReceive fuel ans seg st = some (some st', evs)) :
    (st' = st ∧ evs = [.send (ctcpSendFlags st st.conn_state.last_ackno ACK)]) ∨
    (st' = st ∧ evs = []) ∨
    (segmentType seg.flags = .DATA_SEG ∧ (st', evs) = ctcpReceiveDataSegment ans st seg) ∨
    (segmentType seg.flags = .ACK_SEG ∧ st.segment_teardown ≠ .PASSIVE_CLOSE ∧
      st' = receiveAck st seg.ackno ∧ evs = []) ∨
    (segmentType seg.flags = .FIN_WITH_NO_ACK ∧ st.segment_teardown ≠ .ACTIVE_CLOSE ∧
      let st₁ := { st with
        conn_state.last_ackno := st.conn_state.ackno, conn_state.ackno := seg.seqno + 1 }
      st' = { st₁ with ack_state.time_out := true, segment_teardown := .PASSIVE_CLOSE } ∧
      evs = [.eof, .send (ctcpSendFlags st₁ st₁.conn_state.ackno ACK),
        .send (ctcpSendFlags st₁ st₁.conn_state.ackno FIN)]) := by
  unfold ctcpReceive at h
  split at h
  · simp only [Option.some.injEq, Prod.mk.injEq] at h
    exact .inl ⟨h.1.symm, h.2.symm⟩
  split at h
  · simp only [Option.some.injEq, Prod.mk.injEq] at h
    exact .inr (.inl ⟨h.1.symm, h.2.symm⟩)
  split at h
  · rename_i hty
    simp only [Option.some.injEq, Prod.mk.injEq] at h
    exact .inr (.inr (.inl ⟨hty, by rw [← h.1, ← h.2]⟩))
  · rename_i hty
    split at h
    · simp at h
    · rename_i hp
      simp only [Option.some.injEq, Prod.mk.injEq] at h
      exact .inr (.inr (.inr (.inl ⟨hty, hp, h.1.symm, h.2.symm⟩)))
  · simp at h
  · rename_i hty
    unfold ctcpReceiveFinWithNoAck at h
    dsimp only at h
    split at h
    · rename_i hact
      obtain ⟨u, -, hu⟩ := Option.map_eq_some'.mp h
      simp only [Option.some.injEq, Prod.mk.injEq] at hu
      exact .inr (.inr (.inr (.inr ⟨hty, hact, hu.1.symm, hu.2.symm⟩)))
    · simp at h

/-- A datagram that fails the length or checksum check changes nothing; it is still answered
with an ACK for `last_ackno` when it passes the duplicate test, which `ctcp_receive` makes
first. -/
theorem ctcpReceive_unverified {fuel : Nat} {ans : List SinkAnswer} {seg : Segment}
    {st : CtcpState} (hv : seg.verifies = false) :
    ctcpReceive fuel ans seg st = some (some st,
      if seg.seqno ≠ st.conn_state.ackno ∧ seg.seqno = st.conn_state.last_ackno ∧
          seg.flags &&& ACK = 0 then
        [.send (ctcpSendFlags st st.conn_state.last_ackno ACK)]
      else []) := by
  unfold ctcpReceive
  split_ifs <;> simp_all

/-- **When `ctcp_receive` destroys the engine**: on an ACK in `PASSIVE_CLOSE`, on a FIN+ACK, or
on a FIN in `ACTIVE_CLOSE`. -/
theorem ctcpReceive_destroyed {fuel : Nat} {ans : List SinkAnswer} {seg : Segment}
    {st : CtcpState} {evs : List Event} (h : ctcpReceive fuel ans seg st = some (none, evs)) :
    (segmentType seg.flags = .ACK_SEG ∧ st.segment_teardown = .PASSIVE_CLOSE) ∨
    segmentType seg.flags = .FIN_WITH_ACK ∨
    (segmentType seg.flags = .FIN_WITH_NO_ACK ∧ st.segment_teardown = .ACTIVE_CLOSE) := by
  unfold ctcpReceive at h
  split at h
  · simp at h
  split at h
  · simp at h
  split at h
  · simp at h
  · split at h
    · exact .inl ⟨‹_›, ‹_›⟩
    · simp at h
  · exact .inr (.inl ‹_›)
  · rename_i hty
    unfold ctcpReceiveFinWithNoAck at h
    dsimp only at h
    split at h
    · obtain ⟨u, -, hu⟩ := Option.map_eq_some'.mp h
      simp at hu
    · rename_i hact
      exact .inr (.inr ⟨hty, not_not.mp hact⟩)

/-! ## §4 The `ACK_SEG` case in full -/

/-- The elements `ackLoop A` removes are sent and acknowledged by `A`. -/
theorem ackCount_run (A : UInt32) :
    ∀ q : List TxState, ∀ x ∈ q.take (ackCount A q),
      0 < x.segment_next_seqno ∧ x.segment_next_seqno ≤ A
  | [] => by simp
  | e :: es => by
    by_cases hc : e.segment_next_seqno ≤ A ∧ 0 < e.segment_next_seqno
    · rw [ackCount, if_pos hc, List.take_succ_cons, List.forall_mem_cons]
      exact ⟨⟨hc.2, hc.1⟩, ackCount_run A es⟩
    · simp [ackCount, hc]

/-- `ackLoop A` stops at the first element that is unsent or not acknowledged by `A`: the run
it removes is the longest. -/
theorem ackCount_stop (A : UInt32) :
    ∀ q : List TxState, ∀ x ∈ (q.drop (ackCount A q)).head?,
      ¬ (0 < x.segment_next_seqno ∧ x.segment_next_seqno ≤ A)
  | [] => by simp
  | e :: es => by
    by_cases hc : e.segment_next_seqno ≤ A ∧ 0 < e.segment_next_seqno
    · simpa only [ackCount, hc, and_self, if_true, List.drop_succ_cons] using ackCount_stop A es
    · simp only [ackCount, hc, if_false, List.drop_zero, List.head?_cons, Option.mem_some_iff,
        forall_eq']
      exact fun h => hc ⟨h.2, h.1⟩

theorem ackCount_le_length (A : UInt32) : ∀ q : List TxState, ackCount A q ≤ q.length
  | [] => le_refl _
  | e :: es => by
    simp only [ackCount]
    split
    · simpa using ackCount_le_length A es
    · exact Nat.zero_le _

/-- An ACK segment that passes the checks is never taken for a duplicate: outside
`PASSIVE_CLOSE` it goes to the `ACK_SEG` case, which sends nothing. -/
theorem ctcpReceive_ack_seg {fuel : Nat} {ans : List SinkAnswer} {seg : Segment}
    {st : CtcpState} (hack : seg.flags &&& ACK ≠ 0) (hfin : seg.flags &&& FIN = 0)
    (hv : seg.verifies = true) (hpc : st.segment_teardown ≠ .PASSIVE_CLOSE) :
    ctcpReceive fuel ans seg st = some (some (receiveAck st seg.ackno), []) := by
  have hty : segmentType seg.flags = .ACK_SEG := by simp [segmentType, hfin, hack]
  simp [ctcpReceive, hack, hv, hty, hpc]

/-- **What an acknowledgement does.** An ACK segment that passes the checks, outside
`PASSIVE_CLOSE`, sends nothing; if `A` reaches the front element's tag it removes the longest
front run with `0 < tag ≤ A`, moves `seqno` to the last tag, releases the bytes, resets the
counters and disarms the timer exactly when `A = next_seqno`; otherwise it changes nothing. -/
theorem ack_removes_acknowledged_run (fuel : Nat) (ans : List SinkAnswer) {seg : Segment}
    {st : CtcpState} (hack : seg.flags &&& ACK ≠ 0) (hfin : seg.flags &&& FIN = 0)
    (hv : seg.verifies = true) (hpc : st.segment_teardown ≠ .PASSIVE_CLOSE) :
    ∃ st', ctcpReceive fuel ans seg st = some (some st', []) ∧
      (∀ e ∈ st.tx_state.head?, e.segment_next_seqno ≤ seg.ackno →
        ∃ j ≤ st.tx_state.length,
          (∀ x ∈ st.tx_state.take j, 0 < x.segment_next_seqno ∧ x.segment_next_seqno ≤ seg.ackno) ∧
          (∀ x ∈ (st.tx_state.drop j).head?,
            ¬ (0 < x.segment_next_seqno ∧ x.segment_next_seqno ≤ seg.ackno)) ∧
          st' = { st with
            conn_state.seqno :=
              ((st.tx_state.take j).getLast?.map TxState.segment_next_seqno).getD
                st.conn_state.seqno,
            conn_state.send_window_used :=
              st.conn_state.send_window_used - UInt16.ofNat (txBytes (st.tx_state.take j)),
            tx_state := st.tx_state.drop j,
            ack_state.counter := 0, ack_state.time_out_num := 0,
            ack_state.time_out :=
              if seg.ackno = st.conn_state.next_seqno then false else st.ack_state.time_out }) ∧
      (∀ e ∈ st.tx_state.head?, seg.ackno < e.segment_next_seqno → st' = st) ∧
      (st.tx_state = [] → st' = st) := by
  refine ⟨_, ctcpReceive_ack_seg hack hfin hv hpc, fun e he hle => ?_, fun e he hlt => ?_,
    fun hq => by rw [receiveAck, hq]⟩
  · obtain ⟨es, hq⟩ : ∃ es, st.tx_state = e :: es := ⟨_, List.eq_cons_of_mem_head? he⟩
    refine ⟨ackCount seg.ackno st.tx_state, ackCount_le_length _ _, ackCount_run _ _,
      ackCount_stop _ _, ?_⟩
    unfold Ctcp.receiveAck
    rw [ackLoop_eq]
    simp only [hq, hle, if_true]
    split_ifs <;> rfl
  · obtain ⟨es, hq⟩ : ∃ es, st.tx_state = e :: es := ⟨_, List.eq_cons_of_mem_head? he⟩
    have hnle : ¬ e.segment_next_seqno ≤ seg.ackno := by
      rw [u32_le_iff]; rw [u32_lt_iff] at hlt; omega
    unfold Ctcp.receiveAck
    simp only [hq, hnle, if_false]

/-- A fresh engine that has sent two one-byte chunks, tagged `2` and `3`. -/
def twoBytesSent : CtcpState :=
  (ctcpSendPossibleDataSegment
    { ctcpInit ⟨2000, 2000, 40, 40⟩ with tx_state := [⟨0, [97]⟩, ⟨0, [98]⟩] }).1

/-- An acknowledgement of the first of two bytes in flight is handled by the `ACK_SEG` case. -/
theorem ack_removes_acknowledged_run_first :
    let seg := Segment.seal ⟨1, 2, 18, 0, ACK, 0, []⟩
    (seg.flags &&& ACK ≠ 0 ∧ seg.flags &&& FIN = 0 ∧ seg.verifies = true ∧
      twoBytesSent.segment_teardown ≠ .PASSIVE_CLOSE) ∧
      ∃ st', ctcpReceive 1 [] seg twoBytesSent = some (some st', []) ∧
        (∀ e ∈ twoBytesSent.tx_state.head?, e.segment_next_seqno ≤ seg.ackno →
          ∃ j ≤ twoBytesSent.tx_state.length, st' = { twoBytesSent with
            conn_state.seqno := ((twoBytesSent.tx_state.take j).getLast?.map
              TxState.segment_next_seqno).getD twoBytesSent.conn_state.seqno,
            conn_state.send_window_used := twoBytesSent.conn_state.send_window_used -
              UInt16.ofNat (txBytes (twoBytesSent.tx_state.take j)),
            tx_state := twoBytesSent.tx_state.drop j,
            ack_state.counter := 0, ack_state.time_out_num := 0,
            ack_state.time_out := if seg.ackno = twoBytesSent.conn_state.next_seqno then false
              else twoBytesSent.ack_state.time_out }) := by
  intro seg
  have h1 : seg.flags &&& ACK ≠ 0 := by decide
  have h2 : seg.flags &&& FIN = 0 := by decide
  have h3 : seg.verifies = true := by decide
  have h4 : twoBytesSent.segment_teardown ≠ .PASSIVE_CLOSE := by decide
  obtain ⟨st', h, hrun, -⟩ := ack_removes_acknowledged_run 1 [] h1 h2 h3 h4
  exact ⟨⟨h1, h2, h3, h4⟩, st', h, fun e he hle =>
    (hrun e he hle).imp fun _ h => ⟨h.1, h.2.2.2⟩⟩

end Ctcp
