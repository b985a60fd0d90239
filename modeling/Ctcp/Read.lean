import Ctcp.Send

/-!
# cTCP Reading

`ctcp_read` of `ctcp.c`: drain the source into Send Queue elements of at most
`MAX_SEG_DATA_SIZE` bytes, handle end-of-source, then run the sending pass.

The host's answers to `conn_input` are a list of `InputAnswer`s. A `data` answer longer than
the request is read as its first `MAX_SEG_DATA_SIZE` bytes (the host never writes more than it
is asked for), an empty one is the return value `0`, and the end of the list is read as `0`
too: every list is a host that yields positive counts finitely often within one call.
-/

namespace Ctcp

/-- One answer of `conn_input`. -/
inductive InputAnswer where
  /-- Bytes read (none: the return value `0`, nothing available now). -/
  | data (bytes : List UInt8)
  /-- The end-of-source value `-1`. -/
  | eof
deriving DecidableEq, Repr

/-- A Send Queue element as `ctcp_read` creates it: untagged (`calloc`), holding `chunk`. -/
def TxState.fresh (chunk : List UInt8) : TxState := { segment_next_seqno := 0, tx_buffer := chunk }

/-- The diagnostic prefix `"###truncate###"`, 14 bytes. -/
def truncateMarker : List UInt8 := "###truncate###".toList.map fun c => c.toNat.toUInt8

/-- The loop of `ctcp_read`. On end-of-source it busy-waits for both queues to empty, enters
`ACTIVE_CLOSE`, sends a FIN and arms the timer. A chunk longer than 14 bytes starting with
`truncateMarker` stops the loop without being queued; any other chunk is appended to the Send
Queue untagged. -/
def readLoop (fuel : Nat) (st : CtcpState) : List InputAnswer → Option (CtcpState × List Event)
  | [] => some (st, [])
  | .eof :: _ =>
    (spin fuel (0 < st.rx_state.length)).bind fun _ =>
    (spin fuel (0 < st.tx_state.length)).map fun _ =>
      let st₁ := { st with segment_teardown := .ACTIVE_CLOSE }
      ({ st₁ with ack_state.time_out := true },
        [.send (ctcpSendFlags st₁ st₁.conn_state.ackno FIN)])
  | .data bytes :: rest =>
    let chunk := bytes.take MAX_SEG_DATA_SIZE
    if chunk.length = 0 then some (st, [])
    else if 14 < chunk.length ∧ chunk.take 14 = truncateMarker then some (st, [])
    else
      (readLoop fuel
        { st with tx_state := st.tx_state ++ [TxState.fresh chunk] }
        rest).map fun r => (r.1, .enqueue chunk :: r.2)

/-- `ctcp_read`: the read loop, then `ctcp_send_possible_data_segment`. `none` when a
busy-wait of the end-of-source branch never ends. -/
def ctcpRead (fuel : Nat) (input : List InputAnswer) (st : CtcpState) :
    Option (CtcpState × List Event) :=
  (readLoop fuel st input).map fun r =>
    let p := ctcpSendPossibleDataSegment r.1
    (p.1, r.2 ++ p.2)

/-- **What the read loop did**: appended untagged chunks of at most `MAX_SEG_DATA_SIZE` bytes,
and on end-of-source also entered `ACTIVE_CLOSE` with the timer armed. Its events are the
chunks (ghost) and at most a FIN, advertising the window of the state the loop started from. -/
theorem readLoop_spec {fuel : Nat} {st st' : CtcpState} {input : List InputAnswer}
    {evs : List Event} (h : readLoop fuel st input = some (st', evs)) :
    ∃ cs : List (List UInt8),
      (st' = { st with tx_state := st.tx_state ++ cs.map TxState.fresh } ∨
       st' = { st with tx_state := st.tx_state ++ cs.map TxState.fresh,
                       segment_teardown := .ACTIVE_CLOSE, ack_state.time_out := true }) ∧
      outbound evs = cs.flatten ∧ acceptedBytes evs = [] ∧ sinkBytes evs = [] ∧
      (∀ seg ∈ sends evs, seg.flags = FIN ∧ seg.verifies = true ∧
        seg.window = advertisedWindow st.conn_state.rcv_window st.conn_state.rcv_window_used) ∧
      ∀ c ∈ cs, c.length ≤ MAX_SEG_DATA_SIZE := by
  induction input generalizing st st' evs with
  | nil =>
    simp only [readLoop, Option.some.injEq, Prod.mk.injEq] at h
    obtain ⟨rfl, rfl⟩ := h
    exact ⟨[], .inl (by simp), by simp⟩
  | cons a rest ih =>
    cases a with
    | eof =>
      obtain ⟨_, -, h⟩ := Option.bind_eq_some.mp h
      obtain ⟨_, -, h⟩ := Option.map_eq_some'.mp h
      simp only [Prod.mk.injEq] at h
      obtain ⟨rfl, rfl⟩ := h
      exact ⟨[], .inr (by simp), by simp [Event.enqueued, Event.accepted, Event.written,
        Event.segment]⟩
    | data bytes =>
      simp only [readLoop] at h
      split at h
      · simp only [Option.some.injEq, Prod.mk.injEq] at h
        obtain ⟨rfl, rfl⟩ := h
        exact ⟨[], .inl (by simp), by simp⟩
      split at h
      · simp only [Option.some.injEq, Prod.mk.injEq] at h
        obtain ⟨rfl, rfl⟩ := h
        exact ⟨[], .inl (by simp), by simp⟩
      obtain ⟨r, hr, hr'⟩ := Option.map_eq_some'.mp h
      obtain ⟨cs, hst, h1, h2, h3, h4, h5⟩ := ih hr
      cases hr'
      refine ⟨bytes.take MAX_SEG_DATA_SIZE :: cs, ?_, by simp [h1, Event.enqueued], by
        simp [h2, Event.accepted], by simp [h3, Event.written], by simpa [Event.segment] using h4,
        List.forall_mem_cons.mpr ⟨List.length_take_le _ _, h5⟩⟩
      rcases hst with hst | hst <;> [left; right] <;> rw [hst] <;> simp

/-- **What `ctcp_read` did to the engine.** Besides the Send Queue and the fields the pass sets
(`next_seqno`, `send_window_used`, the timer's `time_out`), it changed at most the teardown
state, to `ACTIVE_CLOSE`. -/
theorem ctcpRead_frame {fuel : Nat} {input : List InputAnswer} {st st' : CtcpState}
    {evs : List Event} (h : ctcpRead fuel input st = some (st', evs)) :
    ∃ n u t q,
      st' = { st with conn_state.next_seqno := n, conn_state.send_window_used := u,
                      ack_state.time_out := t, tx_state := q } ∨
      st' = { st with conn_state.next_seqno := n, conn_state.send_window_used := u,
                      ack_state.time_out := t, tx_state := q,
                      segment_teardown := .ACTIVE_CLOSE } := by
  obtain ⟨⟨st₁, evs₁⟩, hloop, hr'⟩ := Option.map_eq_some'.mp h
  simp only [Prod.mk.injEq] at hr'
  obtain ⟨rfl, rfl⟩ := hr'
  obtain ⟨cs, hst, -⟩ := readLoop_spec hloop
  obtain ⟨n, u, t, q, hp⟩ := ctcpSendPossibleDataSegment_frame st₁
  refine ⟨n, u, t, q, ?_⟩
  rw [hp]
  rcases hst with rfl | rfl
  exacts [.inl rfl, .inr rfl]

/-- At end-of-source the loop waits for the Send Queue to empty; nothing in the wait changes
the queue, so with an element queued it never returns. -/
theorem readLoop_eof_busy (fuel : Nat) (st : CtcpState) (rest : List InputAnswer)
    (hq : 0 < st.tx_state.length) : readLoop fuel st (.eof :: rest) = none := by
  simp only [readLoop, decide_eq_true hq, spin_true, Option.map_none']
  cases spin fuel (decide (0 < st.rx_state.length)) <;> rfl

/-- **Reading a byte and then end-of-source never returns.** On a fresh connection the byte is
queued untagged, and the pass that would send it runs only after the loop, so the busy-wait on
the Send Queue spins forever, whatever the fuel. -/
theorem ctcpRead_byte_then_eof_hangs (cfg : CtcpConfig) (fuel : Nat) :
    ctcpRead fuel [.data [97], .eof] (ctcpInit cfg) = none := by
  have hloop : readLoop fuel (ctcpInit cfg) [.data [97], .eof] =
      (readLoop fuel { ctcpInit cfg with tx_state := [TxState.fresh [97]] } [.eof]).map
        fun r => (r.1, .enqueue [97] :: r.2) := rfl
  rw [ctcpRead, hloop,
    readLoop_eof_busy fuel { ctcpInit cfg with tx_state := [TxState.fresh [97]] } [] Nat.one_pos]
  rfl

end Ctcp
