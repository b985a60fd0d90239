import Ctcp.Window

/-!
# A Whole Connection: the Stream, Then the Close

The exchanges of `Ctcp.Transfer` and `Ctcp.Window` end with both engines at rest. This module
closes the connection from there. `X`'s host signals end-of-source: `ctcp_read` enters
`ACTIVE_CLOSE` and sends a FIN. The carrier hands it to `Y`, whose `ctcp_receive` takes the
peer's FIN outside `ACTIVE_CLOSE`: it hands end-of-stream to its host, acknowledges, sends its
own FIN and enters `PASSIVE_CLOSE`. `Y`'s FIN reaches `X`, which acknowledges it and is
destroyed, and that acknowledgement reaches `Y`, which is destroyed too. After the windowed
transfer this is a whole connection: the sink gets the stream, then end-of-stream and nothing
after, and neither engine is left.

- §1 The four calls of the close, each from the state it meets (`ctcpRead_eof_idle`,
  `ctcpReceive_fin_idle`, `ctcpReceive_fin_active`, `ctcpReceive_ack_passive`).
- §2 The close from rest (`AtRest.close`), and the whole connection (`stream_then_close`).
-/

namespace Ctcp

/-! ## §1 The calls of the close -/

/-- An engine at rest in `ACTIVE_CLOSE`: its FIN sent, its timer armed. -/
def activeState (cfg : CtcpConfig) (seqno ackno last_ackno : UInt32) : CtcpState :=
  { idleState cfg seqno ackno last_ackno with
    ack_state.time_out := true, segment_teardown := .ACTIVE_CLOSE }

/-- An engine at rest that has taken the peer's FIN: `PASSIVE_CLOSE`, its own FIN sent, its
timer armed. -/
def passiveState (cfg : CtcpConfig) (seqno ackno last_ackno : UInt32) : CtcpState :=
  { idleState cfg seqno ackno last_ackno with
    ack_state.time_out := true, segment_teardown := .PASSIVE_CLOSE }

/-- **`ctcp_read` of end-of-source at rest.** With both queues empty the busy-waits return at
once: the engine enters `ACTIVE_CLOSE`, sends its FIN and arms the timer. -/
theorem ctcpRead_eof_idle (cfg : CtcpConfig) (fuel : Nat) (s a l : UInt32) :
    ctcpRead (fuel + 1) [.eof] (idleState cfg s a l) =
      some (activeState cfg s a l, [.send (ctcpSendFlags (idleState cfg s a l) a FIN)]) := by
  simp [ctcpRead, readLoop, ctcpSendPossibleDataSegment_eq, fitCount, activeState,
    idleState, ctcpInit, retag, dataSegs, ctcpSendFlags]

/-- **`ctcp_receive` of the peer's FIN at rest.** An engine at rest handed the peer's FIN at its
`ackno` hands end-of-stream to its host, acknowledges the FIN, sends its own FIN (the Receive
Queue is empty, so the busy-wait returns at once) and enters `PASSIVE_CLOSE`. -/
theorem ctcpReceive_fin_idle {cfg : CtcpConfig} {s a l : UInt32} {seg : Segment}
    (hseq : seg.seqno = a) (hflags : seg.flags = FIN) (hver : seg.verifies = true)
    (fuel : Nat) (ans : List SinkAnswer) :
    ctcpReceive (fuel + 1) ans seg (idleState cfg s a l) =
      some (some (passiveState cfg s (a + 1) a),
        [.eof, .send (ctcpSendFlags (idleState cfg s (a + 1) a) (a + 1) ACK),
          .send (ctcpSendFlags (idleState cfg s (a + 1) a) (a + 1) FIN)]) := by
  unfold ctcpReceive
  rw [if_neg (by simp [hseq]), if_neg (by simp [hver]), hflags, segmentType_FIN]
  simp [ctcpReceiveFinWithNoAck, hseq, passiveState, idleState, ctcpInit, ctcpSendFlags]

/-- **`ctcp_receive` of the peer's FIN in `ACTIVE_CLOSE`.** An engine that has sent its FIN,
handed the peer's FIN at its `ackno` that passes the checks, acknowledges it and is destroyed,
whatever its timer holds. -/
theorem ctcpReceive_fin_active {st : CtcpState} (hact : st.segment_teardown = .ACTIVE_CLOSE)
    {seg : Segment} (hseq : seg.seqno = st.conn_state.ackno) (hflags : seg.flags = FIN)
    (hver : seg.verifies = true) (fuel : Nat) (ans : List SinkAnswer) :
    ctcpReceive fuel ans seg st = some (none, [.send (ctcpSendFlags
      { st with conn_state.last_ackno := st.conn_state.ackno, conn_state.ackno := seg.seqno + 1 }
      (seg.seqno + 1) ACK)]) := by
  unfold ctcpReceive
  rw [if_neg (fun hd => hd.1 hseq), if_neg (by simp [hver]), hflags, segmentType_FIN]
  simp [ctcpReceiveFinWithNoAck, hact]

/-- The same from `activeState`, the engine at rest in `ACTIVE_CLOSE`. -/
theorem ctcpReceive_fin_closing {cfg : CtcpConfig} {s a l : UInt32} {seg : Segment}
    (hseq : seg.seqno = a) (hflags : seg.flags = FIN) (hver : seg.verifies = true)
    (fuel : Nat) (ans : List SinkAnswer) :
    ctcpReceive fuel ans seg (activeState cfg s a l) =
      some (none, [.send (ctcpSendFlags (idleState cfg s (a + 1) a) (a + 1) ACK)]) := by
  rw [ctcpReceive_fin_active rfl hseq hflags hver, hseq]
  rfl

/-- **`ctcp_receive` of an ACK in `PASSIVE_CLOSE`.** An engine that has taken the peer's FIN and
sent its own is destroyed by the next ACK that passes the length and checksum checks: the
duplicate branch takes only segments without the ACK bit. -/
theorem ctcpReceive_ack_passive {st : CtcpState} (hp : st.segment_teardown = .PASSIVE_CLOSE)
    {seg : Segment} (hflags : seg.flags = ACK) (hver : seg.verifies = true) (fuel : Nat)
    (ans : List SinkAnswer) : ctcpReceive fuel ans seg st = some (none, []) := by
  unfold ctcpReceive
  rw [if_neg (fun h => absurd h.2.2 (by rw [hflags]; decide)), if_neg (by simp [hver]), hflags,
    segmentType_ACK]
  simp [hp]

/-! ## §2 The close, and the whole connection -/

/-- The close: `X`'s host signals end-of-source; the carrier hands `X`'s FIN (its `k`-th
segment) to `Y`, `Y`'s FIN (its `k+1`-th, after its ACK) to `X`, and `X`'s ACK of it (its
`k+1`-th) to `Y`. -/
def closeRound (k : Nat) : List NetAction :=
  [.read .X 1 [.eof], .deliver .Y k 1 [], .deliver .X (k + 1) 1 [], .deliver .Y (k + 1) 1 []]

/-- The first half of the close, from rest: `X` reads end-of-source and sends its FIN; the
carrier hands it to `Y`, which hands end-of-stream to its host, acknowledges the FIN and sends
its own. -/
theorem AtRest.closeStart {cfg : Side → CtcpConfig} {S : List UInt8} {k : Nat} {n : Net}
    (h : AtRest cfg S k n) :
    runNet n [.read .X 1 [.eof], .deliver .Y k 1 []] = some
      ((n.update .X (some (activeState (cfg .X) (streamEnd S) 1 1))
          [.send (ctcpSendFlags (idleState (cfg .X) (streamEnd S) 1 1) 1 FIN)] []).update .Y
        (some (passiveState (cfg .Y) 1 (streamEnd S + 1) (streamEnd S)))
        [.eof, .send (ctcpSendFlags (idleState (cfg .Y) 1 (streamEnd S + 1) (streamEnd S))
            (streamEnd S + 1) ACK),
          .send (ctcpSendFlags (idleState (cfg .Y) 1 (streamEnd S + 1) (streamEnd S))
            (streamEnd S + 1) FIN)]
        [ctcpSendFlags (idleState (cfg .X) (streamEnd S) 1 1) 1 FIN]) := by
  obtain ⟨hx, ⟨l, hy⟩, rfl, -, -, -⟩ := h
  let fin := ctcpSendFlags (idleState (cfg .X) (streamEnd S) 1 1) 1 FIN
  let n₁ := n.update .X (some (activeState (cfg .X) (streamEnd S) 1 1)) [.send fin] []
  have e₁ : netStep n (.read .X 1 [.eof]) = some n₁ :=
    netStep_read hx (ctcpRead_eof_idle _ 0 _ _ _)
  have e₂ : netStep n₁ (.deliver .Y (n.sent .X).length 1 []) = some (n₁.update .Y
      (some (passiveState (cfg .Y) 1 (streamEnd S + 1) (streamEnd S))) _ [fin]) :=
    netStep_deliver (by simp [n₁, hy]) (by simp [n₁, Side.peer, Event.segment])
      (@ctcpReceive_fin_idle (cfg .Y) 1 (streamEnd S) l fin (by simp [fin, ctcpSendFlags]) rfl
        (ctcpSendFlags_verifies _ _ _) 0 [])
  simp only [runNet, e₁, e₂, Option.some_bind]

/-- **The close from rest.** From any point of the lockstep exchange, the close destroys both
engines; `Y`'s host gets end-of-stream, and nothing is written after it. -/
theorem AtRest.close {cfg : Side → CtcpConfig} {S : List UInt8} {k : Nat} {n : Net}
    (h : AtRest cfg S k n) :
    ∃ n', runNet n (closeRound k) = some n' ∧ n'.eng .X = none ∧ n'.eng .Y = none ∧
      outbound (n'.trace .X) = S ∧
      ∃ post, n'.trace .Y = n.trace .Y ++ .eof :: post ∧ sinkBytes post = [] := by
  have e₂ := h.closeStart
  obtain ⟨-, -, rfl, hky, hout, -⟩ := h
  set s := streamEnd S
  let fin := ctcpSendFlags (idleState (cfg .X) s 1 1) 1 FIN
  let yack := ctcpSendFlags (idleState (cfg .Y) 1 (s + 1) s) (s + 1) ACK
  let yfin := ctcpSendFlags (idleState (cfg .Y) 1 (s + 1) s) (s + 1) FIN
  let xack := ctcpSendFlags (idleState (cfg .X) s (1 + 1) 1) (1 + 1) ACK
  let n₂ := (n.update .X (some (activeState (cfg .X) s 1 1)) [.send fin] []).update .Y
    (some (passiveState (cfg .Y) 1 (s + 1) s)) [.eof, .send yack, .send yfin] [fin]
  let n₃ := n₂.update .X none [.send xack] [yfin]
  let n₄ := n₃.update .Y none [] [xack]
  have e₃ : netStep n₂ (.deliver .X ((n.sent .X).length + 1) 1 []) = some n₃ :=
    netStep_deliver (by simp [n₂]) (show (n₂.sent .Y)[_]? = _ by
        rw [show n₂.sent .Y = (n.sent .Y ++ [yack]) ++ [yfin] by simp [n₂, Event.segment],
          ← hky, show (n.sent .Y).length + 1 = (n.sent .Y ++ [yack]).length by simp]
        exact List.getElem?_concat_length _ _)
      (@ctcpReceive_fin_closing (cfg .X) s 1 1 yfin (by simp [yfin, ctcpSendFlags]) rfl
        (ctcpSendFlags_verifies _ _ _) 1 [])
  have e₄ : netStep n₃ (.deliver .Y ((n.sent .X).length + 1) 1 []) = some n₄ :=
    netStep_deliver (by simp [n₂, n₃]) (show (n₃.sent .X)[_]? = _ by
        rw [show n₃.sent .X = (n.sent .X ++ [fin]) ++ [xack] by simp [n₂, n₃, Event.segment],
          show (n.sent .X).length + 1 = (n.sent .X ++ [fin]).length by simp]
        exact List.getElem?_concat_length _ _)
      (@ctcpReceive_ack_passive (passiveState (cfg .Y) 1 (s + 1) s) rfl xack rfl
        (ctcpSendFlags_verifies _ _ _) 1 [])
  refine ⟨n₄, ?_, by simp [n₃, n₄], by simp [n₄], by simp [n₂, n₃, n₄, hout, Event.enqueued],
    [.send yack, .send yfin], by simp [n₂, n₃, n₄], rfl⟩
  rw [show closeRound _ = [_, _] ++ [_, _] from rfl, runNet_append, e₂]
  simp only [runNet, e₃, e₄, Option.some_bind]

/-- **A whole connection over a faithful carrier.** For every pair of configurations and every
stream written as batches that fit, as in `window_delivers_stream`: after the windowed transfer
and the close, both engines are destroyed; `X`'s outbound stream is what its host wrote; and
`Y`'s host has been handed exactly that stream, then end-of-stream, and nothing after. -/
theorem stream_then_close (cfg : Side → CtcpConfig) (bs : List (List (List UInt8)))
    (hbs : ∀ cs ∈ bs, WindowFits (cfg .X).send_window (cfg .Y).recv_window cs)
    (hS : bs.flatten.flatten.length + 1 < 2 ^ 32) :
    ∃ n, runNet (Net.init cfg) (windowed 0 bs ++ closeRound bs.flatten.length) = some n ∧
      n.eng .X = none ∧ n.eng .Y = none ∧ outbound (n.trace .X) = bs.flatten.flatten ∧
      ∃ pre post, n.trace .Y = pre ++ .eof :: post ∧ sinkBytes pre = bs.flatten.flatten ∧
        sinkBytes post = [] := by
  obtain ⟨n₁, h₁, hr⟩ := (atRest_init cfg).windows bs hbs (by simp only [List.length_nil]; omega)
  rw [Nat.zero_add] at hr
  obtain ⟨n₂, h₂, hx, hy, hout, post, hty, hpost⟩ := hr.close
  exact ⟨n₂, by rw [runNet_append, h₁, Option.some_bind, h₂], hx, hy, by simpa using hout,
    n₁.trace .Y, post, hty, by simpa using hr.sink, hpost⟩

/-- `X` writes `"hi"` and `"!"` in one window, then closes. -/
theorem stream_then_close_hi :
    ∃ n, runNet (Net.init fun _ => ⟨2000, 2000, 40, 40⟩)
        (windowed 0 [[[104, 105], [33]]] ++ closeRound 2) = some n ∧
      n.eng .X = none ∧ n.eng .Y = none ∧ outbound (n.trace .X) = [104, 105, 33] ∧
      ∃ pre post, n.trace .Y = pre ++ .eof :: post ∧ sinkBytes pre = [104, 105, 33] ∧
        sinkBytes post = [] :=
  stream_then_close _ [[[104, 105], [33]]] (by decide) (by decide)

end Ctcp
