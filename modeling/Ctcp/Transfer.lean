import Ctcp.Network

/-!
# The Stream Arrives over a Faithful Carrier

`Ctcp.Network` shows what a carrier that loses and reorders can do to a connection. This module
shows what the connection is for, and where it stops recovering. When the hosts and the carrier
go in lockstep (`X`'s host hands over one chunk, the carrier hands `X`'s segment to `Y`, whose
sink has room for it, and hands `Y`'s acknowledgement back to `X`), every chunk `X`'s host
writes reaches `Y`'s sink, in order, and both engines come back to rest after each round, with
nothing queued and `X`'s timer disarmed. If the chunk's segment is lost, `X`'s timer sends the
same segment again, and any one copy that gets through completes the round. If instead the
acknowledgement is lost, `X`'s retransmissions never get the chunk acknowledged.

- §1 Engines at rest, and the calls that read and receive a chunk (`ctcpRead_idle`,
  `ctcpReceive_data_idle`).
- §2 An engine holding a sent chunk: what its timer and an ACK for the chunk do to it
  (`Holding.timer`, `Holding.receive_ack`).
- §3 One round of the system, in two halves, and the whole stream by induction over its chunks
  (`lockstep_delivers_stream`).
- §4 A lost segment: any number of timer calls, then one copy and its ACK
  (`lost_segment_recovered`).
- §5 A lost acknowledgement: `Y` answers every copy of the chunk with an ACK for its first
  byte, which `X` ignores (`lost_ack_never_repaired`).
-/

namespace Ctcp

/-! ## §1 Engines at rest -/

/-- An engine at rest: nothing queued either way, `NO_CLOSE`, the timer disarmed and reset.
Everything it sent below `seqno` is acknowledged, and it acknowledges the peer up to
`ackno`. -/
def idleState (cfg : CtcpConfig) (seqno ackno last_ackno : UInt32) : CtcpState :=
  { ctcpInit cfg with
    conn_state.seqno := seqno, conn_state.next_seqno := seqno,
    conn_state.ackno := ackno, conn_state.last_ackno := last_ackno }

/-- An engine at rest after `ctcp_read` has queued the chunk `c` and its pass has sent it. -/
def sendingState (cfg : CtcpConfig) (seqno ackno last_ackno : UInt32) (c : List UInt8) :
    CtcpState :=
  { idleState cfg seqno ackno last_ackno with
    conn_state.next_seqno := seqno + UInt32.ofNat c.length,
    conn_state.send_window_used := UInt16.ofNat c.length,
    ack_state.time_out := true,
    tx_state := [⟨seqno + UInt32.ofNat c.length, c⟩] }

@[simp] theorem idleState_conn_state (cfg : CtcpConfig) (s a l : UInt32) :
    (idleState cfg s a l).conn_state =
      ⟨s, s, a, l, cfg.send_window, 0, cfg.recv_window, 0⟩ := rfl

@[simp] theorem idleState_tx_state (cfg : CtcpConfig) (s a l : UInt32) :
    (idleState cfg s a l).tx_state = [] := rfl

@[simp] theorem idleState_rx_state (cfg : CtcpConfig) (s a l : UInt32) :
    (idleState cfg s a l).rx_state = [] := rfl

/-- A chunk that `ctcp_read` queues whole, that fits `X`'s send window `sw` and `Y`'s receive
window `rw` on its own. -/
def ChunkFits (sw rw : UInt16) (c : List UInt8) : Prop :=
  0 < c.length ∧ c.length ≤ MAX_SEG_DATA_SIZE ∧ c.length ≤ sw.toNat ∧ c.length ≤ rw.toNat ∧
    ¬(14 < c.length ∧ c.take 14 = truncateMarker)

instance (sw rw : UInt16) (c : List UInt8) : Decidable (ChunkFits sw rw c) :=
  inferInstanceAs (Decidable (_ ∧ _ ∧ _ ∧ _ ∧ _))

theorem u32_add_ofNat_sub (a : UInt32) (m n : Nat) :
    a + UInt32.ofNat (m + n) - UInt32.ofNat m = a + UInt32.ofNat n := by
  rw [u32_ofNat_add, add_left_comm, add_sub_cancel_left]

/-- **`ctcp_read` at rest.** A chunk read by an engine at rest is queued and sent at once, at
`seqno`, and arms the timer. -/
theorem ctcpRead_idle {cfg : CtcpConfig} {c : List UInt8} (hpos : 0 < c.length)
    (hmax : c.length ≤ MAX_SEG_DATA_SIZE) (hsw : c.length ≤ cfg.send_window.toNat)
    (hmark : ¬(14 < c.length ∧ c.take 14 = truncateMarker)) (fuel : Nat) (s a l : UInt32) :
    ctcpRead fuel [.data c] (idleState cfg s a l) =
      some (sendingState cfg s a l c,
        [.enqueue c, .send (dataSegment a (advertisedWindow cfg.recv_window 0) s
          (TxState.fresh c))]) := by
  have htake : c.take MAX_SEG_DATA_SIZE = c := List.take_of_length_le hmax
  have hfit : fitCount cfg.send_window.toNat 0 [TxState.fresh c] = 1 := by
    simp only [fitCount, TxState.fresh, TxState.buffer_size]
    rw [if_neg (by omega)]
  simp only [ctcpRead, readLoop, htake, Nat.pos_iff_ne_zero.mp hpos, if_false, hmark,
    Option.map_some', ctcpSendPossibleDataSegment_eq, idleState_tx_state,
    idleState_conn_state, List.nil_append, hfit]
  simp [idleState, sendingState, ctcpInit, retag, dataSegs, TxState.fresh, TxState.buffer_size]

/-- **`ctcp_receive` of the next DATA segment at rest.** An engine at rest handed a DATA
segment at its `ackno`, with a sink that has room for the payload, accepts it, writes it
whole, acknowledges it, and is at rest again with `ackno` past it. -/
theorem ctcpReceive_data_idle {cfg : CtcpConfig} {c : List UInt8} (hpos : 0 < c.length)
    (hmax : c.length ≤ MAX_SEG_DATA_SIZE) (hrw : c.length ≤ cfg.recv_window.toNat)
    (fuel : Nat) (s a l b : UInt32) (w : UInt16) :
    ctcpReceive fuel [⟨c.length, c.length⟩] (dataSegment b w a (TxState.fresh c))
        (idleState cfg s a l) =
      some (some (idleState cfg s (a + UInt32.ofNat c.length) a),
        [.accept c, .output c,
          .send (ctcpSendFlags (idleState cfg s (a + UInt32.ofNat c.length) a)
            (a + UInt32.ofNat c.length) ACK)]) := by
  have hver := @dataSegment_verifies b w a (TxState.fresh c) hmax
  have hmax' : c.length ≤ 1000 := hmax
  have hlen : (UInt16.ofNat (headerSize + c.length)).toUInt32 =
      UInt32.ofNat (headerSize + c.length) := UInt32.toNat.inj (by
    rw [u16_toNat_toUInt32, u16_toNat_ofNat, u32_toNat_ofNat]; unfold headerSize; omega)
  have hwin : 0 + UInt16.ofNat c.length - UInt16.ofNat c.length = 0 := UInt16.toNat.inj (by
    have h0 : UInt16.toNat 0 = 0 := rfl
    simp only [UInt16.toNat_sub, UInt16.toNat_add, UInt16.size, u16_toNat_ofNat, h0]; omega)
  have h64 : (c.length : Int) % 18446744073709551616 = c.length :=
    Int.emod_eq_of_lt (by omega) (by omega)
  unfold ctcpReceive
  rw [if_neg (by simp [dataSegment]), if_neg (by simp [hver])]
  simp [dataSegment, ctcpReceiveDataSegment, rxAccept, ctcpOutput, outputLoop,
    TxState.fresh, TxState.buffer_size, List.ne_nil_of_length_pos hpos, h64, hrw, hlen,
    u32_add_ofNat_sub, hwin, RxState.tail]
  exact ⟨rfl, rfl⟩

/-! ## §2 An engine holding its chunk -/

/-- The DATA segment that an engine at rest at `s` sends for the chunk `c`. -/
def chunkSegment (cfg : CtcpConfig) (s : UInt32) (c : List UInt8) : Segment :=
  dataSegment 1 (advertisedWindow cfg.recv_window 0) s (TxState.fresh c)

/-- The ACK that an engine at rest with `ackno = s` sends once it has accepted and written
`c`. -/
def chunkAck (cfg : CtcpConfig) (s : UInt32) (c : List UInt8) : Segment :=
  ctcpSendFlags (idleState cfg 1 (s + UInt32.ofNat c.length) s) (s + UInt32.ofNat c.length) ACK

/-- An engine still holding the chunk `c` it sent at `s`: its connection record as the pass
left it, `c` alone in the Send Queue, nothing received, not in `PASSIVE_CLOSE`. Its timer, and
whether it has begun an active close, are left open. -/
structure Holding (cfg : CtcpConfig) (s : UInt32) (c : List UInt8) (x : CtcpState) : Prop where
  conn : x.conn_state = (sendingState cfg s 1 1 c).conn_state
  queue : x.tx_state = [⟨s + UInt32.ofNat c.length, c⟩]
  rx : x.rx_state = []
  not_passive : x.segment_teardown ≠ .PASSIVE_CLOSE

theorem sendingState_holding (cfg : CtcpConfig) (s : UInt32) (c : List UInt8) :
    Holding cfg s c (sendingState cfg s 1 1 c) :=
  ⟨rfl, rfl, rfl, nofun⟩

theorem ctcpOutput_nil_rx (ans : List SinkAnswer) {st : CtcpState} (h : st.rx_state = []) :
    ctcpOutput ans st = (st, []) := by
  obtain ⟨_, _, _, _, _⟩ := st
  subst h
  simp [ctcpOutput, outputLoop]

/-- The pass on a holding engine sends the chunk again, exactly as before. -/
theorem Holding.pass {cfg : CtcpConfig} {s : UInt32} {c : List UInt8} {x : CtcpState}
    (h : Holding cfg s c x) (hsw : c.length ≤ cfg.send_window.toNat) :
    Holding cfg s c (ctcpSendPossibleDataSegment x).1 ∧
      (ctcpSendPossibleDataSegment x).2 = [.send (chunkSegment cfg s c)] := by
  have hfit : fitCount cfg.send_window.toNat 0 [⟨s + UInt32.ofNat c.length, c⟩] = 1 := by
    simp only [fitCount, TxState.buffer_size]
    rw [if_neg (by omega)]
  obtain ⟨hc, hq, hr, hp⟩ := h
  rw [ctcpSendPossibleDataSegment_eq, hc, hq]
  refine ⟨⟨?_, ?_, hr, hp⟩, ?_⟩ <;>
    simp [sendingState, idleState, ctcpInit, hfit, retag, dataSegs, TxState.buffer_size,
      chunkSegment, dataSegment, TxState.fresh]

/-- One run of the timer body on a holding engine keeps it holding and sends only the chunk
again or FINs. -/
theorem Holding.timerVisit {cfg : CtcpConfig} {s : UInt32} {c : List UInt8} {x : CtcpState}
    (h : Holding cfg s c x) (hsw : c.length ≤ cfg.send_window.toNat) (ans : List SinkAnswer) :
    Holding cfg s c (timerVisit ans x).2.1 ∧
      ∀ seg ∈ sends (timerVisit ans x).2.2, seg = chunkSegment cfg s c ∨ seg.flags = FIN := by
  obtain ⟨a, td, -, htd, hv⟩ := timerVisit_shape ans x
  have h₀ : Holding cfg s c { x with ack_state := a, segment_teardown := td } :=
    ⟨h.conn, h.queue, h.rx, by rcases htd with rfl | rfl; exacts [h.not_passive, nofun]⟩
  obtain ⟨hp, hps⟩ := h₀.pass hsw
  rcases hv with ⟨hst, hfin⟩ | hv | hv
  · rw [hst]
    exact ⟨h₀, fun seg hs => .inr ((sendsOnly hfin).2.2.2 seg hs).1⟩
  · rw [hv, hps]
    exact ⟨hp, by simp [Event.segment]⟩
  · rw [hv, ctcpOutput_nil_rx ans hp.rx, hps]
    exact ⟨hp, by simp [Event.segment]⟩

theorem Holding.timer {cfg : CtcpConfig} {s : UInt32} {c : List UInt8} {x x' : CtcpState}
    (h : Holding cfg s c x) (hsw : c.length ≤ cfg.send_window.toNat) {fuel : Nat}
    {ans : List (List SinkAnswer)} {evs : List Event}
    (hw : timerWalk fuel ans [x] = some ([x'], evs)) :
    Holding cfg s c x' ∧ ∀ seg ∈ sends evs, seg = chunkSegment cfg s c ∨ seg.flags = FIN := by
  refine @timerWalk_single
    (fun y t => Holding cfg s c y ∧ ∀ seg ∈ sends t, seg = chunkSegment cfg s c ∨ seg.flags = FIN)
    (fun ans y t hy => ?_) fuel ans x x' [] evs hw ⟨h, nofun⟩
  obtain ⟨h₁, h₂⟩ := hy.1.timerVisit hsw ans
  refine ⟨h₁, fun seg hs => ?_⟩
  rw [sends_append] at hs
  exact (List.mem_append.mp hs).elim (hy.2 seg) (h₂ seg)

/-- A holding engine once its chunk is acknowledged: at rest past it, nothing queued, the timer
disarmed and reset; its `timer_overflow` and teardown state as they were. -/
def ackedState (cfg : CtcpConfig) (seqno : UInt32) (x : CtcpState) : CtcpState :=
  { x with
    conn_state := (idleState cfg seqno 1 1).conn_state, tx_state := [],
    ack_state := { x.ack_state with time_out := false, counter := 0, time_out_num := 0 } }

@[simp] theorem ackedState_sendingState (cfg : CtcpConfig) (s : UInt32) (c : List UInt8) :
    ackedState cfg (s + UInt32.ofNat c.length) (sendingState cfg s 1 1 c) =
      idleState cfg (s + UInt32.ofNat c.length) 1 1 := rfl

/-- **`ctcp_receive` of the acknowledgement.** A holding engine handed the peer's ACK for all of
the chunk drops it, disarms the timer and is at rest past it, however often its timer fired
meanwhile. -/
theorem Holding.receive_ack {cfg : CtcpConfig} {s : UInt32} {c : List UInt8} {x : CtcpState}
    (h : Holding cfg s c x) (hpos : 0 < c.length) (hs : s.toNat + c.length < 2 ^ 32)
    (cfg' : CtcpConfig) (fuel : Nat) (ans : List SinkAnswer) :
    ctcpReceive fuel ans (chunkAck cfg' s c) x =
      some (some (ackedState cfg (s + UInt32.ofNat c.length) x), []) := by
  have htag : 0 < s + UInt32.ofNat c.length := by
    rw [u32_lt_iff, u32_toNat_add_ofNat hs]; exact Nat.lt_of_lt_of_le hpos (Nat.le_add_left _ _)
  obtain ⟨conn, q, rx, ack, td⟩ := x
  obtain ⟨rfl, rfl, rfl, hp⟩ := h
  unfold ctcpReceive
  rw [if_neg (by simp [chunkAck, ctcpSendFlags, sendingState, idleState, ctcpInit]),
    if_neg (by simp [chunkAck]),
    show (chunkAck cfg' s c).flags = ACK from ctcpSendFlags_flags _ _ _, segmentType_ACK]
  simp [hp, receiveAck, ackLoop, chunkAck, ctcpSendFlags, htag, sub_self,
    TxState.buffer_size, sendingState, idleState, ctcpInit, ackedState]

/-! ## §3 The stream in lockstep -/

/-- One round: `X`'s host hands over the chunk `c`; the carrier hands `X`'s `k`-th segment to
`Y`, whose sink has room for `c`; the carrier hands `Y`'s `k`-th segment back to `X`. -/
def lockstepRound (k : Nat) (c : List UInt8) : List NetAction :=
  [.read .X 1 [.data c], .deliver .Y k 1 [⟨c.length, c.length⟩], .deliver .X k 1 []]

/-- The rounds for the chunks `cs`, the first of them the `k`-th. -/
def lockstep : Nat → List (List UInt8) → List NetAction
  | _, [] => []
  | k, c :: cs => lockstepRound k c ++ lockstep (k + 1) cs

/-- The sequence number one past the stream `S`. -/
def streamEnd (S : List UInt8) : UInt32 := UInt32.ofNat (1 + S.length)

theorem streamEnd_append (S c : List UInt8) :
    streamEnd (S ++ c) = streamEnd S + UInt32.ofNat c.length := by
  rw [streamEnd, streamEnd, List.length_append, ← Nat.add_assoc, u32_ofNat_add]

theorem streamEnd_toNat_add {S c : List UInt8} (hS : 1 + S.length + c.length < 2 ^ 32) :
    (streamEnd S).toNat + c.length < 2 ^ 32 := by
  rw [streamEnd, u32_toNat_ofNat, Nat.mod_eq_of_lt (by omega)]; omega

/-- `X` at rest at `s` reads the chunk and sends it. -/
theorem netStep_read_idle {cfg : Side → CtcpConfig} {n : Net} {s : UInt32}
    (hx : n.eng .X = some (idleState (cfg .X) s 1 1)) {c : List UInt8}
    (hc : ChunkFits (cfg .X).send_window (cfg .Y).recv_window c) :
    netStep n (.read .X 1 [.data c]) =
      some (n.update .X (some (sendingState (cfg .X) s 1 1 c))
        [.enqueue c, .send (chunkSegment (cfg .X) s c)] []) :=
  netStep_read hx (ctcpRead_idle hc.1 hc.2.1 hc.2.2.1 hc.2.2.2.2 1 s 1 1)

/-- `Y` at rest with `ackno = s`, handed the chunk, writes it and acknowledges it. -/
theorem netStep_deliver_chunk {cfg : Side → CtcpConfig} {n : Net} {s l : UInt32}
    (hy : n.eng .Y = some (idleState (cfg .Y) 1 s l)) {c : List UInt8}
    (hc : ChunkFits (cfg .X).send_window (cfg .Y).recv_window c) {i : Nat}
    (hi : (n.sent .X)[i]? = some (chunkSegment (cfg .X) s c)) :
    netStep n (.deliver .Y i 1 [⟨c.length, c.length⟩]) =
      some (n.update .Y (some (idleState (cfg .Y) 1 (s + UInt32.ofNat c.length) s))
        [.accept c, .output c, .send (chunkAck (cfg .Y) s c)] [chunkSegment (cfg .X) s c]) :=
  netStep_deliver hy hi (ctcpReceive_data_idle hc.1 hc.2.1 hc.2.2.2.1 1 1 s l 1 _)

/-- A holding `X`, handed `Y`'s ACK of the chunk, is at rest past it. -/
theorem netStep_deliver_ack {cfg : Side → CtcpConfig} {n : Net} {s : UInt32} {c : List UInt8}
    {x : CtcpState} (hx : n.eng .X = some x) (hh : Holding (cfg .X) s c x)
    (hpos : 0 < c.length) (hs : s.toNat + c.length < 2 ^ 32) {j : Nat}
    (hj : (n.sent .Y)[j]? = some (chunkAck (cfg .Y) s c)) :
    netStep n (.deliver .X j 1 []) =
      some (n.update .X (some (ackedState (cfg .X) (s + UInt32.ofNat c.length) x)) []
        [chunkAck (cfg .Y) s c]) :=
  netStep_deliver hx hj (hh.receive_ack hpos hs (cfg .Y) 1 [])

/-- Both engines at rest after `k` rounds that carried the stream `S`: `X` has had all of `S`
acknowledged, `Y` acknowledges all of it and has written it to its sink, and each side has sent
one segment per round. -/
structure AtRest (cfg : Side → CtcpConfig) (S : List UInt8) (k : Nat) (n : Net) : Prop where
  x : n.eng .X = some (idleState (cfg .X) (streamEnd S) 1 1)
  y : ∃ l, n.eng .Y = some (idleState (cfg .Y) 1 (streamEnd S) l)
  sent_x : (n.sent .X).length = k
  sent_y : (n.sent .Y).length = k
  stream : outbound (n.trace .X) = S
  sink : sinkBytes (n.trace .Y) = S

theorem atRest_init (cfg : Side → CtcpConfig) : AtRest cfg [] 0 (Net.init cfg) :=
  ⟨rfl, ⟨1, rfl⟩, rfl, rfl, rfl, rfl⟩

/-- Half a round: `X` has sent the chunk `c` as its `k`-th segment, and `Y` has accepted it,
written it and sent its ACK as its `k`-th segment. -/
structure Delivered (cfg : Side → CtcpConfig) (S c : List UInt8) (k : Nat) (n : Net) : Prop where
  x : n.eng .X = some (sendingState (cfg .X) (streamEnd S) 1 1 c)
  y : n.eng .Y = some (idleState (cfg .Y) 1 (streamEnd S + UInt32.ofNat c.length) (streamEnd S))
  sent_x : ∃ l, n.sent .X = l ++ [chunkSegment (cfg .X) (streamEnd S) c] ∧ l.length = k
  sent_y : ∃ l, n.sent .Y = l ++ [chunkAck (cfg .Y) (streamEnd S) c] ∧ l.length = k
  stream : outbound (n.trace .X) = S ++ c
  sink : sinkBytes (n.trace .Y) = S ++ c

/-- The first half of a round: `X` reads the chunk and `Y` receives it. -/
theorem AtRest.deliver {cfg : Side → CtcpConfig} {S : List UInt8} {k : Nat} {n : Net}
    (h : AtRest cfg S k n) {c : List UInt8}
    (hc : ChunkFits (cfg .X).send_window (cfg .Y).recv_window c) :
    ∃ n₂, runNet n [.read .X 1 [.data c], .deliver .Y k 1 [⟨c.length, c.length⟩]] = some n₂ ∧
      Delivered cfg S c k n₂ := by
  obtain ⟨hx, ⟨l, hy⟩, rfl, hky, hout, hsink⟩ := h
  let n₁ := n.update .X (some (sendingState (cfg .X) (streamEnd S) 1 1 c))
    [.enqueue c, .send (chunkSegment (cfg .X) (streamEnd S) c)] []
  let n₂ := n₁.update .Y
    (some (idleState (cfg .Y) 1 (streamEnd S + UInt32.ofNat c.length) (streamEnd S)))
    [.accept c, .output c, .send (chunkAck (cfg .Y) (streamEnd S) c)]
    [chunkSegment (cfg .X) (streamEnd S) c]
  have e₂ : netStep n₁ (.deliver .Y (n.sent .X).length 1 [⟨c.length, c.length⟩]) = some n₂ :=
    @netStep_deliver_chunk cfg n₁ _ l (by simp [n₁, hy]) c hc _
      (by simp [n₁, Event.segment, List.getElem?_concat_length])
  refine ⟨n₂, by simp only [runNet, netStep_read_idle hx hc, e₂, Option.some_bind],
    by simp [n₁, n₂], by simp [n₂], ⟨n.sent .X, by simp [n₁, n₂, Event.segment], rfl⟩,
    ⟨n.sent .Y, by simp [n₁, n₂, Event.segment], hky⟩, by simp [n₁, n₂, hout, Event.enqueued],
    by simp [n₁, n₂, hsink, Event.written]⟩

/-- The second half of a round: `X` receives `Y`'s ACK and is at rest again. -/
theorem Delivered.ack {cfg : Side → CtcpConfig} {S c : List UInt8} {k : Nat} {n : Net}
    (h : Delivered cfg S c k n) (hpos : 0 < c.length) (hS : 1 + S.length + c.length < 2 ^ 32) :
    ∃ n', netStep n (.deliver .X k 1 []) = some n' ∧ AtRest cfg (S ++ c) (k + 1) n' := by
  obtain ⟨hx, hy, ⟨lx, hsx, rfl⟩, ⟨ly, hsy, hly⟩, hout, hsink⟩ := h
  have e := @netStep_deliver_ack cfg n _ c _ hx (sendingState_holding _ _ _) hpos
    (streamEnd_toNat_add hS) lx.length (by rw [hsy, ← hly, List.getElem?_concat_length])
  refine ⟨_, e, by simp [streamEnd_append], ⟨streamEnd S, by simp [streamEnd_append, hy]⟩,
    by simp [hsx], by simp [hsy, hly], by simp [hout], by simp [hsink]⟩

/-- **One round** takes the system from rest to rest, carrying one more chunk. -/
theorem AtRest.round {cfg : Side → CtcpConfig} {S : List UInt8} {k : Nat} {n : Net}
    (h : AtRest cfg S k n) {c : List UInt8}
    (hc : ChunkFits (cfg .X).send_window (cfg .Y).recv_window c)
    (hS : 1 + S.length + c.length < 2 ^ 32) :
    ∃ n', runNet n (lockstepRound k c) = some n' ∧ AtRest cfg (S ++ c) (k + 1) n' := by
  obtain ⟨n₂, h₂, hd⟩ := h.deliver hc
  obtain ⟨n', h', hr⟩ := hd.ack hc.1 hS
  refine ⟨n', ?_, hr⟩
  rw [show lockstepRound k c = [.read .X 1 [.data c], .deliver .Y k 1 [⟨c.length, c.length⟩]] ++
    [.deliver .X k 1 []] from rfl, runNet_append, h₂, Option.some_bind]
  simp only [runNet, h', Option.some_bind]

/-- Round after round, from rest to rest. -/
theorem AtRest.run {cfg : Side → CtcpConfig} {S : List UInt8} {k : Nat} {n : Net}
    (h : AtRest cfg S k n) (cs : List (List UInt8))
    (hcs : ∀ c ∈ cs, ChunkFits (cfg .X).send_window (cfg .Y).recv_window c)
    (hS : 1 + S.length + cs.flatten.length < 2 ^ 32) :
    ∃ n', runNet n (lockstep k cs) = some n' ∧
      AtRest cfg (S ++ cs.flatten) (k + cs.length) n' := by
  induction cs generalizing S k n with
  | nil => exact ⟨n, rfl, by simpa using h⟩
  | cons c cs ih =>
    rw [List.flatten_cons, List.length_append] at hS
    obtain ⟨n₁, h₁, hr₁⟩ := h.round (hcs c (List.mem_cons_self _ _)) (by omega)
    obtain ⟨n₂, h₂, hr₂⟩ := ih hr₁ (fun c' hc' => hcs c' (List.mem_cons_of_mem _ hc'))
      (by rw [List.length_append]; omega)
    refine ⟨n₂, by rw [lockstep, runNet_append, h₁, Option.some_bind, h₂], ?_⟩
    rwa [List.flatten_cons, ← List.append_assoc, List.length_cons, ← Nat.add_assoc,
      Nat.add_right_comm]

/-- **Over a faithful carrier the stream arrives.** For chunks that fit the windows the lockstep
run returns, `Y`'s sink holds `X`'s stream, `X` has nothing queued, its timer disarmed and
`seqno` past the stream, and `Y` has nothing left to write and acknowledges all of it. -/
theorem lockstep_delivers_stream (cfg : Side → CtcpConfig) (cs : List (List UInt8))
    (hcs : ∀ c ∈ cs, ChunkFits (cfg .X).send_window (cfg .Y).recv_window c)
    (hS : cs.flatten.length + 1 < 2 ^ 32) :
    ∃ n, runNet (Net.init cfg) (lockstep 0 cs) = some n ∧
      outbound (n.trace .X) = cs.flatten ∧ sinkBytes (n.trace .Y) = cs.flatten ∧
      (∃ st, n.eng .X = some st ∧ st.tx_state = [] ∧ st.ack_state.time_out = false ∧
        st.conn_state.seqno.toNat = cs.flatten.length + 1) ∧
      ∃ st, n.eng .Y = some st ∧ st.rx_state = [] ∧
        st.conn_state.ackno.toNat = cs.flatten.length + 1 := by
  obtain ⟨n, hrun, hr⟩ := (atRest_init cfg).run cs hcs (by simp only [List.length_nil]; omega)
  obtain ⟨l, hy⟩ := hr.y
  have hseq : (UInt32.ofNat (1 + ([] ++ cs.flatten).length)).toNat = cs.flatten.length + 1 := by
    rw [u32_toNat_ofNat, List.nil_append, Nat.mod_eq_of_lt (by omega), Nat.add_comm]
  refine ⟨n, hrun, by simpa using hr.stream, by simpa using hr.sink,
    ⟨_, hr.x, rfl, rfl, hseq⟩, ⟨_, hy, rfl, hseq⟩⟩

/-- `X` writes `"hi"` and then `"!"`; both arrive. -/
theorem lockstep_delivers_stream_hi :
    ∃ n, runNet (Net.init fun _ => ⟨2000, 2000, 40, 40⟩) (lockstep 0 [[104, 105], [33]]) =
        some n ∧
      outbound (n.trace .X) = [104, 105, 33] ∧ sinkBytes (n.trace .Y) = [104, 105, 33] ∧
      (∃ st, n.eng .X = some st ∧ st.tx_state = [] ∧ st.ack_state.time_out = false ∧
        st.conn_state.seqno.toNat = 4) ∧
      ∃ st, n.eng .Y = some st ∧ st.rx_state = [] ∧ st.conn_state.ackno.toNat = 4 :=
  lockstep_delivers_stream _ [[104, 105], [33]] (by decide) (by decide)


/-! ## §4 A lost segment is recovered -/

theorem mem_drop_of_getElem? {α : Type} {l : List α} {i j : Nat} {a : α} (hj : j ≤ i)
    (h : l[i]? = some a) : a ∈ l.drop j := by
  apply List.getElem?_mem (n := i - j)
  rw [List.getElem?_drop, Nat.add_sub_cancel' hj, h]

theorem mem_drop_append {α : Type} {l r : List α} {j : Nat} {a : α} (h : a ∈ (l ++ r).drop j) :
    a ∈ l.drop j ∨ a ∈ r := by
  rw [List.drop_append_eq_append_drop] at h
  exact (List.mem_append.mp h).imp_right List.mem_of_mem_drop

/-- `X`'s timer on a holding engine: the call is recorded on `X` alone, `X` still holds the
chunk, and it sent only copies of the chunk or FINs. -/
theorem netStep_timer_holding {cfg : Side → CtcpConfig} {n n' : Net} {s : UInt32}
    {c : List UInt8} {x : CtcpState} (hx : n.eng .X = some x) (hh : Holding (cfg .X) s c x)
    (hsw : c.length ≤ (cfg .X).send_window.toNat) {fuel : Nat} {ans : List (List SinkAnswer)}
    (hstep : netStep n (.timer .X fuel ans) = some n') :
    ∃ x' evs, n' = n.update .X (some x') evs [] ∧ Holding (cfg .X) s c x' ∧
      ∀ seg ∈ sends evs, seg = chunkSegment (cfg .X) s c ∨ seg.flags = FIN := by
  obtain ⟨st, cl, r, hst, hcall, hr, rfl⟩ := netStep_eq hstep
  cases hcall
  cases hx.symm.trans hst
  obtain ⟨x', evs, hw, rfl⟩ := engineStep_timer_inv hr
  exact ⟨x', evs, rfl, hh.timer hsw hw⟩

/-- After `X` has read the chunk `c` at the end of the stream `S`, before `Y` has received it:
`X` holds the chunk, `Y` is at rest where it was, and since its `k`-th segment `X` has sent only
copies of the chunk or FINs. -/
structure Resending (cfg : Side → CtcpConfig) (S c : List UInt8) (k : Nat) (n : Net) :
    Prop where
  x : ∃ x, n.eng .X = some x ∧ Holding (cfg .X) (streamEnd S) c x
  y : ∃ l, n.eng .Y = some (idleState (cfg .Y) 1 (streamEnd S) l)
  retx : ∀ seg ∈ (n.sent .X).drop k, seg = chunkSegment (cfg .X) (streamEnd S) c ∨ seg.flags = FIN
  sent_y : (n.sent .Y).length = k
  sink : sinkBytes (n.trace .Y) = S

theorem AtRest.resending {cfg : Side → CtcpConfig} {S : List UInt8} {k : Nat} {n : Net}
    (h : AtRest cfg S k n) {c : List UInt8}
    (hc : ChunkFits (cfg .X).send_window (cfg .Y).recv_window c) :
    ∃ n₁, netStep n (.read .X 1 [.data c]) = some n₁ ∧ Resending cfg S c k n₁ := by
  obtain ⟨hx, ⟨l, hy⟩, rfl, hky, -, hsink⟩ := h
  refine ⟨_, netStep_read_idle hx hc, ⟨_, by simp, sendingState_holding _ _ _⟩, ⟨l, by simp [hy]⟩,
    fun seg hs => .inl ?_, by simp [hky], by simp [hsink]⟩
  simpa [Event.segment] using hs

theorem Resending.tick {cfg : Side → CtcpConfig} {S c : List UInt8} {k : Nat} {n n' : Net}
    (h : Resending cfg S c k n) (hsw : c.length ≤ (cfg .X).send_window.toNat) {fuel : Nat}
    {ans : List (List SinkAnswer)} (hstep : netStep n (.timer .X fuel ans) = some n') :
    Resending cfg S c k n' := by
  obtain ⟨x, hx, hh⟩ := h.x
  obtain ⟨x', evs, rfl, hh', hsends⟩ := netStep_timer_holding hx hh hsw hstep
  refine ⟨⟨x', by simp, hh'⟩, by simpa using h.y, fun seg hs => ?_, by simpa using h.sent_y,
    by simpa using h.sink⟩
  simp only [Net.update_sent, if_true] at hs
  exact (mem_drop_append hs).elim (h.retx seg) (hsends seg)

/-- Any number of `X`'s timer calls keep the situation. -/
theorem Resending.ticks {cfg : Side → CtcpConfig} {S c : List UInt8} {k : Nat} {n n' : Net}
    (h : Resending cfg S c k n) (hsw : c.length ≤ (cfg .X).send_window.toNat)
    (ticks : List (Nat × List (List SinkAnswer)))
    (hrun : runNet n (ticks.map fun t => .timer .X t.1 t.2) = some n') :
    Resending cfg S c k n' := by
  induction ticks generalizing n with
  | nil => exact Option.some_inj.mp hrun ▸ h
  | cons t ticks ih =>
    obtain ⟨n₁, h₁, h₂⟩ := Option.bind_eq_some.mp hrun
    exact ih (h.tick hsw h₁) h₂

/-- **A lost segment is recovered.** After `X` reads a chunk and its timer runs any number of
times, delivering any DATA segment `X` has sent since to `Y`, and `Y`'s answer to `X`, puts the
chunk through: `Y`'s sink and `ackno` cover it and `X` has nothing queued, its timer disarmed. -/
theorem lost_segment_recovered {cfg : Side → CtcpConfig} {S : List UInt8} {k : Nat} {n : Net}
    (h : AtRest cfg S k n) {c : List UInt8}
    (hc : ChunkFits (cfg .X).send_window (cfg .Y).recv_window c)
    (hS : 1 + S.length + c.length < 2 ^ 32) (ticks : List (Nat × List (List SinkAnswer)))
    {n₁ : Net}
    (h₁ : runNet n (.read .X 1 [.data c] :: ticks.map fun t => .timer .X t.1 t.2) = some n₁)
    {i : Nat} (hi : k ≤ i) {seg : Segment} (hseg : (n₁.sent .X)[i]? = some seg)
    (hdata : seg.flags = 0) :
    ∃ n₂, runNet n₁ [.deliver .Y i 1 [⟨c.length, c.length⟩], .deliver .X k 1 []] = some n₂ ∧
      sinkBytes (n₂.trace .Y) = S ++ c ∧
      (∃ x, n₂.eng .X = some x ∧ x.tx_state = [] ∧ x.ack_state.time_out = false ∧
        x.conn_state.seqno = streamEnd (S ++ c)) ∧
      ∃ y, n₂.eng .Y = some y ∧ y.rx_state = [] ∧ y.conn_state.ackno = streamEnd (S ++ c) := by
  obtain ⟨n₀, h₀, hr₀⟩ := h.resending hc
  rw [runNet, h₀, Option.some_bind] at h₁
  have hr := hr₀.ticks hc.2.2.1 ticks h₁
  obtain ⟨x, hx, hh⟩ := hr.x
  obtain ⟨l, hy⟩ := hr.y
  obtain rfl : seg = chunkSegment (cfg .X) (streamEnd S) c :=
    (hr.retx seg (mem_drop_of_getElem? hi hseg)).resolve_right (by rw [hdata]; decide)
  let y := idleState (cfg .Y) 1 (streamEnd S + UInt32.ofNat c.length) (streamEnd S)
  let x' := ackedState (cfg .X) (streamEnd S + UInt32.ofNat c.length) x
  let n₂ := n₁.update .Y (some y) [.accept c, .output c, .send (chunkAck (cfg .Y) (streamEnd S) c)]
    [chunkSegment (cfg .X) (streamEnd S) c]
  let n₃ := n₂.update .X (some x') [] [chunkAck (cfg .Y) (streamEnd S) c]
  have e₂ : netStep n₁ (.deliver .Y i 1 [⟨c.length, c.length⟩]) = some n₂ :=
    netStep_deliver_chunk hy hc hseg
  have e₃ : netStep n₂ (.deliver .X k 1 []) = some n₃ :=
    netStep_deliver_ack (by simp [n₂, hx]) hh hc.1 (streamEnd_toNat_add hS)
      (by simp [n₂, ← hr.sent_y, Event.segment, List.getElem?_concat_length])
  refine ⟨n₃, by simp only [runNet, e₂, e₃, Option.some_bind],
    by simp [n₂, n₃, hr.sink, Event.written], ⟨x', by simp [n₃], rfl, rfl,
    (streamEnd_append S c).symm⟩, ⟨y, by simp [n₂, n₃], rfl, (streamEnd_append S c).symm⟩⟩

/-- `X` reads `"hi"`; the segment is lost; `X`'s timer fires once and sends it again as its
second segment, which gets through. -/
theorem lost_segment_recovered_hi :
    ∃ n₁, runNet (Net.init fun _ => ⟨2000, 2000, 40, 40⟩)
        [.read .X 1 [.data [104, 105]], .timer .X 2 [[]]] = some n₁ ∧
      ∃ n₂, runNet n₁ [.deliver .Y 1 1 [⟨2, 2⟩], .deliver .X 0 1 []] = some n₂ ∧
        sinkBytes (n₂.trace .Y) = [104, 105] ∧
        (∃ x, n₂.eng .X = some x ∧ x.tx_state = [] ∧ x.ack_state.time_out = false ∧
          x.conn_state.seqno = streamEnd [104, 105]) ∧
        ∃ y, n₂.eng .Y = some y ∧ y.rx_state = [] ∧ y.conn_state.ackno = streamEnd [104, 105] :=
  ⟨_, rfl, @lost_segment_recovered (fun _ => ⟨2000, 2000, 40, 40⟩) [] 0 _ (atRest_init _)
    [104, 105] (by decide) (by decide) [(2, [[]])] _ rfl 1 (Nat.zero_le 1) _ rfl rfl⟩

/-! ## §5 A lost acknowledgement is never repaired -/

/-- The ACK `Y` answers a copy of the chunk with once it has accepted it: the duplicate branch
of `ctcp_receive` acknowledges `last_ackno`, the chunk's own first byte. -/
def staleAck (cfg : CtcpConfig) (s : UInt32) (c : List UInt8) : Segment :=
  ctcpSendFlags (idleState cfg 1 (s + UInt32.ofNat c.length) s) s ACK

/-- **`ctcp_receive` of a copy of the accepted chunk.** `Y`, which has accepted the chunk at
`s` and moved `ackno` past it, takes a copy for a duplicate and answers with an ACK for
`last_ackno = s`, acknowledging none of it. -/
theorem ctcpReceive_duplicate_idle {cfg : CtcpConfig} {c : List UInt8} (hpos : 0 < c.length)
    {s : UInt32} (hs : s.toNat + c.length < 2 ^ 32) (fuel : Nat) (ans : List SinkAnswer)
    (b : UInt32) (w : UInt16) :
    ctcpReceive fuel ans (dataSegment b w s (TxState.fresh c))
        (idleState cfg 1 (s + UInt32.ofNat c.length) s) =
      some (some (idleState cfg 1 (s + UInt32.ofNat c.length) s), [.send (staleAck cfg s c)]) := by
  have hne : s ≠ s + UInt32.ofNat c.length := fun he => by
    have := congrArg UInt32.toNat he
    rw [u32_toNat_add_ofNat hs] at this
    omega
  unfold ctcpReceive
  rw [if_pos ⟨by simpa [dataSegment] using hne, by simp [dataSegment], by simp [dataSegment]; rfl⟩]
  rfl

/-- **`ctcp_receive` of the stale ACK.** A holding engine handed `Y`'s answer finds that it
acknowledges nothing of the chunk, and changes nothing. -/
theorem Holding.receive_stale {cfg : CtcpConfig} {s : UInt32} {c : List UInt8} {x : CtcpState}
    (h : Holding cfg s c x) (hpos : 0 < c.length) (hs : s.toNat + c.length < 2 ^ 32)
    (cfg' : CtcpConfig) (fuel : Nat) (ans : List SinkAnswer) :
    ctcpReceive fuel ans (staleAck cfg' s c) x = some (some x, []) := by
  have hlt : ¬(s + UInt32.ofNat c.length ≤ s) := by
    rw [u32_le_iff, u32_toNat_add_ofNat hs]; omega
  unfold ctcpReceive
  rw [if_neg (by simp [staleAck, ctcpSendFlags, h.conn, sendingState, idleState, ctcpInit]),
    if_neg (by simp [staleAck]),
    show (staleAck cfg' s c).flags = ACK from ctcpSendFlags_flags _ _ _, segmentType_ACK]
  simp [h.not_passive, receiveAck, h.queue, staleAck, ctcpSendFlags, hlt]

/-- What may happen once `Y`'s ACK of the chunk is lost: `X`'s timer runs; the carrier hands
`Y` a DATA segment that `X` sent from its `i₀`-th segment on; the carrier hands `X` a segment
that `Y` sent from its `j₀`-th on. -/
def Retransmission (i₀ j₀ : Nat) (n : Net) : NetAction → Prop
  | .timer .X _ _ => True
  | .deliver .Y i _ _ => i₀ ≤ i ∧ ∀ seg, (n.sent .X)[i]? = some seg → seg.flags = 0
  | .deliver .X i _ _ => j₀ ≤ i
  | _ => False

/-- The systems reached from `n₀` by such steps. -/
inductive RetxReach (i₀ j₀ : Nat) (n₀ : Net) : Net → Prop where
  | refl : RetxReach i₀ j₀ n₀ n₀
  | step {n n' : Net} (act : NetAction) : RetxReach i₀ j₀ n₀ n → Retransmission i₀ j₀ n act →
      netStep n act = some n' → RetxReach i₀ j₀ n₀ n'

/-- After the loss: `X` holds the chunk; `Y` is at rest past it and has written it; since the
loss `X` has sent only the chunk again or FINs, and `Y` only the stale ACK. -/
structure LostAck (cfg : Side → CtcpConfig) (S c : List UInt8) (i₀ j₀ : Nat) (n : Net) :
    Prop where
  x : ∃ x, n.eng .X = some x ∧ Holding (cfg .X) (streamEnd S) c x
  y : n.eng .Y = some (idleState (cfg .Y) 1 (streamEnd S + UInt32.ofNat c.length) (streamEnd S))
  retx : ∀ seg ∈ (n.sent .X).drop i₀, seg = chunkSegment (cfg .X) (streamEnd S) c ∨ seg.flags = FIN
  answers : ∀ seg ∈ (n.sent .Y).drop j₀, seg = staleAck (cfg .Y) (streamEnd S) c
  sink : sinkBytes (n.trace .Y) = S ++ c

/-- The loss happens right after the first half of a round. -/
theorem Delivered.lostAck {cfg : Side → CtcpConfig} {S c : List UInt8} {k : Nat} {n : Net}
    (h : Delivered cfg S c k n) : LostAck cfg S c k (k + 1) n := by
  obtain ⟨hx, hy, ⟨lx, hsx, rfl⟩, ⟨ly, hsy, hly⟩, -, hsink⟩ := h
  refine ⟨⟨_, hx, rfl, rfl, rfl, nofun⟩, hy, fun seg hs => .inl ?_, fun seg hs => ?_, hsink⟩
  · rw [hsx, List.drop_left] at hs
    exact List.mem_singleton.mp hs
  · rw [hsy, ← hly, List.drop_eq_nil_of_le (by simp)] at hs
    cases hs

/-- **Each step keeps the invariant.** -/
theorem LostAck.step {cfg : Side → CtcpConfig} {S c : List UInt8} {i₀ j₀ : Nat} {n n' : Net}
    (h : LostAck cfg S c i₀ j₀ n) (hc : ChunkFits (cfg .X).send_window (cfg .Y).recv_window c)
    (hS : 1 + S.length + c.length < 2 ^ 32) {act : NetAction}
    (ha : Retransmission i₀ j₀ n act) (hstep : netStep n act = some n') :
    LostAck cfg S c i₀ j₀ n' := by
  have hs := streamEnd_toNat_add hS
  obtain ⟨x, hx, hh⟩ := h.x
  cases act with
  | read => exact ha.elim
  | output => exact ha.elim
  | timer side fuel ans =>
    cases side
    · obtain ⟨x', evs, rfl, hh', hsends⟩ := netStep_timer_holding hx hh hc.2.2.1 hstep
      refine ⟨⟨x', by simp, hh'⟩, by simpa using h.y, fun seg hs' => ?_,
        by simpa using h.answers, by simpa using h.sink⟩
      simp only [Net.update_sent, if_true] at hs'
      exact (mem_drop_append hs').elim (h.retx seg) (hsends seg)
    · exact ha.elim
  | deliver side i fuel ans =>
    obtain ⟨st, cl, r, hst, hcall, hr, rfl⟩ := netStep_eq hstep
    obtain ⟨seg, hi, rfl⟩ := Option.map_eq_some'.mp hcall
    change ctcpReceive fuel ans seg st = some r at hr
    cases side
    · -- a segment of `Y` to `X`: the stale ACK, which changes nothing
      cases hx.symm.trans hst
      obtain rfl := h.answers seg (mem_drop_of_getElem? ha hi)
      rw [hh.receive_stale hc.1 hs (cfg .Y)] at hr
      cases hr
      exact ⟨⟨x, by simp [NetAction.side], hh⟩, by simpa [NetAction.side] using h.y,
        by simpa [NetAction.side] using h.retx, by simpa [NetAction.side] using h.answers,
        by simpa [NetAction.side] using h.sink⟩
    · -- a DATA segment of `X` to `Y`: a copy of the chunk, answered with the stale ACK
      obtain rfl : seg = chunkSegment (cfg .X) (streamEnd S) c :=
        (h.retx seg (mem_drop_of_getElem? ha.1 hi)).resolve_right (by rw [ha.2 seg hi]; decide)
      cases h.y.symm.trans hst
      rw [chunkSegment, ctcpReceive_duplicate_idle hc.1 hs] at hr
      cases hr
      refine ⟨⟨x, by simpa [NetAction.side] using hx, hh⟩, by simp [NetAction.side],
        by simpa [NetAction.side] using h.retx, fun seg hs' => ?_,
        by simp [NetAction.side, h.sink, Event.written]⟩
      simp only [NetAction.side, Net.update_sent, if_true] at hs'
      exact (mem_drop_append hs').elim (h.answers seg) (by simp [Event.segment])

theorem LostAck.reach {cfg : Side → CtcpConfig} {S c : List UInt8} {i₀ j₀ : Nat} {n₀ n : Net}
    (h : LostAck cfg S c i₀ j₀ n₀) (hc : ChunkFits (cfg .X).send_window (cfg .Y).recv_window c)
    (hS : 1 + S.length + c.length < 2 ^ 32) (hr : RetxReach i₀ j₀ n₀ n) :
    LostAck cfg S c i₀ j₀ n := by
  induction hr with
  | refl => exact h
  | step _ _ ha hstep ih => exact ih.step hc hS ha hstep

/-- **A lost acknowledgement is never repaired.** Once `Y` has written a chunk and its ACK is
lost, every continuation of `X`'s timer calls and deliveries of segments sent since keeps the
chunk in `X`'s Send Queue at `seqno`, and every segment `Y` sends acknowledges only its first
byte. -/
theorem lost_ack_never_repaired {cfg : Side → CtcpConfig} {S : List UInt8} {k : Nat} {n : Net}
    (h : AtRest cfg S k n) {c : List UInt8}
    (hc : ChunkFits (cfg .X).send_window (cfg .Y).recv_window c)
    (hS : 1 + S.length + c.length < 2 ^ 32) :
    ∃ n₀, runNet n [.read .X 1 [.data c], .deliver .Y k 1 [⟨c.length, c.length⟩]] = some n₀ ∧
      sinkBytes (n₀.trace .Y) = S ++ c ∧
      ∀ n', RetxReach k (k + 1) n₀ n' →
        (∃ x, n'.eng .X = some x ∧ x.tx_state = [⟨streamEnd S + UInt32.ofNat c.length, c⟩] ∧
          x.conn_state.seqno = streamEnd S) ∧
        ∀ seg ∈ (n'.sent .Y).drop (k + 1), seg.flags = ACK ∧ seg.ackno = streamEnd S := by
  obtain ⟨n₀, h₀, hd⟩ := h.deliver hc
  refine ⟨n₀, h₀, hd.sink, fun n' hr => ?_⟩
  have hl := hd.lostAck.reach hc hS hr
  obtain ⟨x, hx, hh⟩ := hl.x
  refine ⟨⟨x, hx, hh.queue, by rw [hh.conn]; rfl⟩, fun seg hs => ?_⟩
  rw [hl.answers seg hs]
  exact ⟨ctcpSendFlags_flags _ _ _, by simp [staleAck, ctcpSendFlags]⟩

/-- On a fresh connection, once `Y`'s ACK of `"hi"` is lost, `X` keeps `"hi"` queued at
sequence number `1` whatever its timer and the carrier do. -/
theorem lost_ack_never_repaired_hi :
    ∃ n₀, runNet (Net.init fun _ => ⟨2000, 2000, 40, 40⟩)
        [.read .X 1 [.data [104, 105]], .deliver .Y 0 1 [⟨2, 2⟩]] = some n₀ ∧
      sinkBytes (n₀.trace .Y) = [104, 105] ∧
      ∀ n', RetxReach 0 1 n₀ n' →
        (∃ x, n'.eng .X = some x ∧ x.tx_state = [⟨3, [104, 105]⟩] ∧ x.conn_state.seqno = 1) ∧
        ∀ seg ∈ (n'.sent .Y).drop 1, seg.flags = ACK ∧ seg.ackno = 1 :=
  lost_ack_never_repaired (atRest_init _) (by decide) (by decide)

end Ctcp
