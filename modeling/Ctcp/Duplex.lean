import Ctcp.Lifecycle

/-!
# Both Directions at Once

`Ctcp.Transfer` carries a stream from `X` to `Y`, but a cTCP connection is full duplex: each
engine's `ctcp_read` sends its own host's bytes and each engine's `ctcp_receive` accepts the
peer's. A DATA segment also carries its sender's `ackno`, the sender's place in the stream it
receives, which `ctcp_receive` reads only in its `ACK_SEG` case. This module runs rounds in
either direction, in any order: in a round one host hands over a chunk, the carrier hands the
chunk's segment to the peer and the peer's ACK back. Each host's stream reaches the other's
sink, and both engines are at rest after every round.

- §1 The sender's side of a round, whatever it acknowledges of its peer
  (`ctcpReceive_ack_sendingState`).
- §2 One round in either direction, and any sequence of rounds (`duplex_delivers_streams`).
- §3 The simultaneous close: both hosts signal end-of-source at once. Each engine is then in
  `ACTIVE_CLOSE` when the peer's FIN arrives, and `ctcp_receive_fin_with_no_ack` destroys it
  without handing its host end-of-stream (`simultaneous_close_no_eof`).
-/

namespace Ctcp

/-! ## §1 Acknowledging a chunk -/

theorem windowState_single (cfg : CtcpConfig) (s a l : UInt32) (c : List UInt8) :
    windowState cfg s a l [c] = sendingState cfg s a l c := by
  simp [windowState, sendingState, retag, TxState.fresh, TxState.buffer_size]

/-- **`ctcp_receive` of the acknowledgement of one chunk.** Whatever the engine acknowledges of
its peer, an ACK for the whole chunk empties the Send Queue and disarms the timer. -/
theorem ctcpReceive_ack_sendingState {cfg : CtcpConfig} {c : List UInt8} {s : UInt32}
    (hs₁ : 1 ≤ s.toNat) (hs : s.toNat + c.length < 2 ^ 32) {a l : UInt32} {seg : Segment}
    (hflags : seg.flags = ACK) (hver : seg.verifies = true)
    (hack : seg.ackno = s + UInt32.ofNat c.length) (fuel : Nat) (ans : List SinkAnswer) :
    ctcpReceive fuel ans seg (sendingState cfg s a l c) =
      some (some (idleState cfg (s + UInt32.ofNat c.length) a l), []) := by
  have h := @ctcpReceive_window_ack cfg [c] (List.cons_ne_nil c []) s hs₁ (by simpa using hs) a l
    seg hflags hver (by simpa using hack) fuel ans
  simpa [windowState_single] using h

/-! ## §2 Rounds in either direction -/

@[simp] theorem Side.peer_peer (p : Side) : p.peer.peer = p := by cases p <;> rfl

theorem Side.eq_or_eq_peer (q p : Side) : q = p ∨ q = p.peer := by
  cases q <;> cases p <;> decide

/-- Both engines at rest after `k` rounds in which the stream `S p` went from `p` to its peer:
each has had all of its own stream acknowledged, and acknowledges all of the other's. -/
structure Duplex (cfg : Side → CtcpConfig) (S : Side → List UInt8) (k : Nat) (n : Net) :
    Prop where
  eng : ∀ p, ∃ l, n.eng p = some (idleState (cfg p) (streamEnd (S p)) (streamEnd (S p.peer)) l)
  sent : ∀ p, (n.sent p).length = k
  stream : ∀ p, outbound (n.trace p) = S p
  sink : ∀ p, sinkBytes (n.trace p.peer) = S p

theorem duplex_init (cfg : Side → CtcpConfig) : Duplex cfg (fun _ => []) 0 (Net.init cfg) :=
  ⟨fun _ => ⟨1, rfl⟩, fun _ => rfl, fun _ => rfl, fun _ => rfl⟩

/-- One round: `p`'s host hands over the chunk `c`; the carrier hands `p`'s `k`-th segment to
its peer, whose sink has room for `c`, and the peer's `k`-th segment back to `p`. -/
def duplexRound (p : Side) (k : Nat) (c : List UInt8) : List NetAction :=
  [.read p 1 [.data c], .deliver p.peer k 1 [⟨c.length, c.length⟩], .deliver p k 1 []]

/-- The rounds `rs`, each a side and the chunk its host hands over, the first the `k`-th. -/
def duplex : Nat → List (Side × List UInt8) → List NetAction
  | _, [] => []
  | k, r :: rs => duplexRound r.1 k r.2 ++ duplex (k + 1) rs

/-- What side `p`'s host hands over in the rounds `rs`, in order. -/
def sideStream (p : Side) (rs : List (Side × List UInt8)) : List UInt8 :=
  ((rs.filter fun r => r.1 = p).map Prod.snd).flatten

theorem sideStream_length_le (p : Side) (rs : List (Side × List UInt8)) :
    (sideStream p rs).length ≤ (rs.map Prod.snd).flatten.length := by
  induction rs with
  | nil => exact le_rfl
  | cons r rs ih =>
    unfold sideStream at ih ⊢
    rw [List.filter_cons]
    split <;> simp only [List.map_cons, List.flatten_cons, List.length_append] <;> omega

/-- **One round in either direction** takes the system from rest to rest, carrying one more
chunk of `p`'s stream. -/
theorem Duplex.round {cfg : Side → CtcpConfig} {S : Side → List UInt8} {k : Nat} {n : Net}
    (h : Duplex cfg S k n) (p : Side) {c : List UInt8}
    (hc : ChunkFits (cfg p).send_window (cfg p.peer).recv_window c)
    (hS : 1 + (S p).length + c.length < 2 ^ 32) :
    ∃ n', runNet n (duplexRound p k c) = some n' ∧
      Duplex cfg (Function.update S p (S p ++ c)) (k + 1) n' := by
  obtain ⟨hpos, hmax, hsw, hrw, hmark⟩ := hc
  obtain ⟨lp, hp⟩ := h.eng p
  obtain ⟨lq, hq⟩ := h.eng p.peer
  rw [Side.peer_peer] at hq
  have hs₁ : 1 ≤ (streamEnd (S p)).toNat := by
    rw [streamEnd, u32_toNat_ofNat, Nat.mod_eq_of_lt (by omega)]; omega
  set s := streamEnd (S p) with hs_def
  set a := streamEnd (S p.peer) with ha_def
  have hne : ∀ q : Side, q ≠ q.peer := fun q => (Side.peer_ne q).symm
  let seg := dataSegment a (advertisedWindow (cfg p).recv_window 0) s (TxState.fresh c)
  let ack := ctcpSendFlags (idleState (cfg p.peer) a (s + UInt32.ofNat c.length) s)
    (s + UInt32.ofNat c.length) ACK
  let n₁ := n.update p (some (sendingState (cfg p) s a lp c)) [.enqueue c, .send seg] []
  let n₂ := n₁.update p.peer (some (idleState (cfg p.peer) a (s + UInt32.ofNat c.length) s))
    [.accept c, .output c, .send ack] [seg]
  let n₃ := n₂.update p (some (idleState (cfg p) (s + UInt32.ofNat c.length) a lp)) [] [ack]
  have e₁ : netStep n (.read p 1 [.data c]) = some n₁ :=
    netStep_read hp (ctcpRead_idle hpos hmax hsw hmark 1 s a lp)
  have e₂ : netStep n₁ (.deliver p.peer k 1 [⟨c.length, c.length⟩]) = some n₂ :=
    netStep_deliver (by simp [n₁, hq]) (by simp [n₁, ← h.sent p, Event.segment])
      (ctcpReceive_data_idle hpos hmax hrw 1 a s lq a _)
  have e₃ : netStep n₂ (.deliver p k 1 []) = some n₃ :=
    netStep_deliver (by simp [n₁, n₂, hne]) (by simp [n₁, n₂, ← h.sent p.peer, Event.segment])
      (ctcpReceive_ack_sendingState hs₁ (streamEnd_toNat_add hS) (ctcpSendFlags_flags _ _ _)
        (ctcpSendFlags_verifies _ _ _) (by simp [ack, ctcpSendFlags]) 1 [])
  refine ⟨n₃, by simp only [duplexRound, runNet, e₁, e₂, e₃, Option.some_bind], ⟨?_, ?_, ?_, ?_⟩⟩
  all_goals intro q; rcases Side.eq_or_eq_peer q p with rfl | rfl
  · exact ⟨lp, by simp [n₃, streamEnd_append, ← hs_def, ← ha_def]⟩
  · refine ⟨s, ?_⟩
    rw [Side.peer_peer, Function.update_same, Function.update_noteq (Side.peer_ne p),
      streamEnd_append]
    simp [n₁, n₂, n₃]
  · simp [n₁, n₂, n₃, hne, h.sent, Event.segment]
  · simp [n₁, n₂, n₃, h.sent, Event.segment]
  · simp [n₁, n₂, n₃, hne, h.stream, Event.enqueued]
  · simp [n₁, n₂, n₃, h.stream, Event.enqueued]
  · simp [n₁, n₂, n₃, h.sink, Event.written]
  · simpa [n₁, n₂, n₃, hne, Event.written] using h.sink p.peer

theorem update_append_sideStream (S : Side → List UInt8) (p : Side) (c : List UInt8)
    (rs : List (Side × List UInt8)) :
    (fun q => Function.update S p (S p ++ c) q ++ sideStream q rs) =
      fun q => S q ++ sideStream q ((p, c) :: rs) := by
  funext q
  by_cases hq : q = p
  · subst hq; simp [sideStream]
  · simp [sideStream, hq, Ne.symm hq]

/-- Round after round, in either direction, from rest to rest. -/
theorem Duplex.run {cfg : Side → CtcpConfig} {S : Side → List UInt8} {k : Nat} {n : Net}
    (h : Duplex cfg S k n) (rs : List (Side × List UInt8))
    (hrs : ∀ r ∈ rs, ChunkFits (cfg r.1).send_window (cfg r.1.peer).recv_window r.2)
    (hS : ∀ q, 1 + (S q).length + (rs.map Prod.snd).flatten.length < 2 ^ 32) :
    ∃ n', runNet n (duplex k rs) = some n' ∧
      Duplex cfg (fun q => S q ++ sideStream q rs) (k + rs.length) n' := by
  induction rs generalizing S k n with
  | nil => exact ⟨n, rfl, by simpa [sideStream] using h⟩
  | cons r rs ih =>
    obtain ⟨p, c⟩ := r
    have hSp := hS p
    simp only [List.map_cons, List.flatten_cons, List.length_append] at hS hSp
    have hc : ChunkFits (cfg p).send_window (cfg p.peer).recv_window c :=
      hrs _ (List.mem_cons_self _ _)
    obtain ⟨n₁, h₁, hr₁⟩ := h.round p hc (by omega)
    obtain ⟨n₂, h₂, hr₂⟩ := ih hr₁ (fun r hr => hrs r (List.mem_cons_of_mem _ hr)) (fun q => by
      have := hS q
      by_cases hq : q = p
      · subst hq; simp only [Function.update_same, List.length_append]; omega
      · simp only [Function.update_noteq hq]; omega)
    refine ⟨n₂, by rw [duplex, runNet_append, h₁, Option.some_bind, h₂], ?_⟩
    rw [update_append_sideStream] at hr₂
    rwa [List.length_cons, ← Nat.add_assoc, Nat.add_right_comm]

/-- **Both streams arrive, in any interleaving.** For rounds of chunks that fit the windows,
the run returns and, for each side, its outbound stream and its peer's sink both hold its
chunks in order, both queues are empty, its timer is disarmed, and `seqno` and `ackno` are one
past its own and its peer's stream. -/
theorem duplex_delivers_streams (cfg : Side → CtcpConfig) (rs : List (Side × List UInt8))
    (hrs : ∀ r ∈ rs, ChunkFits (cfg r.1).send_window (cfg r.1.peer).recv_window r.2)
    (hS : (rs.map Prod.snd).flatten.length + 1 < 2 ^ 32) :
    ∃ n, runNet (Net.init cfg) (duplex 0 rs) = some n ∧ ∀ p,
      outbound (n.trace p) = sideStream p rs ∧ sinkBytes (n.trace p.peer) = sideStream p rs ∧
      ∃ st, n.eng p = some st ∧ st.tx_state = [] ∧ st.rx_state = [] ∧
        st.ack_state.time_out = false ∧
        st.conn_state.seqno.toNat = (sideStream p rs).length + 1 ∧
        st.conn_state.ackno.toNat = (sideStream p.peer rs).length + 1 := by
  obtain ⟨n, hrun, hr⟩ := (duplex_init cfg).run rs hrs (fun _ => by
    simp only [List.length_nil]; omega)
  have hend : ∀ q, (streamEnd ([] ++ sideStream q rs)).toNat = (sideStream q rs).length + 1 :=
    fun q => by
      have := sideStream_length_le q rs
      rw [streamEnd, u32_toNat_ofNat, List.nil_append, Nat.mod_eq_of_lt (by omega),
        Nat.add_comm]
  refine ⟨n, hrun, fun p => ⟨by simpa using hr.stream p, by simpa using hr.sink p, ?_⟩⟩
  obtain ⟨l, hp⟩ := hr.eng p
  exact ⟨_, hp, rfl, rfl, rfl, hend p, hend p.peer⟩

/-- `X` writes `"hi"`, `Y` answers `"!"`, and `X` writes `"?"`. -/
theorem duplex_delivers_streams_hi :
    ∃ n, runNet (Net.init fun _ => ⟨2000, 2000, 40, 40⟩)
        (duplex 0 [(.X, [104, 105]), (.Y, [33]), (.X, [63])]) = some n ∧ ∀ p,
      outbound (n.trace p) = sideStream p [(.X, [104, 105]), (.Y, [33]), (.X, [63])] ∧
      sinkBytes (n.trace p.peer) = sideStream p [(.X, [104, 105]), (.Y, [33]), (.X, [63])] ∧
      ∃ st, n.eng p = some st ∧ st.tx_state = [] ∧ st.rx_state = [] ∧
        st.ack_state.time_out = false ∧
        st.conn_state.seqno.toNat =
          (sideStream p [(.X, [104, 105]), (.Y, [33]), (.X, [63])]).length + 1 ∧
        st.conn_state.ackno.toNat =
          (sideStream p.peer [(.X, [104, 105]), (.Y, [33]), (.X, [63])]).length + 1 :=
  duplex_delivers_streams _ _ (by decide) (by decide)

/-! ## §3 The simultaneous close -/

/-- The simultaneous close: both hosts signal end-of-source, then the carrier hands each side the
other's FIN, the `k`-th segment of each. -/
def bothClose (k : Nat) : List NetAction :=
  [.read .X 1 [.eof], .read .Y 1 [.eof], .deliver .Y k 1 [], .deliver .X k 1 []]

/-- **The simultaneous close from rest.** Each engine is in `ACTIVE_CLOSE` when the peer's FIN
arrives, so it acknowledges the FIN and is destroyed at once: all either side does is send its
FIN and its ACK. -/
theorem Duplex.bothClose {cfg : Side → CtcpConfig} {S : Side → List UInt8} {k : Nat} {n : Net}
    (h : Duplex cfg S k n) :
    ∃ n', runNet n (bothClose k) = some n' ∧ ∀ p, n'.eng p = none ∧
      ∃ post, n'.trace p = n.trace p ++ post ∧ ∀ ev ∈ post, ∃ seg, ev = .send seg := by
  obtain ⟨lx, hx⟩ := h.eng .X
  obtain ⟨ly, hy⟩ := h.eng .Y
  simp only [Side.peer] at hx hy
  set sx := streamEnd (S .X)
  set sy := streamEnd (S .Y)
  let fx := ctcpSendFlags (idleState (cfg .X) sx sy lx) sy FIN
  let fy := ctcpSendFlags (idleState (cfg .Y) sy sx ly) sx FIN
  let ax := ctcpSendFlags (idleState (cfg .X) sx (sy + 1) sy) (sy + 1) ACK
  let ay := ctcpSendFlags (idleState (cfg .Y) sy (sx + 1) sx) (sx + 1) ACK
  let n₁ := n.update .X (some (activeState (cfg .X) sx sy lx)) [.send fx] []
  let n₂ := n₁.update .Y (some (activeState (cfg .Y) sy sx ly)) [.send fy] []
  let n₃ := n₂.update .Y none [.send ay] [fx]
  let n₄ := n₃.update .X none [.send ax] [fy]
  have e₁ : netStep n (.read .X 1 [.eof]) = some n₁ :=
    netStep_read hx (ctcpRead_eof_idle _ 0 _ _ _)
  have e₂ : netStep n₁ (.read .Y 1 [.eof]) = some n₂ :=
    netStep_read (by simp [n₁, hy]) (ctcpRead_eof_idle _ 0 _ _ _)
  have e₃ : netStep n₂ (.deliver .Y k 1 []) = some n₃ :=
    netStep_deliver (by simp [n₁, n₂]) (by simp [n₁, n₂, Side.peer, ← h.sent .X, Event.segment])
      (@ctcpReceive_fin_closing (cfg .Y) sy sx ly fx (by simp [fx, ctcpSendFlags]) rfl
        (ctcpSendFlags_verifies _ _ _) 1 [])
  have e₄ : netStep n₃ (.deliver .X k 1 []) = some n₄ :=
    netStep_deliver (by simp [n₁, n₂, n₃]) (by simp [n₁, n₂, n₃, Side.peer, ← h.sent .Y,
        Event.segment, List.getElem_append_right])
      (@ctcpReceive_fin_closing (cfg .X) sx sy lx fy (by simp [fy, ctcpSendFlags]) rfl
        (ctcpSendFlags_verifies _ _ _) 1 [])
  refine ⟨n₄, by simp only [bothClose, runNet, e₁, e₂, e₃, e₄, Option.some_bind], fun p => ?_⟩
  cases p
  · exact ⟨by simp [n₄], [.send fx, .send ax], by simp [n₁, n₂, n₃, n₄], by simp⟩
  · exact ⟨by simp [n₃, n₄], [.send fy, .send ay], by simp [n₁, n₂, n₃, n₄], by simp⟩

/-- **A simultaneous close tells neither host that the stream has ended.** After the rounds of
`duplex_delivers_streams`, both hosts' end-of-source and the exchange of FINs, each stream has
reached the other sink and both engines are destroyed, and all either side did after the rounds
was send segments: no end-of-stream. -/
theorem simultaneous_close_no_eof (cfg : Side → CtcpConfig) (rs : List (Side × List UInt8))
    (hrs : ∀ r ∈ rs, ChunkFits (cfg r.1).send_window (cfg r.1.peer).recv_window r.2)
    (hS : (rs.map Prod.snd).flatten.length + 1 < 2 ^ 32) :
    ∃ n₀ n, runNet (Net.init cfg) (duplex 0 rs) = some n₀ ∧
      runNet n₀ (bothClose rs.length) = some n ∧ ∀ p,
        sinkBytes (n₀.trace p.peer) = sideStream p rs ∧ n.eng p = none ∧
        ∃ post, n.trace p = n₀.trace p ++ post ∧ ∀ ev ∈ post, ∃ seg, ev = .send seg := by
  obtain ⟨n₀, h₀, hr⟩ := (duplex_init cfg).run rs hrs (fun _ => by
    simp only [List.length_nil]; omega)
  rw [Nat.zero_add] at hr
  obtain ⟨n, h₁, hn⟩ := hr.bothClose
  exact ⟨n₀, n, h₀, h₁, fun p => ⟨by simpa using hr.sink p, hn p⟩⟩

/-- `X` writes `"hi"`, `Y` answers `"!"`, and both close at once. -/
theorem simultaneous_close_no_eof_hi :
    ∃ n₀ n, runNet (Net.init fun _ => ⟨2000, 2000, 40, 40⟩)
        (duplex 0 [(.X, [104, 105]), (.Y, [33])]) = some n₀ ∧
      runNet n₀ (bothClose 2) = some n ∧ ∀ p,
        sinkBytes (n₀.trace p.peer) = sideStream p [(.X, [104, 105]), (.Y, [33])] ∧
        n.eng p = none ∧
        ∃ post, n.trace p = n₀.trace p ++ post ∧ ∀ ev ∈ post, ∃ seg, ev = .send seg :=
  simultaneous_close_no_eof _ [(.X, [104, 105]), (.Y, [33])] (by decide) (by decide)

end Ctcp
