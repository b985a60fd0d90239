import Ctcp.Retransmit
import Ctcp.Transfer

/-!
# The Sliding Window over a Faithful Carrier

`Ctcp.Transfer` runs the exchange one chunk at a time. `ctcp_read` queues every chunk its host
hands over in one call, and its pass (`ctcp_send_possible_data_segment`) sends as many of them
as fit the send window, each as its own segment; `ctcp_receive` of one ACK then removes every
element it acknowledges. This module runs the exchange a window at a time: `X`'s host hands
over a batch of chunks that fits `X`'s send window, the carrier hands all of `X`'s segments to
`Y` in order and loses every acknowledgement but the last. The batch still arrives, and both
engines come back to rest: the last ACK acknowledges the whole window.

- §1 A batch read at rest: the read loop queues every chunk and the pass sends them all
  (`ctcpRead_window`).
- §2 The window received in order, one chunk at a time (`runNet_deliverAll`).
- §3 One cumulative acknowledgement empties the Send Queue (`ctcpReceive_window_ack`).
- §4 Window after window, from rest to rest (`window_delivers_stream`).
-/

namespace Ctcp

/-! ## §1 A batch read at rest -/

/-- A batch of chunks that `ctcp_read` queues whole, each fitting `Y`'s receive window, and
together fitting `X`'s send window `sw`. -/
def WindowFits (sw rw : UInt16) (cs : List (List UInt8)) : Prop :=
  cs ≠ [] ∧ (∀ c ∈ cs, ChunkFits sw rw c) ∧ cs.flatten.length ≤ sw.toNat

instance (sw rw : UInt16) (cs : List (List UInt8)) : Decidable (WindowFits sw rw cs) :=
  inferInstanceAs (Decidable (_ ∧ _ ∧ _))

/-- An engine at rest after `ctcp_read` has queued the batch `cs` and its pass has sent all of
it: every element tagged, `send_window_used` the batch's bytes, the timer armed. -/
def windowState (cfg : CtcpConfig) (seqno ackno last_ackno : UInt32) (cs : List (List UInt8)) :
    CtcpState :=
  { idleState cfg seqno ackno last_ackno with
    conn_state.next_seqno := seqno + UInt32.ofNat cs.flatten.length,
    conn_state.send_window_used := UInt16.ofNat cs.flatten.length,
    ack_state.time_out := true,
    tx_state := retag seqno (cs.map TxState.fresh) }

/-- The DATA segments an engine at rest at `s` sends for the batch `cs`. -/
def windowSegs (cfg : CtcpConfig) (s : UInt32) (cs : List (List UInt8)) : List Segment :=
  dataSegs 1 (advertisedWindow cfg.recv_window 0) s (cs.map TxState.fresh)

theorem windowSegs_cons (cfg : CtcpConfig) (s : UInt32) (c : List UInt8)
    (cs : List (List UInt8)) :
    windowSegs cfg s (c :: cs) =
      chunkSegment cfg s c :: windowSegs cfg (s + UInt32.ofNat c.length) cs := rfl

theorem windowSegs_length (cfg : CtcpConfig) (s : UInt32) (cs : List (List UInt8)) :
    (windowSegs cfg s cs).length = cs.length := by
  induction cs generalizing s with
  | nil => rfl
  | cons c cs ih => rw [windowSegs_cons, List.length_cons, ih, List.length_cons]

theorem txBytes_map_fresh (cs : List (List UInt8)) :
    txBytes (cs.map TxState.fresh) = cs.flatten.length := by
  induction cs with
  | nil => rfl
  | cons c cs ih => simp [ih, TxState.fresh, TxState.buffer_size]

@[simp] theorem sends_map_enqueue (cs : List (List UInt8)) : sends (cs.map .enqueue) = [] := by
  induction cs <;> simp_all [Event.segment]

@[simp] theorem outbound_map_enqueue (cs : List (List UInt8)) :
    outbound (cs.map .enqueue) = cs.flatten := by
  induction cs <;> simp_all [Event.enqueued]

/-- The pass sends every element when together they fit the window. -/
theorem fitCount_of_txBytes_le {w : Nat} {q : List TxState} (h : txBytes q ≤ w) :
    fitCount w 0 q = q.length :=
  Nat.le_antisymm (fitCount_le_length w 0 q)
    (le_fitCount w q 0 q.length le_rfl (by rwa [List.take_length, Nat.zero_add]))

/-- The read loop queues every chunk of a batch, in order. -/
theorem readLoop_data {cs : List (List UInt8)}
    (hcs : ∀ c ∈ cs, 0 < c.length ∧ c.length ≤ MAX_SEG_DATA_SIZE ∧
      ¬(14 < c.length ∧ c.take 14 = truncateMarker))
    (fuel : Nat) (st : CtcpState) :
    readLoop fuel st (cs.map .data) =
      some ({ st with tx_state := st.tx_state ++ cs.map TxState.fresh }, cs.map .enqueue) := by
  induction cs generalizing st with
  | nil => simp [readLoop]
  | cons c cs ih =>
    obtain ⟨⟨hpos, hmax, hmark⟩, hcs⟩ := List.forall_mem_cons.mp hcs
    have htake : c.take MAX_SEG_DATA_SIZE = c := List.take_of_length_le hmax
    simp [readLoop, htake, Nat.pos_iff_ne_zero.mp hpos, hmark, ih hcs]

/-- **`ctcp_read` of a batch at rest.** A batch read by an engine at rest is queued whole and
sent at once, one segment per chunk from `seqno` on, and arms the timer. -/
theorem ctcpRead_window {cfg : CtcpConfig} {cs : List (List UInt8)} (hne : cs ≠ [])
    (hcs : ∀ c ∈ cs, 0 < c.length ∧ c.length ≤ MAX_SEG_DATA_SIZE ∧
      ¬(14 < c.length ∧ c.take 14 = truncateMarker))
    (hsw : cs.flatten.length ≤ cfg.send_window.toNat) (fuel : Nat) (s l : UInt32) :
    ctcpRead fuel (cs.map .data) (idleState cfg s 1 l) =
      some (windowState cfg s 1 l cs, cs.map .enqueue ++ (windowSegs cfg s cs).map .send) := by
  have hfit : fitCount cfg.send_window.toNat 0 (cs.map TxState.fresh) =
      (cs.map TxState.fresh).length := fitCount_of_txBytes_le (by rwa [txBytes_map_fresh])
  simp only [ctcpRead, readLoop_data hcs, Option.map_some', ctcpSendPossibleDataSegment_eq,
    idleState_tx_state, List.nil_append, hfit, List.take_length, List.drop_length,
    idleState_conn_state, txBytes_map_fresh]
  simp [windowState, idleState, ctcpInit, windowSegs, List.length_pos.mpr hne]

/-! ## §2 The window received in order -/

/-- The ACKs an engine at rest with `ackno = s` sends as it accepts and writes the batch `cs`,
one per chunk. -/
def windowAcks (cfg : CtcpConfig) : UInt32 → List (List UInt8) → List Segment
  | _, [] => []
  | s, c :: cs => chunkAck cfg s c :: windowAcks cfg (s + UInt32.ofNat c.length) cs

theorem windowAcks_length (cfg : CtcpConfig) (s : UInt32) (cs : List (List UInt8)) :
    (windowAcks cfg s cs).length = cs.length := by
  induction cs generalizing s with
  | nil => rfl
  | cons c cs ih => rw [windowAcks, List.length_cons, ih, List.length_cons]

/-- The last of them acknowledges the whole batch. -/
theorem windowAcks_last (cfg : CtcpConfig) {cs : List (List UInt8)} (hne : cs ≠ [])
    (s : UInt32) :
    ∃ ack, (windowAcks cfg s cs)[cs.length - 1]? = some ack ∧ ack.flags = ACK ∧
      ack.verifies = true ∧ ack.ackno = s + UInt32.ofNat cs.flatten.length := by
  induction cs generalizing s with
  | nil => exact absurd rfl hne
  | cons c cs ih =>
    cases cs with
    | nil =>
      exact ⟨_, rfl, ctcpSendFlags_flags _ _ _, ctcpSendFlags_verifies _ _ _,
        by simp [windowAcks, chunkAck, ctcpSendFlags]⟩
    | cons c' cs =>
      obtain ⟨ack, h, hf, hv, ha⟩ := ih (List.cons_ne_nil _ _) (s + UInt32.ofNat c.length)
      refine ⟨ack, by simpa [windowAcks] using h, hf, hv, ?_⟩
      rw [ha]
      simp only [List.flatten_cons, List.length_append, u32_ofNat_add, add_assoc]

/-- The rounds' deliveries to `Y` of `X`'s segments `i, i+1, …`, one per chunk of the batch. -/
def deliverAll : Nat → List (List UInt8) → List NetAction
  | _, [] => []
  | i, c :: cs => .deliver .Y i 1 [⟨c.length, c.length⟩] :: deliverAll (i + 1) cs

/-- **`Y` receives the window in order.** Handed `X`'s segments for the batch one after the
other, `Y`, at rest at the end of the stream `S`, accepts, writes and acknowledges each, and is
at rest at the end of the batch; nothing of `X` changes. -/
theorem runNet_deliverAll {cfg : Side → CtcpConfig} {cs : List (List UInt8)}
    (hcs : ∀ c ∈ cs, ChunkFits (cfg .X).send_window (cfg .Y).recv_window c) :
    ∀ {S : List UInt8} {n : Net} {l : UInt32} {pre : List Segment},
      n.eng .Y = some (idleState (cfg .Y) 1 (streamEnd S) l) →
      n.sent .X = pre ++ windowSegs (cfg .X) (streamEnd S) cs →
      ∃ n', runNet n (deliverAll pre.length cs) = some n' ∧
        n'.eng .X = n.eng .X ∧ n'.sent .X = n.sent .X ∧ n'.trace .X = n.trace .X ∧
        (∃ l', n'.eng .Y = some (idleState (cfg .Y) 1 (streamEnd (S ++ cs.flatten)) l')) ∧
        n'.sent .Y = n.sent .Y ++ windowAcks (cfg .Y) (streamEnd S) cs ∧
        sinkBytes (n'.trace .Y) = sinkBytes (n.trace .Y) ++ cs.flatten := by
  induction cs with
  | nil =>
    intro S n l pre hy _
    exact ⟨n, rfl, rfl, rfl, rfl, ⟨l, by simpa using hy⟩, by simp [windowAcks], by simp⟩
  | cons c cs ih =>
    intro S n l pre hy hx
    obtain ⟨hc, hcs⟩ := List.forall_mem_cons.mp hcs
    let n₁ := n.update .Y
      (some (idleState (cfg .Y) 1 (streamEnd S + UInt32.ofNat c.length) (streamEnd S)))
      [.accept c, .output c, .send (chunkAck (cfg .Y) (streamEnd S) c)]
      [chunkSegment (cfg .X) (streamEnd S) c]
    have e : netStep n (.deliver .Y pre.length 1 [⟨c.length, c.length⟩]) = some n₁ :=
      netStep_deliver_chunk hy hc
        (by rw [hx, windowSegs_cons, List.getElem?_append_right le_rfl, Nat.sub_self,
          List.getElem?_cons_zero])
    have hy₁ : n₁.eng .Y = some (idleState (cfg .Y) 1 (streamEnd (S ++ c)) (streamEnd S)) := by
      simp [n₁, streamEnd_append]
    have hx₁ : n₁.sent .X = (pre ++ [chunkSegment (cfg .X) (streamEnd S) c]) ++
        windowSegs (cfg .X) (streamEnd (S ++ c)) cs := by
      simp [n₁, hx, windowSegs_cons, streamEnd_append]
    obtain ⟨n', h', hxe, hxs, hxt, ⟨l', hy'⟩, hys, hsink⟩ := ih hcs hy₁ hx₁
    refine ⟨n', ?_, by simp [hxe, n₁], by simp [hxs, n₁], by simp [hxt, n₁],
      ⟨l', by simpa using hy'⟩, by simp [hys, n₁, windowAcks, Event.segment, streamEnd_append],
      by simp [hsink, n₁, Event.written]⟩
    simp only [deliverAll, runNet, e, Option.some_bind]
    simpa using h'

/-! ## §3 One cumulative acknowledgement -/

/-- **`ctcp_receive` of an ACK for the whole window.** An engine that has sent a batch, handed
an ACK for all of it, removes every element in one go, disarms the timer and is at rest again
with `seqno` past the batch. -/
theorem ctcpReceive_window_ack {cfg : CtcpConfig} {cs : List (List UInt8)} (hne : cs ≠ [])
    {s : UInt32} (hs₁ : 1 ≤ s.toNat) (hs : s.toNat + cs.flatten.length < 2 ^ 32) {a l : UInt32}
    {seg : Segment} (hflags : seg.flags = ACK) (hver : seg.verifies = true)
    (hack : seg.ackno = s + UInt32.ofNat cs.flatten.length) (fuel : Nat)
    (ans : List SinkAnswer) :
    ctcpReceive fuel ans seg (windowState cfg s a l cs) =
      some (some (idleState cfg (s + UInt32.ofNat cs.flatten.length) a l), []) := by
  have hA := u32_toNat_add_ofNat hs
  have hk := txLayout_retag (r := []) nofun (cs.map TxState.fresh) s (by rwa [txBytes_map_fresh])
  have hlen : (retag s (cs.map TxState.fresh)).length = cs.length := by
    rw [retag_length, List.length_map]
  obtain ⟨e, es, hq⟩ := List.exists_cons_of_ne_nil
    (List.ne_nil_of_length_pos (hlen ▸ List.length_pos.mpr hne))
  have hbytes : txBytes (e :: es) = cs.flatten.length := by
    rw [← hq, txBytes_retag, txBytes_map_fresh]
  rw [List.append_nil, List.length_map, hq] at hk
  rw [hq] at hlen
  have hcount : ackCount seg.ackno (e :: es) = (e :: es).length :=
    hlen ▸ Nat.le_antisymm (hk.ackCount_le _)
      (hk.le_ackCount hs₁ (by rw [List.take_of_length_le hlen.le, hbytes, hack, hA]))
  have hseq : (((e :: es).getLast?.map TxState.segment_next_seqno).getD
      (windowState cfg s a l cs).conn_state.seqno) = s + UInt32.ofNat cs.flatten.length :=
    UInt32.toNat.inj (by
    have := hk.last_tag le_rfl (x := (windowState cfg s a l cs).conn_state.seqno) rfl
    rwa [List.take_of_length_le hlen.le, hbytes, ← hA] at this)
  have he : e.segment_next_seqno ≤ seg.ackno := (ackCount_run seg.ackno (e :: es) e
    (by rw [hcount, List.take_length]; exact List.mem_cons_self _ _)).2
  rw [ctcpReceive_ack_seg (by rw [hflags]; decide) (by rw [hflags]; decide) hver
    (by simp [windowState, idleState, ctcpInit])]
  simp only [Option.some.injEq, Prod.mk.injEq, and_true]
  unfold receiveAck
  rw [show (windowState cfg s a l cs).tx_state = e :: es from hq]
  dsimp only
  rw [if_pos he, ackLoop_eq, hcount, List.take_length, List.drop_length, hseq, hbytes]
  simp [windowState, idleState, ctcpInit, hack, sub_self]

/-! ## §4 Window after window -/

/-- One window: `X`'s host hands over the batch `cs` in one call; the carrier hands `X`'s
segments `k, k+1, …` to `Y` in order, and hands back only `Y`'s last ACK. -/
def windowRound (k : Nat) (cs : List (List UInt8)) : List NetAction :=
  .read .X 1 (cs.map .data) :: (deliverAll k cs ++ [.deliver .X (k + cs.length - 1) 1 []])

/-- The windows for the batches `bs`, the first of them from the `k`-th segment on. -/
def windowed : Nat → List (List (List UInt8)) → List NetAction
  | _, [] => []
  | k, cs :: bs => windowRound k cs ++ windowed (k + cs.length) bs

/-- **One window** takes the system from rest to rest, carrying the whole batch, though only the
last of `Y`'s acknowledgements reaches `X`. -/
theorem AtRest.window {cfg : Side → CtcpConfig} {S : List UInt8} {k : Nat} {n : Net}
    (h : AtRest cfg S k n) {cs : List (List UInt8)}
    (hw : WindowFits (cfg .X).send_window (cfg .Y).recv_window cs)
    (hS : 1 + S.length + cs.flatten.length < 2 ^ 32) :
    ∃ n', runNet n (windowRound k cs) = some n' ∧
      AtRest cfg (S ++ cs.flatten) (k + cs.length) n' := by
  obtain ⟨hne, hcs, hsw⟩ := hw
  obtain ⟨hx, ⟨l, hy⟩, rfl, hky, hout, hsink⟩ := h
  have hs₁ : 1 ≤ (streamEnd S).toNat := by
    rw [streamEnd, u32_toNat_ofNat, Nat.mod_eq_of_lt (by omega)]; omega
  let n₁ := n.update .X (some (windowState (cfg .X) (streamEnd S) 1 1 cs))
    (cs.map .enqueue ++ (windowSegs (cfg .X) (streamEnd S) cs).map .send) []
  have e₁ : netStep n (.read .X 1 (cs.map .data)) = some n₁ :=
    netStep_read hx (ctcpRead_window hne
      (fun c hc => ⟨(hcs c hc).1, (hcs c hc).2.1, (hcs c hc).2.2.2.2⟩) hsw 1 _ 1)
  obtain ⟨n₂, h₂, hx₂, hsx₂, htx₂, ⟨l₂, hy₂⟩, hsy₂, hsink₂⟩ := runNet_deliverAll hcs
    (show n₁.eng .Y = some (idleState (cfg .Y) 1 (streamEnd S) l) by simp [n₁, hy])
    (show n₁.sent .X = n.sent .X ++ windowSegs (cfg .X) (streamEnd S) cs by simp [n₁])
  obtain ⟨ack, hack, hflags, hver, hackno⟩ := windowAcks_last (cfg .Y) hne (streamEnd S)
  have hj : (n₂.sent .Y)[(n.sent .X).length + cs.length - 1]? = some ack := by
    have hidx : (n.sent .X).length + cs.length - 1 = (n.sent .Y).length + (cs.length - 1) := by
      have := List.length_pos.mpr hne; omega
    rw [hsy₂, hidx, List.getElem?_append_right (by simp [n₁])]
    simpa [n₁] using hack
  have hr : ctcpReceive 1 [] ack (windowState (cfg .X) (streamEnd S) 1 1 cs) =
      some (some (idleState (cfg .X) (streamEnd (S ++ cs.flatten)) 1 1), []) := by
    rw [ctcpReceive_window_ack hne hs₁ (streamEnd_toNat_add hS) hflags hver hackno,
      streamEnd_append]
  have e₃ := netStep_deliver (by rw [hx₂]; simp [n₁]) hj hr
  refine ⟨n₂.update .X (some (idleState (cfg .X) (streamEnd (S ++ cs.flatten)) 1 1)) [] [ack],
    ?_, by simp, ⟨l₂, by simp [hy₂]⟩, by simp [hsx₂, n₁, windowSegs_length],
    by simp [hsy₂, n₁, windowAcks_length, hky], by simp [htx₂, n₁, hout],
    by simp [hsink₂, n₁, hsink]⟩
  simp only [windowRound, runNet, e₁, Option.some_bind, runNet_append, h₂, e₃]

/-- Window after window, from rest to rest. -/
theorem AtRest.windows {cfg : Side → CtcpConfig} {S : List UInt8} {k : Nat} {n : Net}
    (h : AtRest cfg S k n) (bs : List (List (List UInt8)))
    (hbs : ∀ cs ∈ bs, WindowFits (cfg .X).send_window (cfg .Y).recv_window cs)
    (hS : 1 + S.length + bs.flatten.flatten.length < 2 ^ 32) :
    ∃ n', runNet n (windowed k bs) = some n' ∧
      AtRest cfg (S ++ bs.flatten.flatten) (k + bs.flatten.length) n' := by
  induction bs generalizing S k n with
  | nil => exact ⟨n, rfl, by simpa using h⟩
  | cons cs bs ih =>
    rw [List.flatten_cons, List.flatten_append, List.length_append] at hS
    obtain ⟨n₁, h₁, hr₁⟩ := h.window (hbs cs (List.mem_cons_self _ _)) (by omega)
    obtain ⟨n₂, h₂, hr₂⟩ := ih hr₁ (fun cs' hc' => hbs cs' (List.mem_cons_of_mem _ hc'))
      (by rw [List.length_append]; omega)
    refine ⟨n₂, by rw [windowed, runNet_append, h₁, Option.some_bind, h₂], ?_⟩
    rwa [List.flatten_cons, List.flatten_append, ← List.append_assoc, List.length_append,
      ← Nat.add_assoc]

/-- **Over a faithful carrier the stream arrives a window at a time.** For batches of chunks
that fit the windows, each read in one call, delivered in order with only each window's last
ACK returned, the run returns with `Y`'s sink holding `X`'s stream, `X` idle with `seqno` past it,
and `Y` with nothing left to write acknowledging all of it. -/
theorem window_delivers_stream (cfg : Side → CtcpConfig) (bs : List (List (List UInt8)))
    (hbs : ∀ cs ∈ bs, WindowFits (cfg .X).send_window (cfg .Y).recv_window cs)
    (hS : bs.flatten.flatten.length + 1 < 2 ^ 32) :
    ∃ n, runNet (Net.init cfg) (windowed 0 bs) = some n ∧
      outbound (n.trace .X) = bs.flatten.flatten ∧ sinkBytes (n.trace .Y) = bs.flatten.flatten ∧
      (∃ st, n.eng .X = some st ∧ st.tx_state = [] ∧ st.ack_state.time_out = false ∧
        st.conn_state.seqno.toNat = bs.flatten.flatten.length + 1) ∧
      ∃ st, n.eng .Y = some st ∧ st.rx_state = [] ∧
        st.conn_state.ackno.toNat = bs.flatten.flatten.length + 1 := by
  obtain ⟨n, hrun, hr⟩ := (atRest_init cfg).windows bs hbs (by simp only [List.length_nil]; omega)
  obtain ⟨l, hy⟩ := hr.y
  have hseq : (streamEnd ([] ++ bs.flatten.flatten)).toNat = bs.flatten.flatten.length + 1 := by
    rw [streamEnd, u32_toNat_ofNat, List.nil_append, Nat.mod_eq_of_lt (by omega), Nat.add_comm]
  exact ⟨n, hrun, by simpa using hr.stream, by simpa using hr.sink,
    ⟨_, hr.x, rfl, rfl, hseq⟩, ⟨_, hy, rfl, hseq⟩⟩

/-- `X` writes `"hi"` and `"!"` in one call; both segments reach `Y`, and only the second ACK
reaches `X`. -/
theorem window_delivers_stream_hi :
    ∃ n, runNet (Net.init fun _ => ⟨2000, 2000, 40, 40⟩) (windowed 0 [[[104, 105], [33]]]) =
        some n ∧
      outbound (n.trace .X) = [104, 105, 33] ∧ sinkBytes (n.trace .Y) = [104, 105, 33] ∧
      (∃ st, n.eng .X = some st ∧ st.tx_state = [] ∧ st.ack_state.time_out = false ∧
        st.conn_state.seqno.toNat = 4) ∧
      ∃ st, n.eng .Y = some st ∧ st.rx_state = [] ∧ st.conn_state.ackno.toNat = 4 :=
  window_delivers_stream _ [[[104, 105], [33]]] (by decide) (by decide)

end Ctcp
