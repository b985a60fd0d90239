import Ctcp.State

/-!
# cTCP Sending

`ctcp_send_flags`, `ctcp_send_data_segment` and the go-back-N pass
`ctcp_send_possible_data_segment` of `ctcp.c`.

`conn_send` is taken to accept each datagram whole, as the reference carrier does, and a
handler's `send` event is the whole segment. The retry loops around `conn_send` do not touch
the engine's state; §6 models them on their own, call by call, for every pattern of short
sends (`sendRetry`): one whole send is one call from the segment's start (`sendRetry_whole`),
and after a short send the next call starts `sizeof(ctcp_segment_t)` bytes per byte accepted
into the segment, since the pointer is a `ctcp_segment_t *`.

The pass is a loop over the Send Queue. Its equation `sendLoop_eq` gives the loop's result
in closed form: the front `fitCount` elements are sent and re-tagged (`retag`), with the
segments `dataSegs`, and the rest of the queue is left as it was. Every later fact about the
pass is read off that equation.
-/

namespace Ctcp

/-! ## §1 Segments the engine builds -/

/-- The advertised window `MAX_SEG_DATA_SIZE * ((rcv_window - rcv_window_used) /
MAX_SEG_DATA_SIZE)`, computed in C `int` (division truncating toward zero) and narrowed by
`htons`. -/
def advertisedWindow (rcv_window rcv_window_used : UInt16) : UInt16 :=
  UInt16.ofNat ((MAX_SEG_DATA_SIZE *
    Int.tdiv ((rcv_window.toNat : Int) - rcv_window_used.toNat) MAX_SEG_DATA_SIZE)
      % 65536).toNat

/-- While `rcv_window_used` is within `rcv_window`, the `int` computation neither goes
negative nor wraps: the advertised window is the free space rounded down to whole
`MAX_SEG_DATA_SIZE` blocks. -/
theorem advertisedWindow_toNat {w u : UInt16} (h : u.toNat ≤ w.toNat) :
    (advertisedWindow w u).toNat =
      MAX_SEG_DATA_SIZE * ((w.toNat - u.toNat) / MAX_SEG_DATA_SIZE) := by
  have hw := UInt16.toNat_lt w
  have hq := Nat.mul_div_le (w.toNat - u.toNat) MAX_SEG_DATA_SIZE
  have hd : (w.toNat : Int) - u.toNat = ((w.toNat - u.toNat : Nat) : Int) := by omega
  rw [advertisedWindow, hd, ← Int.ofNat_tdiv, ← Int.natCast_mul,
    Int.emod_eq_of_lt (by omega) (by omega), Int.toNat_natCast, u16_toNat_ofNat,
    Nat.mod_eq_of_lt (by omega)]

/-- The segment `ctcp_send_flags` hands to `conn_send`: header only, our `seqno`, the given
acknowledgement number and flags. -/
def ctcpSendFlags (st : CtcpState) (ackno flags : UInt32) : Segment :=
  Segment.seal
    { seqno := st.conn_state.seqno, ackno := ackno, len := UInt16.ofNat headerSize,
      cksum := 0, flags := flags,
      window := advertisedWindow st.conn_state.rcv_window st.conn_state.rcv_window_used,
      data := [] }

@[simp] theorem ctcpSendFlags_flags (st : CtcpState) (ackno flags : UInt32) :
    (ctcpSendFlags st ackno flags).flags = flags := rfl

@[simp] theorem ctcpSendFlags_seqno (st : CtcpState) (ackno flags : UInt32) :
    (ctcpSendFlags st ackno flags).seqno = st.conn_state.seqno := rfl

@[simp] theorem ctcpSendFlags_window (st : CtcpState) (ackno flags : UInt32) :
    (ctcpSendFlags st ackno flags).window =
      advertisedWindow st.conn_state.rcv_window st.conn_state.rcv_window_used := rfl

/-- A header-only segment declares its own length, so it passes the receiver's check. -/
@[simp] theorem ctcpSendFlags_verifies (st : CtcpState) (ackno flags : UInt32) :
    (ctcpSendFlags st ackno flags).verifies = true :=
  Segment.seal_verifies _ rfl

/-- The DATA segment `ctcp_send_data_segment` builds for element `e` at sequence number
`next`, carrying `ackno` and the advertised `window`. -/
def dataSegment (ackno : UInt32) (window : UInt16) (next : UInt32) (e : TxState) : Segment :=
  Segment.seal
    { seqno := next, ackno := ackno, len := UInt16.ofNat (headerSize + e.buffer_size),
      cksum := 0, flags := 0, window := window, data := e.tx_buffer }

/-- A DATA segment of at most `MAX_SEG_DATA_SIZE` bytes declares its own length, so it passes
the receiver's check. -/
theorem dataSegment_verifies (ackno : UInt32) (window : UInt16) (next : UInt32) {e : TxState}
    (h : e.buffer_size ≤ MAX_SEG_DATA_SIZE) : (dataSegment ackno window next e).verifies = true :=
  Segment.seal_verifies _ (by
    rw [u16_toNat_ofNat]
    exact Nat.mod_eq_of_lt (by unfold headerSize; unfold MAX_SEG_DATA_SIZE at h; omega))

/-- `ctcp_send_data_segment`: send `e` at `next_seqno`, advance `next_seqno` past it, store
the new value as `e`'s tag, and arm the timer. Returns the state, the re-tagged element and
the segment sent. -/
def ctcpSendDataSegment (st : CtcpState) (e : TxState) : CtcpState × TxState × Segment :=
  let next := st.conn_state.next_seqno + UInt32.ofNat e.buffer_size
  ({ st with conn_state.next_seqno := next, ack_state.time_out := true },
   { e with segment_next_seqno := next },
   dataSegment st.conn_state.ackno
     (advertisedWindow st.conn_state.rcv_window st.conn_state.rcv_window_used)
     st.conn_state.next_seqno e)

/-! ## §2 The pass -/

/-- The loop of `ctcp_send_possible_data_segment`: from the node reached, send each element
while its size added to `send_window_used` does not exceed `send_window`. Returns the state,
the queue from that node on, and the segments sent, in order. -/
def sendLoop (st : CtcpState) : List TxState → CtcpState × List TxState × List Segment
  | [] => (st, [], [])
  | e :: es =>
    if st.conn_state.send_window.toNat < e.buffer_size + st.conn_state.send_window_used.toNat then
      (st, e :: es, [])
    else
      let sent := ctcpSendDataSegment st e
      let rest := sendLoop
        { sent.1 with conn_state.send_window_used :=
            sent.1.conn_state.send_window_used + UInt16.ofNat e.buffer_size } es
      (rest.1, sent.2.1 :: rest.2.1, sent.2.2 :: rest.2.2)

/-- `ctcp_send_possible_data_segment`: restart the window at `seqno` and send, front first,
every element that fits. Used both for first transmission and for go-back-N
retransmission. -/
def ctcpSendPossibleDataSegment (st : CtcpState) : CtcpState × List Event :=
  let r := sendLoop
    { st with conn_state.send_window_used := 0, conn_state.next_seqno := st.conn_state.seqno }
    st.tx_state
  ({ r.1 with tx_state := r.2.1 }, r.2.2.map .send)

/-! ## §3 The pass in closed form -/

/-- How many elements, from the front, the loop sends with `used` bytes of a `window` already
taken: it stops at the first element that does not fit. -/
def fitCount (window : Nat) : Nat → List TxState → Nat
  | _, [] => 0
  | used, e :: es =>
    if window < e.buffer_size + used then 0 else fitCount window (used + e.buffer_size) es + 1

/-- Elements as a pass leaves them: each tagged one past its last byte, counting from
`next`. -/
def retag (next : UInt32) : List TxState → List TxState
  | [] => []
  | e :: es =>
    { e with segment_next_seqno := next + UInt32.ofNat e.buffer_size } ::
      retag (next + UInt32.ofNat e.buffer_size) es

/-- The DATA segments a pass sends for `es`, the first at sequence number `next`. -/
def dataSegs (ackno : UInt32) (window : UInt16) (next : UInt32) : List TxState → List Segment
  | [] => []
  | e :: es =>
    dataSegment ackno window next e :: dataSegs ackno window (next + UInt32.ofNat e.buffer_size) es

/-- **The pass loop in closed form.** It sends the front `fitCount` elements, re-tags them
from `next_seqno`, advances `next_seqno` and `send_window_used` by their bytes, arms the timer
if it sent anything, and leaves the rest of the queue untouched. -/
theorem sendLoop_eq (st : CtcpState) (q : List TxState) :
    sendLoop st q =
      let k := fitCount st.conn_state.send_window.toNat st.conn_state.send_window_used.toNat q
      ({ st with
          conn_state.next_seqno :=
            st.conn_state.next_seqno + UInt32.ofNat (txBytes (q.take k)),
          conn_state.send_window_used :=
            st.conn_state.send_window_used + UInt16.ofNat (txBytes (q.take k)),
          ack_state.time_out := st.ack_state.time_out || decide (0 < k) },
       retag st.conn_state.next_seqno (q.take k) ++ q.drop k,
       dataSegs st.conn_state.ackno
         (advertisedWindow st.conn_state.rcv_window st.conn_state.rcv_window_used)
         st.conn_state.next_seqno (q.take k)) := by
  induction q generalizing st with
  | nil => simp [sendLoop, fitCount, retag, dataSegs]
  | cons e es ih =>
    by_cases hfit : st.conn_state.send_window.toNat < e.buffer_size +
        st.conn_state.send_window_used.toNat
    · simp [sendLoop, fitCount, hfit, retag, dataSegs]
    · have hu : (st.conn_state.send_window_used + UInt16.ofNat e.buffer_size).toNat =
          st.conn_state.send_window_used.toNat + e.buffer_size := by
        have := UInt16.toNat_lt st.conn_state.send_window
        exact u16_toNat_add_ofNat (by omega)
      simp only [sendLoop, fitCount, hfit, if_false, ih, ctcpSendDataSegment, hu,
        List.take_succ_cons, List.drop_succ_cons, txBytes_cons, retag, dataSegs,
        u32_ofNat_add, u16_ofNat_add, List.cons_append]
      simp [add_assoc, add_assoc, Nat.add_comm e.buffer_size]

/-- **The pass in closed form.** From `seqno`, it re-tags and sends the front `fitCount`
elements, leaves `next_seqno` past them and their bytes in `send_window_used`, arms the
timer if it sent anything, and changes nothing else. -/
theorem ctcpSendPossibleDataSegment_eq (st : CtcpState) :
    ctcpSendPossibleDataSegment st =
      let k := fitCount st.conn_state.send_window.toNat 0 st.tx_state
      ({ st with
          conn_state.next_seqno :=
            st.conn_state.seqno + UInt32.ofNat (txBytes (st.tx_state.take k)),
          conn_state.send_window_used := UInt16.ofNat (txBytes (st.tx_state.take k)),
          ack_state.time_out := st.ack_state.time_out || decide (0 < k),
          tx_state := retag st.conn_state.seqno (st.tx_state.take k) ++ st.tx_state.drop k },
       (dataSegs st.conn_state.ackno
         (advertisedWindow st.conn_state.rcv_window st.conn_state.rcv_window_used)
         st.conn_state.seqno (st.tx_state.take k)).map .send) := by
  have h0 : UInt16.toNat 0 = 0 := rfl
  have hz : ∀ n : Nat, (0 : UInt16) + UInt16.ofNat n = UInt16.ofNat n := fun n =>
    UInt16.toNat.inj (by simp only [UInt16.toNat_add, UInt16.size, u16_toNat_ofNat, h0]; omega)
  simp only [ctcpSendPossibleDataSegment, sendLoop_eq, h0, hz]

/-- The pass changes only `next_seqno`, `send_window_used`, the timer's `time_out` and the
Send Queue. -/
theorem ctcpSendPossibleDataSegment_frame (st : CtcpState) :
    ∃ n u t q, (ctcpSendPossibleDataSegment st).1 =
      { st with conn_state.next_seqno := n, conn_state.send_window_used := u,
                ack_state.time_out := t, tx_state := q } := by
  rw [ctcpSendPossibleDataSegment_eq]; exact ⟨_, _, _, _, rfl⟩

/-- The pass only sends segments. -/
theorem ctcpSendPossibleDataSegment_sends (st : CtcpState) :
    ∃ segs : List Segment, (ctcpSendPossibleDataSegment st).2 = segs.map .send := by
  rw [ctcpSendPossibleDataSegment_eq]; exact ⟨_, rfl⟩

/-! ## §4 How far the pass reaches -/

theorem fitCount_le_length (w u : Nat) (q : List TxState) : fitCount w u q ≤ q.length := by
  induction q generalizing u with
  | nil => simp [fitCount]
  | cons e es ih => simp only [fitCount]; split <;> simp [ih]

/-- The elements the pass sends fit in the window. -/
theorem fitCount_fits (w : Nat) (q : List TxState) :
    ∀ u, u ≤ w → u + txBytes (q.take (fitCount w u q)) ≤ w := by
  induction q with
  | nil => simp [fitCount]
  | cons e es ih =>
    intro u hu
    simp only [fitCount]
    split
    · simpa using hu
    · have := ih (u + e.buffer_size) (by omega)
      simp only [List.take_succ_cons, txBytes_cons]; omega

/-- Any front run that fits is sent: the pass reaches at least as far. -/
theorem le_fitCount (w : Nat) (q : List TxState) :
    ∀ u j, j ≤ q.length → u + txBytes (q.take j) ≤ w → j ≤ fitCount w u q := by
  induction q with
  | nil => intro u j hj _; simp_all
  | cons e es ih =>
    intro u j hj h
    cases j with
    | zero => omega
    | succ j =>
      simp only [List.take_succ_cons, txBytes_cons] at h
      simp only [fitCount, show ¬ w < e.buffer_size + u by omega, if_false]
      have := ih (u + e.buffer_size) j (by simpa using hj) (by omega)
      omega

/-! ## §5 The pass, element by element -/

/-- The tags a pass writes, element by element: the `i`-th element it sends is tagged `next`
plus the bytes of the first `i + 1`. -/
theorem retag_eq_mapIdx (next : UInt32) (es : List TxState) :
    retag next es = es.mapIdx fun i e =>
      { e with segment_next_seqno := next + UInt32.ofNat (txBytes (es.take (i + 1))) } := by
  induction es generalizing next with
  | nil => rfl
  | cons e es ih =>
    have h0 : UInt32.ofNat 0 = 0 := rfl
    simp only [retag, ih, List.mapIdx_cons, List.take_succ_cons, List.take_zero, txBytes_cons,
      txBytes_nil, h0, add_zero, u32_ofNat_add, add_assoc]

/-- The segments a pass sends, element by element: the `i`-th carries its element at `next`
plus the bytes of the elements before it. -/
theorem dataSegs_eq_mapIdx (ackno : UInt32) (window : UInt16) (next : UInt32)
    (es : List TxState) :
    dataSegs ackno window next es = es.mapIdx fun i e =>
      dataSegment ackno window (next + UInt32.ofNat (txBytes (es.take i))) e := by
  induction es generalizing next with
  | nil => rfl
  | cons e es ih =>
    have h0 : UInt32.ofNat 0 = 0 := rfl
    simp only [dataSegs, ih, List.mapIdx_cons, List.take_succ_cons, List.take_zero,
      txBytes_cons, txBytes_nil, h0, add_zero, u32_ofNat_add, add_assoc]

/-- **What the pass sends and how it leaves the queue.** It sends, in order, the longest prefix
of the Send Queue that fits `send_window`, the `i`-th at `seqno` plus the bytes before it, tags
each one past its last byte, sets `send_window_used` and `next_seqno` to match, arms the timer if
it sent anything, and changes nothing else. -/
theorem pass_sends_fitting_prefix (st : CtcpState) :
    let q := st.tx_state
    let c := st.conn_state
    let r := ctcpSendPossibleDataSegment st
    ∃ k, k ≤ q.length ∧ txBytes (q.take k) ≤ c.send_window.toNat ∧
      (k < q.length → c.send_window.toNat < txBytes (q.take (k + 1))) ∧
      r.2 = ((q.take k).mapIdx fun i e =>
        dataSegment c.ackno (advertisedWindow c.rcv_window c.rcv_window_used)
          (c.seqno + UInt32.ofNat (txBytes ((q.take k).take i))) e).map .send ∧
      r.1 = { st with
        conn_state.next_seqno := c.seqno + UInt32.ofNat (txBytes (q.take k)),
        conn_state.send_window_used := UInt16.ofNat (txBytes (q.take k)),
        ack_state.time_out := st.ack_state.time_out || decide (0 < k),
        tx_state := (q.take k).mapIdx (fun i e => { e with
          segment_next_seqno := c.seqno + UInt32.ofNat (txBytes ((q.take k).take (i + 1))) }) ++
          q.drop k } ∧
      r.1.conn_state.send_window_used.toNat = txBytes (q.take k) := by
  rw [ctcpSendPossibleDataSegment_eq]
  dsimp only
  set k := fitCount st.conn_state.send_window.toNat 0 st.tx_state
  have hfit : txBytes (st.tx_state.take k) ≤ st.conn_state.send_window.toNat := by
    simpa using fitCount_fits st.conn_state.send_window.toNat st.tx_state 0 (Nat.zero_le _)
  have hwin := UInt16.toNat_lt st.conn_state.send_window
  refine ⟨k, fitCount_le_length _ _ _, hfit, fun hk => Nat.lt_of_not_le fun h => ?_,
    by rw [dataSegs_eq_mapIdx], by rw [retag_eq_mapIdx], ?_⟩
  · have := le_fitCount st.conn_state.send_window.toNat st.tx_state 0 (k + 1) hk (by simpa using h)
    omega
  · rw [u16_toNat_ofNat]
    exact Nat.mod_eq_of_lt (by omega)

/-! ## §6 The `conn_send` retry loops -/

/-- One call of `conn_send`: the byte offset from the start of the encoded segment of the
pointer it is handed, and the count it is asked to send. -/
structure SendCall where
  offset : Int
  count : Nat
deriving DecidableEq, Repr

/-- The retry loop of `ctcp_send_data_segment` and `ctcp_send_flags` on an encoded segment of
`seg_len` bytes, with `byte_left` bytes left and `sent` the values `conn_send` returns, one per
call: `while (byte_left > 0) { byte_sent = conn_send(conn, seg + seg_len - byte_left,
byte_left); byte_left -= byte_sent; }`. `seg` is a `ctcp_segment_t *`, so the pointer moves by
`sizeof(ctcp_segment_t)` bytes per unit. The calls made, or `none` when the answers run out
before the loop ends. -/
def sendRetry (seg_len : Nat) (byte_left : Int) : List Int → Option (List SendCall)
  | [] => if 0 < byte_left then none else some []
  | byte_sent :: rest =>
    if 0 < byte_left then
      (sendRetry seg_len (byte_left - byte_sent) rest).map
        (⟨headerSize * (seg_len - byte_left), byte_left.toNat⟩ :: ·)
    else some []

/-- The `conn_send` calls of `ctcp_send_data_segment` for element `e`. -/
def ctcpSendDataSegmentCalls (e : TxState) (sent : List Int) : Option (List SendCall) :=
  sendRetry (headerSize + e.buffer_size) (headerSize + e.buffer_size) sent

/-- The `conn_send` calls of `ctcp_send_flags`, whose segment is a bare header. -/
def ctcpSendFlagsCalls (sent : List Int) : Option (List SendCall) :=
  sendRetry headerSize headerSize sent

/-- A segment that `conn_send` takes whole is handed over in one call, from its start: the
case the handlers' `send` events describe. -/
theorem sendRetry_whole (n : Nat) (hn : 0 < n) (rest : List Int) :
    sendRetry n n ((n : Int) :: rest) = some [⟨0, n⟩] := by
  cases rest <;> simp [sendRetry, hn]

/-- Where each call of the retry loop points: after calls that accepted `a` bytes in all, the
next is handed the segment from `sizeof(ctcp_segment_t) * a` bytes past the point the loop
started from, with what is left to send. -/
theorem sendRetry_calls (n : Nat) :
    ∀ (b : Int) (sent : List Int) (calls : List SendCall), sendRetry n b sent = some calls →
      ∀ i, ∀ c ∈ calls[i]?, c.offset = headerSize * (n - b + (sent.take i).sum) ∧
        c.count = (b - (sent.take i).sum).toNat
  | b, [], calls, h, i, c, hc => by
    simp only [sendRetry] at h
    split at h
    · cases h
    · cases h; simp at hc
  | b, r :: rs, calls, h, i, c, hc => by
    simp only [sendRetry] at h
    split at h
    · obtain ⟨calls', hrec, rfl⟩ := Option.map_eq_some'.mp h
      cases i with
      | zero =>
        simp only [List.getElem?_cons_zero, Option.mem_some_iff] at hc
        subst hc
        simp
      | succ i =>
        simp only [List.getElem?_cons_succ] at hc
        obtain ⟨ho, hk⟩ := sendRetry_calls n (b - r) rs calls' hrec i c hc
        simp only [List.take_succ_cons, List.sum_cons, ho, hk]
        constructor <;> congr 1 <;> omega
    · cases h; simp at hc

/-- **After a short send the retry loops skip ahead.** The `i`-th `conn_send` call of either
retry loop is handed the segment from `sizeof(ctcp_segment_t)` bytes per byte the earlier calls
accepted; on a header-only segment, a first call taking one byte is followed by one from
offset `18`, the end of the segment. -/
theorem retry_resumes_past_accepted (e : TxState) (sent : List Int) :
    (∀ calls, ctcpSendDataSegmentCalls e sent = some calls →
      ∀ i, ∀ c ∈ calls[i]?, c.offset = headerSize * (sent.take i).sum) ∧
    (∀ calls, ctcpSendFlagsCalls sent = some calls →
      ∀ i, ∀ c ∈ calls[i]?, c.offset = headerSize * (sent.take i).sum) ∧
    ctcpSendFlagsCalls [1, 17] = some [⟨0, 18⟩, ⟨18, 17⟩] := by
  refine ⟨fun calls h i c hc => ?_, fun calls h i c hc => ?_, rfl⟩
  · rw [(sendRetry_calls _ _ sent calls h i c hc).1]; congr 1; omega
  · rw [(sendRetry_calls _ _ sent calls h i c hc).1]; congr 1; omega

end Ctcp
