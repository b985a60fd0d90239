import Ctcp.Engine

/-!
# The Send Window Invariant

Over every run of one engine, as long as fewer than `2³² − 2` bytes have been appended to the
Send Queue: the transmitted elements (nonzero tag) are a front run of the queue, tagged
`seqno` plus the running byte count; `next_seqno` is one past the last of them and
`send_window_used` counts their bytes, within `send_window`; the queue holds the outbound
stream from `seqno` on; and every DATA segment ever sent carries the stream's bytes at its
sequence number.

## Structure

- §1 `TxLayout base q k`: the shape of the queue, with the lemmas the three operations that
  touch the queue need (append an untagged element, re-tag a front run, drop a front run).
- §2 `SendInv`: the invariant, and how each piece of a handler keeps it.
- §3 each handler keeps it, and so does every run.
- §4 the invariant read element by element, and the stream carried by the queue and the
  segments.
- §5 only the `ACK_SEG` case moves `seqno`, and only forward: the acknowledged prefix of the
  stream only grows.
-/

namespace Ctcp

/-! ## §1 The layout of the Send Queue -/

/-- `TxLayout base q k`: the first `k` elements of `q` are tagged one past their last byte,
counting from sequence number `base`, and the others are untagged. -/
def TxLayout : Nat → List TxState → Nat → Prop
  | _, q, 0 => ∀ e ∈ q, e.segment_next_seqno = 0
  | _, [], _ + 1 => False
  | base, e :: q, k + 1 =>
    e.segment_next_seqno.toNat = base + e.buffer_size ∧ TxLayout (base + e.buffer_size) q k

@[simp] theorem txLayout_zero (b : Nat) (q : List TxState) :
    TxLayout b q 0 ↔ ∀ e ∈ q, e.segment_next_seqno = 0 := by
  cases q <;> rfl

@[simp] theorem txLayout_nil_succ (b k : Nat) : TxLayout b [] (k + 1) ↔ False := Iff.rfl

@[simp] theorem txLayout_cons_succ (b k : Nat) (e : TxState) (q : List TxState) :
    TxLayout b (e :: q) (k + 1) ↔
      e.segment_next_seqno.toNat = b + e.buffer_size ∧ TxLayout (b + e.buffer_size) q k :=
  Iff.rfl

theorem TxLayout.le_length {b : Nat} {q : List TxState} {k : Nat} (h : TxLayout b q k) :
    k ≤ q.length := by
  induction q generalizing b k with
  | nil => cases k <;> simp_all
  | cons e q ih =>
    cases k with
    | zero => simp
    | succ k => simpa using ih h.2

/-- Past the tagged run everything is untagged. -/
theorem TxLayout.drop_untagged {b : Nat} {q : List TxState} {k : Nat} (h : TxLayout b q k) :
    ∀ e ∈ q.drop k, e.segment_next_seqno = 0 := by
  induction q generalizing b k with
  | nil => simp
  | cons e q ih =>
    cases k with
    | zero => simpa using h
    | succ k => simpa using ih h.2

/-- `ctcp_read` appends untagged elements. -/
theorem TxLayout.append {r : List TxState} (hr : ∀ e ∈ r, e.segment_next_seqno = 0) {b : Nat}
    {q : List TxState} {k : Nat} (h : TxLayout b q k) : TxLayout b (q ++ r) k := by
  induction q generalizing b k with
  | nil =>
    cases k with
    | zero => simpa using hr
    | succ k => exact h.elim
  | cons x q ih =>
    cases k with
    | zero =>
      simp only [txLayout_zero, List.mem_append] at h ⊢
      rintro a (ha | ha)
      exacts [h a ha, hr a ha]
    | succ k => exact ⟨h.1, ih h.2⟩

/-- A pass re-tags a front run in front of untagged elements. -/
theorem txLayout_retag {r : List TxState} (hr : ∀ e ∈ r, e.segment_next_seqno = 0)
    (es : List TxState) (n : UInt32) (h : n.toNat + txBytes es < 2 ^ 32) :
    TxLayout n.toNat (retag n es ++ r) es.length := by
  induction es generalizing n with
  | nil => simpa [retag] using hr
  | cons e es ih =>
    simp only [txBytes_cons] at h
    have hn : (n + UInt32.ofNat e.buffer_size).toNat = n.toNat + e.buffer_size :=
      @u32_toNat_add_ofNat n e.buffer_size (by omega)
    simp only [retag, List.cons_append, List.length_cons, txLayout_cons_succ,
      TxState.buffer_size_retagged]
    refine ⟨hn, ?_⟩
    have := ih (n + UInt32.ofNat e.buffer_size) (by omega)
    rwa [hn] at this

/-- Acknowledged elements leave from the front. -/
theorem TxLayout.drop {b : Nat} {q : List TxState} {k : Nat} (j : Nat) (h : TxLayout b q k)
    (hj : j ≤ k) : TxLayout (b + txBytes (q.take j)) (q.drop j) (k - j) := by
  induction q generalizing b k j with
  | nil => cases j <;> cases k <;> simp_all
  | cons e q ih =>
    cases j with
    | zero => simpa using h
    | succ j =>
      cases k with
      | zero => omega
      | succ k =>
        have := ih j h.2 (by omega)
        simpa [Nat.add_assoc] using this

theorem retag_buffers (n : UInt32) :
    ∀ es : List TxState, (retag n es).map TxState.tx_buffer = es.map TxState.tx_buffer
  | [] => rfl
  | e :: es => by simp [retag, retag_buffers _ es]

theorem txBytes_eq_length_flatten (q : List TxState) :
    txBytes q = (q.map TxState.tx_buffer).flatten.length := by
  induction q with
  | nil => rfl
  | cons e q ih => simp [ih, TxState.buffer_size]

theorem txBytes_retag (n : UInt32) (es : List TxState) : txBytes (retag n es) = txBytes es := by
  rw [txBytes_eq_length_flatten, txBytes_eq_length_flatten, retag_buffers]

theorem txBytes_take_add (q : List TxState) (j m : Nat) :
    txBytes (q.take (j + m)) = txBytes (q.take j) + txBytes ((q.drop j).take m) := by
  rw [List.take_add, txBytes_append]

theorem txBytes_take_le (q : List TxState) {j k : Nat} (h : j ≤ k) :
    txBytes (q.take j) ≤ txBytes (q.take k) := by
  obtain ⟨m, rfl⟩ := Nat.exists_eq_add_of_le h
  rw [txBytes_take_add]; omega

theorem txBytes_take_le_total (q : List TxState) (j : Nat) : txBytes (q.take j) ≤ txBytes q := by
  conv_rhs => rw [← List.take_append_drop j q]
  rw [txBytes_append]; omega

theorem flatten_drop (q : List TxState) (j : Nat) :
    ((q.drop j).map TxState.tx_buffer).flatten =
      ((q.map TxState.tx_buffer).flatten).drop (txBytes (q.take j)) := by
  have h := congrArg (fun l => (l.map TxState.tx_buffer).flatten) (List.take_append_drop j q)
  simp only [List.map_append, List.flatten_append] at h
  rw [← h, List.drop_left' (txBytes_eq_length_flatten _).symm]

theorem flatten_take_prefix (q : List TxState) (j : Nat) :
    ((q.take j).map TxState.tx_buffer).flatten <+: (q.map TxState.tx_buffer).flatten := by
  conv_rhs => rw [← List.take_append_drop j q]
  rw [List.map_append, List.flatten_append]
  exact List.prefix_append _ _

theorem prefix_drop_of_append {a b D : List UInt8} (h : a ++ b <+: D) : b <+: D.drop a.length := by
  obtain ⟨t, rfl⟩ := h
  simp

/-- The tag of the last of the front `j` elements, `x` if there are none. -/
theorem TxLayout.last_tag {b : Nat} {q : List TxState} {k : Nat} (h : TxLayout b q k)
    {j : Nat} (hj : j ≤ k) {x : UInt32} (hx : x.toNat = b) :
    (((q.take j).getLast?.map TxState.segment_next_seqno).getD x).toNat =
      b + txBytes (q.take j) := by
  induction q generalizing b k j x with
  | nil => simp [hx]
  | cons e q ih =>
    cases j with
    | zero => simp [hx]
    | succ j =>
      cases k with
      | zero => omega
      | succ k =>
        have := @ih _ _ h.2 j (by omega) _ h.1
        rw [Option.getD_map] at this
        rw [List.take_succ_cons, List.getLast?_cons, Option.map_some', Option.getD_some, this,
          txBytes_cons, Nat.add_assoc]

/-- The acknowledgement loop stops within the tagged run. -/
theorem TxLayout.ackCount_le {b : Nat} {q : List TxState} {k : Nat} (h : TxLayout b q k)
    (A : UInt32) : ackCount A q ≤ k := by
  induction q generalizing b k with
  | nil => simp [ackCount]
  | cons e q ih =>
    cases k with
    | zero =>
      have he : e.segment_next_seqno = 0 := h e (List.mem_cons_self _ _)
      simp [ackCount, he]
    | succ k =>
      simp only [ackCount]
      split
      · exact Nat.succ_le_succ (ih h.2)
      · omega

/-- The `i`-th element of the tagged run is tagged one past its last byte. -/
theorem TxLayout.tag_of_lt {b : Nat} {q : List TxState} {k : Nat} (h : TxLayout b q k)
    {i : Nat} (hik : i < k) (hi : i < q.length) :
    q[i].segment_next_seqno.toNat = b + txBytes (q.take (i + 1)) := by
  induction q generalizing b k i with
  | nil => simp at hi
  | cons e q ih =>
    cases k with
    | zero => omega
    | succ k =>
      cases i with
      | zero => simpa using h.1
      | succ i =>
        have := ih h.2 (show i < k by omega) (by simpa using hi)
        simpa [Nat.add_assoc] using this

/-- Elements past the tagged run are untagged. -/
theorem TxLayout.untagged_of_le {b : Nat} {q : List TxState} {k : Nat} (h : TxLayout b q k)
    {i : Nat} (hki : k ≤ i) (hi : i < q.length) : q[i].segment_next_seqno = 0 := by
  induction q generalizing b k i with
  | nil => simp at hi
  | cons e q ih =>
    cases k with
    | zero => exact (txLayout_zero b _).mp h _ (List.getElem_mem _)
    | succ k =>
      cases i with
      | zero => omega
      | succ i => simpa using ih h.2 (show k ≤ i by omega) (by simpa using hi)

/-! ## §2 The invariant -/

/-- The send-side invariant of an engine whose outbound stream so far is `S`. -/
structure SendInv (st : CtcpState) (S : List UInt8) : Prop where
  /-- `seqno - 1` bytes of the stream have been acknowledged and dropped. -/
  seqno_pos : 1 ≤ st.conn_state.seqno.toNat
  /-- The Send Queue holds the rest of the stream, in order. -/
  stream : (st.tx_state.map TxState.tx_buffer).flatten = S.drop (st.conn_state.seqno.toNat - 1)
  stream_length : st.conn_state.seqno.toNat - 1 + txBytes st.tx_state = S.length
  /-- The transmitted elements are the front `k`, tagged from `seqno`; `next_seqno` is one past
  them and `send_window_used` holds their bytes, within the window. -/
  layout : ∃ k, TxLayout st.conn_state.seqno.toNat st.tx_state k ∧
    st.conn_state.next_seqno.toNat = st.conn_state.seqno.toNat + txBytes (st.tx_state.take k) ∧
    st.conn_state.send_window_used.toNat = txBytes (st.tx_state.take k) ∧
    txBytes (st.tx_state.take k) ≤ st.conn_state.send_window.toNat

/-- Every DATA segment (flags `0`) among `segs` carries the bytes of `S` at its sequence
number. -/
def SegInv (S : List UInt8) (segs : List Segment) : Prop :=
  ∀ seg ∈ segs, seg.flags = 0 → seg.data = (S.drop (seg.seqno.toNat - 1)).take seg.data.length

theorem sendInv_init (cfg : CtcpConfig) : SendInv (ctcpInit cfg) [] :=
  ⟨le_refl _, rfl, rfl, 0, by simp [ctcpInit]⟩

/-- The invariant reads only `seqno`, `next_seqno`, the window fields and the Send Queue. -/
theorem SendInv.frame {st st' : CtcpState} {S : List UInt8} (h : SendInv st S)
    (hs : st'.conn_state.seqno = st.conn_state.seqno)
    (hn : st'.conn_state.next_seqno = st.conn_state.next_seqno)
    (hw : st'.conn_state.send_window = st.conn_state.send_window)
    (hu : st'.conn_state.send_window_used = st.conn_state.send_window_used)
    (hq : st'.tx_state = st.tx_state) : SendInv st' S := by
  obtain ⟨h1, h2, h3, h4⟩ := h
  exact ⟨by rwa [hs], by rwa [hs, hq], by rwa [hs, hq], by rwa [hs, hn, hw, hu, hq]⟩

theorem SegInv.append {S : List UInt8} {a b : List Segment} (ha : SegInv S a) (hb : SegInv S b) :
    SegInv S (a ++ b) := by
  intro seg hseg
  rcases List.mem_append.mp hseg with h | h
  exacts [ha seg h, hb seg h]

theorem SegInv.of_flags {S : List UInt8} {segs : List Segment} (h : ∀ seg ∈ segs, seg.flags ≠ 0) :
    SegInv S segs := fun seg hseg h0 => absurd h0 (h seg hseg)

/-- A later stream only extends the earlier one, so old segments stay correct. -/
theorem SegInv.extend {S : List UInt8} {segs : List Segment} (T : List UInt8) (h : SegInv S segs) :
    SegInv (S ++ T) segs := by
  intro seg hseg h0
  have hd := h seg hseg h0
  rcases Nat.eq_zero_or_pos seg.data.length with hz | hpos
  · rw [List.length_eq_zero.mp hz]; rfl
  · have hl : seg.data.length ≤ (S.drop (seg.seqno.toNat - 1)).length := by
      have := congrArg List.length hd
      rw [List.length_take] at this; omega
    rw [List.drop_append_of_le_length (by simp only [List.length_drop] at hl; omega),
      List.take_append_of_le_length hl]
    exact hd

theorem retag_length (n : UInt32) : ∀ es : List TxState, (retag n es).length = es.length
  | [] => rfl
  | _ :: es => by simp [retag, retag_length _ es]

/-- **The pass keeps the invariant.** It re-tags a front run at least as long as the one sent
before (that run still fits the window), so everything past it is untagged. -/
theorem SendInv.pass {st : CtcpState} {S : List UInt8} (h : SendInv st S)
    (hS : S.length + 1 < 2 ^ 32) : SendInv (ctcpSendPossibleDataSegment st).1 S := by
  obtain ⟨h1, h2, h3, k₀, hk, hn, hu, hw⟩ := h
  rw [ctcpSendPossibleDataSegment_eq]
  set q := st.tx_state
  set k := fitCount st.conn_state.send_window.toNat 0 q
  have hkq : k ≤ q.length := fitCount_le_length _ _ _
  have hk₀ : k₀ ≤ k := le_fitCount _ q 0 k₀ hk.le_length (by omega)
  have hfit : txBytes (q.take k) ≤ st.conn_state.send_window.toNat := by
    simpa using fitCount_fits _ q 0 (Nat.zero_le _)
  have hwin := UInt16.toNat_lt st.conn_state.send_window
  have hbytes := txBytes_take_le_total q k
  have huntag : ∀ e ∈ q.drop k, e.segment_next_seqno = 0 := by
    intro e he
    rw [show k = k₀ + (k - k₀) by omega, ← List.drop_drop] at he
    exact hk.drop_untagged e (List.mem_of_mem_drop he)
  have htake : (retag st.conn_state.seqno (q.take k) ++ q.drop k).take k =
      retag st.conn_state.seqno (q.take k) :=
    List.take_left' (by rw [retag_length, List.length_take]; omega)
  have hsplit : txBytes (retag st.conn_state.seqno (q.take k) ++ q.drop k) = txBytes q := by
    rw [txBytes_append, txBytes_retag, ← txBytes_append, List.take_append_drop]
  refine ⟨h1, ?_, by simpa [hsplit] using h3, k, ?_, ?_, ?_, ?_⟩
  · rw [List.map_append, retag_buffers, ← List.map_append, List.take_append_drop]
    exact h2
  · have := txLayout_retag huntag (q.take k) st.conn_state.seqno (by omega)
    rwa [List.length_take, min_eq_left hkq] at this
  · simp only [htake, txBytes_retag]
    exact u32_toNat_add_ofNat (by omega)
  · simp only [htake, txBytes_retag, u16_toNat_ofNat]
    exact Nat.mod_eq_of_lt (by omega)
  · simpa [htake, txBytes_retag] using hfit

/-- The DATA segments for a front run whose bytes start `S` at sequence number `n` carry
those bytes. -/
theorem dataSegs_slice (a : UInt32) (w : UInt16) (S : List UInt8) :
    ∀ (es : List TxState) (n : UInt32),
      (es.map TxState.tx_buffer).flatten <+: S.drop (n.toNat - 1) → 1 ≤ n.toNat →
        n.toNat + txBytes es < 2 ^ 32 → SegInv S (dataSegs a w n es)
  | [], _, _, _, _ => by simp [SegInv, dataSegs]
  | e :: es, n, hp, h1, hb => by
    simp only [List.map_cons, List.flatten_cons] at hp
    simp only [txBytes_cons] at hb
    have hn : (n + UInt32.ofNat e.buffer_size).toNat = n.toNat + e.buffer_size :=
      u32_toNat_add_ofNat (by omega)
    intro seg hseg hflags
    simp only [dataSegs, List.mem_cons] at hseg
    rcases hseg with rfl | hseg
    · simpa [dataSegment] using
        List.prefix_iff_eq_take.mp ((List.prefix_append _ _).trans hp)
    · refine dataSegs_slice a w S es _ ?_ (by omega) (by omega) seg hseg hflags
      have := prefix_drop_of_append hp
      rwa [List.drop_drop, show n.toNat - 1 + e.tx_buffer.length =
        (n + UInt32.ofNat e.buffer_size).toNat - 1 by rw [hn, TxState.buffer_size]; omega] at this

/-- Every DATA segment of a pass carries the stream's bytes at its sequence number. -/
theorem SendInv.pass_segs {st : CtcpState} {S : List UInt8} (h : SendInv st S)
    (hS : S.length + 1 < 2 ^ 32) : SegInv S (sends (ctcpSendPossibleDataSegment st).2) := by
  rw [ctcpSendPossibleDataSegment_eq]
  simp only [sends_map_send]
  have hb := txBytes_take_le_total st.tx_state
    (fitCount st.conn_state.send_window.toNat 0 st.tx_state)
  refine dataSegs_slice _ _ S _ _ ?_ h.seqno_pos (by have := h.stream_length; omega)
  rw [← h.stream]
  exact flatten_take_prefix _ _

/-- **The acknowledgement loop keeps the invariant**: it removes `ackCount` elements, all from
the tagged run, moving `seqno` past exactly their bytes. -/
theorem SendInv.ackLoop {st : CtcpState} {S : List UInt8} (h : SendInv st S) (A : UInt32) :
    SendInv { (ackLoop A st st.tx_state).1 with tx_state := (ackLoop A st st.tx_state).2 } S := by
  obtain ⟨h1, h2, h3, k₀, hk, hn, hu, hw⟩ := h
  rw [ackLoop_eq]
  set q := st.tx_state
  set j := ackCount A q
  have hj : j ≤ k₀ := hk.ackCount_le A
  have hlast := hk.last_tag hj (show st.conn_state.seqno.toNat = _ from rfl)
  have hle := txBytes_take_le q hj
  have hsum := txBytes_take_add q j (k₀ - j)
  rw [Nat.add_sub_cancel' hj] at hsum
  have hqs : txBytes q = txBytes (q.take j) + txBytes (q.drop j) := by
    rw [← txBytes_append, List.take_append_drop]
  refine ⟨by simp only; omega, ?_, by simp only; omega, k₀ - j, ?_, ?_, ?_, ?_⟩
  · simp only
    rw [hlast, flatten_drop, h2, List.drop_drop]
    congr 1; omega
  · simp only; rw [hlast]; exact hk.drop j hj
  · simp only; omega
  · simp only; rw [u16_toNat_sub_ofNat (by omega)]; omega
  · simp only; omega

/-- The `ACK_SEG` case keeps the invariant. -/
theorem SendInv.receiveAck {st : CtcpState} {S : List UInt8} (h : SendInv st S) (A : UInt32) :
    SendInv (receiveAck st A) S := by
  unfold Ctcp.receiveAck
  split
  · exact h
  · split
    · have := h.ackLoop A
      dsimp only
      split <;> exact this.frame rfl rfl rfl rfl rfl
    · exact h

/-- Appending chunks to the Send Queue extends the stream by them. -/
theorem SendInv.enqueue {st : CtcpState} {S : List UInt8} (h : SendInv st S)
    (cs : List (List UInt8)) :
    SendInv { st with tx_state := st.tx_state ++ cs.map TxState.fresh } (S ++ cs.flatten) := by
  obtain ⟨h1, h2, h3, k, hk, hn, hu, hw⟩ := h
  have hbuf : (cs.map TxState.fresh).map TxState.tx_buffer = cs := by
    simp [Function.comp_def, TxState.fresh]
  have hlen : txBytes (cs.map TxState.fresh) = cs.flatten.length := by
    rw [txBytes_eq_length_flatten, hbuf]
  have htake : (st.tx_state ++ cs.map TxState.fresh).take k = st.tx_state.take k :=
    List.take_append_of_le_length hk.le_length
  refine ⟨h1, ?_, ?_, k, ?_, ?_⟩
  · simp only [List.map_append, List.flatten_append, hbuf, h2]
    rw [List.drop_append_of_le_length (by omega)]
  · simp only [txBytes_append, hlen, List.length_append]; omega
  · exact hk.append (by simp [TxState.fresh])
  · simpa only [htake] using ⟨hn, hu, hw⟩

/-! ## §3 Each handler keeps the invariant -/

/-- The invariant over a run: `SendInv` for the run's outbound stream, and every DATA segment of
the run correct. -/
def SendRunInv (st : CtcpState) (tr : List Event) : Prop :=
  SendInv st (outbound tr) ∧ SegInv (outbound tr) (sends tr)

/-- Extending a run by events that queue nothing. -/
theorem SendRunInv.extend {st st' : CtcpState} {tr evs : List Event} (h : SendRunInv st tr)
    (h' : SendInv st' (outbound tr)) (hout : outbound evs = [])
    (hsegs : SegInv (outbound tr) (sends evs)) : SendRunInv st' (tr ++ evs) := by
  simp only [SendRunInv, outbound_append, hout, List.append_nil, sends_append]
  exact ⟨h', h.2.append hsegs⟩

theorem SendInv.output {st : CtcpState} {S : List UInt8} (h : SendInv st S)
    (ans : List SinkAnswer) : SendInv (ctcpOutput ans st).1 S := by
  rw [ctcpOutput_frame]; exact h.frame rfl rfl rfl rfl rfl

theorem SendRunInv.output {st : CtcpState} {tr : List Event} (h : SendRunInv st tr)
    (ans : List SinkAnswer) : SendRunInv (ctcpOutput ans st).1 (tr ++ (ctcpOutput ans st).2) := by
  obtain ⟨h1, -, h3⟩ := ctcpOutput_events ans st
  exact h.extend (h.1.output ans) h1 (SegInv.of_flags fun seg hs => by rw [(h3 seg hs).1]; decide)

theorem SendRunInv.pass {st : CtcpState} {tr : List Event} (h : SendRunInv st tr)
    (hS : (outbound tr).length + 1 < 2 ^ 32) :
    SendRunInv (ctcpSendPossibleDataSegment st).1
      (tr ++ (ctcpSendPossibleDataSegment st).2) := by
  refine h.extend (h.1.pass hS) ?_ (h.1.pass_segs hS)
  rw [ctcpSendPossibleDataSegment_eq]; simp

theorem SendRunInv.timerVisit {st : CtcpState} {tr : List Event} (h : SendRunInv st tr)
    (hS : (outbound tr).length + 1 < 2 ^ 32) (ans : List SinkAnswer) :
    SendRunInv (timerVisit ans st).2.1 (tr ++ (timerVisit ans st).2.2) := by
  obtain ⟨a, td, -, -, hv⟩ := timerVisit_shape ans st
  have h₀ : SendRunInv { st with ack_state := a, segment_teardown := td } tr :=
    ⟨h.1.frame rfl rfl rfl rfl rfl, h.2⟩
  rcases hv with ⟨hst, hfin⟩ | hp | hpo
  · obtain ⟨h1, -, -, h4⟩ := sendsOnly hfin
    rw [hst]
    exact h₀.extend h₀.1 h1 (SegInv.of_flags fun seg hs => by rw [(h4 seg hs).1]; decide)
  · rw [hp]; exact h₀.pass hS
  · rw [hpo, ← List.append_assoc]
    exact (h₀.pass hS).output ans

theorem SendRunInv.timer {st st' : CtcpState} {tr evs : List Event} (h : SendRunInv st tr)
    (hS : (outbound tr).length + 1 < 2 ^ 32) {fuel : Nat} {ans : List (List SinkAnswer)}
    (hw : timerWalk fuel ans [st] = some ([st'], evs)) : SendRunInv st' (tr ++ evs) := by
  refine (@timerWalk_single (fun s t => outbound t = outbound tr ∧ SendRunInv s t)
    ?_ fuel ans st st' tr evs hw ⟨rfl, h⟩).2
  rintro a s t ⟨ht, hs⟩
  refine ⟨by rw [outbound_append, timerVisit_outbound, List.append_nil, ht], ?_⟩
  exact hs.timerVisit (by rwa [ht]) a

theorem SendRunInv.read {st st' : CtcpState} {tr evs : List Event} (h : SendRunInv st tr)
    {fuel : Nat} {input : List InputAnswer} (hr : ctcpRead fuel input st = some (st', evs))
    (hS : (outbound (tr ++ evs)).length + 1 < 2 ^ 32) : SendRunInv st' (tr ++ evs) := by
  obtain ⟨⟨st₁, evs₁⟩, hloop, hr'⟩ := Option.map_eq_some'.mp hr
  simp only [Prod.mk.injEq] at hr'
  obtain ⟨rfl, rfl⟩ := hr'
  obtain ⟨cs, hst, h1, -, -, h4, -⟩ := readLoop_spec hloop
  have h₁ : SendRunInv st₁ (tr ++ evs₁) := by
    refine ⟨?_, ?_⟩
    · rw [outbound_append, h1]
      rcases hst with rfl | rfl
      · exact h.1.enqueue cs
      · exact (h.1.enqueue cs).frame rfl rfl rfl rfl rfl
    · rw [outbound_append, h1, sends_append]
      exact (h.2.extend _).append
        (SegInv.of_flags fun seg hs => by rw [(h4 seg hs).1]; decide)
  have hS₁ : (outbound (tr ++ evs₁)).length + 1 < 2 ^ 32 := by
    simp only [outbound_append, List.length_append] at hS ⊢; omega
  simpa using h₁.pass hS₁

theorem SendRunInv.receive {st st' : CtcpState} {tr evs : List Event} (h : SendRunInv st tr)
    {fuel : Nat} {ans : List SinkAnswer} {seg : Segment}
    (hr : ctcpReceive fuel ans seg st = some (some st', evs)) : SendRunInv st' (tr ++ evs) := by
  rcases ctcpReceive_live hr with ⟨rfl, rfl⟩ | ⟨rfl, rfl⟩ | ⟨-, hd⟩ | ⟨-, -, rfl, rfl⟩ |
    ⟨-, -, rfl, rfl⟩
  · exact h.extend h.1 rfl (SegInv.of_flags (by simp [Event.segment, ACK]))
  · simpa using h
  · obtain ⟨a, l, u, q, hst⟩ := ctcpReceiveDataSegment_frame ans st seg
    obtain ⟨h1, h3⟩ := ctcpReceiveDataSegment_events ans st seg
    simp only [Prod.ext_iff] at hd
    rw [hd.1, hd.2]
    refine h.extend ?_ h1 (SegInv.of_flags fun s hs => by rw [(h3 s hs).1]; decide)
    rw [hst]; exact h.1.frame rfl rfl rfl rfl rfl
  · simpa using h.extend (h.1.receiveAck seg.ackno) (outbound_nil) (by simp [SegInv])
  · exact h.extend (h.1.frame rfl rfl rfl rfl rfl) rfl
      (SegInv.of_flags (by simp [Event.segment, ACK, FIN]))

/-- **One call keeps the invariant**, as long as the stream stays below `2³² − 1` bytes. -/
theorem SendRunInv.step {st st' : CtcpState} {tr evs : List Event} (h : SendRunInv st tr)
    {a : EngineAction} (hstep : engineStep st a = some (some st', evs))
    (hS : (outbound (tr ++ evs)).length + 1 < 2 ^ 32) : SendRunInv st' (tr ++ evs) := by
  have hS' : (outbound tr).length + 1 < 2 ^ 32 := by
    simp only [outbound_append, List.length_append] at hS; omega
  rcases engineStep_cases hstep with ⟨_, _, hr⟩ | ⟨_, _, _, hr⟩ | ⟨ans, hr⟩ | ⟨_, _, hw⟩
  · exact h.read hr hS
  · exact h.receive hr
  · have := h.output ans
    rwa [hr] at this
  · exact h.timer hS' hw

/-- **The send-side invariant holds in every reachable state** whose stream is below
`2³² − 1` bytes. -/
theorem sendRunInv_reachable {cfg : CtcpConfig} {st : CtcpState} {tr : List Event}
    (h : Reachable cfg st tr) (hS : (outbound tr).length + 1 < 2 ^ 32) : SendRunInv st tr := by
  induction h with
  | init => exact ⟨sendInv_init cfg, by simp [SegInv]⟩
  | step a _ hstep ih =>
    refine SendRunInv.step (ih ?_) hstep hS
    simp only [outbound_append, List.length_append] at hS; omega

/-! ## §4 The invariant, element by element -/

/-- **The Send Queue layout.** In every reachable state whose outbound stream is below
`2³² − 2` bytes, the transmitted elements are a front run `e₁ … e_k` of the Send Queue, `eᵢ`
is tagged `seqno + size(e₁) + … + size(eᵢ)`, `next_seqno` is `seqno` plus the run's bytes,
and `send_window_used` counts those bytes, within `send_window`; the bytes any ACK removes are
among them, so the ACK handler's subtraction from `send_window_used` does not wrap. -/
theorem send_queue_tagged_prefix {cfg : CtcpConfig} {st : CtcpState} {tr : List Event}
    (h : Reachable cfg st tr) (hS : (outbound tr).length < 2 ^ 32 - 2) :
    ∃ k ≤ st.tx_state.length,
      (∀ i (hi : i < st.tx_state.length), st.tx_state[i].segment_next_seqno ≠ 0 ↔ i < k) ∧
      (∀ i (hi : i < st.tx_state.length), i < k →
        st.tx_state[i].segment_next_seqno.toNat =
          st.conn_state.seqno.toNat + txBytes (st.tx_state.take (i + 1))) ∧
      st.conn_state.next_seqno.toNat = st.conn_state.seqno.toNat + txBytes (st.tx_state.take k) ∧
      st.conn_state.send_window_used.toNat = txBytes (st.tx_state.take k) ∧
      txBytes (st.tx_state.take k) ≤ st.conn_state.send_window.toNat ∧
      ∀ A, txBytes (st.tx_state.take (ackCount A st.tx_state)) ≤
        st.conn_state.send_window_used.toNat := by
  obtain ⟨⟨h1, -, -, k, hk, hn, hu, hw⟩, -⟩ := sendRunInv_reachable h (by omega)
  refine ⟨k, hk.le_length, fun i hi => ?_, fun i hi hik => hk.tag_of_lt hik hi, hn, hu, hw,
    fun A => hu ▸ txBytes_take_le _ (hk.ackCount_le A)⟩
  by_cases hik : i < k
  · simp only [hik, iff_true, ne_eq, UInt32.ext_iff, hk.tag_of_lt hik hi]
    exact Nat.ne_of_gt (by rw [UInt32.toNat_zero]; omega)
  · simp [hik, hk.untagged_of_le (Nat.le_of_not_lt hik) hi]

/-- After reading `"hi"` the one element is sent at once and tagged `3`. -/
theorem send_queue_tagged_prefix_hi :
    ∃ st tr, runEngine (ctcpInit ⟨2000, 2000, 40, 40⟩) [.read 1 [.data [104, 105]]] =
        some (st, tr) ∧ (outbound tr).length < 2 ^ 32 - 2 ∧
      ∃ k ≤ st.tx_state.length,
        (∀ i (hi : i < st.tx_state.length), st.tx_state[i].segment_next_seqno ≠ 0 ↔ i < k) ∧
        (∀ i (hi : i < st.tx_state.length), i < k →
          st.tx_state[i].segment_next_seqno.toNat =
            st.conn_state.seqno.toNat + txBytes (st.tx_state.take (i + 1))) ∧
        st.conn_state.next_seqno.toNat =
          st.conn_state.seqno.toNat + txBytes (st.tx_state.take k) ∧
        st.conn_state.send_window_used.toNat = txBytes (st.tx_state.take k) ∧
        txBytes (st.tx_state.take k) ≤ st.conn_state.send_window.toNat ∧
        ∀ A, txBytes (st.tx_state.take (ackCount A st.tx_state)) ≤
          st.conn_state.send_window_used.toNat := by
  refine ⟨_, _, rfl, ?_, send_queue_tagged_prefix
    (@reachable_of_runEngine ⟨2000, 2000, 40, 40⟩ _ _ [.read 1 [.data [104, 105]]] rfl) ?_⟩ <;>
  decide

/-- **Every byte keeps its sequence number.** In every reachable state whose outbound stream
`S` is below `2³² − 2` bytes, the Send Queue holds `S` from `seqno` on, and every DATA segment
the engine has sent, first transmission or retransmission, carries the bytes of `S` at its
sequence number. -/
theorem send_queue_holds_stream {cfg : CtcpConfig} {st : CtcpState} {tr : List Event}
    (h : Reachable cfg st tr) (hS : (outbound tr).length < 2 ^ 32 - 2) :
    (st.tx_state.map TxState.tx_buffer).flatten =
        (outbound tr).drop (st.conn_state.seqno.toNat - 1) ∧
      ∀ seg ∈ sends tr, seg.flags = 0 →
        seg.data = ((outbound tr).drop (seg.seqno.toNat - 1)).take seg.data.length := by
  obtain ⟨hinv, hsegs⟩ := sendRunInv_reachable h (by omega)
  exact ⟨hinv.stream, hsegs⟩

/-- After reading `"hi"`, the queue and the one DATA segment both carry `"hi"`. -/
theorem send_queue_holds_stream_hi :
    ∃ st tr, runEngine (ctcpInit ⟨2000, 2000, 40, 40⟩) [.read 1 [.data [104, 105]]] =
        some (st, tr) ∧ (outbound tr).length < 2 ^ 32 - 2 ∧
      (st.tx_state.map TxState.tx_buffer).flatten =
          (outbound tr).drop (st.conn_state.seqno.toNat - 1) ∧
        ∀ seg ∈ sends tr, seg.flags = 0 →
          seg.data = ((outbound tr).drop (seg.seqno.toNat - 1)).take seg.data.length := by
  refine ⟨_, _, rfl, ?_, send_queue_holds_stream
    (@reachable_of_runEngine ⟨2000, 2000, 40, 40⟩ _ _ [.read 1 [.data [104, 105]]] rfl) ?_⟩ <;>
  decide

/-! ## §5 The acknowledged prefix only grows -/

theorem ctcpRead_seqno {fuel : Nat} {input : List InputAnswer} {st st' : CtcpState}
    {evs : List Event} (h : ctcpRead fuel input st = some (st', evs)) :
    st'.conn_state.seqno = st.conn_state.seqno := by
  obtain ⟨_, _, _, _, rfl | rfl⟩ := ctcpRead_frame h <;> rfl

theorem timerVisit_seqno (ans : List SinkAnswer) (st : CtcpState) :
    (timerVisit ans st).2.1.conn_state.seqno = st.conn_state.seqno := by
  obtain ⟨a, td, -, -, hv⟩ := timerVisit_shape ans st
  obtain ⟨_, _, _, _, hp⟩ := ctcpSendPossibleDataSegment_frame
    { st with ack_state := a, segment_teardown := td }
  rcases hv with ⟨hst, -⟩ | hpe | hpo
  · rw [hst]
  · rw [hpe, hp]
  · rw [hpo, ctcpOutput_frame, hp]

/-- Only the `ACK_SEG` case of `ctcp_receive` moves `seqno`. -/
theorem engineStep_seqno {st st' : CtcpState} {a : EngineAction} {evs : List Event}
    (h : engineStep st a = some (some st', evs)) :
    st'.conn_state.seqno = st.conn_state.seqno ∨ ∃ A, st' = receiveAck st A := by
  rcases engineStep_cases h with
    ⟨_, _, hr⟩ | ⟨_, ans, seg, hr⟩ | ⟨ans, hr⟩ | ⟨fuel, ans, hw⟩
  · exact .inl (ctcpRead_seqno hr)
  · rcases ctcpReceive_live hr with
      ⟨rfl, -⟩ | ⟨rfl, -⟩ | ⟨-, hd⟩ | ⟨-, -, rfl, -⟩ | ⟨-, -, rfl, -⟩
    · exact .inl rfl
    · exact .inl rfl
    · obtain ⟨_, _, _, _, hst⟩ := ctcpReceiveDataSegment_frame ans st seg
      exact .inl (by rw [show st' = _ from congrArg Prod.fst hd, hst])
    · exact .inr ⟨_, rfl⟩
    · exact .inl rfl
  · exact .inl (by rw [show st' = _ from (congrArg Prod.fst hr).symm, ctcpOutput_frame])
  · exact .inl (@timerWalk_single (fun s _ => s.conn_state.seqno = st.conn_state.seqno)
      (fun ans s _ hs => (timerVisit_seqno ans s).trans hs) fuel ans st st' [] evs hw rfl)

/-- The `ACK_SEG` case moves `seqno` forward: to one past the bytes it acknowledges. -/
theorem SendInv.receiveAck_seqno {st : CtcpState} {S : List UInt8} (h : SendInv st S)
    (A : UInt32) : st.conn_state.seqno.toNat ≤ (Ctcp.receiveAck st A).conn_state.seqno.toNat := by
  obtain ⟨-, -, -, k₀, hk, -⟩ := h
  have hlast := hk.last_tag (hk.ackCount_le A) (show st.conn_state.seqno.toNat = _ from rfl)
  unfold Ctcp.receiveAck
  split
  · exact le_refl _
  · split
    · rw [ackLoop_eq]
      dsimp only
      split <;> exact hlast ▸ Nat.le_add_right _ _
    · exact le_refl _

/-- **The acknowledged prefix only grows.** Along every run of calls from a reachable state,
while the outbound stream stays below `2³² − 2` bytes, `seqno` never moves back: bytes once
acknowledged never return to the Send Queue. -/
theorem acknowledged_prefix_grows {cfg : CtcpConfig} {st st' : CtcpState} {tr evs : List Event}
    {as : List EngineAction} (h : Reachable cfg st tr) (hrun : runEngine st as = some (st', evs))
    (hS : (outbound (tr ++ evs)).length < 2 ^ 32 - 2) :
    st.conn_state.seqno.toNat ≤ st'.conn_state.seqno.toNat := by
  induction as generalizing st tr evs with
  | nil =>
    simp only [runEngine, Option.some.injEq, Prod.mk.injEq] at hrun
    rw [hrun.1]
  | cons a as ih =>
    obtain ⟨_, evs₁, e, hstep, hr, rfl⟩ := runEngine_cons_inv hrun
    simp only [outbound_append, List.length_append] at hS
    have hinv := (sendRunInv_reachable h (by omega)).1
    have hS₁ : (outbound (tr ++ evs₁ ++ e)).length < 2 ^ 32 - 2 := by
      simp only [outbound_append, List.length_append]; omega
    refine le_trans ?_ (ih (h.step a hstep) hr hS₁)
    rcases engineStep_seqno hstep with he | ⟨A, rfl⟩
    · rw [he]
    · exact hinv.receiveAck_seqno A

/-- Reading `"a"` and receiving the ACK for it moves `seqno` from `1` to `2`. -/
theorem acknowledged_prefix_grows_ack :
    ∃ st evs, runEngine (ctcpInit ⟨2000, 2000, 40, 40⟩)
        [.read 1 [.data [97]], .receive 1 [] (Segment.seal ⟨1, 2, 18, 0, ACK, 0, []⟩)] =
        some (st, evs) ∧ st.conn_state.seqno = 2 ∧
      (ctcpInit ⟨2000, 2000, 40, 40⟩).conn_state.seqno.toNat ≤
        st.conn_state.seqno.toNat := by
  refine ⟨_, _, rfl, rfl, @acknowledged_prefix_grows _ _ _ _ _
    [.read 1 [.data [97]], .receive 1 [] (Segment.seal ⟨1, 2, 18, 0, ACK, 0, []⟩)]
    .init rfl ?_⟩
  decide

end Ctcp
