import Ctcp.Engine
import Mathlib.Algebra.Order.BigOperators.Group.List

/-!
# The Receive Window Invariant

Over every run of one engine, whatever datagrams arrive and however short the sink's writes:
the cursors of each Receive Queue element split its payload (`byte_used + byte_left` is its
length), `rcv_window_used` is the sum of the `byte_left`s and stays within `rcv_window`, and
the bytes written to the sink followed by the unwritten tails of the queue are exactly the
payloads accepted so far, in order.

## Structure

- §1 `AdvertisesFree` and `SendsFree`: a segment's window against the bytes waiting when it
  is sent.
- §2 `RxQueueInv`: the cursors and the window count, and the loop of `ctcp_output` on them.
- §3 `RecvInv`: with the window bound and the stream.
- §4 how each handler keeps it, and so every run.
- §5 the receive window, element by element.
- §6 the window in every segment sent: the free space at that moment, in whole blocks.
- §7 `ctcp_output` element by element.
-/

namespace Ctcp

/-! ## §1 The window a segment advertises -/

/-- The window of `seg` is what an engine with `n` bytes waiting for the sink advertises out of
a receive window of `R` bytes: the free space `R - n`, rounded down to whole
`MAX_SEG_DATA_SIZE` blocks. -/
def AdvertisesFree (R : Nat) (n : Int) (seg : Segment) : Prop :=
  0 ≤ n ∧ n ≤ R ∧ (seg.window.toNat : Int) = MAX_SEG_DATA_SIZE * ((R - n) / MAX_SEG_DATA_SIZE)

/-- Every segment sent in `evs` fits, the bytes waiting when it is sent being `n`, plus the
payloads accepted before it, less the bytes written before it. -/
def SendsFree (R : Nat) (n : Int) (evs : List Event) : Prop :=
  ∀ pre seg post, evs = pre ++ .send seg :: post →
    AdvertisesFree R (n + (acceptedBytes pre).length - (sinkBytes pre).length) seg

/-- The window `advertisedWindow` computes fits while `rcv_window_used` is within
`rcv_window`. -/
theorem advertisesFree_of_window {w u : UInt16} (h : u.toNat ≤ w.toNat) {seg : Segment}
    (hs : seg.window = advertisedWindow w u) : AdvertisesFree w.toNat u.toNat seg := by
  refine ⟨Int.natCast_nonneg _, Int.ofNat_le.mpr h, ?_⟩
  rw [hs, advertisedWindow_toNat h, ← Int.ofNat_sub h]
  push_cast
  rfl

/-- Every segment of a pass advertises the window the pass was given. -/
theorem dataSegs_window (ackno : UInt32) (window : UInt16) (next : UInt32) (es : List TxState) :
    ∀ seg ∈ dataSegs ackno window next es, seg.window = window := by
  induction es generalizing next with
  | nil => simp [dataSegs]
  | cons e es ih =>
    simp only [dataSegs, List.mem_cons, forall_eq_or_imp]
    exact ⟨rfl, ih _⟩

theorem sendsFree_nil (R : Nat) (n : Int) : SendsFree R n [] := fun _ _ _ h => by simp at h

theorem sendsFree_cons {R : Nat} {n : Int} {ev : Event} {evs : List Event} :
    SendsFree R n (ev :: evs) ↔ (∀ seg, ev = .send seg → AdvertisesFree R n seg) ∧
      SendsFree R (n + ev.accepted.length - ev.written.length) evs := by
  have hc : ∀ pre : List Event, n + (acceptedBytes (ev :: pre)).length -
      (sinkBytes (ev :: pre)).length = n + ev.accepted.length - ev.written.length +
        (acceptedBytes pre).length - (sinkBytes pre).length := fun pre => by
    simp only [acceptedBytes_cons, sinkBytes_cons, List.length_append, Nat.cast_add]; omega
  constructor
  · intro h
    refine ⟨fun seg hs => by simpa using h [] seg evs (by rw [hs]; rfl), fun pre seg post hp => ?_⟩
    rw [← hc]; exact h (ev :: pre) seg post (by rw [hp]; rfl)
  · rintro ⟨h₁, h₂⟩ (_ | ⟨ev', pre⟩) seg post hp
    · simp only [List.nil_append, List.cons.injEq] at hp
      simpa using h₁ seg hp.1
    · simp only [List.cons_append, List.cons.injEq] at hp
      obtain ⟨rfl, rfl⟩ := hp
      rw [hc]; exact h₂ pre seg post rfl

theorem sendsFree_append {R : Nat} {n : Int} (xs ys : List Event) :
    SendsFree R n (xs ++ ys) ↔ SendsFree R n xs ∧
      SendsFree R (n + (acceptedBytes xs).length - (sinkBytes xs).length) ys := by
  induction xs generalizing n with
  | nil => simp [sendsFree_nil]
  | cons ev xs ih =>
    have hc : n + ev.accepted.length - ev.written.length + (acceptedBytes xs).length -
        (sinkBytes xs).length =
        n + (acceptedBytes (ev :: xs)).length - (sinkBytes (ev :: xs)).length := by
      simp only [acceptedBytes_cons, sinkBytes_cons, List.length_append, Nat.cast_add]; omega
    rw [List.cons_append, sendsFree_cons, sendsFree_cons, ih, hc, and_assoc]

/-- Events that accept and write nothing fit when their segments do. -/
theorem sendsFree_quiet {R : Nat} {n : Int} {evs : List Event} (hA : acceptedBytes evs = [])
    (hW : sinkBytes evs = []) (hs : ∀ seg ∈ sends evs, AdvertisesFree R n seg) :
    SendsFree R n evs := by
  rintro pre seg post rfl
  simp only [acceptedBytes_append, sinkBytes_append, List.append_eq_nil] at hA hW
  simpa [hA.1, hW.1] using hs seg (by simp [Event.segment])

@[simp] theorem sendsFree_output_cons {R : Nat} {n : Int} {d : List UInt8} {evs : List Event} :
    SendsFree R n (.output d :: evs) ↔ SendsFree R (n - d.length) evs := by
  simp [sendsFree_cons, Event.accepted, Event.written]

@[simp] theorem sendsFree_accept_cons {R : Nat} {n : Int} {p : List UInt8} {evs : List Event} :
    SendsFree R n (.accept p :: evs) ↔ SendsFree R (n + p.length) evs := by
  simp [sendsFree_cons, Event.accepted, Event.written]

@[simp] theorem sendsFree_send_cons {R : Nat} {n : Int} {seg : Segment} {evs : List Event} :
    SendsFree R n (.send seg :: evs) ↔ AdvertisesFree R n seg ∧ SendsFree R n evs := by
  simp [sendsFree_cons, Event.accepted, Event.written]

/-! ## §2 The Receive Queue -/

/-- The unwritten bytes of Receive Queue elements, in queue order. -/
def rxTails (q : List RxState) : List UInt8 := (q.map RxState.tail).flatten

@[simp] theorem rxTails_nil : rxTails [] = [] := rfl

@[simp] theorem rxTails_cons (e : RxState) (q : List RxState) :
    rxTails (e :: q) = e.tail ++ rxTails q := rfl

@[simp] theorem rxTails_append (q r : List RxState) :
    rxTails (q ++ r) = rxTails q ++ rxTails r := by simp [rxTails]

/-- The cursors of the Receive Queue `q`, and `used` counting its unwritten bytes. -/
structure RxQueueInv (used : UInt16) (q : List RxState) : Prop where
  /-- Each element's cursors are nonnegative and split its payload. -/
  cursors : ∀ e ∈ q, 0 ≤ e.byte_used ∧ 0 ≤ e.byte_left ∧
    e.byte_used + e.byte_left = e.rx_buffer.length
  /-- `rcv_window_used` is the sum of the `byte_left`s. -/
  window_used : (used.toNat : Int) = (q.map RxState.byte_left).sum

theorem byte_left_sum_nonneg {q : List RxState} (h : ∀ e ∈ q, 0 ≤ e.byte_left) :
    0 ≤ (q.map RxState.byte_left).sum :=
  List.sum_nonneg (by simpa using h)

theorem RxState.tail_length {e : RxState} (h0 : 0 ≤ e.byte_used)
    (h : e.byte_used + e.byte_left = e.rx_buffer.length) : e.tail.length = e.byte_left.toNat := by
  simp only [RxState.tail, List.length_drop]; omega

/-- Writing `w` bytes moves the tail past them. -/
theorem RxState.tail_advance (e : RxState) (w : Nat) (h0 : 0 ≤ e.byte_used) :
    { e with byte_used := e.byte_used + w, byte_left := e.byte_left - w }.tail = e.tail.drop w := by
  simp only [RxState.tail, List.drop_drop]
  congr 1; omega

/-- **The loop of `ctcp_output` keeps the cursors and the count**, lowers
`rcv_window_used`, writes to the sink exactly the bytes that leave the tails, and each ACK it
sends advertises the free space left after the bytes written before it. -/
theorem RxQueueInv.outputLoop {st : CtcpState} {q : List RxState} (ans : List SinkAnswer)
    (h : RxQueueInv st.conn_state.rcv_window_used q) :
    RxQueueInv (outputLoop st ans q).1.conn_state.rcv_window_used (outputLoop st ans q).2.1 ∧
      (outputLoop st ans q).1.conn_state.rcv_window_used.toNat ≤
        st.conn_state.rcv_window_used.toNat ∧
      sinkBytes (outputLoop st ans q).2.2 ++ rxTails (outputLoop st ans q).2.1 = rxTails q ∧
      (st.conn_state.rcv_window_used.toNat ≤ st.conn_state.rcv_window.toNat →
        SendsFree st.conn_state.rcv_window.toNat st.conn_state.rcv_window_used.toNat
          (outputLoop st ans q).2.2) := by
  induction q generalizing st ans with
  | nil => cases ans <;> exact ⟨h, le_refl _, rfl, fun _ => sendsFree_nil _ _⟩
  | cons e q ih =>
    cases ans with
    | nil => exact ⟨h, le_refl _, rfl, fun _ => sendsFree_nil _ _⟩
    | cons a as =>
      obtain ⟨h0u, h0l, hlen⟩ := h.cursors e (List.mem_cons_self _ _)
      have hcur : ∀ x ∈ q, 0 ≤ x.byte_used ∧ 0 ≤ x.byte_left ∧
          x.byte_used + x.byte_left = x.rx_buffer.length :=
        fun x hx => h.cursors x (List.mem_cons_of_mem _ hx)
      have hsum := h.window_used
      have hq0 := byte_left_sum_nonneg fun x hx => (hcur x hx).2.1
      simp only [List.map_cons, List.sum_cons] at hsum
      have htl := RxState.tail_length h0u hlen
      have hL : (e.byte_left.toNat : Int) = e.byte_left := Int.toNat_of_nonneg h0l
      simp only [Ctcp.outputLoop]
      split
      · exact ⟨h, le_refl _, rfl, fun _ => sendsFree_nil _ _⟩
      · generalize hwdef : min a.written e.byte_left.toNat = w
        have hw : w ≤ e.byte_left.toNat := hwdef ▸ min_le_right _ _
        have hused := @u16_toNat_sub_ofNat st.conn_state.rcv_window_used w (by omega)
        have hlw : (e.tail.take w).length = w := by rw [List.length_take]; omega
        split
        · rename_i hdone
          have hwl : (w : Int) = e.byte_left := by omega
          obtain ⟨i1, i2, i3, i4⟩ := @ih { st with conn_state.rcv_window_used :=
              st.conn_state.rcv_window_used - UInt16.ofNat w } as ⟨hcur, by rw [hused]; omega⟩
          dsimp only
          refine ⟨i1, by simp only [hused] at i2; omega, ?_, fun hR => ?_⟩
          · simp only [sinkBytes_cons, Event.written, List.nil_append, List.append_assoc, i3,
              rxTails_cons, List.take_of_length_le (show e.tail.length ≤ w by omega)]
          · have hn : (st.conn_state.rcv_window_used.toNat : Int) - (e.tail.take w).length =
                (st.conn_state.rcv_window_used - UInt16.ofNat w).toNat := by
              rw [hused, hlw]; omega
            rw [sendsFree_output_cons, hn, sendsFree_send_cons]
            have hR' : (st.conn_state.rcv_window_used - UInt16.ofNat w).toNat ≤
                st.conn_state.rcv_window.toNat := by rw [hused]; omega
            exact ⟨advertisesFree_of_window hR' (ctcpSendFlags_window _ _ _), i4 hR'⟩
        · dsimp only
          refine ⟨⟨?_, ?_⟩, by rw [hused]; omega, ?_,
            fun _ => sendsFree_output_cons.mpr (sendsFree_nil _ _)⟩
          · simp only [List.mem_cons, forall_eq_or_imp]
            exact ⟨⟨by omega, by omega, by omega⟩, hcur⟩
          · simp only [hused, List.map_cons, List.sum_cons]; omega
          · simp only [sinkBytes_cons, sinkBytes_nil, Event.written, List.append_nil, rxTails_cons,
              RxState.tail_advance e _ h0u, ← List.append_assoc, List.take_append_drop]

/-! ## §3 The invariant -/

/-- The receive-side invariant of an engine that has written `W` to its sink and accepted the
payloads `A`. -/
structure RecvInv (st : CtcpState) (W A : List UInt8) : Prop where
  queue : RxQueueInv st.conn_state.rcv_window_used st.rx_state
  window_le : st.conn_state.rcv_window_used.toNat ≤ st.conn_state.rcv_window.toNat
  /-- What was written, followed by what waits to be written, is what was accepted. -/
  stream : W ++ rxTails st.rx_state = A

theorem recvInv_init (cfg : CtcpConfig) : RecvInv (ctcpInit cfg) [] [] :=
  ⟨⟨by simp [ctcpInit], rfl⟩, Nat.zero_le _, rfl⟩

/-- The invariant reads only the Receive Queue and the two receive-window fields. -/
theorem RecvInv.frame {st st' : CtcpState} {W A : List UInt8} (h : RecvInv st W A)
    (hq : st'.rx_state = st.rx_state)
    (hu : st'.conn_state.rcv_window_used = st.conn_state.rcv_window_used)
    (hw : st'.conn_state.rcv_window = st.conn_state.rcv_window) : RecvInv st' W A := by
  obtain ⟨h1, h2, h3⟩ := h
  exact ⟨by rwa [hq, hu], by rwa [hu, hw], by rwa [hq]⟩

/-- **`ctcp_output` keeps the invariant**, moving bytes from the tails to the sink. -/
theorem RecvInv.output {st : CtcpState} {W A : List UInt8} (h : RecvInv st W A)
    (ans : List SinkAnswer) :
    RecvInv (ctcpOutput ans st).1 (W ++ sinkBytes (ctcpOutput ans st).2) A := by
  obtain ⟨i1, i2, i3, -⟩ := h.queue.outputLoop ans
  have hw : (ctcpOutput ans st).1.conn_state.rcv_window = st.conn_state.rcv_window := by
    rw [ctcpOutput_frame]
  refine ⟨i1, by rw [hw]; exact i2.trans h.window_le, ?_⟩
  rw [List.append_assoc]
  exact (congrArg (W ++ ·) i3).trans h.stream

/-- A payload that fits in the window is counted in `rcv_window_used` without wrapping. -/
theorem rxAccept_used {st : CtcpState} {seg : Segment}
    (hfit : st.conn_state.rcv_window_used.toNat + seg.data.length ≤
      st.conn_state.rcv_window.toNat) :
    (rxAccept st seg seg.data.length).conn_state.rcv_window_used.toNat =
      st.conn_state.rcv_window_used.toNat + seg.data.length :=
  u16_toNat_add_ofNat (by have := UInt16.toNat_lt st.conn_state.rcv_window; omega)

/-- **Accepting a payload keeps the invariant** when it fits in the window. -/
theorem RecvInv.accept {st : CtcpState} {W A : List UInt8} (h : RecvInv st W A)
    (seg : Segment)
    (hfit : st.conn_state.rcv_window_used.toNat + seg.data.length ≤
      st.conn_state.rcv_window.toNat) :
    RecvInv (rxAccept st seg seg.data.length) W (A ++ seg.data) := by
  obtain ⟨⟨h1, h2⟩, h3, h4⟩ := h
  have hu : (st.conn_state.rcv_window_used + UInt16.ofNat seg.data.length).toNat =
      st.conn_state.rcv_window_used.toNat + seg.data.length := rxAccept_used hfit
  refine ⟨⟨?_, ?_⟩, ?_, ?_⟩
  · simp only [rxAccept, List.mem_append, List.mem_singleton]
    rintro e (he | rfl)
    exacts [h1 e he, ⟨le_refl _, Int.natCast_nonneg _, by simp⟩]
  · simp only [rxAccept, hu, List.map_append, List.sum_append, ← h2]; simp
  · simp only [rxAccept, hu]; omega
  · simp [rxAccept, ← h4, RxState.tail]

/-- `ctcp_receive_data_segment` keeps the invariant, and its accepted payload is the
segment's. -/
theorem RecvInv.receiveData {st : CtcpState} {W A : List UInt8} (h : RecvInv st W A)
    (ans : List SinkAnswer) (seg : Segment) :
    RecvInv (ctcpReceiveDataSegment ans st seg).1
      (W ++ sinkBytes (ctcpReceiveDataSegment ans st seg).2)
      (A ++ acceptedBytes (ctcpReceiveDataSegment ans st seg).2) := by
  have hlen : seg.bytes.length - headerSize = seg.data.length := by simp
  unfold ctcpReceiveDataSegment
  simp only [hlen]
  split
  · rename_i hfit
    have := (h.accept seg hfit).output ans
    simpa [Event.written, Event.accepted, (ctcpOutput_events ans _).2.1] using this
  · simpa [(ctcpOutput_events ans st).2.1] using h.output ans

/-! ## §4 Each handler keeps the invariant -/

/-- The invariant over a run: what the run wrote to the sink and what it accepted. -/
def RecvRunInv (st : CtcpState) (tr : List Event) : Prop :=
  RecvInv st (sinkBytes tr) (acceptedBytes tr)

theorem RecvRunInv.extend {st : CtcpState} {tr evs : List Event}
    (h : RecvInv st (sinkBytes tr ++ sinkBytes evs) (acceptedBytes tr ++ acceptedBytes evs)) :
    RecvRunInv st (tr ++ evs) := by
  rw [RecvRunInv, sinkBytes_append, acceptedBytes_append]; exact h

/-- Extending a run by events that neither write to the sink nor accept a payload. -/
theorem RecvRunInv.quiet {st : CtcpState} {tr evs : List Event}
    (h : RecvInv st (sinkBytes tr) (acceptedBytes tr)) (hW : sinkBytes evs = [])
    (hA : acceptedBytes evs = []) : RecvRunInv st (tr ++ evs) :=
  RecvRunInv.extend (by rw [hW, hA, List.append_nil, List.append_nil]; exact h)

theorem RecvRunInv.output {st : CtcpState} {tr : List Event} (h : RecvRunInv st tr)
    (ans : List SinkAnswer) : RecvRunInv (ctcpOutput ans st).1 (tr ++ (ctcpOutput ans st).2) :=
  RecvRunInv.extend (by rw [(ctcpOutput_events ans st).2.1, List.append_nil]
                        exact RecvInv.output h ans)

theorem RecvRunInv.pass {st : CtcpState} {tr : List Event} (h : RecvRunInv st tr) :
    RecvRunInv (ctcpSendPossibleDataSegment st).1
      (tr ++ (ctcpSendPossibleDataSegment st).2) := by
  obtain ⟨n, u, t, q, hst⟩ := ctcpSendPossibleDataSegment_frame st
  obtain ⟨segs, hsegs⟩ := ctcpSendPossibleDataSegment_sends st
  rw [hst, hsegs]
  exact RecvRunInv.quiet (RecvInv.frame h rfl rfl rfl) (sinkBytes_map_send segs)
    (acceptedBytes_map_send segs)

theorem RecvRunInv.timerVisit {st : CtcpState} {tr : List Event} (h : RecvRunInv st tr)
    (ans : List SinkAnswer) :
    RecvRunInv (timerVisit ans st).2.1 (tr ++ (timerVisit ans st).2.2) := by
  obtain ⟨a, td, -, -, hv⟩ := timerVisit_shape ans st
  have h₀ : RecvRunInv { st with ack_state := a, segment_teardown := td } tr :=
    RecvInv.frame h rfl rfl rfl
  rcases hv with ⟨hst, hfin⟩ | hp | hpo
  · obtain ⟨-, h2, h3, -⟩ := sendsOnly hfin
    rw [hst]
    exact RecvRunInv.quiet h₀ h2 h3
  · rw [hp]; exact h₀.pass
  · rw [hpo, ← List.append_assoc]
    exact h₀.pass.output ans

theorem RecvRunInv.timer {st st' : CtcpState} {tr evs : List Event} (h : RecvRunInv st tr)
    {fuel : Nat} {ans : List (List SinkAnswer)}
    (hw : timerWalk fuel ans [st] = some ([st'], evs)) : RecvRunInv st' (tr ++ evs) :=
  timerWalk_single (fun _ _ _ hs => hs.timerVisit _) fuel ans st st' tr evs hw h

theorem RecvRunInv.read {st st' : CtcpState} {tr evs : List Event} (h : RecvRunInv st tr)
    {fuel : Nat} {input : List InputAnswer} (hr : ctcpRead fuel input st = some (st', evs)) :
    RecvRunInv st' (tr ++ evs) := by
  obtain ⟨⟨st₁, evs₁⟩, hloop, hr'⟩ := Option.map_eq_some'.mp hr
  simp only [Prod.mk.injEq] at hr'
  obtain ⟨rfl, rfl⟩ := hr'
  obtain ⟨cs, hst, -, h3, h4, -⟩ := readLoop_spec hloop
  have h₁ : RecvRunInv st₁ (tr ++ evs₁) := by
    refine RecvRunInv.quiet ?_ h4 h3
    rcases hst with rfl | rfl <;> exact RecvInv.frame h rfl rfl rfl
  simpa using h₁.pass

theorem RecvRunInv.receive {st st' : CtcpState} {tr evs : List Event} (h : RecvRunInv st tr)
    {fuel : Nat} {ans : List SinkAnswer} {seg : Segment}
    (hr : ctcpReceive fuel ans seg st = some (some st', evs)) : RecvRunInv st' (tr ++ evs) := by
  rcases ctcpReceive_live hr with ⟨rfl, rfl⟩ | ⟨rfl, rfl⟩ | ⟨-, hd⟩ | ⟨-, -, rfl, rfl⟩ |
    ⟨-, -, rfl, rfl⟩
  · exact RecvRunInv.quiet h rfl rfl
  · exact RecvRunInv.quiet h rfl rfl
  · simp only [Prod.ext_iff] at hd
    rw [hd.1, hd.2]
    exact RecvRunInv.extend (RecvInv.receiveData h ans seg)
  · obtain ⟨s, u, q, t, c, n, hst⟩ := receiveAck_frame st seg.ackno
    rw [hst]
    exact RecvRunInv.quiet (RecvInv.frame h rfl rfl rfl) rfl rfl
  · exact RecvRunInv.quiet (RecvInv.frame h rfl rfl rfl) rfl rfl

theorem RecvRunInv.step {st st' : CtcpState} {tr evs : List Event} (h : RecvRunInv st tr)
    {a : EngineAction} (hstep : engineStep st a = some (some st', evs)) :
    RecvRunInv st' (tr ++ evs) := by
  rcases engineStep_cases hstep with ⟨_, _, hr⟩ | ⟨_, _, _, hr⟩ | ⟨ans, hr⟩ | ⟨_, _, hw⟩
  · exact h.read hr
  · exact h.receive hr
  · have := h.output ans
    rwa [hr] at this
  · exact h.timer hw

theorem recvRunInv_reachable {cfg : CtcpConfig} {st : CtcpState} {tr : List Event}
    (h : Reachable cfg st tr) : RecvRunInv st tr := by
  induction h with
  | init => exact recvInv_init cfg
  | step a _ hstep ih => exact ih.step hstep

/-! ## §5 The receive window -/

/-- **The receive window.** In every reachable state `rcv_window_used` is the sum of the
`byte_left`s of the Receive Queue and at most `rcv_window`, every element's cursors split its
payload, and the sink's bytes followed by the unwritten tails are the accepted payloads, in
order. -/
theorem receive_window_accounts {cfg : CtcpConfig} {st : CtcpState} {tr : List Event}
    (h : Reachable cfg st tr) :
    (st.conn_state.rcv_window_used.toNat : Int) = (st.rx_state.map RxState.byte_left).sum ∧
      st.conn_state.rcv_window_used.toNat ≤ st.conn_state.rcv_window.toNat ∧
      (∀ e ∈ st.rx_state, e.byte_used + e.byte_left = e.rx_buffer.length) ∧
      sinkBytes tr ++ (st.rx_state.map RxState.tail).flatten = acceptedBytes tr := by
  obtain ⟨⟨h1, h2⟩, h3, h4⟩ := recvRunInv_reachable h
  exact ⟨h2, h3, fun e he => (h1 e he).2.2, h4⟩

/-- A sink that takes one byte of the DATA segment `"hi"` leaves `"i"` waiting. -/
theorem receive_window_accounts_hi :
    ∃ st tr, runEngine (ctcpInit ⟨2000, 2000, 40, 40⟩)
        [.receive 1 [⟨100, 1⟩] (Segment.seal ⟨1, 1, 20, 0, 0, 2000, [104, 105]⟩)] =
        some (st, tr) ∧
      (st.conn_state.rcv_window_used.toNat : Int) = (st.rx_state.map RxState.byte_left).sum ∧
      st.conn_state.rcv_window_used.toNat ≤ st.conn_state.rcv_window.toNat ∧
      (∀ e ∈ st.rx_state, e.byte_used + e.byte_left = e.rx_buffer.length) ∧
      sinkBytes tr ++ (st.rx_state.map RxState.tail).flatten = acceptedBytes tr := by
  refine ⟨_, _, rfl, receive_window_accounts (@reachable_of_runEngine ⟨2000, 2000, 40, 40⟩ _ _
    [.receive 1 [⟨100, 1⟩] (Segment.seal ⟨1, 1, 20, 0, 0, 2000, [104, 105]⟩)] rfl)⟩

/-! ## §6 The window in every segment -/

theorem rxTails_length {q : List RxState}
    (h : ∀ e ∈ q, 0 ≤ e.byte_used ∧ 0 ≤ e.byte_left ∧
      e.byte_used + e.byte_left = e.rx_buffer.length) :
    ((rxTails q).length : Int) = (q.map RxState.byte_left).sum := by
  induction q with
  | nil => rfl
  | cons e q ih =>
    obtain ⟨h0u, h0l, hlen⟩ := h e (List.mem_cons_self _ _)
    simp only [rxTails_cons, List.length_append, Nat.cast_add, List.map_cons, List.sum_cons,
      RxState.tail_length h0u hlen, Int.toNat_of_nonneg h0l,
      ih fun x hx => h x (List.mem_cons_of_mem _ hx)]

/-- The payloads accepted less the bytes written are the bytes `rcv_window_used` counts. -/
theorem RecvInv.waiting {st : CtcpState} {W A : List UInt8} (h : RecvInv st W A) :
    (A.length : Int) - W.length = st.conn_state.rcv_window_used.toNat := by
  rw [← h.stream, List.length_append, Nat.cast_add, h.queue.window_used,
    ← rxTails_length h.queue.cursors]
  omega

/-- The invariant of a run for the windows it advertised: with the receive invariant, the
receive window stays `R` and every segment sent so far fits. -/
structure WindowRun (R : UInt16) (st : CtcpState) (tr : List Event) : Prop where
  recv : RecvRunInv st tr
  window : st.conn_state.rcv_window = R
  fits : SendsFree R.toNat 0 tr

section WindowRun

variable {R : UInt16} {st st' : CtcpState} {tr evs : List Event}

/-- A call that keeps `rcv_window` and whose segments fit the window of the state it starts
from keeps `WindowRun`. -/
theorem WindowRun.extend (h : WindowRun R st tr) (hr : RecvRunInv st' (tr ++ evs))
    (hw : st'.conn_state.rcv_window = st.conn_state.rcv_window)
    (hs : SendsFree st.conn_state.rcv_window.toNat st.conn_state.rcv_window_used.toNat evs) :
    WindowRun R st' (tr ++ evs) := by
  refine ⟨hr, hw.trans h.window, (sendsFree_append tr evs).mpr ⟨h.fits, ?_⟩⟩
  rw [zero_add, RecvInv.waiting h.recv, ← h.window]
  exact hs

theorem WindowRun.frame (h : WindowRun R st tr) (hq : st'.rx_state = st.rx_state)
    (hu : st'.conn_state.rcv_window_used = st.conn_state.rcv_window_used)
    (hw : st'.conn_state.rcv_window = st.conn_state.rcv_window) : WindowRun R st' tr :=
  ⟨RecvInv.frame h.recv hq hu hw, hw.trans h.window, h.fits⟩

/-- The segments of a pass advertise the window of the state it runs from. -/
theorem sendsFree_pass (st : CtcpState)
    (hR : st.conn_state.rcv_window_used.toNat ≤ st.conn_state.rcv_window.toNat) :
    SendsFree st.conn_state.rcv_window.toNat st.conn_state.rcv_window_used.toNat
      (ctcpSendPossibleDataSegment st).2 := by
  rw [ctcpSendPossibleDataSegment_eq]
  exact sendsFree_quiet (acceptedBytes_map_send _) (sinkBytes_map_send _) fun seg hs =>
    advertisesFree_of_window hR (dataSegs_window _ _ _ _ seg (by simpa using hs))

theorem WindowRun.pass (h : WindowRun R st tr) :
    WindowRun R (ctcpSendPossibleDataSegment st).1
      (tr ++ (ctcpSendPossibleDataSegment st).2) := by
  obtain ⟨n, u, t, q, hst⟩ := ctcpSendPossibleDataSegment_frame st
  exact h.extend h.recv.pass (by rw [hst]) (sendsFree_pass st (RecvInv.window_le h.recv))

theorem WindowRun.output (h : WindowRun R st tr) (ans : List SinkAnswer) :
    WindowRun R (ctcpOutput ans st).1 (tr ++ (ctcpOutput ans st).2) :=
  h.extend (h.recv.output ans) (by rw [ctcpOutput_frame])
    (((RecvInv.queue h.recv).outputLoop ans).2.2.2 (RecvInv.window_le h.recv))

/-- The ACKs of `ctcp_receive_data_segment` count the payload it accepted as waiting. -/
theorem sendsFree_receiveData {W A : List UInt8} (h : RecvInv st W A) (ans : List SinkAnswer)
    (seg : Segment) :
    SendsFree st.conn_state.rcv_window.toNat st.conn_state.rcv_window_used.toNat
      (ctcpReceiveDataSegment ans st seg).2 := by
  have hlen : seg.bytes.length - headerSize = seg.data.length := by simp
  unfold ctcpReceiveDataSegment
  simp only [hlen]
  split
  · rename_i hfit
    have h' := h.accept seg hfit
    have hs := (h'.queue.outputLoop ans).2.2.2 h'.window_le
    rw [rxAccept_used hfit, Nat.cast_add] at hs
    simpa using hs
  · exact (h.queue.outputLoop ans).2.2.2 h.window_le

theorem WindowRun.receive (h : WindowRun R st tr) {fuel : Nat} {ans : List SinkAnswer}
    {seg : Segment} (hr : ctcpReceive fuel ans seg st = some (some st', evs)) :
    WindowRun R st' (tr ++ evs) := by
  have hrecv := h.recv.receive hr
  have hR := RecvInv.window_le h.recv
  rcases ctcpReceive_live hr with ⟨rfl, rfl⟩ | ⟨rfl, rfl⟩ | ⟨-, hd⟩ | ⟨-, -, rfl, rfl⟩ |
    ⟨-, -, rfl, rfl⟩
  · exact h.extend hrecv rfl (sendsFree_send_cons.mpr
      ⟨advertisesFree_of_window hR (ctcpSendFlags_window _ _ _), sendsFree_nil _ _⟩)
  · exact h.extend hrecv rfl (sendsFree_nil _ _)
  · obtain ⟨rfl, rfl⟩ := Prod.ext_iff.mp hd
    obtain ⟨_, _, _, _, hst⟩ := ctcpReceiveDataSegment_frame ans st seg
    exact h.extend hrecv (by rw [hst]) (sendsFree_receiveData h.recv ans seg)
  · obtain ⟨_, _, _, _, _, _, hst⟩ := receiveAck_frame st seg.ackno
    exact h.extend hrecv (by rw [hst]) (sendsFree_nil _ _)
  · refine h.extend hrecv rfl (sendsFree_quiet rfl rfl fun s hs => ?_)
    simp only [sends_cons, Event.segment, Option.toList, sends_nil, List.singleton_append,
      List.nil_append, List.mem_cons, List.not_mem_nil, or_false] at hs
    rcases hs with rfl | rfl <;> exact advertisesFree_of_window hR (ctcpSendFlags_window _ _ _)

theorem WindowRun.timerVisit (h : WindowRun R st tr) (ans : List SinkAnswer) :
    WindowRun R (timerVisit ans st).2.1 (tr ++ (timerVisit ans st).2.2) := by
  obtain ⟨a, td, -, -, hv⟩ := timerVisit_shape ans st
  have h₀ : WindowRun R { st with ack_state := a, segment_teardown := td } tr :=
    h.frame rfl rfl rfl
  rcases hv with ⟨hst, hfin⟩ | hp | hpo
  · obtain ⟨-, h2, h3, h4⟩ := sendsOnly hfin
    exact h.extend (h.recv.timerVisit ans) (by rw [hst]) (sendsFree_quiet h3 h2 fun seg hs =>
      advertisesFree_of_window (RecvInv.window_le h.recv) (h4 seg hs).2.2)
  · rw [hp]; exact h₀.pass
  · rw [hpo, ← List.append_assoc]
    exact h₀.pass.output ans

theorem WindowRun.timer (h : WindowRun R st tr) {fuel : Nat} {ans : List (List SinkAnswer)}
    (hw : timerWalk fuel ans [st] = some ([st'], evs)) : WindowRun R st' (tr ++ evs) :=
  timerWalk_single (fun _ _ _ hs => hs.timerVisit _) fuel ans st st' tr evs hw h

theorem WindowRun.read (h : WindowRun R st tr) {fuel : Nat} {input : List InputAnswer}
    (hr : ctcpRead fuel input st = some (st', evs)) : WindowRun R st' (tr ++ evs) := by
  have hrecv := h.recv.read hr
  have hR := RecvInv.window_le h.recv
  obtain ⟨⟨st₁, evs₁⟩, hloop, hr'⟩ := Option.map_eq_some'.mp hr
  simp only [Prod.mk.injEq] at hr'
  obtain ⟨rfl, rfl⟩ := hr'
  obtain ⟨cs, hst, -, h3, h4, h5, -⟩ := readLoop_spec hloop
  obtain ⟨_, _, _, _, hp⟩ := ctcpSendPossibleDataSegment_frame st₁
  refine h.extend hrecv (by rw [hp]; rcases hst with rfl | rfl <;> rfl)
    ((sendsFree_append _ _).mpr ⟨sendsFree_quiet h3 h4 fun seg hs =>
      advertisesFree_of_window hR (h5 seg hs).2.2, ?_⟩)
  rw [h3, h4, List.length_nil, Nat.cast_zero, add_zero, sub_zero]
  rcases hst with rfl | rfl <;> exact sendsFree_pass _ hR

theorem WindowRun.step (h : WindowRun R st tr) {a : EngineAction}
    (hstep : engineStep st a = some (some st', evs)) : WindowRun R st' (tr ++ evs) := by
  rcases engineStep_cases hstep with ⟨_, _, hr⟩ | ⟨_, _, _, hr⟩ | ⟨ans, hr⟩ | ⟨_, _, hw⟩
  · exact h.read hr
  · exact h.receive hr
  · have := h.output ans
    rwa [hr] at this
  · exact h.timer hw

end WindowRun

/-- Advancing the cursors by nothing leaves an element as it was. -/
@[simp] theorem RxState.advance_zero (e : RxState) :
    { e with byte_used := e.byte_used + ((0 : Nat) : Int),
             byte_left := e.byte_left - ((0 : Nat) : Int) } = e := by
  simp

/-- **The loop of `ctcp_output` in closed form**, on elements whose cursors split their
payloads: it writes the tails of the front `j` elements whole, acknowledging each with
`ackno`, then `w` bytes of the next one (none if the sink had no room for it), which it leaves
in front with its cursors moved; `rcv_window_used` loses exactly the bytes written. -/
theorem outputLoop_spec (st : CtcpState) (ans : List SinkAnswer) (q : List RxState)
    (hc : ∀ e ∈ q, 0 ≤ e.byte_used ∧ 0 ≤ e.byte_left ∧
      e.byte_used + e.byte_left = e.rx_buffer.length) :
    ∃ j w, j ≤ q.length ∧ (∀ e ∈ (q.drop j).head?, w < e.byte_left.toNat ∨ w = 0) ∧
      sinkBytes (outputLoop st ans q).2.2 =
        rxTails (q.take j) ++ ((q.drop j).head?.map fun e => e.tail.take w).getD [] ∧
      (sends (outputLoop st ans q).2.2).length = j ∧
      (∀ s ∈ sends (outputLoop st ans q).2.2, s.flags = ACK ∧ s.ackno = st.conn_state.ackno) ∧
      (outputLoop st ans q).2.1 = (q.drop j).modifyHead (fun e =>
        { e with byte_used := e.byte_used + w, byte_left := e.byte_left - w }) ∧
      (outputLoop st ans q).1.conn_state.rcv_window_used = st.conn_state.rcv_window_used -
        UInt16.ofNat (sinkBytes (outputLoop st ans q).2.2).length := by
  have h0 : UInt16.ofNat 0 = 0 := rfl
  induction q generalizing st ans with
  | nil =>
    refine ⟨0, 0, le_refl _, by simp, ?_⟩
    cases ans <;> simp [outputLoop, h0]
  | cons e q ih =>
    obtain ⟨h0u, h0l, hlen⟩ := hc e (List.mem_cons_self _ _)
    have htl := RxState.tail_length h0u hlen
    cases ans with
    | nil =>
      exact ⟨0, 0, Nat.zero_le _, by simp, by simp [outputLoop], rfl, by simp [outputLoop],
        by simp [outputLoop], by simp [outputLoop, h0]⟩
    | cons a as =>
      simp only [outputLoop]
      split
      · exact ⟨0, 0, Nat.zero_le _, by simp, by simp, rfl, by simp, by simp, by simp [h0]⟩
      · generalize hwdef : min a.written e.byte_left.toNat = w
        have hw : w ≤ e.byte_left.toNat := hwdef ▸ min_le_right _ _
        have hlw : (e.tail.take w).length = w := by rw [List.length_take]; omega
        split
        · rename_i hdone
          have hwl : e.tail.take w = e.tail := List.take_of_length_le (by omega)
          obtain ⟨j, w', hj, hw', hsink, hsends, hacks, hq, hused⟩ := ih
            { st with conn_state.rcv_window_used := st.conn_state.rcv_window_used -
              UInt16.ofNat w } as fun x hx => hc x (List.mem_cons_of_mem _ hx)
          refine ⟨j + 1, w', Nat.succ_le_succ hj, hw', ?_, ?_, ?_, hq, ?_⟩
          · simp only [sinkBytes_cons, Event.written, hsink, hwl, List.take_succ_cons,
              rxTails_cons, List.drop_succ_cons, List.append_assoc, List.nil_append]
          · simpa [Event.segment] using hsends
          · simp only [sends_cons, Event.segment, Option.toList, List.nil_append,
              List.singleton_append, List.mem_cons, forall_eq_or_imp]
            exact ⟨⟨rfl, rfl⟩, hacks⟩
          · simp [hused, Event.written, hlw, u16_sub_sub]
        · rename_i hpart
          refine ⟨0, w, Nat.zero_le _, ?_, by simp [Event.written], by simp [Event.segment],
            by simp [Event.segment], rfl, by simp [Event.written, hlw]⟩
          simp only [List.drop_zero, List.head?_cons, Option.mem_def, Option.some.injEq]
          rintro _ rfl
          omega

/-- The bytes `outputLoop_spec` describes are a prefix of the unwritten tails. -/
theorem rxTails_take_prefix (q : List RxState) (j w : Nat) :
    rxTails (q.take j) ++ ((q.drop j).head?.map fun e => e.tail.take w).getD [] <+:
      rxTails q := by
  conv_rhs => rw [← List.take_append_drop j q, rxTails_append]
  refine (List.prefix_append_right_inj _).mpr ?_
  cases q.drop j with
  | nil => exact List.nil_prefix
  | cons e r => exact (List.take_prefix w e.tail).trans (List.prefix_append _ _)

/-- **What `ctcp_output` writes.** On cursors that split their payloads, it writes a prefix of
the unwritten tails: the front `j` elements whole, each removed and acknowledged for `ackno`,
then `w` bytes of the next, which stays in front untouched or partly written; `rcv_window_used`
drops by the bytes written and nothing else changes. -/
theorem output_writes_front_first (ans : List SinkAnswer) {st : CtcpState}
    (hc : ∀ e ∈ st.rx_state, 0 ≤ e.byte_used ∧ 0 ≤ e.byte_left ∧
      e.byte_used + e.byte_left = e.rx_buffer.length) :
    let r := ctcpOutput ans st
    sinkBytes r.2 <+: rxTails st.rx_state ∧
    ∃ j w, j ≤ st.rx_state.length ∧
      (∀ e ∈ (st.rx_state.drop j).head?, w < e.byte_left.toNat ∨ w = 0) ∧
      sinkBytes r.2 = rxTails (st.rx_state.take j) ++
        ((st.rx_state.drop j).head?.map fun e => e.tail.take w).getD [] ∧
      (sends r.2).length = j ∧ (∀ s ∈ sends r.2, s.flags = ACK ∧ s.ackno = st.conn_state.ackno) ∧
      r.1 = { st with
        conn_state.rcv_window_used :=
          st.conn_state.rcv_window_used - UInt16.ofNat (sinkBytes r.2).length,
        rx_state := (st.rx_state.drop j).modifyHead fun e =>
          { e with byte_used := e.byte_used + w, byte_left := e.byte_left - w } } := by
  obtain ⟨j, w, hj, hw, hsink, hsends, hacks, hq, hused⟩ := outputLoop_spec st ans st.rx_state hc
  refine ⟨hsink ▸ rxTails_take_prefix _ j w, j, w, hj, hw, hsink, hsends, hacks, ?_⟩
  rw [ctcpOutput_frame]
  simp only [ctcpOutput, hq, hused]

/-- With `"hi"` waiting, a sink that takes one byte gets `"h"`, a prefix of the tails. -/
theorem output_writes_front_first_hi :
    let st := { ctcpInit ⟨2000, 2000, 40, 40⟩ with
      rx_state := [⟨0, 2, [104, 105]⟩], conn_state.rcv_window_used := 2 }
    (∀ e ∈ st.rx_state, 0 ≤ e.byte_used ∧ 0 ≤ e.byte_left ∧
      e.byte_used + e.byte_left = (e.rx_buffer.length : Int)) ∧
    sinkBytes (ctcpOutput [⟨100, 1⟩] st).2 <+: rxTails st.rx_state := by
  intro st
  have hc : ∀ e ∈ st.rx_state, 0 ≤ e.byte_used ∧ 0 ≤ e.byte_left ∧
      e.byte_used + e.byte_left = e.rx_buffer.length := by decide
  exact ⟨hc, (output_writes_front_first [⟨100, 1⟩] hc).1⟩

end Ctcp
