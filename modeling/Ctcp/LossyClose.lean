import Ctcp.Lifecycle

/-!
# The Close over a Lossy Carrier

`Ctcp.Lifecycle` closes a connection over a faithful carrier: `X`'s FIN, `Y`'s FIN and `X`'s last
ACK each arrive once. This module lets the carrier lose them and the timers run, and asks which
closes still complete. From the moment `Y` takes `X`'s FIN, both engines are closing with nothing
queued, and every segment either sends is a FIN or an ACK at its own `seqno` (`FinTaken`); one
lemma per kind of step keeps that picture, and each result below is read off it.

## Key results

- `lost_fin_recovered`: `X`'s timer sends copies of its FIN, and any one of them completes the
  close.
- `passive_close_completes_before_timeout`: while `Y` is in `PASSIVE_CLOSE`, `X`'s ACK of any of
  `Y`'s FINs, the first or a copy, completes the close.
- `passive_close_outlives_timeout`: `ctcp_timer`'s sixth timeout forces `ACTIVE_CLOSE` whatever
  the teardown state, and `ctcp_receive` destroys an engine on an ACK only in `PASSIVE_CLOSE`;
  once `Y` has timed out six times, no continuation destroys it.
- `lost_last_ack_half_open`: `X` is destroyed as soon as it acknowledges `Y`'s FIN, with no wait
  for a copy; if that ACK is lost, nothing else can destroy `Y`.

- §1 The close under way: `Closing`, `FinTaken`, and one lemma per kind of step.
- §2 A passive close that outlives its sixth timeout, and one that completes before it.
- §3 A lost last ACK.
- §4 A lost FIN is recovered.
-/

namespace Ctcp

/-! ## §1 The close under way

From the moment `Y` takes `X`'s FIN at `s`, both engines are closing with nothing queued: `X` in
`ACTIVE_CLOSE` at `s`, acknowledging `1`; `Y` at `1`, acknowledging `s + 1` after `s`. Every
segment either sends from then on is a FIN or an ACK at its own `seqno` (`FinTaken`). One lemma
per kind of step says what it does to that picture. -/

theorem u32_ne_add_one (s : UInt32) : s ≠ s + 1 := fun h => by
  have := congrArg UInt32.toNat h
  rw [UInt32.toNat_add, u32_toNat_one, UInt32.size] at this
  have := UInt32.toNat_lt s
  omega

/-- An engine in a close with both queues empty and its timer armed, at the given `seqno`,
`ackno` and `last_ackno`. -/
structure Closing (seqno ackno last_ackno : UInt32) (st : CtcpState) : Prop where
  seqno : st.conn_state.seqno = seqno
  ackno : st.conn_state.ackno = ackno
  last : st.conn_state.last_ackno = last_ackno
  tx : st.tx_state = []
  rx : st.rx_state = []
  armed : st.ack_state.time_out = true
  closing : st.segment_teardown = .ACTIVE_CLOSE ∨ st.segment_teardown = .PASSIVE_CLOSE

theorem activeState_closing (cfg : CtcpConfig) (s a l : UInt32) :
    Closing s a l (activeState cfg s a l) :=
  ⟨rfl, rfl, rfl, rfl, rfl, rfl, .inl rfl⟩

theorem passiveState_closing (cfg : CtcpConfig) (s a l : UInt32) :
    Closing s a l (passiveState cfg s a l) :=
  ⟨rfl, rfl, rfl, rfl, rfl, rfl, .inr rfl⟩

/-- The segments of the close an engine at `seqno` sends: FINs and ACKs at `seqno`, which pass
the length and checksum checks. -/
def CloseSegment (seqno : UInt32) (seg : Segment) : Prop :=
  seg.seqno = seqno ∧ (seg.flags = FIN ∨ seg.flags = ACK) ∧ seg.verifies = true

theorem closeSegment_send_flags {st : CtcpState} {q : UInt32} (hq : st.conn_state.seqno = q)
    (A : UInt32) {F : UInt32} (hF : F = FIN ∨ F = ACK) :
    ∀ seg ∈ sends [.send (ctcpSendFlags st A F)], CloseSegment q seg := fun seg hseg => by
  simp only [sends_cons, Event.segment, sends_nil, Option.toList_some, List.singleton_append,
    List.mem_singleton] at hseg
  subst hseg
  exact ⟨hq, hF, ctcpSendFlags_verifies _ _ _⟩

/-- A closing engine stays closing under a change of its timer fields that keeps it armed and a
teardown state kept or forced to `ACTIVE_CLOSE`. -/
theorem Closing.update {q a l : UInt32} {st : CtcpState} (h : Closing q a l st) {ak : AckState}
    (ht : ak.time_out = true) {td : TeardownState}
    (htd : td = st.segment_teardown ∨ td = .ACTIVE_CLOSE) :
    Closing q a l { st with ack_state := ak, segment_teardown := td } :=
  ⟨h.seqno, h.ackno, h.last, h.tx, h.rx, ht,
    by rcases htd with rfl | rfl; exacts [h.closing, .inl rfl]⟩

/-- The FINs a closing engine sends are segments of the close. -/
theorem Closing.fin_sends {q a l : UInt32} {st : CtcpState} (h : Closing q a l st)
    {evs : List Event} (hs : ∀ ev ∈ evs, ∃ seg, ev = .send seg ∧
      (seg = ctcpSendFlags st a FIN ∨ seg = ctcpSendFlags st l FIN)) :
    ∀ seg ∈ sends evs, CloseSegment q seg := fun seg hseg => by
  rcases (sendsOnly hs).2.2.2 seg hseg with rfl | rfl <;>
    exact ⟨h.seqno, .inl rfl, ctcpSendFlags_verifies _ _ _⟩

/-- One run of the timer body on a closing engine: with the timer armed and the teardown state a
close, the body never reaches the pass. It changes only the timer fields, leaving the timer
armed, and the teardown state, which it keeps or forces to `ACTIVE_CLOSE`; all it does besides is
send at most a FIN acknowledging `ackno` (the sixth timeout) or `last_ackno` (a retransmission). -/
theorem Closing.timerVisit {q a l : UInt32} {st : CtcpState} (h : Closing q a l st)
    (ans : List SinkAnswer) :
    ∃ ak td, (timerVisit ans st).2.1 = { st with ack_state := ak, segment_teardown := td } ∧
      ak.time_out = true ∧ (td = st.segment_teardown ∨ td = .ACTIVE_CLOSE) ∧
      ∀ ev ∈ (timerVisit ans st).2.2, ∃ seg, ev = .send seg ∧
        (seg = ctcpSendFlags st a FIN ∨ seg = ctcpSendFlags st l FIN) := by
  unfold Ctcp.timerVisit
  rw [if_pos h.armed]
  dsimp only
  split
  · split
    · refine ⟨_, _, rfl, rfl, .inr rfl, fun ev hev => ⟨_, List.mem_singleton.mp hev, .inl ?_⟩⟩
      rw [← h.ackno]
      rfl
    · rw [if_pos h.closing]
      refine ⟨_, _, rfl, h.armed, .inl rfl, fun ev hev => ⟨_, List.mem_singleton.mp hev, .inr ?_⟩⟩
      rw [← h.last]
      rfl
  · exact ⟨_, _, rfl, h.armed, .inl rfl, nofun⟩

/-- `ctcp_timer` on a lone closing engine, lifted from one run of the body: every FIN it sends is
a copy of one of the two. -/
theorem Closing.timer {q a l : UInt32} {st st' : CtcpState} (h : Closing q a l st) {fuel : Nat}
    {ans : List (List SinkAnswer)} {evs : List Event}
    (hw : timerWalk fuel ans [st] = some ([st'], evs)) :
    ∃ ak td, st' = { st with ack_state := ak, segment_teardown := td } ∧ ak.time_out = true ∧
      (td = st.segment_teardown ∨ td = .ACTIVE_CLOSE) ∧ ∀ ev ∈ evs, ∃ seg, ev = .send seg ∧
        (seg = ctcpSendFlags st a FIN ∨ seg = ctcpSendFlags st l FIN) := by
  refine @timerWalk_single (fun y t => ∃ ak td,
      y = { st with ack_state := ak, segment_teardown := td } ∧ ak.time_out = true ∧
      (td = st.segment_teardown ∨ td = .ACTIVE_CLOSE) ∧ ∀ ev ∈ t, ∃ seg,
        ev = .send seg ∧ (seg = ctcpSendFlags st a FIN ∨ seg = ctcpSendFlags st l FIN))
    (fun ans y t hy => ?_) fuel ans st st' [] evs hw
    ⟨st.ack_state, st.segment_teardown, rfl, h.armed, .inl rfl, nofun⟩
  obtain ⟨ak, td, rfl, ht, htd, hs⟩ := hy
  obtain ⟨ak', td', he, ht', htd', hs'⟩ := (h.update ht htd).timerVisit ans
  refine ⟨ak', td', he, ht', htd'.elim (fun e => by rw [e]; exact htd) .inr, fun ev hev => ?_⟩
  exact (List.mem_append.mp hev).elim (hs ev) (hs' ev)

/-- **`ctcp_receive` of an ACK with nothing to acknowledge.** Outside `PASSIVE_CLOSE` an engine
whose Send Queue is empty changes nothing on an ACK, whether or not it passes the checks: the
`ACK_SEG` case destroys only in `PASSIVE_CLOSE`. -/
theorem ctcpReceive_ack_quiet {st : CtcpState} (hq : st.tx_state = [])
    (hp : st.segment_teardown ≠ .PASSIVE_CLOSE) {seg : Segment} (hf : seg.flags = ACK)
    (fuel : Nat) (ans : List SinkAnswer) : ctcpReceive fuel ans seg st = some (some st, []) := by
  unfold ctcpReceive
  rw [if_neg (fun hd => absurd hd.2.2 (by rw [hf]; decide))]
  split
  · rfl
  · rw [hf, segmentType_ACK]
    simp [hp, receiveAck, hq]

/-- **`ctcp_receive` of a FIN at `last_ackno`.** When `last_ackno` and `ackno` differ, the
duplicate branch takes the FIN, whatever the teardown state: the engine re-acknowledges
`last_ackno` and changes nothing. -/
theorem Closing.receive_dup {q a l : UInt32} {st : CtcpState} (h : Closing q a l st) (hne : l ≠ a)
    {seg : Segment} (hs : seg.seqno = l) (hf : seg.flags = FIN) (fuel : Nat)
    (ans : List SinkAnswer) :
    ctcpReceive fuel ans seg st = some (some st, [.send (ctcpSendFlags st l ACK)]) := by
  unfold ctcpReceive
  rw [if_pos ⟨by rw [hs, h.ackno]; exact hne, by rw [hs, h.last], by rw [hf]; decide⟩, h.last]

/-- **`ctcp_receive` in `ACTIVE_CLOSE` of the peer's FIN or ACK at `ackno`.** The engine keeps its
state, or, for a FIN that passes the checks, acknowledges it and is destroyed; all it sends is an
ACK at its `seqno`. -/
theorem Closing.receive_active {q a l : UInt32} {st : CtcpState} (h : Closing q a l st)
    (hact : st.segment_teardown = .ACTIVE_CLOSE) {seg : Segment} (hseg : CloseSegment a seg)
    (fuel : Nat) (ans : List SinkAnswer) :
    ∃ r, ctcpReceive fuel ans seg st = some r ∧ (r.1 = some st ∨ r.1 = none) ∧
      ∀ seg' ∈ sends r.2, CloseSegment q seg' := by
  obtain ⟨hs, hf | hf, hv⟩ := hseg
  · exact ⟨_, ctcpReceive_fin_active hact (hs.trans h.ackno.symm) hf hv fuel ans, .inr rfl,
      closeSegment_send_flags h.seqno _ (.inr rfl)⟩
  · exact ⟨_, ctcpReceive_ack_quiet h.tx (by rw [hact]; decide) hf fuel ans, .inl rfl, nofun⟩

/-- The close under way once `Y` has taken `X`'s FIN at `s`: `X` destroyed, or in `ACTIVE_CLOSE`
at `s` still waiting for `Y`'s FIN; `Y` closing past `X`'s FIN; since their `k`-th segments `X`
has sent only FINs and ACKs at `s`, and `Y` only FINs and ACKs at `1`. -/
structure FinTaken (s : UInt32) (k : Nat) (n : Net) : Prop where
  x : n.eng .X = none ∨
    ∃ x, n.eng .X = some x ∧ Closing s 1 1 x ∧ x.segment_teardown = .ACTIVE_CLOSE
  y : ∃ y, n.eng .Y = some y ∧ Closing 1 (s + 1) s y
  sent_x : ∀ seg ∈ (n.sent .X).drop k, CloseSegment s seg
  sent_y : ∀ seg ∈ (n.sent .Y).drop k, CloseSegment 1 seg

theorem FinTaken.closing_x {s : UInt32} {k : Nat} {n : Net} (h : FinTaken s k n)
    {x : CtcpState} (hx : n.eng .X = some x) :
    Closing s 1 1 x ∧ x.segment_teardown = .ACTIVE_CLOSE := by
  obtain hn | ⟨x', hx', hc⟩ := h.x
  · cases hn.symm.trans hx
  · cases hx'.symm.trans hx
    exact hc

theorem FinTaken.closing_y {s : UInt32} {k : Nat} {n : Net} (h : FinTaken s k n)
    {y : CtcpState} (hy : n.eng .Y = some y) : Closing 1 (s + 1) s y := by
  obtain ⟨y', hy', hc⟩ := h.y
  cases hy'.symm.trans hy
  exact hc

theorem FinTaken.update_x {s : UInt32} {k : Nat} {n : Net} (h : FinTaken s k n)
    {e : Option CtcpState}
    (he : e = none ∨ ∃ x, e = some x ∧ Closing s 1 1 x ∧ x.segment_teardown = .ACTIVE_CLOSE)
    {evs : List Event} (hevs : ∀ seg ∈ sends evs, CloseSegment s seg) (got : List Segment) :
    FinTaken s k (n.update .X e evs got) := by
  refine ⟨by simpa using he, by simpa using h.y, fun seg hs => ?_, by simpa using h.sent_y⟩
  simp only [Net.update_sent, if_true] at hs
  exact (mem_drop_append hs).elim (h.sent_x seg) (hevs seg)

theorem FinTaken.update_y {s : UInt32} {k : Nat} {n : Net} (h : FinTaken s k n)
    {e : Option CtcpState} (he : ∃ y, e = some y ∧ Closing 1 (s + 1) s y)
    {evs : List Event} (hevs : ∀ seg ∈ sends evs, CloseSegment 1 seg) (got : List Segment) :
    FinTaken s k (n.update .Y e evs got) := by
  refine ⟨by simpa using h.x, by simpa using he, by simpa using h.sent_x, fun seg hs => ?_⟩
  simp only [Net.update_sent, if_true] at hs
  exact (mem_drop_append hs).elim (h.sent_y seg) (hevs seg)

/-- An output call on either side finds the Receive Queue empty and changes nothing. -/
theorem FinTaken.output {s : UInt32} {k : Nat} {n n' : Net} (h : FinTaken s k n) {p : Side}
    {ans : List SinkAnswer} (hstep : netStep n (.output p ans) = some n') :
    FinTaken s k n' ∧ n'.eng = n.eng := by
  obtain ⟨st, cl, r, hst, hcall, hr, rfl⟩ := netStep_eq hstep
  cases hcall
  cases hr
  have hc : st.rx_state = [] ∧ (FinTaken s k (n.update p (some st) [] [])) := by
    cases p
    · exact ⟨(h.closing_x hst).1.rx, h.update_x (.inr ⟨_, rfl, h.closing_x hst⟩) (by simp) []⟩
    · exact ⟨(h.closing_y hst).rx, h.update_y ⟨_, rfl, h.closing_y hst⟩ (by simp) []⟩
  rw [ctcpOutput_nil_rx ans hc.1]
  exact ⟨hc.2, by rw [← hst]; exact Function.update_eq_self _ _⟩

/-- A timer call on either side keeps the close under way, and keeps `Y` in `ACTIVE_CLOSE` once
it is there. -/
theorem FinTaken.timer {s : UInt32} {k : Nat} {n n' : Net} (h : FinTaken s k n) {p : Side}
    {fuel : Nat} {ans : List (List SinkAnswer)} (hstep : netStep n (.timer p fuel ans) = some n') :
    FinTaken s k n' ∧ ((∃ y, n.eng .Y = some y ∧ y.segment_teardown = .ACTIVE_CLOSE) →
      ∃ y, n'.eng .Y = some y ∧ y.segment_teardown = .ACTIVE_CLOSE) := by
  obtain ⟨st, cl, r, hst, hcall, hr, rfl⟩ := netStep_eq hstep
  cases hcall
  obtain ⟨st', evs, hw, rfl⟩ := engineStep_timer_inv hr
  cases p
  · have ⟨hc, ha⟩ := h.closing_x hst
    obtain ⟨ak, td, rfl, ht, htd, hs⟩ := hc.timer hw
    exact ⟨h.update_x (.inr ⟨_, rfl, hc.update ht htd, htd.elim (·.trans ha) id⟩)
      (hc.fin_sends hs) [], fun hy => by simpa [NetAction.side] using hy⟩
  · have hc := h.closing_y hst
    obtain ⟨ak, td, rfl, ht, htd, hs⟩ := hc.timer hw
    refine ⟨h.update_y ⟨_, rfl, hc.update ht htd⟩ (hc.fin_sends hs) [],
      fun ⟨y, hy, ha⟩ => ⟨{ st with ack_state := ak, segment_teardown := td },
        by simp [NetAction.side], htd.elim (fun e => e.trans ?_) id⟩⟩
    cases hy.symm.trans hst
    exact ha

/-- The carrier hands `X` a segment `Y` sent since the close began: a FIN, which `X` acknowledges
before it is destroyed, or an ACK, which changes nothing. -/
theorem FinTaken.deliver_x {s : UInt32} {k : Nat} {n n' : Net} (h : FinTaken s k n) {i fuel : Nat}
    {ans : List SinkAnswer} (hk : k ≤ i) (hstep : netStep n (.deliver .X i fuel ans) = some n') :
    FinTaken s k n' ∧ n'.eng .Y = n.eng .Y := by
  obtain ⟨st, cl, r, hst, hcall, hr, rfl⟩ := netStep_eq hstep
  obtain ⟨seg, hi, rfl⟩ := Option.map_eq_some'.mp hcall
  change ctcpReceive fuel ans seg st = some r at hr
  have hc := h.closing_x hst
  obtain ⟨r', hr', hr₁, hs⟩ :=
    hc.1.receive_active hc.2 (h.sent_y seg (mem_drop_of_getElem? hk hi)) fuel ans
  obtain rfl := Option.some.inj (hr.symm.trans hr')
  refine ⟨h.update_x ?_ hs _, by simp [NetAction.side]⟩
  rcases hr₁ with e | e <;> rw [e]
  exacts [.inr ⟨_, rfl, hc⟩, .inl rfl]

/-- The carrier hands `Y` a segment `X` sent since the close began: a FIN again, which takes the
duplicate branch, or, once `Y` is in `ACTIVE_CLOSE`, an ACK, which meets an empty Send Queue.
Neither engine changes. -/
theorem FinTaken.deliver_y {s : UInt32} {k : Nat} {n n' : Net} (h : FinTaken s k n) {i fuel : Nat}
    {ans : List SinkAnswer} (hk : k ≤ i)
    (hok : (∀ seg, (n.sent .X)[i]? = some seg → seg.flags ≠ ACK) ∨
      ∃ y, n.eng .Y = some y ∧ y.segment_teardown = .ACTIVE_CLOSE)
    (hstep : netStep n (.deliver .Y i fuel ans) = some n') :
    FinTaken s k n' ∧ n'.eng = n.eng := by
  obtain ⟨st, cl, r, hst, hcall, hr, rfl⟩ := netStep_eq hstep
  obtain ⟨seg, hi, rfl⟩ := Option.map_eq_some'.mp hcall
  change ctcpReceive fuel ans seg st = some r at hr
  have hc := h.closing_y hst
  obtain ⟨hseq, hf, -⟩ := h.sent_x seg (mem_drop_of_getElem? hk hi)
  obtain ⟨evs, rfl, hs⟩ : ∃ evs, r = (some st, evs) ∧ ∀ seg' ∈ sends evs, CloseSegment 1 seg' := by
    rcases hf with hf | hf
    · rw [hc.receive_dup (u32_ne_add_one s) hseq hf] at hr
      exact ⟨_, (Option.some.inj hr).symm, closeSegment_send_flags hc.seqno _ (.inr rfl)⟩
    · obtain hna | ⟨y, hy, hya⟩ := hok
      · exact absurd hf (hna seg hi)
      cases hy.symm.trans hst
      rw [ctcpReceive_ack_quiet hc.tx (by rw [hya]; decide) hf] at hr
      exact ⟨[], (Option.some.inj hr).symm, nofun⟩
  exact ⟨h.update_y ⟨_, rfl, hc⟩ hs _, by rw [← hst]; exact Function.update_eq_self _ _⟩

/-- The systems reached from `n₀` by steps each allowed by `P` in the system it is taken in. -/
inductive ReachUnder (P : Net → NetAction → Prop) (n₀ : Net) : Net → Prop where
  | refl : ReachUnder P n₀ n₀
  | step {n n' : Net} (act : NetAction) : ReachUnder P n₀ n → P n act →
      netStep n act = some n' → ReachUnder P n₀ n'

/-- The first half of the close puts it under way. -/
theorem AtRest.finTaken {cfg : Side → CtcpConfig} {S : List UInt8} {k : Nat} {n : Net}
    (h : AtRest cfg S k n) :
    ∃ n', runNet n [.read .X 1 [.eof], .deliver .Y k 1 []] = some n' ∧
      FinTaken (streamEnd S) k n' := by
  refine ⟨_, h.closeStart, .inr ⟨_, by simp, activeState_closing (cfg .X) _ _ _, rfl⟩,
    ⟨_, by simp, passiveState_closing (cfg .Y) _ _ _⟩, fun seg hs => ?_, fun seg hs => ?_⟩
  · rw [← h.sent_x] at hs
    simp [Event.segment] at hs
    subst hs
    simp [CloseSegment]
  · rw [← h.sent_y] at hs
    simp [Event.segment] at hs
    rcases hs with rfl | rfl <;> simp [CloseSegment]

/-! ## §2 A passive close that outlives its sixth timeout -/

/-- What may happen once the close is under way: either side's timer runs or its host is asked
to take output; the carrier hands either side any segment its peer sent from its `k`-th on. -/
def AfterClose (k : Nat) : NetAction → Prop
  | .read _ _ _ => False
  | .output _ _ | .timer _ _ _ => True
  | .deliver _ i _ _ => k ≤ i

/-- **Once `Y` is in `ACTIVE_CLOSE`, each step keeps the close under way and `Y` alive in
`ACTIVE_CLOSE`.** -/
theorem FinTaken.step {s : UInt32} {k : Nat} {n n' : Net} (h : FinTaken s k n)
    (hy : ∃ y, n.eng .Y = some y ∧ y.segment_teardown = .ACTIVE_CLOSE) {act : NetAction}
    (ha : AfterClose k act) (hstep : netStep n act = some n') :
    FinTaken s k n' ∧ ∃ y, n'.eng .Y = some y ∧ y.segment_teardown = .ACTIVE_CLOSE := by
  cases act with
  | read => exact ha.elim
  | output p ans => exact (h.output hstep).imp_right fun he => by rw [he]; exact hy
  | timer p fuel ans => exact (h.timer hstep).imp_right (· hy)
  | deliver p i fuel ans =>
    cases p
    · exact (h.deliver_x ha hstep).imp_right fun he => by rw [he]; exact hy
    · exact (h.deliver_y ha (.inr hy) hstep).imp_right fun he => by rw [he]; exact hy

theorem FinTaken.reach {s : UInt32} {k : Nat} {n₀ n : Net} (h : FinTaken s k n₀)
    (hy : ∃ y, n₀.eng .Y = some y ∧ y.segment_teardown = .ACTIVE_CLOSE)
    (hr : ReachUnder (fun _ => AfterClose k) n₀ n) :
    FinTaken s k n ∧ ∃ y, n.eng .Y = some y ∧ y.segment_teardown = .ACTIVE_CLOSE := by
  induction hr with
  | refl => exact ⟨h, hy⟩
  | step _ _ ha hstep ih => exact ih.1.step ih.2 ha hstep

/-- `Y`'s timer calls keep the close under way. -/
theorem FinTaken.ticks {s : UInt32} {k : Nat} {n n' : Net} (h : FinTaken s k n)
    (ticks : List (Nat × List (List SinkAnswer)))
    (hrun : runNet n (ticks.map fun t => .timer .Y t.1 t.2) = some n') : FinTaken s k n' := by
  induction ticks generalizing n with
  | nil => exact Option.some_inj.mp hrun ▸ h
  | cons t ticks ih =>
    obtain ⟨n₁, h₁, h₂⟩ := Option.bind_eq_some.mp hrun
    exact ih (h.timer h₁).1 h₂

/-- **A passive close that outlives its sixth timeout is never completed.** Once `X`'s FIN has
put `Y` in `PASSIVE_CLOSE` and `Y`'s timer has forced `ACTIVE_CLOSE`, every continuation of timer
and output calls and deliveries of segments sent since the close leaves `Y` alive, in
`ACTIVE_CLOSE`, with its timer armed. -/
theorem passive_close_outlives_timeout {cfg : Side → CtcpConfig} {S : List UInt8} {k : Nat}
    {n : Net} (h : AtRest cfg S k n) (ticks : List (Nat × List (List SinkAnswer))) {n₁ : Net}
    (h₁ : runNet n ([.read .X 1 [.eof], .deliver .Y k 1 []] ++
      ticks.map fun t => .timer .Y t.1 t.2) = some n₁)
    (h₆ : ∃ y, n₁.eng .Y = some y ∧ y.segment_teardown = .ACTIVE_CLOSE) :
    ∀ n', ReachUnder (fun _ => AfterClose k) n₁ n' → ∃ y, n'.eng .Y = some y ∧
      y.segment_teardown = .ACTIVE_CLOSE ∧ y.ack_state.time_out = true := by
  intro n' hr
  obtain ⟨n₀, e₀, h₀⟩ := h.finTaken
  rw [runNet_append, e₀, Option.some_bind] at h₁
  obtain ⟨hf, y, hy, ha⟩ := (h₀.ticks ticks h₁).reach h₆ hr
  exact ⟨y, hy, ha, (hf.closing_y hy).armed⟩

/-- On a fresh connection whose timer runs out at every call, `Y`'s sixth timeout after taking
`X`'s FIN leaves it in `ACTIVE_CLOSE` for good. -/
theorem passive_close_outlives_timeout_six :
    ∃ n₁, runNet (Net.init fun _ => ⟨2000, 2000, 40, 40⟩)
        ([.read .X 1 [.eof], .deliver .Y 0 1 []] ++
          (List.replicate 6 (3, [[]])).map fun t => .timer .Y t.1 t.2) = some n₁ ∧
      (∃ y, n₁.eng .Y = some y ∧ y.segment_teardown = .ACTIVE_CLOSE) ∧
      ∀ n', ReachUnder (fun _ => AfterClose 0) n₁ n' → ∃ y, n'.eng .Y = some y ∧
        y.segment_teardown = .ACTIVE_CLOSE ∧ y.ack_state.time_out = true :=
  ⟨_, rfl, ⟨_, rfl, rfl⟩, passive_close_outlives_timeout (atRest_init fun _ => ⟨2000, 2000, 40, 40⟩)
    (List.replicate 6 (3, [[]])) rfl ⟨_, rfl, rfl⟩⟩

/-- Timer calls on `Y` leave `X`'s engine and what it sent as they were. -/
theorem runNet_timers_y {n n' : Net} (ticks : List (Nat × List (List SinkAnswer)))
    (hrun : runNet n (ticks.map fun t => .timer .Y t.1 t.2) = some n') :
    n'.eng .X = n.eng .X ∧ n'.sent .X = n.sent .X := by
  induction ticks generalizing n with
  | nil => cases Option.some_inj.mp hrun; exact ⟨rfl, rfl⟩
  | cons t ticks ih =>
    obtain ⟨n₁, h₁, h₂⟩ := Option.bind_eq_some.mp hrun
    obtain ⟨_, _, _, _, _, _, rfl⟩ := netStep_eq h₁
    simpa [NetAction.side] using ih h₂

/-- **A passive close completes while `Y` is still in `PASSIVE_CLOSE`.** If `Y` is still in
`PASSIVE_CLOSE` after `X`'s FIN and any timer calls, delivering any FIN `Y` has sent since to `X`,
and `X`'s ACK back to `Y`, destroys both engines. -/
theorem passive_close_completes_before_timeout {cfg : Side → CtcpConfig} {S : List UInt8}
    {k : Nat} {n : Net} (h : AtRest cfg S k n) (ticks : List (Nat × List (List SinkAnswer)))
    {n₁ : Net} (h₁ : runNet n ([.read .X 1 [.eof], .deliver .Y k 1 []] ++
      ticks.map fun t => .timer .Y t.1 t.2) = some n₁)
    (hp : ∃ y, n₁.eng .Y = some y ∧ y.segment_teardown = .PASSIVE_CLOSE)
    {j : Nat} (hj : k ≤ j) {seg : Segment} (hseg : (n₁.sent .Y)[j]? = some seg)
    (hfin : seg.flags = FIN) :
    ∃ n₂, runNet n₁ [.deliver .X j 1 [], .deliver .Y (n₁.sent .X).length 1 []] = some n₂ ∧
      n₂.eng .X = none ∧ n₂.eng .Y = none := by
  obtain ⟨n₀, e₀, h₀⟩ := h.finTaken
  have hx₀ : n₀.eng .X = some (activeState (cfg .X) (streamEnd S) 1 1) := by
    cases e₀.symm.trans h.closeStart
    simp
  rw [runNet_append, e₀, Option.some_bind] at h₁
  obtain ⟨hseq, -, hver⟩ := (h₀.ticks ticks h₁).sent_y seg (mem_drop_of_getElem? hj hseg)
  obtain ⟨hx, -⟩ := runNet_timers_y ticks h₁
  obtain ⟨y, hy, hpy⟩ := hp
  let xa := activeState (cfg .X) (streamEnd S) 1 1
  let xack := ctcpSendFlags
    { xa with conn_state.last_ackno := xa.conn_state.ackno, conn_state.ackno := seg.seqno + 1 }
    (seg.seqno + 1) ACK
  let n₂ := n₁.update .X none [.send xack] [seg]
  let n₃ := n₂.update .Y none [] [xack]
  have e₁ : netStep n₁ (.deliver .X j 1 []) = some n₂ :=
    netStep_deliver (hx.trans hx₀) hseg (ctcpReceive_fin_active rfl hseq hfin hver 1 [])
  have e₂ : netStep n₂ (.deliver .Y (n₁.sent .X).length 1 []) = some n₃ :=
    netStep_deliver (by simp [n₂, hy]) (by simp [n₂, Side.peer, Event.segment])
      (ctcpReceive_ack_passive hpy rfl (ctcpSendFlags_verifies _ _ _) 1 [])
  exact ⟨n₃, by simp only [runNet, e₁, e₂, Option.some_bind], by simp [n₂, n₃], by simp [n₃]⟩

/-- On a fresh connection, `Y`'s FIN is lost, and the copy its first timeout sends, with `X`'s
ACK of it, closes the connection. -/
theorem passive_close_completes_before_timeout_retx :
    ∃ n₁, runNet (Net.init fun _ => ⟨2000, 2000, 40, 40⟩)
        ([.read .X 1 [.eof], .deliver .Y 0 1 []] ++
          [(2, [[]])].map fun t => .timer .Y t.1 t.2) = some n₁ ∧
      (∃ y, n₁.eng .Y = some y ∧ y.segment_teardown = .PASSIVE_CLOSE) ∧
      ∃ n₂, runNet n₁ [.deliver .X 2 1 [], .deliver .Y (n₁.sent .X).length 1 []] = some n₂ ∧
        n₂.eng .X = none ∧ n₂.eng .Y = none :=
  ⟨_, rfl, ⟨_, rfl, rfl⟩, passive_close_completes_before_timeout
    (atRest_init fun _ => ⟨2000, 2000, 40, 40⟩) [(2, [[]])] rfl ⟨_, rfl, rfl⟩ (Nat.zero_le 2) rfl
    rfl⟩

/-! ## §3 A lost last ACK -/

/-- What may happen once `X`'s last ACK is lost: timer and output calls, deliveries to `X`, and
deliveries to `Y` of the segments `X` sent from its `k`-th on other than ACKs. -/
def AckLost (k : Nat) (n : Net) : NetAction → Prop
  | .read _ _ _ => False
  | .output _ _ | .timer _ _ _ | .deliver .X _ _ _ => True
  | .deliver .Y i _ _ => k ≤ i ∧ ∀ seg, (n.sent .X)[i]? = some seg → seg.flags ≠ ACK

/-- **With `X` destroyed, each step keeps the close under way and `X` gone.** Only `Y` can move,
and nothing that reaches it is an ACK. -/
theorem FinTaken.step_lost {s : UInt32} {k : Nat} {n n' : Net} (h : FinTaken s k n)
    (hx : n.eng .X = none) {act : NetAction} (ha : AckLost k n act)
    (hstep : netStep n act = some n') : FinTaken s k n' ∧ n'.eng .X = none := by
  have hY : act.side = .Y := by
    obtain ⟨st, -, -, hst, -⟩ := netStep_eq hstep
    cases hs : act.side
    · rw [hs, hx] at hst
      cases hst
    · rfl
  refine ⟨?_, ?_⟩
  · cases act with
    | read => exact ha.elim
    | output => exact (h.output hstep).1
    | timer => exact (h.timer hstep).1
    | deliver p i fuel ans =>
      obtain rfl : p = .Y := hY
      exact (h.deliver_y ha.1 (.inl ha.2) hstep).1
  · obtain ⟨-, -, -, -, -, -, rfl⟩ := netStep_eq hstep
    simp [hY, hx]

/-- **A lost last ACK leaves the passive closer open for good.** Once `X` has acknowledged `Y`'s
FIN and been destroyed, every continuation that never delivers an ACK of `X` to `Y` leaves `X`
destroyed and `Y` alive with its timer armed. -/
theorem lost_last_ack_half_open {cfg : Side → CtcpConfig} {S : List UInt8} {k : Nat} {n : Net}
    (h : AtRest cfg S k n) :
    ∃ n₀, runNet n [.read .X 1 [.eof], .deliver .Y k 1 [], .deliver .X (k + 1) 1 []] = some n₀ ∧
      ∀ n', ReachUnder (AckLost k) n₀ n' → n'.eng .X = none ∧
        ∃ y, n'.eng .Y = some y ∧ y.ack_state.time_out = true := by
  obtain ⟨n₄, e₄, hx₄, -⟩ := h.close
  obtain ⟨n₃, e₃, e₃₄⟩ := runNet_append_eq_some (show runNet n
    ([.read .X 1 [.eof], .deliver .Y k 1 [], .deliver .X (k + 1) 1 []] ++
      [.deliver .Y (k + 1) 1 []]) = _ from e₄)
  obtain ⟨n₂, e₂, e₂₃⟩ := runNet_append_eq_some (show runNet n
    ([.read .X 1 [.eof], .deliver .Y k 1 []] ++ [.deliver .X (k + 1) 1 []]) = _ from e₃)
  obtain ⟨n₂', e₂', hf⟩ := h.finTaken
  cases e₂.symm.trans e₂'
  rw [runNet_singleton] at e₂₃ e₃₄
  obtain ⟨hf₃, -⟩ := hf.deliver_x (Nat.le_succ k) e₂₃
  have hx₃ : n₃.eng .X = none := by
    obtain ⟨_, _, _, _, _, _, rfl⟩ := netStep_eq e₃₄
    simpa [NetAction.side] using hx₄
  refine ⟨n₃, e₃, fun n' hr => ?_⟩
  have hl : FinTaken (streamEnd S) k n' ∧ n'.eng .X = none := by
    induction hr with
    | refl => exact ⟨hf₃, hx₃⟩
    | step _ _ ha hstep ih => exact ih.1.step_lost ih.2 ha hstep
  obtain ⟨y, hy, hc⟩ := hl.1.y
  exact ⟨hl.2, y, hy, hc.armed⟩

/-- On a fresh connection, once `X`'s last ACK is lost, `Y` is never destroyed. -/
theorem lost_last_ack_half_open_fresh :
    ∃ n₀, runNet (Net.init fun _ => ⟨2000, 2000, 40, 40⟩)
        [.read .X 1 [.eof], .deliver .Y 0 1 [], .deliver .X 1 1 []] = some n₀ ∧
      ∀ n', ReachUnder (AckLost 0) n₀ n' → n'.eng .X = none ∧
        ∃ y, n'.eng .Y = some y ∧ y.ack_state.time_out = true :=
  lost_last_ack_half_open (atRest_init _)

/-! ## §4 A lost FIN is recovered -/

/-- After `X`'s host has signalled end-of-source, before `Y` has taken `X`'s FIN: `X` in
`ACTIVE_CLOSE` with only its timer fields moved; `Y` at rest where it was; since its `k`-th
segment `X` has sent only copies of its FIN. -/
structure FinPending (cfg : Side → CtcpConfig) (S : List UInt8) (k : Nat) (n : Net) : Prop where
  x : ∃ ak, n.eng .X = some { activeState (cfg .X) (streamEnd S) 1 1 with ack_state := ak } ∧
    ak.time_out = true
  y : ∃ l, n.eng .Y = some (idleState (cfg .Y) 1 (streamEnd S) l)
  fins : ∀ seg ∈ (n.sent .X).drop k,
    seg = ctcpSendFlags (idleState (cfg .X) (streamEnd S) 1 1) 1 FIN
  sent_y : (n.sent .Y).length = k
  stream : outbound (n.trace .X) = S
  sink : sinkBytes (n.trace .Y) = S

/-- End-of-source at rest: `X` sends its FIN and waits. -/
theorem AtRest.finPending {cfg : Side → CtcpConfig} {S : List UInt8} {k : Nat} {n : Net}
    (h : AtRest cfg S k n) :
    ∃ n', netStep n (.read .X 1 [.eof]) = some n' ∧ FinPending cfg S k n' := by
  refine ⟨_, netStep_read h.x (ctcpRead_eof_idle _ 0 _ _ _),
    ⟨_, by simp only [Net.update_eng, if_true]; rfl, rfl⟩, by simpa using h.y, fun seg hs => ?_,
    by simpa using h.sent_y, by simp [h.stream, Event.enqueued], by simpa using h.sink⟩
  rw [← h.sent_x] at hs
  simpa [Event.segment] using hs

/-- `X`'s timer, while its FIN is pending, only moves its timer fields and sends the FIN again:
a retransmission acknowledges `last_ackno` and the sixth timeout `ackno`, both `1` here. -/
theorem FinPending.tick {cfg : Side → CtcpConfig} {S : List UInt8} {k : Nat} {n n' : Net}
    (h : FinPending cfg S k n) {fuel : Nat} {ans : List (List SinkAnswer)}
    (hstep : netStep n (.timer .X fuel ans) = some n') : FinPending cfg S k n' := by
  obtain ⟨st, cl, r, hst, hcall, hr, rfl⟩ := netStep_eq hstep
  cases hcall
  obtain ⟨st', evs, hw, rfl⟩ := engineStep_timer_inv hr
  obtain ⟨ak, hx, ht⟩ := h.x
  cases hx.symm.trans hst
  obtain ⟨ak', td, rfl, ht', htd, hs⟩ :=
    ((activeState_closing (cfg .X) (streamEnd S) 1 1).update ht (.inl rfl)).timer hw
  obtain rfl : td = .ACTIVE_CLOSE := htd.elim id id
  refine ⟨⟨ak', by simp [NetAction.side]; rfl, ht'⟩, by simpa [NetAction.side] using h.y,
    fun seg hseg => ?_, by simpa [NetAction.side] using h.sent_y,
    by simp [NetAction.side, h.stream, (sendsOnly hs).1], by simpa [NetAction.side] using h.sink⟩
  simp only [NetAction.side, Net.update_sent, if_true] at hseg
  exact (mem_drop_append hseg).elim (h.fins seg) fun hs' =>
    ((sendsOnly hs).2.2.2 seg hs').elim id id

theorem FinPending.ticks {cfg : Side → CtcpConfig} {S : List UInt8} {k : Nat} {n n' : Net}
    (h : FinPending cfg S k n) (ticks : List (Nat × List (List SinkAnswer)))
    (hrun : runNet n (ticks.map fun t => .timer .X t.1 t.2) = some n') : FinPending cfg S k n' := by
  induction ticks generalizing n with
  | nil => exact Option.some_inj.mp hrun ▸ h
  | cons t ticks ih =>
    obtain ⟨n₁, h₁, h₂⟩ := Option.bind_eq_some.mp hrun
    exact ih (h.tick h₁) h₂

/-- **A lost FIN is recovered.** After `X`'s end-of-source and any timer calls, delivering any
segment `X` has sent since to `Y`, `Y`'s FIN to `X` and `X`'s ACK to `Y` destroys both engines,
with `X`'s outbound stream `S` and `Y`'s sink given `S`, then end-of-stream, then nothing. -/
theorem lost_fin_recovered {cfg : Side → CtcpConfig} {S : List UInt8} {k : Nat} {n : Net}
    (h : AtRest cfg S k n) (ticks : List (Nat × List (List SinkAnswer))) {n₁ : Net}
    (h₁ : runNet n (.read .X 1 [.eof] :: ticks.map fun t => .timer .X t.1 t.2) = some n₁)
    {i : Nat} (hi : k ≤ i) {seg : Segment} (hseg : (n₁.sent .X)[i]? = some seg) :
    ∃ n₂, runNet n₁ [.deliver .Y i 1 [], .deliver .X (k + 1) 1 [],
        .deliver .Y (n₁.sent .X).length 1 []] = some n₂ ∧
      n₂.eng .X = none ∧ n₂.eng .Y = none ∧ outbound (n₂.trace .X) = S ∧
      ∃ pre post, n₂.trace .Y = pre ++ .eof :: post ∧ sinkBytes pre = S ∧ sinkBytes post = [] := by
  obtain ⟨n₀, e₀, hp⟩ := h.finPending
  obtain ⟨n₀', e₀', h₁'⟩ := Option.bind_eq_some.mp h₁
  cases e₀.symm.trans e₀'
  have hp₁ := hp.ticks ticks h₁'
  obtain ⟨ak, hx⟩ := hp₁.x
  obtain ⟨l, hy⟩ := hp₁.y
  obtain rfl := hp₁.fins seg (mem_drop_of_getElem? hi hseg)
  set s := streamEnd S
  let fin := ctcpSendFlags (idleState (cfg .X) s 1 1) 1 FIN
  let yack := ctcpSendFlags (idleState (cfg .Y) 1 (s + 1) s) (s + 1) ACK
  let yfin := ctcpSendFlags (idleState (cfg .Y) 1 (s + 1) s) (s + 1) FIN
  let xa := { activeState (cfg .X) s 1 1 with ack_state := ak }
  let xack := ctcpSendFlags { xa with conn_state.last_ackno := 1, conn_state.ackno := 1 + 1 }
    (1 + 1) ACK
  let n₂ := n₁.update .Y (some (passiveState (cfg .Y) 1 (s + 1) s))
    [.eof, .send yack, .send yfin] [fin]
  let n₃ := n₂.update .X none [.send xack] [yfin]
  let n₄ := n₃.update .Y none [] [xack]
  have e₁ : netStep n₁ (.deliver .Y i 1 []) = some n₂ :=
    netStep_deliver hy hseg (@ctcpReceive_fin_idle (cfg .Y) 1 s l fin
      (by simp [fin, ctcpSendFlags]) rfl (ctcpSendFlags_verifies _ _ _) 0 [])
  have e₂ : netStep n₂ (.deliver .X (k + 1) 1 []) = some n₃ :=
    netStep_deliver (by simp [n₂, hx.1]) (show (n₂.sent .Y)[_]? = _ by
        rw [show n₂.sent .Y = (n₁.sent .Y ++ [yack]) ++ [yfin] by simp [n₂, Event.segment],
          ← hp₁.sent_y, show (n₁.sent .Y).length + 1 = (n₁.sent .Y ++ [yack]).length by simp]
        exact List.getElem?_concat_length _ _)
      (@ctcpReceive_fin_active xa rfl yfin (by simp [yfin, ctcpSendFlags]; rfl) rfl
        (ctcpSendFlags_verifies _ _ _) 1 [])
  have e₃ : netStep n₃ (.deliver .Y (n₁.sent .X).length 1 []) = some n₄ :=
    netStep_deliver (by simp [n₂, n₃]) (by simp [n₂, n₃, Side.peer, Event.segment])
      (@ctcpReceive_ack_passive (passiveState (cfg .Y) 1 (s + 1) s) rfl xack rfl
        (ctcpSendFlags_verifies _ _ _) 1 [])
  refine ⟨n₄, by simp only [runNet, e₁, e₂, e₃, Option.some_bind], by simp [n₃, n₄],
    by simp [n₄], by simp [n₂, n₃, n₄, hp₁.stream, Event.enqueued], n₁.trace .Y,
    [.send yack, .send yfin], by simp [n₂, n₃, n₄], hp₁.sink, rfl⟩

/-- On a fresh connection, `X`'s FIN is lost and the copy its timer sends completes the close. -/
theorem lost_fin_recovered_retx :
    ∃ n₁, runNet (Net.init fun _ => ⟨2000, 2000, 40, 40⟩)
        [.read .X 1 [.eof], .timer .X 2 [[]]] = some n₁ ∧ ∃ n₂, runNet n₁
          [.deliver .Y 1 1 [], .deliver .X 1 1 [], .deliver .Y (n₁.sent .X).length 1 []] = some n₂ ∧
        n₂.eng .X = none ∧ n₂.eng .Y = none ∧ outbound (n₂.trace .X) = [] ∧
        ∃ pre post, n₂.trace .Y = pre ++ .eof :: post ∧ sinkBytes pre = [] ∧ sinkBytes post = [] :=
  ⟨_, rfl, @lost_fin_recovered (fun _ => ⟨2000, 2000, 40, 40⟩) [] 0 _ (atRest_init _)
    [(2, [[]])] _ rfl 1 (Nat.zero_le 1) _ rfl⟩

end Ctcp
