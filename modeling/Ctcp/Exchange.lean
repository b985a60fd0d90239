import Ctcp.Effects
import Ctcp.Network
import Ctcp.SendWindow
import Ctcp.RecvWindow

/-!
# The Exchange Between Two Engines

`Ctcp.Network` puts two engines on a carrier that may lose, duplicate and reorder segments.
This module proves what holds across every interleaving of the hosts' calls and the carrier's
deliveries.

## Results

- **Segment kinds** (`carrier_carries_data_ack_fin`): only DATA segments, pure ACKs and pure
  FINs ever cross the carrier, so the FIN+ACK branch of `ctcp_receive` is never taken between
  two cTCP engines.
- **Integrity** (`accepted_stream_from_peer`): every payload a side accepts into its Receive
  Queue is the payload of a DATA segment its peer sent, and equals the peer's outbound stream
  at that segment's sequence number; the sink gets a prefix of the accepted payloads.
- **Close** (`destroyed_after_fin_exchange`): a destroyed engine has sent its own FIN, and has
  acknowledged at `seqno + 1` a pure FIN that its peer sent.

All three are read off one invariant per side (`SideInv`), which every call keeps through
`engineStep_effects`, and `NetInv`'s record that deliveries come from the peer.
-/

namespace Ctcp

/-! ## §1 One side -/

/-- A pure FIN among `got`, acknowledged by an ACK of `tr` at its sequence number plus one. -/
def AckedFin (got : List Segment) (tr : List Event) : Prop :=
  ∃ fin ∈ got, fin.flags = FIN ∧ ∃ ack ∈ sends tr, ack.flags = ACK ∧ ack.ackno = fin.seqno + 1

theorem AckedFin.append {got : List Segment} {tr : List Event} (h : AckedFin got tr)
    (more : List Segment) (evs : List Event) : AckedFin (got ++ more) (tr ++ evs) :=
  let ⟨fin, hf, hff, ack, ha, haf, hano⟩ := h
  ⟨fin, List.mem_append_left _ hf, hff, ack,
    by rw [sends_append]; exact List.mem_append_left _ ha, haf, hano⟩

/-- A FIN handed over by this call, acknowledged by this call. -/
theorem AckedFin.of_call {fin ack : Segment} {more : List Segment} {evs : List Event}
    (hf : fin ∈ more) (hff : fin.flags = FIN) (ha : ack ∈ sends evs) (haf : ack.flags = ACK)
    (hano : ack.ackno = fin.seqno + 1) (got : List Segment) (tr : List Event) :
    AckedFin (got ++ more) (tr ++ evs) :=
  ⟨fin, List.mem_append_right _ hf, hff, ack,
    by rw [sends_append]; exact List.mem_append_right _ ha, haf, hano⟩

/-- The invariant of one side: `e` is its engine (`none` once destroyed), `tr` its events and
`got` the segments it has been handed. -/
structure SideInv (e : Option CtcpState) (tr : List Event) (got : List Segment) : Prop where
  recv : ∀ st, e = some st → RecvRunInv st tr
  send : ∀ st, e = some st → (outbound tr).length + 1 < 2 ^ 32 → SendRunInv st tr
  closing : ∀ st, e = some st → ClosingInv st tr
  /-- A side in `PASSIVE_CLOSE` has acknowledged a FIN it was handed. -/
  acked : ∀ st, e = some st → st.segment_teardown = .PASSIVE_CLOSE → AckedFin got tr
  kinds : ∀ seg ∈ sends tr, SegKind seg
  /-- Every DATA segment sent carries the outbound stream at its sequence number. -/
  slices : (outbound tr).length + 1 < 2 ^ 32 → SegInv (outbound tr) (sends tr)
  sink : sinkBytes tr <+: acceptedBytes tr
  /-- The accepted bytes are payloads of DATA segments the side was handed, one after
  another. -/
  accepted : ∃ ps : List (List UInt8), acceptedBytes tr = ps.flatten ∧
    ∀ p ∈ ps, ∃ seg ∈ got, segmentType seg.flags = .DATA_SEG ∧ p = seg.data
  destroyed : e = none → FinSent tr ∧ AckedFin got tr

theorem sideInv_init (cfg : CtcpConfig) : SideInv (some (ctcpInit cfg)) [] [] where
  recv _ h := Option.some_inj.mp h ▸ recvInv_init cfg
  send _ h _ := Option.some_inj.mp h ▸ ⟨sendInv_init cfg, nofun⟩
  closing _ h hne := absurd (Option.some_inj.mp h ▸ rfl) hne
  acked _ h hp := absurd (Option.some_inj.mp h ▸ hp) nofun
  kinds := nofun
  slices _ := nofun
  sink := List.nil_prefix
  accepted := ⟨[], rfl, nofun⟩
  destroyed := nofun

section Step

variable {st : CtcpState} {tr : List Event} {got : List Segment} {a : EngineAction}
  {e' : Option CtcpState} {evs : List Event} {more : List Segment}

/-- The segments of a delivery: a call `ctcp_receive` is handed a segment of `more`, of one of
the three kinds. -/
def Delivers (a : EngineAction) (more : List Segment) : Prop :=
  ∀ fuel ans seg, a = .receive fuel ans seg → seg ∈ more ∧ SegKind seg

theorem SideInv.kinds_step (h : SideInv (some st) tr got) (E : StepEffects st a (e', evs)) :
    ∀ seg ∈ sends (tr ++ evs), SegKind seg := fun seg hs => by
  rw [sends_append] at hs
  exact (List.mem_append.mp hs).elim (h.kinds seg) (E.kinds seg)

theorem SideInv.accepted_step (h : SideInv (some st) tr got) (E : StepEffects st a (e', evs))
    (hdel : Delivers a more) :
    ∃ ps : List (List UInt8), acceptedBytes (tr ++ evs) = ps.flatten ∧
      ∀ p ∈ ps, ∃ seg ∈ got ++ more, segmentType seg.flags = .DATA_SEG ∧ p = seg.data := by
  obtain ⟨ps, hps, hp⟩ := h.accepted
  have hold : ∀ p ∈ ps, ∃ seg ∈ got ++ more, segmentType seg.flags = .DATA_SEG ∧ p = seg.data :=
    fun p hp' => let ⟨seg, hs, hty, hd⟩ := hp p hp'; ⟨seg, List.mem_append_left _ hs, hty, hd⟩
  rcases E.accepted with he | ⟨fuel, ans, seg, rfl, hty, he⟩
  · exact ⟨ps, by rw [acceptedBytes_append, he, List.append_nil, hps], hold⟩
  · refine ⟨ps ++ [seg.data], by rw [acceptedBytes_append, he, hps, List.flatten_append,
      List.flatten_singleton], fun p hp' => ?_⟩
    rcases List.mem_append.mp hp' with hp' | hp'
    exacts [hold p hp',
      ⟨seg, List.mem_append_right _ (hdel fuel ans seg rfl).1, hty, List.mem_singleton.mp hp'⟩]

/-- A call that keeps the engine keeps the invariant. -/
theorem SideInv.step_live (h : SideInv (some st) tr got) {st' : CtcpState}
    (hr : engineStep st a = some (some st', evs)) (hdel : Delivers a more) :
    SideInv (some st') (tr ++ evs) (got ++ more) := by
  have E := engineStep_effects hr
  have hS : (outbound (tr ++ evs)).length + 1 < 2 ^ 32 → (outbound tr).length + 1 < 2 ^ 32 :=
    fun hS => by simp only [outbound_append, List.length_append] at hS; omega
  have hrecv := (h.recv st rfl).step hr
  have hsend := fun hS' => (h.send st rfl (hS hS')).step hr hS'
  refine ⟨fun _ h' => Option.some_inj.mp h' ▸ hrecv,
    fun _ h' hS' => Option.some_inj.mp h' ▸ hsend hS',
    fun _ h' => Option.some_inj.mp h' ▸ (h.closing st rfl).step hr rfl, fun _ h' hp => ?_,
    h.kinds_step E, fun hS' => (hsend hS').2, ⟨_, RecvInv.stream hrecv⟩,
    h.accepted_step E hdel, nofun⟩
  cases h'
  rcases E.closing _ rfl with htd | ⟨htd, -⟩ | ⟨-, -, fuel, ans, seg, rfl, hfn, ack, ha, haf, hano⟩
  · exact (h.acked st rfl (htd ▸ hp)).append _ _
  · rw [htd] at hp; cases hp
  · obtain ⟨hseg, hkind⟩ := hdel fuel ans seg rfl
    exact AckedFin.of_call hseg (hkind.fin_of_no_ack hfn) ha haf hano _ _

/-- A call that destroys the engine keeps the invariant: it sent only ACKs, and it was handed an
ACK in `PASSIVE_CLOSE` (the FIN exchange is already done) or the peer's FIN in `ACTIVE_CLOSE`
(which it acknowledges); a FIN+ACK is never handed over. -/
theorem SideInv.step_destroyed (h : SideInv (some st) tr got)
    (hr : engineStep st a = some (none, evs)) (hdel : Delivers a more) :
    SideInv none (tr ++ evs) (got ++ more) := by
  have E := engineStep_effects hr
  obtain ⟨hack, fuel, ans, seg, rfl, hcase⟩ := E.destroyed rfl
  obtain ⟨hout, hsink, hacc, hsends⟩ := sendsOnly hack
  obtain ⟨hseg, hkind⟩ := hdel fuel ans seg rfl
  refine ⟨nofun, nofun, nofun, nofun, h.kinds_step E, fun hS' => ?_, ?_,
    h.accepted_step E hdel, fun _ => ?_⟩
  · rw [outbound_append, hout, List.append_nil] at hS' ⊢
    rw [sends_append]
    exact (h.slices hS').append (SegInv.of_flags fun s hs => by rw [hsends s hs]; decide)
  · rw [sinkBytes_append, acceptedBytes_append, hsink, hacc, List.append_nil, List.append_nil]
    exact h.sink
  · rcases hcase with ⟨-, hp⟩ | hfa | ⟨hfn, hact, ack, ha, hano⟩
    · exact ⟨(h.closing st rfl (by rw [hp]; decide)).append_left _, (h.acked st rfl hp).append _ _⟩
    · exact absurd hfa hkind.not_fin_ack
    · exact ⟨(h.closing st rfl (by rw [hact]; decide)).append_left _,
        AckedFin.of_call hseg (hkind.fin_of_no_ack hfn) ha (hsends ack ha) hano _ _⟩

theorem SideInv.step (h : SideInv (some st) tr got) {r : Option CtcpState × List Event}
    (hr : engineStep st a = some r) (hdel : Delivers a more) :
    SideInv r.1 (tr ++ r.2) (got ++ more) := by
  obtain ⟨_ | st', evs⟩ := r
  exacts [h.step_destroyed hr hdel, h.step_live hr hdel]

end Step

/-! ## §2 The system -/

/-- The invariant of the system: each side's `SideInv`, and the carrier holds exactly what each
side sent. -/
structure ExchangeInv (n : Net) : Prop where
  side : ∀ s, SideInv (n.eng s) (n.trace s) (n.delivered s)
  sent : ∀ s, n.sent s = sends (n.trace s)

theorem ExchangeInv.step {n n' : Net} {act : NetAction} (h : ExchangeInv n)
    (hstep : netStep n act = some n') : ExchangeInv n' := by
  obtain ⟨st, c, r, hst, hc, hr, rfl⟩ := netStep_eq hstep
  have hdel : Delivers c.1 c.2 := by
    cases act with
    | deliver s i fuel ans =>
      obtain ⟨seg, hi, rfl⟩ := Option.map_eq_some'.mp hc
      rintro _ _ _ ⟨⟩
      exact ⟨List.mem_singleton_self _,
        (h.side s.peer).kinds seg (h.sent s.peer ▸ List.getElem?_mem hi)⟩
    | _ => cases hc; nofun
  have hside := h.side act.side
  rw [hst] at hside
  refine ⟨fun t => ?_, fun t => ?_⟩
  · rcases eq_or_ne t act.side with rfl | ht
    · simpa using hside.step hr hdel
    · simpa [ht] using h.side t
  · simp only [Net.update_sent, Net.update_trace]
    split
    · rw [sends_append, h.sent]
    · exact h.sent t

theorem exchangeInv_reachable {cfg : Side → CtcpConfig} {n : Net} (h : NetReachable cfg n) :
    ExchangeInv n := by
  induction h with
  | init => exact ⟨fun s => sideInv_init (cfg s), fun _ => rfl⟩
  | step _ _ hstep ih => exact ih.step hstep

/-! ## §3 What crosses the carrier -/

/-- **Only DATA, ACK and FIN segments cross the carrier.** In every reachable system each
segment a side has sent has flags `0`, `ACK` or `FIN`; in particular `ctcp_receive` never
classifies a delivered segment as a FIN+ACK, so the branch that destroys the engine on one is
never taken between two cTCP engines. -/
theorem carrier_carries_data_ack_fin {cfg : Side → CtcpConfig} {n : Net}
    (h : NetReachable cfg n) (s : Side) :
    ∀ seg ∈ n.sent s, (seg.flags = 0 ∨ seg.flags = ACK ∨ seg.flags = FIN) ∧
      segmentType seg.flags ≠ .FIN_WITH_ACK := by
  have hi := exchangeInv_reachable h
  intro seg hseg
  have hk := (hi.side s).kinds seg (hi.sent s ▸ hseg)
  exact ⟨hk, hk.not_fin_ack⟩

/-- A whole connection: `X` sends `"a"`, which `Y` accepts, writes and acknowledges; `X` ends
its source and sends its FIN; `Y` acknowledges it and answers with its FIN; `X` acknowledges
that and is destroyed, and the last ACK destroys `Y`. -/
def closeAfterData : List NetAction :=
  [.read .X 1 [.data [97]], .deliver .Y 0 1 [⟨100, 1⟩], .deliver .X 0 1 [], .read .X 1 [.eof],
    .deliver .Y 1 1 [], .deliver .X 2 1 [], .deliver .Y 2 1 []]

theorem carrier_carries_data_ack_fin_close :
    ∃ n, runNet (Net.init fun _ => ⟨2000, 2000, 40, 40⟩) closeAfterData = some n ∧
      ∀ seg ∈ n.sent .X, (seg.flags = 0 ∨ seg.flags = ACK ∨ seg.flags = FIN) ∧
        segmentType seg.flags ≠ .FIN_WITH_ACK :=
  ⟨_, rfl, carrier_carries_data_ack_fin
    ((@NetReachable.init fun _ => ⟨2000, 2000, 40, 40⟩).of_runNet closeAfterData rfl) .X⟩

/-! ## §4 Integrity -/

/-- **What a side accepts is its peer's stream.** In every reachable system, a side's sink is a
prefix of what it accepted, and each accepted payload is the data of a DATA segment its peer
sent and the carrier delivered, equal to the peer's outbound stream at that sequence number. -/
theorem accepted_stream_from_peer {cfg : Side → CtcpConfig} {n : Net} (h : NetReachable cfg n)
    (s : Side) (hS : (outbound (n.trace s.peer)).length + 1 < 2 ^ 32) :
    sinkBytes (n.trace s) <+: acceptedBytes (n.trace s) ∧
      ∃ ps : List (List UInt8), acceptedBytes (n.trace s) = ps.flatten ∧
        ∀ p ∈ ps, ∃ seg ∈ n.delivered s, seg ∈ n.sent s.peer ∧ seg.flags = 0 ∧ p = seg.data ∧
          p = ((outbound (n.trace s.peer)).drop (seg.seqno.toNat - 1)).take p.length := by
  have hi := exchangeInv_reachable h
  obtain ⟨ps, hps, hp⟩ := (hi.side s).accepted
  refine ⟨(hi.side s).sink, ps, hps, fun p hp' => ?_⟩
  obtain ⟨seg, hseg, hty, rfl⟩ := hp p hp'
  have hsent := (netInv_reachable h).from_peer s seg hseg
  have hsends : seg ∈ sends (n.trace s.peer) := hi.sent s.peer ▸ hsent
  have h0 : seg.flags = 0 := ((hi.side s.peer).kinds seg hsends).data_iff.mp hty
  exact ⟨seg, hseg, hsent, h0, rfl, (hi.side s.peer).slices hS seg hsends h0⟩

/-- Over the whole connection `Y` accepts `X`'s `"a"`, which is `X`'s stream from sequence
number `1`. -/
theorem accepted_stream_from_peer_a :
    ∃ n, runNet (Net.init fun _ => ⟨2000, 2000, 40, 40⟩) closeAfterData = some n ∧
      (outbound (n.trace Side.Y.peer)).length + 1 < 2 ^ 32 ∧
      (sinkBytes (n.trace .Y) <+: acceptedBytes (n.trace .Y) ∧
        ∃ ps : List (List UInt8), acceptedBytes (n.trace .Y) = ps.flatten ∧
          ∀ p ∈ ps, ∃ seg ∈ n.delivered .Y, seg ∈ n.sent Side.Y.peer ∧ seg.flags = 0 ∧
            p = seg.data ∧
            p = ((outbound (n.trace Side.Y.peer)).drop (seg.seqno.toNat - 1)).take p.length) :=
  ⟨_, rfl, by decide, accepted_stream_from_peer
    ((@NetReachable.init fun _ => ⟨2000, 2000, 40, 40⟩).of_runNet closeAfterData rfl) .Y
    (by decide)⟩

/-! ## §5 The close -/

/-- **A destroyed engine has finished the FIN exchange on its side.** In every reachable
system, a destroyed side has sent its own FIN, and has acknowledged, with an ACK at sequence
number plus one, a pure FIN that the carrier handed it and its peer sent. -/
theorem destroyed_after_fin_exchange {cfg : Side → CtcpConfig} {n : Net}
    (h : NetReachable cfg n) (s : Side) (hs : n.eng s = none) :
    (∃ seg ∈ n.sent s, seg.flags = FIN) ∧
      ∃ fin ∈ n.delivered s, fin ∈ n.sent s.peer ∧ fin.flags = FIN ∧
        ∃ ack ∈ n.sent s, ack.flags = ACK ∧ ack.ackno = fin.seqno + 1 := by
  have hi := exchangeInv_reachable h
  obtain ⟨hfin, fin, hf, hff, ack, ha, haf, hano⟩ := (hi.side s).destroyed hs
  rw [hi.sent s]
  exact ⟨hfin, fin, hf, (netInv_reachable h).from_peer s fin hf, hff, ack, ha, haf, hano⟩

/-- At the end of the whole connection `Y`, the passive closer, is destroyed, having sent its
FIN and acknowledged `X`'s. -/
theorem destroyed_after_fin_exchange_passive :
    ∃ n, runNet (Net.init fun _ => ⟨2000, 2000, 40, 40⟩) closeAfterData = some n ∧
      n.eng .Y = none ∧ (∃ seg ∈ n.sent .Y, seg.flags = FIN) ∧
      ∃ fin ∈ n.delivered .Y, fin ∈ n.sent Side.Y.peer ∧ fin.flags = FIN ∧
        ∃ ack ∈ n.sent .Y, ack.flags = ACK ∧ ack.ackno = fin.seqno + 1 :=
  ⟨_, rfl, rfl, destroyed_after_fin_exchange
    ((@NetReachable.init fun _ => ⟨2000, 2000, 40, 40⟩).of_runNet closeAfterData rfl) .Y rfl⟩

end Ctcp
