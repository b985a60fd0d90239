import Ctcp.Teardown

/-!
# Two Engines over a Lossy Carrier

The system the engine is part of: two engines `X` and `Y`, each driven by its host, and a
datagram carrier between them. The carrier keeps every segment each side has handed to
`conn_send`; a delivery hands the receiving side any one of its peer's segments. A segment
never picked is lost, one picked twice is duplicated, and picking out of order reorders, but
what arrives is always a segment the peer sent, unchanged.

## Results

- An engine is destroyed only after it has received a FIN-flagged segment from its peer.
- Concrete runs show what does not hold: an engine can be destroyed before its peer has
  received its FIN, and a receiver accepts segments out of order, so its sink is not a prefix
  of the sender's stream and its `ackno` moves backwards.
- Repeated segments (§4): a replay of a DATA segment older than the last one is accepted and
  written again, and a corrupted copy of the last one is answered with an ACK.
-/

namespace Ctcp

/-! ## §1 The system -/

/-- The two ends of a connection. -/
inductive Side where
  | X
  | Y
deriving DecidableEq, Repr

/-- The other end. -/
def Side.peer : Side → Side
  | .X => .Y
  | .Y => .X

@[simp] theorem Side.peer_ne (s : Side) : s.peer ≠ s := by cases s <;> decide

/-- Two engines and the carrier between them. -/
structure Net where
  /-- Each side's engine, `none` once destroyed. -/
  eng : Side → Option CtcpState
  /-- Every segment each side has sent, in order: the carrier's contents. -/
  sent : Side → List Segment
  /-- Ghost: the segments delivered to each side, in order. -/
  delivered : Side → List Segment
  /-- Each side's events. -/
  trace : Side → List Event

/-- Both engines fresh from `ctcp_init`, nothing sent. -/
def Net.init (cfg : Side → CtcpConfig) : Net :=
  ⟨fun s => some (ctcpInit (cfg s)), fun _ => [], fun _ => [], fun _ => []⟩

/-- Side `s` after a call that left its engine as `r`, produced `evs` and was handed `got`. -/
def Net.update (n : Net) (s : Side) (r : Option CtcpState) (evs : List Event)
    (got : List Segment) : Net where
  eng := Function.update n.eng s r
  sent := Function.update n.sent s (n.sent s ++ sends evs)
  delivered := Function.update n.delivered s (n.delivered s ++ got)
  trace := Function.update n.trace s (n.trace s ++ evs)

section Update

variable (n : Net) (s t : Side) (r : Option CtcpState) (evs : List Event) (got : List Segment)

@[simp] theorem Net.update_eng : (n.update s r evs got).eng t = if t = s then r else n.eng t := by
  simp [Net.update, Function.update_apply]

@[simp] theorem Net.update_sent :
    (n.update s r evs got).sent t = if t = s then n.sent s ++ sends evs else n.sent t := by
  simp [Net.update, Function.update_apply]

@[simp] theorem Net.update_delivered :
    (n.update s r evs got).delivered t = if t = s then n.delivered s ++ got else n.delivered t := by
  simp [Net.update, Function.update_apply]

@[simp] theorem Net.update_trace :
    (n.update s r evs got).trace t = if t = s then n.trace s ++ evs else n.trace t := by
  simp [Net.update, Function.update_apply]

end Update

/-- A host call into one side, or a delivery by the carrier. -/
inductive NetAction where
  | read (s : Side) (fuel : Nat) (input : List InputAnswer)
  | output (s : Side) (ans : List SinkAnswer)
  | timer (s : Side) (fuel : Nat) (ans : List (List SinkAnswer))
  /-- Deliver to side `s` the `i`-th segment its peer sent. -/
  | deliver (s : Side) (i : Nat) (fuel : Nat) (ans : List SinkAnswer)
deriving DecidableEq, Repr

/-- The side an action calls into. -/
def NetAction.side : NetAction → Side
  | .read s _ _ | .output s _ | .timer s _ _ | .deliver s _ _ _ => s

/-- The engine call an action makes, with the segments it hands over; `none` when the
carrier holds no such segment. -/
def NetAction.call (n : Net) : NetAction → Option (EngineAction × List Segment)
  | .read _ fuel input => some (.read fuel input, [])
  | .output _ ans => some (.output ans, [])
  | .timer _ fuel ans => some (.timer fuel ans, [])
  | .deliver s i fuel ans => (n.sent s.peer)[i]?.map fun seg => (.receive fuel ans seg, [seg])

/-- One step of the system; `none` if the side is destroyed, the segment does not exist, or
the call does not return. -/
def netStep (n : Net) (act : NetAction) : Option Net :=
  (n.eng act.side).bind fun st =>
  (act.call n).bind fun c =>
  (engineStep st c.1).map fun r => n.update act.side r.1 r.2 c.2

/-- Systems reachable from two fresh engines. -/
inductive NetReachable (cfg : Side → CtcpConfig) : Net → Prop where
  | init : NetReachable cfg (Net.init cfg)
  | step {n n' : Net} (act : NetAction) : NetReachable cfg n → netStep n act = some n' →
      NetReachable cfg n'

/-- Run a list of actions. -/
def runNet (n : Net) : List NetAction → Option Net
  | [] => some n
  | a :: as => (netStep n a).bind fun n' => runNet n' as

theorem runNet_append (n : Net) (as bs : List NetAction) :
    runNet n (as ++ bs) = (runNet n as).bind (runNet · bs) := by
  induction as generalizing n with
  | nil => rfl
  | cons a as ih =>
    show ((netStep n a).bind fun n' => runNet n' (as ++ bs)) = _
    simp only [runNet, ih, Option.bind_assoc]

theorem runNet_singleton (n : Net) (a : NetAction) : runNet n [a] = netStep n a :=
  Option.bind_some _

/-- A run that returns passes through each of its prefixes. -/
theorem runNet_append_eq_some {n n'' : Net} {as bs : List NetAction}
    (h : runNet n (as ++ bs) = some n'') : ∃ n', runNet n as = some n' ∧ runNet n' bs = some n'' :=
  Option.bind_eq_some.mp ((runNet_append n as bs).symm.trans h)

theorem NetReachable.of_runNet {cfg : Side → CtcpConfig} {n n' : Net} (h : NetReachable cfg n)
    (as : List NetAction) (hrun : runNet n as = some n') : NetReachable cfg n' := by
  induction as generalizing n with
  | nil => cases hrun; exact h
  | cons a as ih =>
    obtain ⟨n₁, h₁, h₂⟩ := Option.bind_eq_some.mp hrun
    exact ih (h.step a h₁) h₂

/-- **What a step did**: called the engine of its side, alive before, and recorded the result
on that side only. -/
theorem netStep_eq {n n' : Net} {act : NetAction} (h : netStep n act = some n') :
    ∃ st c r, n.eng act.side = some st ∧ act.call n = some c ∧ engineStep st c.1 = some r ∧
      n' = n.update act.side r.1 r.2 c.2 := by
  obtain ⟨st, hst, h⟩ := Option.bind_eq_some.mp h
  obtain ⟨c, hc, h⟩ := Option.bind_eq_some.mp h
  obtain ⟨r, hr, rfl⟩ := Option.map_eq_some'.mp h
  exact ⟨st, c, r, hst, hc, hr, rfl⟩

/-- A host read on a live side, run forward. -/
theorem netStep_read {n : Net} {s : Side} {st : CtcpState} (hs : n.eng s = some st)
    {fuel : Nat} {input : List InputAnswer} {r : CtcpState × List Event}
    (hr : ctcpRead fuel input st = some r) :
    netStep n (.read s fuel input) = some (n.update s (some r.1) r.2 []) := by
  simp only [netStep, NetAction.side, NetAction.call, hs, engineStep, hr, Option.some_bind,
    Option.map_some']

/-- A delivery to a live side of a segment its peer sent, run forward. -/
theorem netStep_deliver {n : Net} {s : Side} {st : CtcpState} (hs : n.eng s = some st)
    {i : Nat} {seg : Segment} (hi : (n.sent s.peer)[i]? = some seg) {fuel : Nat}
    {ans : List SinkAnswer} {r : Option CtcpState × List Event}
    (hr : ctcpReceive fuel ans seg st = some r) :
    netStep n (.deliver s i fuel ans) = some (n.update s r.1 r.2 [seg]) := by
  simp only [netStep, NetAction.side, NetAction.call, hs, hi, engineStep, hr, Option.some_bind,
    Option.map_some']

/-! ## §2 Destruction follows the peer's FIN -/

/-- A FIN-flagged segment is among `got`. -/
def GotFin (got : List Segment) : Prop := ∃ seg ∈ got, seg.flags &&& FIN ≠ 0

theorem GotFin.append {got : List Segment} (h : GotFin got) (more : List Segment) :
    GotFin (got ++ more) :=
  let ⟨seg, hs, hf⟩ := h
  ⟨seg, List.mem_append_left _ hs, hf⟩

theorem segmentType_fin {f : UInt32}
    (h : segmentType f = .FIN_WITH_ACK ∨ segmentType f = .FIN_WITH_NO_ACK) : f &&& FIN ≠ 0 := by
  unfold segmentType at h
  split_ifs at h with h₁ <;> simp_all

/-- One side's part of the invariant: a destroyed engine, or one in `PASSIVE_CLOSE`, has
received a FIN. -/
def FinInv (e : Option CtcpState) (got : List Segment) : Prop :=
  (e = none → GotFin got) ∧ ∀ st, e = some st → st.segment_teardown = .PASSIVE_CLOSE → GotFin got

/-- A live engine whose teardown state did not newly become `PASSIVE_CLOSE`. -/
theorem FinInv.of_teardown {st st' : CtcpState} {got : List Segment} (h : FinInv (some st) got)
    (htd : st'.segment_teardown = st.segment_teardown ∨ st'.segment_teardown = .ACTIVE_CLOSE)
    (more : List Segment) : FinInv (some st') (got ++ more) := by
  refine ⟨nofun, fun s hs hp => ?_⟩
  cases hs
  rcases htd with htd | htd
  · exact (h.2 st rfl (htd ▸ hp)).append more
  · rw [htd] at hp; cases hp

/-- **`ctcp_receive` keeps the invariant**: it destroys the engine or enters `PASSIVE_CLOSE`
only on a FIN, or on an ACK in `PASSIVE_CLOSE`. -/
theorem FinInv.receive {st : CtcpState} {got : List Segment} (h : FinInv (some st) got)
    {fuel : Nat} {ans : List SinkAnswer} {seg : Segment} {r : Option CtcpState × List Event}
    (hr : ctcpReceive fuel ans seg st = some r) : FinInv r.1 (got ++ [seg]) := by
  obtain ⟨res, evs⟩ := r
  have hseg : segmentType seg.flags = .FIN_WITH_ACK ∨ segmentType seg.flags = .FIN_WITH_NO_ACK →
      GotFin (got ++ [seg]) := fun hf => ⟨seg, by simp, segmentType_fin hf⟩
  cases res with
  | none =>
    refine ⟨fun _ => ?_, nofun⟩
    rcases ctcpReceive_destroyed hr with ⟨-, hp⟩ | hf | ⟨hf, -⟩
    · exact (h.2 st rfl hp).append _
    · exact hseg (.inl hf)
    · exact hseg (.inr hf)
  | some st' =>
    rcases ctcpReceive_live hr with ⟨rfl, -⟩ | ⟨rfl, -⟩ | ⟨-, hd⟩ | ⟨-, -, rfl, -⟩ |
      ⟨hf, -, rfl, -⟩
    · exact h.of_teardown (.inl rfl) _
    · exact h.of_teardown (.inl rfl) _
    · obtain ⟨a, l, u, q, hst⟩ := ctcpReceiveDataSegment_frame ans st seg
      refine h.of_teardown (.inl ?_) _
      rw [show st' = _ from congrArg Prod.fst hd, hst]
    · obtain ⟨_, _, _, _, _, _, hst⟩ := receiveAck_frame st seg.ackno
      exact h.of_teardown (.inl (by rw [hst])) _
    · exact ⟨nofun, fun _ _ _ => hseg (.inr hf)⟩

/-- One call keeps the invariant on its side. -/
theorem FinInv.step {n : Net} {act : NetAction} {st : CtcpState} {got : List Segment}
    (h : FinInv (some st) got) {c : EngineAction × List Segment} (hc : act.call n = some c)
    {r : Option CtcpState × List Event} (hr : engineStep st c.1 = some r) :
    FinInv r.1 (got ++ c.2) := by
  cases act with
  | read s fuel input =>
    cases hc
    obtain ⟨⟨st', evs⟩, hread, rfl⟩ := Option.map_eq_some'.mp hr
    exact h.of_teardown (ctcpRead_teardown hread) _
  | output s ans =>
    cases hc
    cases hr
    exact h.of_teardown (.inl (by rw [ctcpOutput_frame])) _
  | timer s fuel ans =>
    cases hc
    obtain ⟨_, _, hw, rfl⟩ := engineStep_timer_inv hr
    exact h.of_teardown (timerWalk_teardown hw) _
  | deliver s i fuel ans =>
    obtain ⟨seg, -, rfl⟩ := Option.map_eq_some'.mp hc
    exact h.receive hr

/-- The invariant of the system: each side's `FinInv`, and every segment delivered to a side
was sent by its peer. -/
structure NetInv (n : Net) : Prop where
  fin : ∀ s, FinInv (n.eng s) (n.delivered s)
  from_peer : ∀ s, ∀ seg ∈ n.delivered s, seg ∈ n.sent s.peer

theorem netInv_init (cfg : Side → CtcpConfig) : NetInv (Net.init cfg) :=
  ⟨fun _ => ⟨nofun, fun _ h hp => by cases h; cases hp⟩, fun _ _ h => by cases h⟩

theorem NetInv.step {n n' : Net} {act : NetAction} (h : NetInv n)
    (hstep : netStep n act = some n') : NetInv n' := by
  obtain ⟨st, c, r, hst, hc, hr, rfl⟩ := netStep_eq hstep
  refine ⟨fun t => ?_, fun t seg hseg => ?_⟩
  · rcases eq_or_ne t act.side with rfl | ht
    · have := h.fin act.side
      rw [hst] at this
      simpa using this.step hc hr
    · simpa [ht] using h.fin t
  · have hgot : ∀ seg ∈ c.2, seg ∈ n.sent act.side.peer := by
      cases act with
      | deliver s i fuel ans =>
        obtain ⟨seg, hi, rfl⟩ := Option.map_eq_some'.mp hc
        simpa using List.getElem?_mem hi
      | _ => cases hc; simp
    rcases eq_or_ne t act.side with rfl | ht
    · simp only [Net.update_delivered, Net.update_sent, if_true, Side.peer_ne, if_false,
        List.mem_append] at hseg ⊢
      rcases hseg with hseg | hseg
      exacts [h.from_peer act.side seg hseg, hgot seg hseg]
    · simp only [Net.update_delivered, Net.update_sent, ht, if_false] at hseg ⊢
      split
      · exact List.mem_append_left _ (‹t.peer = act.side› ▸ h.from_peer t seg hseg)
      · exact h.from_peer t seg hseg

theorem netInv_reachable {cfg : Side → CtcpConfig} {n : Net} (h : NetReachable cfg n) :
    NetInv n := by
  induction h with
  | init => exact netInv_init cfg
  | step _ _ hstep ih => exact ih.step hstep

/-- **An engine is destroyed only after its peer's FIN has reached it.** In every reachable
system, a destroyed side has been delivered a FIN-flagged segment that its peer sent. -/
theorem destroyed_after_peer_fin {cfg : Side → CtcpConfig} {n : Net} (h : NetReachable cfg n)
    (s : Side) (hs : n.eng s = none) :
    ∃ seg ∈ n.delivered s, seg ∈ n.sent s.peer ∧ seg.flags &&& FIN ≠ 0 := by
  have hi := netInv_reachable h
  obtain ⟨seg, hseg, hfin⟩ := (hi.fin s).1 hs
  exact ⟨seg, hseg, hi.from_peer s seg hseg, hfin⟩

/-- Both hosts end their source at once; `Y`'s FIN reaches `X` first. -/
def simultaneousClose : List NetAction :=
  [.read .X 1 [.eof], .read .Y 1 [.eof], .deliver .X 0 1 []]

/-- In the simultaneous close, `X` is destroyed by `Y`'s FIN. -/
theorem destroyed_after_peer_fin_simultaneous :
    ∃ n, runNet (Net.init fun _ => ⟨2000, 2000, 40, 40⟩) simultaneousClose = some n ∧
      n.eng .X = none ∧
        ∃ seg ∈ n.delivered .X, seg ∈ n.sent Side.X.peer ∧ seg.flags &&& FIN ≠ 0 := by
  refine ⟨_, rfl, ?_, destroyed_after_peer_fin
    ((@NetReachable.init fun _ => ⟨2000, 2000, 40, 40⟩).of_runNet simultaneousClose rfl) .X ?_⟩ <;>
  rfl

/-- **An engine can be destroyed before its peer has received its FIN.** In a simultaneous
close, `X` is in `ACTIVE_CLOSE` when `Y`'s FIN arrives and is destroyed, while nothing at all
has been delivered to `Y`. -/
theorem destroyed_before_peer_got_fin :
    ∃ n, NetReachable (fun _ => ⟨2000, 2000, 40, 40⟩) n ∧
      n.eng .X = none ∧ n.delivered .Y = [] := by
  refine ⟨_, (@NetReachable.init fun _ => ⟨2000, 2000, 40, 40⟩).of_runNet simultaneousClose rfl,
    ?_, ?_⟩ <;> rfl

/-! ## §3 Out-of-order acceptance -/

/-- `X` sends `"a"` and then `"b"` (its pass resends `"a"` with `"b"`); the carrier delivers
the segment of `"b"` to `Y` first, and `Y`'s sink takes one byte. -/
def bBeforeA : List NetAction :=
  [.read .X 1 [.data [97]], .read .X 1 [.data [98]], .deliver .Y 2 1 [⟨100, 1⟩]]

/-- **The receiver's sink skips a byte.** `ctcp_receive` never compares a DATA segment's
sequence number with `ackno`, so `Y` accepts `"b"` before `"a"` and writes it: its sink holds
`"b"`, not a prefix of `X`'s stream `"ab"`. -/
theorem sink_skips_undelivered_byte :
    ∃ n, NetReachable (fun _ => ⟨2000, 2000, 40, 40⟩) n ∧
      outbound (n.trace .X) = [97, 98] ∧ sinkBytes (n.trace .Y) = [98] ∧
      ¬ sinkBytes (n.trace .Y) <+: outbound (n.trace .X) := by
  refine ⟨_, (@NetReachable.init fun _ => ⟨2000, 2000, 40, 40⟩).of_runNet bBeforeA rfl,
    rfl, rfl, ?_⟩
  decide

/-- `X` sends `"a"`, `"b"`, `"c"` in three reads; the carrier delivers `"c"`, then `"b"`, to
`Y`, whose sink takes each. -/
def cThenB : List NetAction :=
  [.read .X 1 [.data [97]], .read .X 1 [.data [98]], .read .X 1 [.data [99]],
    .deliver .Y 5 1 [⟨100, 1⟩], .deliver .Y 4 1 [⟨100, 1⟩]]

/-- **`ackno` moves backwards and acknowledges a gap.** On `"c"` (sequence number `3`) `Y`
sets `ackno` to `4` and acknowledges `4` though it never received byte `1`; on `"b"` it sets
`last_ackno` to `4` and `ackno` back to `3`. -/
theorem ackno_moves_backwards :
    ∃ n, NetReachable (fun _ => ⟨2000, 2000, 40, 40⟩) n ∧
      acceptedBytes (n.trace .Y) = [99, 98] ∧ (∃ seg ∈ sends (n.trace .Y), seg.ackno = 4) ∧
      ∃ st, n.eng .Y = some st ∧ st.conn_state.ackno = 3 ∧ st.conn_state.last_ackno = 4 := by
  refine ⟨_, (@NetReachable.init fun _ => ⟨2000, 2000, 40, 40⟩).of_runNet cThenB rfl,
    rfl, ?_, _, rfl, rfl, rfl⟩
  decide

/-! ## §4 Repeated segments

`ctcp_receive` recognises one kind of repeated segment: one without the ACK flag whose sequence
number is `last_ackno` and not `ackno`, answered with an ACK for `last_ackno`. It makes that
test first, before the length and checksum checks. -/

/-- `X` sends `"a"` and then `"b"` (its pass resends `"a"` with `"b"`); both reach `Y` in order,
and `Y`'s sink takes each byte. -/
def inOrderAB : List NetAction :=
  [.read .X 1 [.data [97]], .read .X 1 [.data [98]], .deliver .Y 0 1 [⟨100, 1⟩],
    .deliver .Y 2 1 [⟨100, 1⟩]]

/-- **A replayed DATA segment is processed again.** After `Y` has accepted `"a"` (sequence
number `1`) and `"b"`, so that `ackno = 3`, the carrier delivers the segment of `"a"` once more.
Its sequence number is neither `ackno` nor `last_ackno = 2`, so `ctcp_receive` takes it as new
data: `ackno` goes back to `2`, and `"a"` is accepted, and written, a second time. -/
theorem replayed_segment_reaccepted :
    ∃ n n' st st' d, NetReachable (fun _ => ⟨2000, 2000, 40, 40⟩) n ∧
      netStep n (.deliver .Y 0 1 [⟨100, 1⟩]) = some n' ∧
      n.eng .Y = some st ∧ n'.eng .Y = some st' ∧
      (n.sent .X)[0]? = some d ∧ d ∈ n.delivered .Y ∧ segmentType d.flags = .DATA_SEG ∧
      d.seqno.toNat + d.data.length ≤ st.conn_state.ackno.toNat ∧
      st.conn_state.ackno = 3 ∧ st'.conn_state.ackno = 2 ∧
      acceptedBytes (n'.trace .Y) = [97, 98, 97] ∧ sinkBytes (n'.trace .Y) = [97, 98, 97] := by
  refine ⟨_, _, _, _, _,
    (@NetReachable.init fun _ => ⟨2000, 2000, 40, 40⟩).of_runNet inOrderAB rfl,
    rfl, rfl, rfl, rfl, ?_, ?_, ?_, ?_, ?_, ?_, ?_⟩ <;> decide

/-- The segment of `"a"` at sequence number `1`, from a peer at `ackno = 1`. -/
def segmentOfA : Segment := Segment.seal ⟨1, 1, 19, 0, 0, 2000, [97]⟩

/-- `segmentOfA` with one payload bit flipped in flight: its length is right, its checksum is
not. -/
def segmentOfACorrupted : Segment := { segmentOfA with data := [96] }

/-- **A corrupted retransmission draws an ACK.** Once `"a"` has been accepted (`ackno = 2`,
`last_ackno = 1`), a copy of its segment with a payload bit flipped is one header and one byte
long, declares that length, and fails the checksum; yet whatever the host answers,
`ctcp_receive` sends an ACK for `last_ackno`, because its duplicate test comes before the
checks. The state is unchanged. -/
theorem corrupted_duplicate_acked :
    ∃ st tr, Reachable ⟨2000, 2000, 40, 40⟩ st tr ∧
      segmentOfACorrupted.len.toNat = segmentOfACorrupted.bytes.length ∧
      segmentOfACorrupted.verifies = false ∧
      ∀ fuel ans, ctcpReceive fuel ans segmentOfACorrupted st =
        some (some st, [.send (ctcpSendFlags st st.conn_state.last_ackno ACK)]) := by
  refine ⟨_, _, @reachable_of_runEngine ⟨2000, 2000, 40, 40⟩ _ _
    [.receive 1 [⟨100, 1⟩] segmentOfA] rfl, by decide, by decide, fun fuel ans => ?_⟩
  rw [ctcpReceive_unverified (by decide), if_pos (by decide)]

end Ctcp
