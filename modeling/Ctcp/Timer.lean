import Ctcp.Receive

/-!
# cTCP Timer

`ctcp_timer` of `ctcp.c`: one walk over the connection registry, the loop body run on each
engine. The body ends in `continue` after the sixth consecutive timeout, which skips the step
to the next engine, so the walk runs the body on that engine again. The walk is therefore a
loop over a cursor, not a map over the registry, and it is given `fuel` (one unit per run of
the body).

The registry is a list of engine states here, front first; `Ctcp.Registry` shows the linked
registry of `ctcp.c` visits exactly such a list. The sink answers are one list per run of the
body, consumed in order.
-/

namespace Ctcp

/-- The loop body of `ctcp_timer` on one engine. The flag is `true` when the body ends in
`continue`. An armed timer counts a tick; on overflow it counts a timeout, and the sixth sends
a FIN and forces `ACTIVE_CLOSE`, while other timeouts retransmit the FIN (closing states) or run
the go-back-N pass. A disarmed timer runs the pass and drains the Receive Queue. -/
def timerVisit (ans : List SinkAnswer) (st : CtcpState) : Bool × CtcpState × List Event :=
  if st.ack_state.time_out then
    let counter := st.ack_state.counter + 1
    let st₁ := { st with ack_state.counter := counter }
    if counter = st₁.ack_state.timer_overflow then
      let num := st₁.ack_state.time_out_num + 1
      let st₂ := { st₁ with ack_state.counter := 0, ack_state.time_out_num := num }
      if num = 6 then
        (true, { st₂ with ack_state.time_out := true, segment_teardown := .ACTIVE_CLOSE },
          [.send (ctcpSendFlags st₂ st₂.conn_state.ackno FIN)])
      else if st₂.segment_teardown = .ACTIVE_CLOSE ∨ st₂.segment_teardown = .PASSIVE_CLOSE then
        (false, st₂, [.send (ctcpSendFlags st₂ st₂.conn_state.last_ackno FIN)])
      else
        let p := ctcpSendPossibleDataSegment st₂
        (false, p.1, p.2)
    else (false, st₁, [])
  else
    let p := ctcpSendPossibleDataSegment st
    if 0 < p.1.rx_state.length then
      let o := ctcpOutput ans p.1
      (false, o.1, p.2 ++ o.2)
    else (false, p.1, p.2)

/-- The walk of `ctcp_timer` over the registry from the cursor on, with `fuel` runs of the
body. -/
def timerWalk : Nat → List (List SinkAnswer) → List CtcpState →
    Option (List CtcpState × List Event)
  | 0, _, _ => none
  | _ + 1, _, [] => some ([], [])
  | fuel + 1, ans, st :: rest =>
    let v := timerVisit (ans.headD []) st
    if v.1 then (timerWalk fuel ans.tail (v.2.1 :: rest)).map fun r => (r.1, v.2.2 ++ r.2)
    else (timerWalk fuel ans.tail rest).map fun r => (v.2.1 :: r.1, v.2.2 ++ r.2)

/-- `ctcp_timer` on a registry of engines, front first. -/
def ctcpTimer (fuel : Nat) (ans : List (List SinkAnswer)) (engines : List CtcpState) :
    Option (List CtcpState × List Event) :=
  timerWalk fuel ans engines

/-- **What one run of the timer body does.** It first changes at most the timer fields and
the teardown state (`time_out` keeps its value; the teardown state is kept or forced to
`ACTIVE_CLOSE`), and then either sends only FINs advertising the engine's window, or runs the
pass, or runs the pass and drains the Receive Queue. -/
theorem timerVisit_shape (ans : List SinkAnswer) (st : CtcpState) :
    ∃ (a : AckState) (td : TeardownState), a.time_out = st.ack_state.time_out ∧
      (td = st.segment_teardown ∨ td = .ACTIVE_CLOSE) ∧
      let st₀ := { st with ack_state := a, segment_teardown := td }
      (((timerVisit ans st).2.1 = st₀ ∧
          ∀ ev ∈ (timerVisit ans st).2.2, ∃ seg, ev = .send seg ∧ seg.flags = FIN ∧
            seg.verifies = true ∧
            seg.window = advertisedWindow st.conn_state.rcv_window st.conn_state.rcv_window_used) ∨
        (timerVisit ans st).2 = ctcpSendPossibleDataSegment st₀ ∨
        (timerVisit ans st).2 =
          ((ctcpOutput ans (ctcpSendPossibleDataSegment st₀).1).1,
           (ctcpSendPossibleDataSegment st₀).2 ++
             (ctcpOutput ans (ctcpSendPossibleDataSegment st₀).1).2)) := by
  unfold timerVisit
  by_cases ht : st.ack_state.time_out
  · rw [if_pos ht]
    dsimp only
    split
    · split
      · refine ⟨_, _, ?_, .inr rfl, .inl ⟨rfl, by simp⟩⟩
        simp [ht]
      · split
        · refine ⟨_, _, ?_, .inl rfl, .inl ⟨rfl, by simp⟩⟩
          simp [ht]
        · refine ⟨_, _, ?_, .inl rfl, .inr (.inl rfl)⟩
          simp [ht]
    · refine ⟨_, _, ?_, .inl rfl, .inl ⟨rfl, by simp⟩⟩
      simp [ht]
  · rw [if_neg ht]
    dsimp only
    split
    · exact ⟨st.ack_state, st.segment_teardown, rfl, .inl rfl, .inr (.inr rfl)⟩
    · exact ⟨st.ack_state, st.segment_teardown, rfl, .inl rfl, .inr (.inl rfl)⟩

/-- The timer queues nothing. -/
theorem timerVisit_outbound (ans : List SinkAnswer) (st : CtcpState) :
    outbound (timerVisit ans st).2.2 = [] := by
  obtain ⟨a, td, -, -, hv⟩ := timerVisit_shape ans st
  rcases hv with ⟨-, hfin⟩ | hp | hpo
  · exact (sendsOnly hfin).1
  · rw [hp, ctcpSendPossibleDataSegment_eq]; simp
  · rw [hpo, outbound_append, (ctcpOutput_events ans _).1,
      ctcpSendPossibleDataSegment_eq]; simp

/-- A property of an engine and its trace that every run of the timer body keeps is kept by
`ctcp_timer` on a registry of that one engine, `continue` included. -/
theorem timerWalk_single {P : CtcpState → List Event → Prop}
    (hv : ∀ ans st tr, P st tr → P (timerVisit ans st).2.1 (tr ++ (timerVisit ans st).2.2)) :
    ∀ (fuel : Nat) (ans : List (List SinkAnswer)) (st st' : CtcpState) (tr evs : List Event),
      timerWalk fuel ans [st] = some ([st'], evs) → P st tr → P st' (tr ++ evs)
  | 0, _, _, _, _, _, h, _ => by simp [timerWalk] at h
  | fuel + 1, ans, st, st', tr, evs, h, hp => by
    simp only [timerWalk] at h
    split at h
    · obtain ⟨⟨sts, evs'⟩, hr, hr'⟩ := Option.map_eq_some'.mp h
      simp only [Prod.mk.injEq] at hr'
      obtain ⟨rfl, rfl⟩ := hr'
      simpa using timerWalk_single hv fuel ans.tail _ st' _ evs' hr (hv _ _ _ hp)
    · obtain ⟨⟨sts, evs'⟩, hr, hr'⟩ := Option.map_eq_some'.mp h
      cases fuel with
      | zero => simp [timerWalk] at hr
      | succ fuel =>
        simp only [timerWalk, Option.some.injEq, Prod.mk.injEq] at hr
        obtain ⟨rfl, rfl⟩ := hr
        simp only [Prod.mk.injEq, List.cons.injEq, and_true, List.append_nil] at hr'
        obtain ⟨rfl, rfl⟩ := hr'
        exact hv _ _ _ hp

end Ctcp
