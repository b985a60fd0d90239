import Ctcp.Engine

/-!
# The Teardown State Machine

`Teardown_state` of `ctcp.c` records how far a connection has gone in closing. It starts at
`NO_CLOSE`; the peer's FIN moves it to `PASSIVE_CLOSE`; the end of the source, or the sixth
consecutive timeout, moves it to `ACTIVE_CLOSE`. Each handler's possible moves are read off its
closed form in §1. Over any run of calls the teardown state only advances (§2): a connection never
reopens, and `ACTIVE_CLOSE` is kept until `ctcp_destroy`.
-/

namespace Ctcp

/-! ## §1 Each handler -/

/-- `ctcp_read` keeps the teardown state, or enters `ACTIVE_CLOSE` at end-of-source. -/
theorem ctcpRead_teardown {fuel : Nat} {input : List InputAnswer} {st st' : CtcpState}
    {evs : List Event} (h : ctcpRead fuel input st = some (st', evs)) :
    st'.segment_teardown = st.segment_teardown ∨ st'.segment_teardown = .ACTIVE_CLOSE := by
  obtain ⟨_, _, _, _, rfl | rfl⟩ := ctcpRead_frame h
  exacts [.inl rfl, .inr rfl]

/-- A run of the timer body keeps the teardown state, or forces `ACTIVE_CLOSE` at the sixth
timeout. -/
theorem timerVisit_teardown (ans : List SinkAnswer) (st : CtcpState) :
    (timerVisit ans st).2.1.segment_teardown = st.segment_teardown ∨
      (timerVisit ans st).2.1.segment_teardown = .ACTIVE_CLOSE := by
  obtain ⟨a, td, -, htd, hv⟩ := timerVisit_shape ans st
  have hp : (ctcpSendPossibleDataSegment
      { st with ack_state := a, segment_teardown := td }).1.segment_teardown = td := by
    obtain ⟨_, _, _, _, hp⟩ := ctcpSendPossibleDataSegment_frame
      { st with ack_state := a, segment_teardown := td }
    rw [hp]
  rcases hv with ⟨hst, -⟩ | hpe | hpo
  · rw [hst]; exact htd
  · rw [hpe, hp]; exact htd
  · rw [hpo, ctcpOutput_frame, hp]; exact htd

theorem timerWalk_teardown {fuel : Nat} {ans : List (List SinkAnswer)} {st st' : CtcpState}
    {evs : List Event} (hw : timerWalk fuel ans [st] = some ([st'], evs)) :
    st'.segment_teardown = st.segment_teardown ∨ st'.segment_teardown = .ACTIVE_CLOSE := by
  refine @timerWalk_single
    (fun s _ => s.segment_teardown = st.segment_teardown ∨ s.segment_teardown = .ACTIVE_CLOSE)
    (fun ans s _ hs => ?_) fuel ans st st' [] evs hw (.inl rfl)
  rcases timerVisit_teardown ans s with h | h
  · rw [h]; exact hs
  · exact .inr h

/-- A call of `ctcp_receive` that keeps the engine keeps the teardown state, or, on the peer's
FIN outside `ACTIVE_CLOSE`, enters `PASSIVE_CLOSE`. -/
theorem ctcpReceive_teardown {fuel : Nat} {ans : List SinkAnswer} {seg : Segment}
    {st st' : CtcpState} {evs : List Event}
    (h : ctcpReceive fuel ans seg st = some (some st', evs)) :
    st'.segment_teardown = st.segment_teardown ∨
      (st.segment_teardown ≠ .ACTIVE_CLOSE ∧ st'.segment_teardown = .PASSIVE_CLOSE) := by
  rcases ctcpReceive_live h with ⟨rfl, -⟩ | ⟨rfl, -⟩ | ⟨-, hd⟩ | ⟨-, -, rfl, -⟩ |
    ⟨-, hact, rfl, -⟩
  · exact .inl rfl
  · exact .inl rfl
  · obtain ⟨a, l, u, q, hst⟩ := ctcpReceiveDataSegment_frame ans st seg
    exact .inl (by rw [show st' = _ from congrArg Prod.fst hd, hst])
  · obtain ⟨_, _, _, _, _, _, hst⟩ := receiveAck_frame st seg.ackno
    exact .inl (by rw [hst])
  · exact .inr ⟨hact, rfl⟩

/-! ## §2 The teardown state only advances -/

/-- How far a connection has gone in closing. -/
def TeardownState.rank : TeardownState → Nat
  | .NO_CLOSE => 0
  | .PASSIVE_CLOSE => 1
  | .ACTIVE_CLOSE => 2

theorem TeardownState.rank_le_active (td : TeardownState) :
    td.rank ≤ TeardownState.ACTIVE_CLOSE.rank := by
  cases td <;> decide

/-- Entering `PASSIVE_CLOSE` from outside `ACTIVE_CLOSE` advances. -/
theorem TeardownState.rank_le_passive {td : TeardownState} (h : td ≠ .ACTIVE_CLOSE) :
    td.rank ≤ TeardownState.PASSIVE_CLOSE.rank := by
  cases td <;> simp_all [TeardownState.rank]

/-- `ACTIVE_CLOSE` is the last teardown state: nothing ranks above it. -/
theorem TeardownState.eq_active_of_rank {td : TeardownState}
    (h : TeardownState.ACTIVE_CLOSE.rank ≤ td.rank) : td = .ACTIVE_CLOSE := by
  cases td <;> simp_all [TeardownState.rank]

/-- One call that keeps the engine does not move the teardown state back. -/
theorem engineStep_teardown {st st' : CtcpState} {a : EngineAction} {evs : List Event}
    (h : engineStep st a = some (some st', evs)) :
    st.segment_teardown.rank ≤ st'.segment_teardown.rank := by
  rcases engineStep_cases h with ⟨_, _, hr⟩ | ⟨_, _, _, hr⟩ | ⟨ans, hr⟩ | ⟨_, _, hw⟩
  · rcases ctcpRead_teardown hr with ht | ht <;> rw [ht]
    exact TeardownState.rank_le_active _
  · rcases ctcpReceive_teardown hr with ht | ⟨hne, ht⟩ <;> rw [ht]
    exact TeardownState.rank_le_passive hne
  · rw [show st' = _ from (congrArg Prod.fst hr).symm, ctcpOutput_frame]
  · rcases timerWalk_teardown hw with ht | ht <;> rw [ht]
    exact TeardownState.rank_le_active _

/-- **The teardown state only advances.** Along every run of calls from any state that keeps
the engine, the teardown state never moves back: `NO_CLOSE` is never entered again, and
`ACTIVE_CLOSE` is kept until the engine is destroyed. -/
theorem teardown_advances {st st' : CtcpState} {as : List EngineAction} {evs : List Event}
    (h : runEngine st as = some (st', evs)) :
    st.segment_teardown.rank ≤ st'.segment_teardown.rank := by
  induction as generalizing st evs with
  | nil =>
    simp only [runEngine, Option.some.injEq, Prod.mk.injEq] at h
    rw [h.1]
  | cons a as ih =>
    obtain ⟨_, _, _, hstep, hr, -⟩ := runEngine_cons_inv h
    exact (engineStep_teardown hstep).trans (ih hr)

/-- End-of-source moves a fresh connection to `ACTIVE_CLOSE`. -/
theorem teardown_advances_eof :
    ∃ st evs, runEngine (ctcpInit ⟨2000, 2000, 40, 40⟩) [.read 1 [.eof]] = some (st, evs) ∧
      st.segment_teardown = .ACTIVE_CLOSE ∧
      (ctcpInit ⟨2000, 2000, 40, 40⟩).segment_teardown.rank ≤ st.segment_teardown.rank :=
  ⟨_, _, rfl, rfl, @teardown_advances _ _ [.read 1 [.eof]] _ rfl⟩

end Ctcp
