import Ctcp.Read
import Ctcp.Timer

/-!
# cTCP Engine Runs

One engine as a state machine. The host drives it with the four entry points of `ctcp.c`
(`ctcp_read`, `ctcp_receive`, `ctcp_output`, `ctcp_timer`); an `EngineAction` is one such call
with every answer the host gives during it, and `engineStep` is its effect. A `Reachable`
state is one that some sequence of calls returning from `ctcp_init` leads to, with the events
those calls produced. `ctcp_timer` walks a registry; a lone engine is a registry of one.

`runEngine` executes a list of actions; `Reachable.of_runEngine` turns a run that returns into
a reachability derivation, which is how concrete runs are exhibited.
-/

namespace Ctcp

/-- One call from the host into an engine, with the host's answers during it. -/
inductive EngineAction where
  | read (fuel : Nat) (input : List InputAnswer)
  | receive (fuel : Nat) (ans : List SinkAnswer) (seg : Segment)
  | output (ans : List SinkAnswer)
  | timer (fuel : Nat) (ans : List (List SinkAnswer))
deriving DecidableEq, Repr

/-- The effect of one call: the engine afterwards (`none` once destroyed) and the events, or
`none` when the call does not return. -/
def engineStep (st : CtcpState) : EngineAction → Option (Option CtcpState × List Event)
  | .read fuel input => (ctcpRead fuel input st).map fun r => (some r.1, r.2)
  | .receive fuel ans seg => ctcpReceive fuel ans seg st
  | .output ans => some (some (ctcpOutput ans st).1, (ctcpOutput ans st).2)
  | .timer fuel ans => (ctcpTimer fuel ans [st]).bind fun r =>
    match r.1 with
    | [st'] => some (some st', r.2)
    | _ => none

/-- A `ctcp_timer` call on a lone engine hands it back: the walk returns one engine. -/
theorem engineStep_timer_inv {st : CtcpState} {fuel : Nat} {ans : List (List SinkAnswer)}
    {r : Option CtcpState × List Event} (h : engineStep st (.timer fuel ans) = some r) :
    ∃ st' evs, timerWalk fuel ans [st] = some ([st'], evs) ∧ r = (some st', evs) := by
  obtain ⟨⟨sts, evs⟩, hw, hm⟩ := Option.bind_eq_some.mp h
  rcases sts with _ | ⟨st', _ | _⟩ <;> cases hm
  exact ⟨st', evs, hw, rfl⟩

/-- **What a call that leaves the engine alive was**: a `ctcp_read` that returned, a
`ctcp_receive` that did not destroy, a `ctcp_output`, or a `ctcp_timer` walk over the one
engine. -/
theorem engineStep_cases {st st' : CtcpState} {a : EngineAction} {evs : List Event}
    (h : engineStep st a = some (some st', evs)) :
    (∃ fuel input, ctcpRead fuel input st = some (st', evs)) ∨
    (∃ fuel ans seg, ctcpReceive fuel ans seg st = some (some st', evs)) ∨
    (∃ ans, ctcpOutput ans st = (st', evs)) ∨
    (∃ fuel ans, timerWalk fuel ans [st] = some ([st'], evs)) := by
  cases a with
  | read fuel input =>
    obtain ⟨r, hr, hr'⟩ := Option.map_eq_some'.mp h
    simp only [Prod.mk.injEq, Option.some.injEq] at hr'
    obtain ⟨rfl, rfl⟩ := hr'
    exact .inl ⟨fuel, input, hr⟩
  | receive fuel ans seg => exact .inr (.inl ⟨fuel, ans, seg, h⟩)
  | output ans =>
    simp only [engineStep, Option.some.injEq, Prod.mk.injEq] at h
    exact .inr (.inr (.inl ⟨ans, by rw [← h.1, ← h.2]⟩))
  | timer fuel ans =>
    obtain ⟨_, _, hw, hr⟩ := engineStep_timer_inv h
    simp only [Prod.mk.injEq, Option.some.injEq] at hr
    obtain ⟨rfl, rfl⟩ := hr
    exact .inr (.inr (.inr ⟨fuel, ans, hw⟩))

/-- States of a live engine reachable from `ctcp_init cfg`, with the events produced on the
way. -/
inductive Reachable (cfg : CtcpConfig) : CtcpState → List Event → Prop where
  | init : Reachable cfg (ctcpInit cfg) []
  | step {st st' : CtcpState} {tr evs : List Event} (a : EngineAction) :
      Reachable cfg st tr → engineStep st a = some (some st', evs) →
      Reachable cfg st' (tr ++ evs)

/-- Run a list of calls while the engine stays alive and every call returns. -/
def runEngine (st : CtcpState) : List EngineAction → Option (CtcpState × List Event)
  | [] => some (st, [])
  | a :: as =>
    match engineStep st a with
    | some (some st', evs) => (runEngine st' as).map fun r => (r.1, evs ++ r.2)
    | _ => none

/-- The first call of a run that returns keeps the engine, and the rest of the run returns. -/
theorem runEngine_cons_inv {st st' : CtcpState} {a : EngineAction} {as : List EngineAction}
    {evs : List Event} (h : runEngine st (a :: as) = some (st', evs)) :
    ∃ st₁ evs₁ evs₂, engineStep st a = some (some st₁, evs₁) ∧
      runEngine st₁ as = some (st', evs₂) ∧ evs = evs₁ ++ evs₂ := by
  simp only [runEngine] at h
  split at h
  · rename_i st₁ evs₁ hstep
    obtain ⟨r, hr, hr'⟩ := Option.map_eq_some'.mp h
    cases hr'
    exact ⟨st₁, evs₁, r.2, hstep, hr, rfl⟩
  · cases h

/-- A run that returns extends a reachable state to a reachable state. -/
theorem Reachable.of_runEngine {cfg : CtcpConfig} {st st' : CtcpState} {tr tr' : List Event}
    (h : Reachable cfg st tr) (as : List EngineAction)
    (hrun : runEngine st as = some (st', tr')) : Reachable cfg st' (tr ++ tr') := by
  induction as generalizing st tr tr' with
  | nil =>
    simp only [runEngine, Option.some.injEq, Prod.mk.injEq] at hrun
    obtain ⟨rfl, rfl⟩ := hrun
    simpa using h
  | cons a as ih =>
    obtain ⟨_, _, _, hstep, hr, rfl⟩ := runEngine_cons_inv hrun
    simpa using ih (h.step a hstep) hr

/-- Runs compose. -/
theorem runEngine_append {st st₁ st₂ : CtcpState} {as bs : List EngineAction}
    {evs₁ evs₂ : List Event} (h₁ : runEngine st as = some (st₁, evs₁))
    (h₂ : runEngine st₁ bs = some (st₂, evs₂)) :
    runEngine st (as ++ bs) = some (st₂, evs₁ ++ evs₂) := by
  induction as generalizing st evs₁ with
  | nil =>
    simp only [runEngine, Option.some.injEq, Prod.mk.injEq] at h₁
    obtain ⟨rfl, rfl⟩ := h₁
    simpa using h₂
  | cons a as ih =>
    obtain ⟨_, _, _, hstep, hr, rfl⟩ := runEngine_cons_inv h₁
    simp [runEngine, hstep, ih hr]

/-- Every state reached from `ctcp_init` by a run that returns is reachable. -/
theorem reachable_of_runEngine {cfg : CtcpConfig} {st : CtcpState} {tr : List Event}
    (as : List EngineAction) (hrun : runEngine (ctcpInit cfg) as = some (st, tr)) :
    Reachable cfg st tr := by
  simpa using Reachable.init.of_runEngine as hrun

end Ctcp
