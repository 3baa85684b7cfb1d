import Locus.Traffic.DrainCalls

/-!
# What a step of a drain does

`Advance` lists the sections of a drain, by label, and `DrainMove` the steps of the whole
system. The invariants are proved by cases on the two.
-/

namespace Locus.Traffic

open Locus.Lib

variable {ctl : TrafficController} {sys sys' : DrainSystem} {label : DrainLabel} {id : ℕ}
  {call call' : DrainCall}

/-- What a section of a drain makes of the call. -/
inductive Advance (sys : DrainSystem) (id : ℕ) (call : DrainCall) :
    DrainLabel → DrainCall → Prop
  | subscribe (before : call.phase = .looping) :
      Advance sys id call (.subscribe id)
        { call with phase := .checking sys.traffic.idleNotifications }
  | idle {seen : ℕ} (before : call.phase = .checking seen) (free : sys.traffic.lock = .free)
      (empty : sys.traffic.state.active.isEmpty) :
      Advance sys id call (.check id)
        { call with phase := .returned { completed := true, forcedCancellations := 0 } }
  | busy {seen : ℕ} (before : call.phase = .checking seen) (free : sys.traffic.lock = .free)
      (busy : sys.traffic.state.active.isEmpty = false) :
      Advance sys id call (.check id) { call with phase := .waiting seen }
  | wake {seen : ℕ} (before : call.phase = .waiting seen) :
      Advance sys id call (.wake id) { call with phase := .looping }
  | expire {seen now : ℕ} (before : call.phase = .waiting seen) :
      Advance sys id call (.expire id now) { call with phase := .expired }
  | collect (before : call.phase = .expired) (free : sys.traffic.lock = .free) :
      Advance sys id call (.collect id)
        { call with phase := .cancelling (activeCancellations sys.traffic.state)
                      (activeCancellations sys.traffic.state).length }
  | cancel {token collected : ℕ} {tokens : List ℕ}
      (before : call.phase = .cancelling (token :: tokens) collected) :
      Advance sys id call (.cancel id)
        { call with phase := .cancelling tokens collected, cancelled := call.cancelled ++ [token] }
  | finish {collected : ℕ} (before : call.phase = .cancelling [] collected) :
      Advance sys id call (.cancel id)
        { call with phase := .returned { completed := false, forcedCancellations := collected } }

/-- The steps of the system. A section of a drain leaves the controller as it is. -/
inductive DrainMove (ctl : TrafficController) (sys : DrainSystem) :
    DrainLabel → DrainSystem → Prop
  | traffic {label : Label} {traffic : System}
      (steps : step ctl sys.traffic label = some traffic) :
      DrainMove ctl sys (.traffic label) { sys with traffic }
  | begun {deadline : Option ℕ} {traffic : System} {phase : DrainPhase}
      (steps : step ctl sys.traffic .beginDrain = some traffic)
      (fresh : phase = .looping ∨ phase = .failed .unavailable) :
      DrainMove ctl sys (.drain deadline)
        { sys with traffic, drains := sys.drains ++ [{ deadline, phase }] }
  | advanced {label : DrainLabel} {id : ℕ} {call call' : DrainCall} {cancelled : Finset ℕ}
      {forcedCancellations : UInt64} (found : sys.drains[id]? = some call)
      (advance : Advance sys id call label call') (kept : sys.cancelled ⊆ cancelled)
      (cancels : ∀ token ∈ call'.cancelled, token ∈ call.cancelled ∨ token ∈ cancelled) :
      DrainMove ctl sys label
        { sys with drains := sys.drains.set id call', cancelled, forcedCancellations }
  | disconnected {token : ℕ} :
      DrainMove ctl sys (.disconnect token) { sys with cancelled := insert token sys.cancelled }

section Sections

theorem drains_modify_eq_set {calls : List DrainCall} (hcall : calls[id]? = some call)
    (change : DrainCall → DrainCall) : calls.modify id change = calls.set id (change call) := by
  rw [List.modify_eq_set_getElem?, hcall]
  rfl

/-- A section that moves one drain to another phase and cancels nothing. -/
theorem Advance.move {phase : DrainPhase} {forced : UInt64} (hcall : sys.drains[id]? = some call)
    (h : Advance sys id call label { call with phase }) :
    DrainMove ctl sys label ({ sys with forcedCancellations := forced }.setPhase id phase) := by
  have hmove : DrainMove ctl sys label
      { sys with drains := sys.drains.set id { call with phase }, forcedCancellations := forced } :=
    .advanced hcall h (Finset.Subset.refl _) fun _ htoken => .inl htoken
  unfold DrainSystem.setPhase
  rw [drains_modify_eq_set hcall]
  exact hmove

theorem checkDrain_move {seen : ℕ} (hcall : sys.drains[id]? = some call)
    (hphase : call.phase = .checking seen) (hfree : sys.traffic.lock = .free) :
    DrainMove ctl sys (.check id) (checkDrain sys id seen) := by
  unfold checkDrain activeRequests
  split
  next hzero =>
    refine (Advance.idle hphase hfree ?_).move hcall
    rw [Std.TreeMap.isEmpty_eq_size_eq_zero, hzero]
    rfl
  next hbusy =>
    refine (Advance.busy hphase hfree ?_).move hcall
    simpa [Std.TreeMap.isEmpty_eq_size_eq_zero] using hbusy

theorem cancelNext_move {tokens : List ℕ} {collected : ℕ} (hcall : sys.drains[id]? = some call)
    (hphase : call.phase = .cancelling tokens collected) :
    DrainMove ctl sys (.cancel id) (cancelNext sys id tokens collected) := by
  cases tokens with
  | nil => exact (Advance.finish hphase).move hcall
  | cons token tokens =>
    have hadvance : Advance sys id call (.cancel id) { call with
        phase := .cancelling tokens collected, cancelled := call.cancelled ++ [token] } :=
      .cancel hphase
    unfold cancelNext
    simp only
    rw [drains_modify_eq_set hcall]
    refine .advanced hcall hadvance (Finset.subset_insert _ _) ?_
    intro other hother
    rcases List.mem_append.mp hother with hold | hnew
    · exact .inl hold
    · rw [List.mem_singleton.mp hnew]
      exact .inr (Finset.mem_insert_self _ _)

/-- Every step is one of the moves. -/
theorem drainMove_of_step (h : drainStep ctl sys label = some sys') :
    DrainMove ctl sys label sys' := by
  cases label with
  | traffic label =>
    obtain ⟨traffic, hstep, h⟩ := Option.bind_eq_some_iff.mp h
    exact Option.some.inj h ▸ .traffic hstep
  | drain deadline =>
    obtain ⟨traffic, hstep, h⟩ := Option.bind_eq_some_iff.mp h
    refine Option.some.inj h ▸ .begun hstep ?_
    cases deadline <;> simp
  | subscribe id =>
    obtain ⟨call, hcall, h⟩ := Option.bind_eq_some_iff.mp h
    cases hphase : call.phase <;> simp only [hphase, reduceCtorEq, Option.some.injEq] at h
    exact h ▸ (Advance.subscribe hphase).move hcall
  | check id =>
    obtain ⟨call, hcall, h⟩ := Option.bind_eq_some_iff.mp h
    cases hphase : call.phase <;> simp only [hphase, reduceCtorEq] at h
    obtain ⟨hfree, h⟩ := Option.ite_none_right_eq_some.mp h
    exact Option.some.inj h ▸ checkDrain_move hcall hphase hfree
  | wake id =>
    obtain ⟨call, hcall, h⟩ := Option.bind_eq_some_iff.mp h
    cases hphase : call.phase <;> simp only [hphase, reduceCtorEq] at h
    obtain ⟨-, h⟩ := Option.ite_none_right_eq_some.mp h
    exact Option.some.inj h ▸ (Advance.wake hphase).move hcall
  | expire id now =>
    obtain ⟨call, hcall, h⟩ := Option.bind_eq_some_iff.mp h
    obtain ⟨deadline, -, h⟩ := Option.bind_eq_some_iff.mp h
    cases hphase : call.phase <;> simp only [hphase, reduceCtorEq] at h
    obtain ⟨-, h⟩ := Option.ite_none_right_eq_some.mp h
    exact Option.some.inj h ▸ (Advance.expire hphase).move hcall
  | collect id =>
    obtain ⟨call, hcall, h⟩ := Option.bind_eq_some_iff.mp h
    cases hphase : call.phase <;> simp only [hphase, reduceCtorEq] at h
    obtain ⟨hfree, h⟩ := Option.ite_none_right_eq_some.mp h
    exact Option.some.inj h ▸ (Advance.collect hphase hfree).move hcall
  | cancel id =>
    obtain ⟨call, hcall, h⟩ := Option.bind_eq_some_iff.mp h
    cases hphase : call.phase <;> simp only [hphase, reduceCtorEq, Option.some.injEq] at h
    exact h ▸ cancelNext_move hcall hphase
  | disconnect token =>
    simp only [drainStep, Option.some.injEq] at h
    exact h ▸ .disconnected

end Sections

/-- A call of `drain` after a step is one from before, a new one, or one of which the step
was a section. -/
theorem DrainMove.call_before (h : DrainMove ctl sys label sys')
    (hcall' : sys'.drains[id]? = some call') :
    (sys.drains[id]? = some call') ∨
    ((call'.phase = .looping ∨ call'.phase = .failed .unavailable) ∧ call'.cancelled = []) ∨
    ∃ call, sys.drains[id]? = some call ∧ Advance sys id call label call' := by
  cases h with
  | traffic | disconnected => exact .inl hcall'
  | begun _ hfresh =>
    rcases getElem?_concat_eq_some.mp hcall' with hold | ⟨-, rfl⟩
    · exact .inl hold
    · exact .inr (.inl ⟨hfresh, rfl⟩)
  | @advanced label target call call'' _ _ hfound hadvance =>
    by_cases htarget : target = id
    · subst htarget
      rw [List.getElem?_set_self (List.getElem?_eq_some_iff.mp hfound).1] at hcall'
      obtain rfl := Option.some.inj hcall'
      exact .inr (.inr ⟨call, hfound, hadvance⟩)
    · rw [List.getElem?_set_ne htarget] at hcall'
      exact .inl hcall'

/-- What a drain has cancelled is cancelled. -/
theorem DrainMove.cancelled_mem (h : DrainMove ctl sys label sys')
    (hbefore : ∀ (id : ℕ) (call : DrainCall), sys.drains[id]? = some call →
      ∀ token ∈ call.cancelled, token ∈ sys.cancelled)
    (hcall' : sys'.drains[id]? = some call') {token : ℕ}
    (htoken : token ∈ call'.cancelled) : token ∈ sys'.cancelled := by
  cases h with
  | traffic => exact hbefore id call' hcall' token htoken
  | disconnected => exact Finset.mem_insert_of_mem (hbefore id call' hcall' token htoken)
  | begun =>
    rcases getElem?_concat_eq_some.mp hcall' with hold | ⟨-, rfl⟩
    · exact hbefore id call' hold token htoken
    · cases htoken
  | @advanced label target call call'' _ _ hfound _ hkept hcancels =>
    by_cases htarget : target = id
    · subst htarget
      rw [List.getElem?_set_self (List.getElem?_eq_some_iff.mp hfound).1] at hcall'
      obtain rfl := Option.some.inj hcall'
      rcases hcancels token htoken with hold | hnew
      · exact hkept (hbefore target call hfound token hold)
      · exact hnew
    · rw [List.getElem?_set_ne htarget] at hcall'
      exact hkept (hbefore id call' hcall' token htoken)

/-- The controller's steps in a run with drains. -/
def DrainLabel.trafficLabels : DrainLabel → List Label
  | .traffic label => [label]
  | .drain _ => [.beginDrain]
  | _ => []

/-- A run with drains is a run of the controller. -/
theorem traffic_reaches {labels : List DrainLabel} (h : DrainReaches ctl labels sys) :
    Reaches ctl (labels.flatMap DrainLabel.trafficLabels) sys.traffic := by
  induction h with
  | nil => exact .nil _
  | @snoc sys sys' labels label hrun hlast ih =>
    rw [List.flatMap_append, List.flatMap_singleton]
    refine Run.append ih ?_
    cases drainMove_of_step hlast with
    | traffic hstep => exact .snoc (.nil _) hstep
    | begun hstep => exact .snoc (.nil _) hstep
    | advanced _ hadvance => cases hadvance <;> exact .nil _
    | disconnected => exact .nil _

/-- A run of the controller in which no drain takes part. -/
theorem drains_aside_of_run {traffic traffic' : System} {labels : List Label}
    (h : Run (stepRel (step ctl)) traffic labels traffic') (sys : DrainSystem) :
    Run (stepRel (drainStep ctl)) { sys with traffic } (labels.map .traffic)
      { sys with traffic := traffic' } := by
  induction h with
  | nil => exact .nil _
  | snoc _ hlast ih =>
    have hstep : step ctl _ _ = some _ := hlast
    rw [List.map_append]
    exact .snoc ih (by simp [stepRel, drainStep, hstep])

end Locus.Traffic
