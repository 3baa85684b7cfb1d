import Locus.Engine.Contract

/-!
# Reports of drains of one engine

A drain counts the executions, stops the engine and reports in separate sections, and
stopping does nothing to an engine that is ready again. The report of a completed drain is
true as long as no resume comes between: the engine was not ready when it was found idle,
and was not resumed before it was stopped.
-/

namespace Locus.Engine.Registry

open Std (TreeMap)
open Locus.Core Locus.Lib

/-- The engine has stopped and no execution is active on it. -/
def Drained (entries : Entries) (engineId : EngineInstanceId) : Prop :=
  lifecycle entries engineId = .ok .stopped ∧ activeExecutionsFor entries engineId = .ok 0

/-- Every drain of one engine that reported completion has drained it. -/
def Truthful (sys : System) : Prop :=
  ∀ (id : ℕ) (call : DrainCall) (engineId : EngineInstanceId) (report : EngineDrainReport),
    sys.drains[id]? = some call → call.scope = .engine engineId →
    call.phase = .returned report → report.completed = true → Drained sys.entries engineId

/-- The engine of a drain that is about one engine. -/
def DrainScope.engine? : DrainScope → Option EngineInstanceId
  | .engine engineId => some engineId
  | .all => none

/-- No drain finds an engine idle that is ready again, and no draining engine is resumed
between the moment a drain finds it idle and the moment it stops it. -/
def Unresumed (sys : System) : Label → Prop
  | .check id => ∀ call ∈ sys.drains[id]?, ∀ engineId ∈ call.scope.engine?,
      activeExecutionsFor sys.entries engineId = .ok 0 →
        lifecycle sys.entries engineId ≠ .ok .ready
  | .resume engineId => lifecycle sys.entries engineId = .ok .draining →
      ∀ call ∈ sys.drains, call.scope = .engine engineId → call.phase ≠ .stopping
  | _ => True

instance (sys : System) : (label : Label) → Decidable (Unresumed sys label)
  | .check id => inferInstanceAs (Decidable (∀ call ∈ sys.drains[id]?,
      ∀ engineId ∈ call.scope.engine?, activeExecutionsFor sys.entries engineId = .ok 0 →
        lifecycle sys.entries engineId ≠ .ok .ready))
  | .resume engineId => inferInstanceAs (Decidable
      (lifecycle sys.entries engineId = .ok .draining →
        ∀ call ∈ sys.drains, call.scope = .engine engineId → call.phase ≠ .stopping))
  | .register _ | .acquireExecution _ _ _ | .dropPermit _ | .beginDrain _ | .beginDrainAll
  | .drain _ _ | .subscribe _ | .wake _ | .expire _ _ | .stop _ | .collect _ | .cancel _
  | .restart _ _ | .disconnect _ => inferInstanceAs (Decidable True)

section Entries

variable {entries entries' : Entries} {engineId : EngineInstanceId} {entry : RegisteredEngine}

theorem activeExecutionsFor_eq_zero :
    activeExecutionsFor entries engineId = .ok 0 ↔
      ∃ entry, entries[engineId]? = some entry ∧ entry.active.isEmpty := by
  unfold activeExecutionsFor
  split
  next hnone => simp [hnone]
  next entry hentry => simp [hentry, TreeMap.isEmpty_eq_size_eq_zero]

/-- Stopping drains an engine exactly if it is idle and not ready. -/
theorem drained_stopDrainedEngine (hentry : entries[engineId]? = some entry)
    (hstop : stopDrainedEngine entries engineId = .ok entries') :
    Drained entries' engineId ↔ entry.lifecycle ≠ .ready ∧ entry.active.isEmpty := by
  have hupdated : entries'[engineId]? = some entry.stopDrained := by
    simp only [stopDrainedEngine, updateEngine, hentry, Except.ok.injEq] at hstop
    simp [← hstop]
  rw [Drained, lifecycle_eq_ok, activeExecutionsFor_eq_zero]
  simp only [hupdated, Option.some.injEq, exists_eq_left', stopDrained_active]
  unfold RegisteredEngine.stopDrained
  cases hlifecycle : entry.lifecycle <;> cases entry.active.isEmpty <;> simp [hlifecycle]

end Entries

section Reports

variable {sys sys' : System} {label : Label} {labels : List Label}

/-- The engine of a drain that is about to stop it is idle and not ready. -/
structure DrainsSound (sys : System) : Prop where
  sound : Sound sys
  stopping : ∀ (id : ℕ) (call : DrainCall) (engineId : EngineInstanceId),
    sys.drains[id]? = some call → call.scope = .engine engineId → call.phase = .stopping →
    ∃ entry, sys.entries[engineId]? = some entry ∧ entry.lifecycle ≠ .ready ∧ entry.active.isEmpty
  truthful : Truthful sys

/-- A drain that has counted no execution made its `check` section. -/
theorem Advance.of_stopping {scope : DrainScope} {before : DrainPhase} {entries : Entries}
    {cancelled : Finset ℕ} (h : Advance sys scope before .stopping entries cancelled) :
    (∃ seen, before = .checking seen) ∧ activeIn sys.entries scope = .ok 0 ∧
      entries = sys.entries := by
  cases h with
  | idle seen hidle => exact ⟨⟨seen, rfl⟩, hidle, rfl⟩

/-- A drain that reports completion made its `stop` section. -/
theorem Advance.of_completed {scope : DrainScope} {before : DrainPhase} {entries : Entries}
    {cancelled : Finset ℕ} {report : EngineDrainReport}
    (h : Advance sys scope before (.returned report) entries cancelled)
    (hcompleted : report.completed = true) :
    before = .stopping ∧ stopDrainedIn sys.entries scope = .ok entries := by
  cases h with
  | stop _ hstop => exact ⟨rfl, hstop⟩
  | finish _ => cases hcompleted

/-- Only the `check` section leaves the phase before it. -/
theorem eq_check_of_checking {id seen : ℕ} {call : DrainCall} (hlabel : label.drain? = some id)
    (h : step sys label = some sys') (hcall : sys.drains[id]? = some call)
    (hphase : call.phase = .checking seen) : label = .check id := by
  cases label <;> cases hlabel <;> simp_all [step]

/-- An idle engine that is not ready stays so unless it is resumed. -/
theorem Sound.stays_idle (hsound : Sound sys) (h : step sys label = some sys')
    {engineId : EngineInstanceId} {entry : RegisteredEngine}
    (hentry : sys.entries[engineId]? = some entry) (hready : entry.lifecycle ≠ .ready)
    (hidle : entry.active.isEmpty)
    (hresume : label = .resume engineId → lifecycle sys.entries engineId ≠ .ok .draining) :
    ∃ entry', sys'.entries[engineId]? = some entry' ∧ entry'.lifecycle ≠ .ready ∧
      entry'.active.isEmpty := by
  obtain ⟨entry', hentry', hmove⟩ := hsound.engine_step (step_move h) hentry
  refine ⟨entry', hentry', ?_, ?_⟩
  · intro hready'
    rcases hmove.ready_before hready' with hbefore | ⟨hlabel, hdraining⟩
    · exact hready hbefore
    · exact hresume hlabel (lifecycle_eq_ok.mpr ⟨entry, hentry, hdraining⟩)
  · rw [TreeMap.isEmpty_iff_forall_not_mem]
    intro requestId hmem
    obtain ⟨token, htoken⟩ := Option.isSome_iff_exists.mp
      (TreeMap.isSome_getElem?_iff_mem.mpr hmem)
    have hbefore := hmove.never_grows hready requestId token htoken
    rw [TreeMap.getElem?_of_isEmpty hidle] at hbefore
    cases hbefore

theorem DrainsSound.stopping_step (hsound : DrainsSound sys) (hok : Unresumed sys label)
    (h : step sys label = some sys') {id : ℕ} {call' : DrainCall} {engineId : EngineInstanceId}
    (hcall' : sys'.drains[id]? = some call') (hscope : call'.scope = .engine engineId)
    (hphase : call'.phase = .stopping) :
    ∃ entry', sys'.entries[engineId]? = some entry' ∧ entry'.lifecycle ≠ .ready ∧
      entry'.active.isEmpty := by
  rcases step_call h hcall' with hold | (hfresh | ⟨error, hfailed⟩) |
    ⟨call, hlabel, hcall, hsame, hadvance⟩
  · obtain ⟨entry, hentry, hready, hidle⟩ := hsound.stopping id call' engineId hold hscope hphase
    refine hsound.sound.stays_idle h hentry hready hidle ?_
    rintro rfl hdraining
    exact hok hdraining call' (List.mem_of_getElem? hold) hscope hphase
  · simp [hfresh] at hphase
  · simp [hfailed] at hphase
  · rw [hphase] at hadvance
    obtain ⟨⟨seen, hchecking⟩, hidle, hentries⟩ := hadvance.of_stopping
    obtain rfl := eq_check_of_checking hlabel h hcall hchecking
    rw [hsame] at hscope
    rw [hscope] at hidle
    have hready := hok call hcall engineId (by rw [hscope]; rfl) hidle
    obtain ⟨entry, hentry, hempty⟩ := activeExecutionsFor_eq_zero.mp hidle
    rw [hentries]
    refine ⟨entry, hentry, fun hlifecycle => ?_, hempty⟩
    exact hready (lifecycle_eq_ok.mpr ⟨entry, hentry, hlifecycle⟩)

theorem DrainsSound.truthful_step (hsound : DrainsSound sys) (h : step sys label = some sys') :
    Truthful sys' := by
  intro id call' engineId report hcall' hscope hphase hcompleted
  rcases step_call h hcall' with hold | (hfresh | ⟨error, hfailed⟩) |
    ⟨call, -, hcall, hsame, hadvance⟩
  · -- A report that was true stays true, because a stopped engine stays stopped.
    obtain ⟨hstopped, -⟩ := hsound.truthful id call' engineId report hold hscope hphase hcompleted
    have hstopped' := hsound.sound.stopped_absorbing h hstopped
    exact ⟨hstopped', (hsound.sound.after_step h).stopped_active hstopped'⟩
  · simp [hfresh] at hphase
  · simp [hfailed] at hphase
  · rw [hphase] at hadvance
    obtain ⟨hstopping, hstop⟩ := hadvance.of_completed hcompleted
    rw [hsame] at hscope
    rw [hscope] at hstop
    obtain ⟨entry, hentry, hidle⟩ := hsound.stopping id call engineId hcall hscope hstopping
    exact (drained_stopDrainedEngine hentry hstop).mpr hidle

/-- In every run without such a resume, the engine of a completed drain has stopped and
has no active execution. -/
theorem drain_report_truthful
    (hrun : Run (permitted Unresumed (stepRel step)) {} labels sys) : Truthful sys := by
  have hinv : DrainsSound sys := by
    refine Run.invariant DrainsSound ?_ hrun ?_
    · rintro s label t hsound ⟨hok, hstep⟩
      exact ⟨hsound.sound.after_step hstep,
        fun _ _ _ => hsound.stopping_step hok hstep, hsound.truthful_step hstep⟩
    · exact ⟨sound_of_reaches (.nil _), by simp, by simp [Truthful]⟩
  exact hinv.truthful

end Reports

/-- A drain that has reported completion. -/
def completedDrain : DrainCall where
  scope := .engine "engine-a"
  deadline := some 0
  phase := .returned { completed := true, forcedCancellations := 0 }

/-- A drain of an idle engine that is resumed while it waits and drained again by another. -/
def resumedInTime : List Label :=
  [.register { id := "engine-a", generation := 1 },
    .drain (.engine "engine-a") (some 0), .resume "engine-a", .beginDrain "engine-a",
    .subscribe 0, .check 0, .stop 0]

theorem drain_report_truthful_resumedInTime : ∃ sys,
    Run (permitted Unresumed (stepRel step)) {} resumedInTime sys ∧
    sys.drains = [completedDrain] ∧
    Drained sys.entries "engine-a" := by
  have h : (List.foldlM (fun sys label => if Unresumed sys label then step sys label else none)
      {} resumedInTime).map System.drains = some [completedDrain] := by decide
  obtain ⟨sys, hrun, hdrains⟩ := Option.map_eq_some_iff.mp h
  have hrun := Run.of_foldlM_permitted hrun
  exact ⟨sys, hrun, hdrains, drain_report_truthful hrun 0 _ "engine-a" _
    (by rw [hdrains]; rfl) rfl rfl rfl⟩

/-- A resume that comes before the drain counts the executions: the drain reports
completion and the engine is ready. -/
theorem not_truthful_of_resume : ∃ sys,
    Reaches [.register { id := "engine-a", generation := 1 },
      .drain (.engine "engine-a") (some 0), .subscribe 0, .resume "engine-a", .check 0,
      .stop 0] sys ∧
    lifecycle sys.entries "engine-a" = .ok .ready ∧ ¬Truthful sys := by
  have h : (List.foldlM step {} [.register { id := "engine-a", generation := 1 },
      .drain (.engine "engine-a") (some 0), .subscribe 0, .resume "engine-a", .check 0,
      .stop 0]).map (fun sys => (lifecycle sys.entries "engine-a", sys.drains)) =
      some (.ok .ready, [completedDrain]) := by decide
  obtain ⟨sys, hrun, heq⟩ := Option.map_eq_some_iff.mp h
  simp only [Prod.mk.injEq] at heq
  obtain ⟨hready, hdrains⟩ := heq
  refine ⟨sys, Run.of_foldlM hrun, hready, fun htruthful => ?_⟩
  obtain ⟨hstopped, -⟩ := htruthful 0 _ "engine-a" _ (by rw [hdrains]; rfl) rfl rfl rfl
  rw [hready] at hstopped
  cases hstopped

end Locus.Engine.Registry
