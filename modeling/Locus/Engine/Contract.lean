import Locus.Engine.Lifecycle

/-!
# What any step may do

Whatever happened before, a step leaves stopped engines stopped, lets no draining engine
take work, keeps a drain of one engine away from all others and announces every release
to the drains that are waiting.
-/

namespace Locus.Engine.Registry

open Std (TreeMap)
open Locus.Core

/-- The scope of the drain that a label begins or is a section of. -/
def Label.drainScope (sys : System) (label : Label) : Option DrainScope :=
  match label with
  | .drain scope _ => some scope
  | label => label.drain?.bind fun id => sys.drains[id]?.map DrainCall.scope

/-- The context was active on the engine at a moment when the drain's deadline had passed. -/
def ActiveAtExpiry (labels : List Label) (id : ℕ) (engineId : EngineInstanceId) (token : ℕ) :
    Prop :=
  ∃ before sys call requestId, before <+: labels ∧ Reaches before sys ∧
    sys.drains[id]? = some call ∧ call.phase = .expired ∧
    activeOn sys.entries engineId requestId = some token

/-- What a step may do after the given run. -/
structure StepContract (labels : List Label) (sys : System) (label : Label) (sys' : System) :
    Prop where
  stopped_absorbing : ∀ engineId, lifecycle sys.entries engineId = .ok .stopped →
    lifecycle sys'.entries engineId = .ok .stopped
  active_never_grows : ∀ engineId,
    lifecycle sys.entries engineId = .ok .draining ∨
      lifecycle sys.entries engineId = .ok .stopped →
    ∀ requestId token, activeOn sys'.entries engineId requestId = some token →
      activeOn sys.entries engineId requestId = some token
  acquires_ready : ∀ target context ended permit entries,
    acquireExecution sys.entries target context ended = .ok (permit, entries) →
    ∃ entry, sys.entries[target.engine.id]? = some entry ∧ entry.lifecycle = .ready ∧
      entry.generation = target.engine.generation ∧
      activeOn sys.entries target.engine.id context.requestId = none
  drain_changes_only : ∀ engineId, label.drainScope sys = some (.engine engineId) →
    ∀ other, other ≠ engineId → sys'.entries[other]? = sys.entries[other]?
  drain_cancels_only : ∀ engineId, label.drainScope sys = some (.engine engineId) →
    ∀ token ∈ sys'.cancelled, token ∉ sys.cancelled →
      ∃ id, label.drain? = some id ∧ ActiveAtExpiry labels id engineId token
  release_notifies : ∀ engineId requestId, (activeOn sys.entries engineId requestId).isSome →
    activeOn sys'.entries engineId requestId = none →
      sys'.notifications = sys.notifications + 1 ∧
      ∀ (id : ℕ) (call : DrainCall) (seen : ℕ), sys'.drains[id]? = some call →
        call.phase = .checking seen ∨ call.phase = .waiting seen → seen < sys'.notifications

section Drains

variable {sys sys' : System} {label : Label} {labels : List Label} {scope : DrainScope}
  {before phase : DrainPhase} {entries : Entries} {cancelled : Finset ℕ}

/-- The section of a drain of one engine changes no other engine. -/
theorem Advance.entries_other {engineId other : EngineInstanceId}
    (h : Advance sys (.engine engineId) before phase entries cancelled)
    (hother : other ≠ engineId) : entries[other]? = sys.entries[other]? := by
  cases h with
  | stop entries hstop => exact updateEngine_other hstop hother
  | _ => rfl

/-- A section of a drain cancels only what the drain has collected. -/
theorem Advance.cancels {token : ℕ} (h : Advance sys scope before phase entries cancelled)
    (htoken : token ∈ cancelled) (hnew : token ∉ sys.cancelled) :
    ∃ tokens collected, before = .cancelling tokens collected ∧ token ∈ tokens := by
  cases h with
  | cancel next tokens collected =>
    rcases Finset.mem_insert.mp htoken with rfl | hold
    · exact ⟨_, collected, rfl, List.mem_cons_self⟩
    · exact absurd hold hnew
  | _ => exact absurd htoken hnew

/-- What a drain has still to cancel it had to cancel before or has just collected. -/
theorem Advance.collected {tokens : List ℕ} {collected : ℕ}
    (h : Advance sys scope before (.cancelling tokens collected) entries cancelled) :
    (before = .expired ∧ tokensIn sys.entries scope = .ok tokens) ∨
      ∃ token, before = .cancelling (token :: tokens) collected := by
  cases h with
  | collect _ htokens => exact .inl ⟨rfl, htokens⟩
  | cancel token _ _ => exact .inr ⟨token, rfl⟩

theorem mem_tokensIn {engineId : EngineInstanceId} {tokens : List ℕ} {token : ℕ}
    (h : tokensIn sys.entries (.engine engineId) = .ok tokens) (htoken : token ∈ tokens) :
    ∃ requestId, activeOn sys.entries engineId requestId = some token := by
  simp only [tokensIn] at h
  split at h
  · cases h
  next entry hentry =>
    cases h
    obtain ⟨⟨requestId, _⟩, hmem, rfl⟩ := List.mem_map.mp htoken
    refine ⟨requestId, ?_⟩
    rw [activeOn_of_getElem? hentry]
    exact TreeMap.mem_toList_iff_getElem?_eq_some.mp hmem

/-- Every token that a drain of one engine has still to cancel belongs to an execution
that was active on this engine when the deadline had passed. -/
theorem collected_active (hreach : Reaches labels sys) {id : ℕ} {call : DrainCall}
    {engineId : EngineInstanceId} {tokens : List ℕ} {collected : ℕ}
    (hcall : sys.drains[id]? = some call) (hscope : call.scope = .engine engineId)
    (hphase : call.phase = .cancelling tokens collected) :
    ∀ token ∈ tokens, ActiveAtExpiry labels id engineId token := by
  unfold Reaches at hreach
  generalize hstart : ({} : System) = start at hreach
  induction hreach generalizing call tokens with
  | nil =>
    subst hstart
    simp at hcall
  | @snoc t u ls l hrun hlast ih =>
    subst hstart
    intro token htoken
    have hearlier : ∀ {call : DrainCall} {tokens : List ℕ}, t.drains[id]? = some call →
        call.scope = .engine engineId → call.phase = .cancelling tokens collected →
        token ∈ tokens → ActiveAtExpiry (ls ++ [l]) id engineId token := by
      intro call tokens hcall hscope hphase htoken
      obtain ⟨before, sys, found, requestId, hprefix, hactive⟩ :=
        ih hcall hscope hphase token htoken
      exact ⟨before, sys, found, requestId, hprefix.trans (List.prefix_append _ _), hactive⟩
    rcases step_call hlast hcall with hold | (hfresh | ⟨error, hfailed⟩) |
      ⟨old, -, hold, hsame, hadvance⟩
    · exact hearlier hold hscope hphase htoken
    · simp [hfresh] at hphase
    · simp [hfailed] at hphase
    · rw [hphase] at hadvance
      rcases hadvance.collected with ⟨hexpired, htokens⟩ | ⟨next, hnext⟩
      · rw [← hsame, hscope] at htokens
        obtain ⟨requestId, hactive⟩ := mem_tokensIn htokens htoken
        exact ⟨ls, t, old, requestId, List.prefix_append _ _, hrun, hold, hexpired, hactive⟩
      · exact hearlier hold (hsame ▸ hscope) hnext (List.mem_cons_of_mem _ htoken)

/-- The system after a step of a drain of one engine. -/
theorem step_drainScope {engineId : EngineInstanceId}
    (hscope : label.drainScope sys = some (.engine engineId)) (h : step sys label = some sys') :
    (∃ deadline, sys' = startDrain sys (.engine engineId) deadline ∧ label.drain? = none) ∨
      ∃ id call, label.drain? = some id ∧ sys.drains[id]? = some call ∧
        call.scope = .engine engineId ∧ Advances sys id call sys' := by
  by_cases hstart : ∃ scope deadline, label = .drain scope deadline
  · obtain ⟨scope, deadline, rfl⟩ := hstart
    cases hscope
    cases h
    exact .inl ⟨deadline, rfl, rfl⟩
  · right
    have hbound : (label.drain?.bind fun id => sys.drains[id]?.map DrainCall.scope) =
        some (.engine engineId) := by
      rw [← hscope]
      cases label <;> first | rfl | exact absurd ⟨_, _, rfl⟩ hstart
    obtain ⟨id, hid, hmapped⟩ := Option.bind_eq_some_iff.mp hbound
    obtain ⟨call, hcall, hsame⟩ := Option.map_eq_some_iff.mp hmapped
    obtain ⟨found, hfound, hadvances⟩ := step_advances hid h
    obtain rfl := Option.some.inj (hfound.symm.trans hcall)
    exact ⟨id, found, hid, hcall, hsame, hadvances⟩

theorem startDrain_other {engineId other : EngineInstanceId} {deadline : Option ℕ}
    (hother : other ≠ engineId) :
    (startDrain sys (.engine engineId) deadline).entries[other]? = sys.entries[other]? := by
  unfold startDrain
  split
  · rfl
  next entries hbegin => exact updateEngine_other hbegin hother

theorem startDrain_cancelled {deadline : Option ℕ} :
    (startDrain sys scope deadline).cancelled = sys.cancelled := by
  unfold startDrain
  split <;> rfl

end Drains

section Contract

variable {sys sys' : System} {label : Label} {labels : List Label}

theorem lifecycle_eq_ok {entries : Entries} {engineId : EngineInstanceId}
    {state : EngineLifecycle} :
    lifecycle entries engineId = .ok state ↔
      ∃ entry, entries[engineId]? = some entry ∧ entry.lifecycle = state := by
  unfold lifecycle
  split <;> simp_all

theorem Sound.stopped_absorbing (hsound : Sound sys) (h : step sys label = some sys')
    {engineId : EngineInstanceId} (hstopped : lifecycle sys.entries engineId = .ok .stopped) :
    lifecycle sys'.entries engineId = .ok .stopped := by
  obtain ⟨entry, hentry, hlifecycle⟩ := lifecycle_eq_ok.mp hstopped
  obtain ⟨entry', hentry', hmove⟩ := hsound.engine_step (step_move h) hentry
  exact lifecycle_eq_ok.mpr ⟨entry', hentry', hmove.stays_stopped hlifecycle⟩

theorem Sound.active_never_grows (hsound : Sound sys) (h : step sys label = some sys')
    {engineId : EngineInstanceId} {requestId : RequestId} {token : ℕ}
    (hbusy : lifecycle sys.entries engineId = .ok .draining ∨
      lifecycle sys.entries engineId = .ok .stopped)
    (hactive : activeOn sys'.entries engineId requestId = some token) :
    activeOn sys.entries engineId requestId = some token := by
  have hready : ∃ entry, sys.entries[engineId]? = some entry ∧ entry.lifecycle ≠ .ready := by
    rcases hbusy with hbusy | hbusy <;> obtain ⟨entry, hentry, hlifecycle⟩ :=
      lifecycle_eq_ok.mp hbusy <;> exact ⟨entry, hentry, by simp [hlifecycle]⟩
  obtain ⟨entry, hentry, hready⟩ := hready
  obtain ⟨entry', hentry', hmove⟩ := hsound.engine_step (step_move h) hentry
  rw [activeOn_of_getElem? hentry'] at hactive
  rw [activeOn_of_getElem? hentry]
  exact hmove.never_grows hready requestId token hactive

/-- Only a release removes an execution. -/
theorem Sound.release_notifies (hsound : Sound sys) (h : step sys label = some sys')
    {engineId : EngineInstanceId} {requestId : RequestId}
    (hactive : (activeOn sys.entries engineId requestId).isSome)
    (hremoved : activeOn sys'.entries engineId requestId = none) :
    sys'.notifications = sys.notifications + 1 := by
  cases step_move h with
  | settle hentries _ _ =>
    rw [hentries.activeOn_eq] at hremoved
    simp [hremoved] at hactive
  | register id generation habsent hentries _ _ =>
    rw [hentries, activeOn_insert] at hremoved
    split at hremoved
    next heq =>
      subst heq
      simp [activeOn, habsent] at hactive
    next => simp [hremoved] at hactive
  | admission permit entry hfound _ _ _ hentries _ _ =>
    rw [hentries, activeOn_insert] at hremoved
    split at hremoved
    next heq =>
      subst heq
      rw [TreeMap.getElem?_insert] at hremoved
      split at hremoved
      · cases hremoved
      · rw [activeOn_of_getElem? hfound, hremoved] at hactive
        cases hactive
    next => simp [hremoved] at hactive
  | release id permit hheld houtstanding _ _ hnotifications =>
    have hpermit := hsound.activeOn_permit (List.mem_of_getElem? hheld) houtstanding
    obtain ⟨entry, -, hrelease⟩ := releaseExecution_of_active hpermit
    rw [hnotifications, hrelease]
    simp

/-- Every step of every run keeps to the contract. -/
theorem step_contract (hreach : Reaches labels sys) (h : step sys label = some sys') :
    StepContract labels sys label sys' where
  stopped_absorbing _ := (sound_of_reaches hreach).stopped_absorbing h
  active_never_grows _ hbusy _ _ := (sound_of_reaches hreach).active_never_grows h hbusy
  acquires_ready target context ended permit entries hacquire := by
    obtain ⟨entry, hentry, hgeneration, hready, habsent, -⟩ := acquireExecution_eq_ok hacquire
    refine ⟨entry, hentry, hready, hgeneration, ?_⟩
    rw [activeOn_of_getElem? hentry, habsent]
  drain_changes_only engineId hscope other hother := by
    rcases step_drainScope hscope h with ⟨deadline, rfl, -⟩ |
      ⟨id, call, -, -, hsame, phase, entries, cancelled, hadvance, rfl⟩
    · exact startDrain_other hother
    · rw [hsame] at hadvance
      exact hadvance.entries_other hother
  drain_cancels_only engineId hscope token htoken hnew := by
    rcases step_drainScope hscope h with ⟨deadline, rfl, -⟩ |
      ⟨id, call, hid, hcall, hsame, phase, entries, cancelled, hadvance, rfl⟩
    · rw [startDrain_cancelled] at htoken
      exact absurd htoken hnew
    · obtain ⟨tokens, collected, hphase, hmem⟩ := hadvance.cancels htoken hnew
      exact ⟨id, hid, collected_active hreach hcall hsame hphase token hmem⟩
  release_notifies engineId requestId hactive hremoved := by
    have hsound := sound_of_reaches hreach
    have hsent := hsound.release_notifies h hactive hremoved
    refine ⟨hsent, ?_⟩
    intro id call seen hcall hphase
    have hseen := hsound.seen_le_before h hcall hphase
    omega

/-- An outstanding permit of a request on an engine, by its index. -/
def System.HoldsPermit (sys : System) (engineId : EngineInstanceId) (requestId : RequestId)
    (id : ℕ) : Prop :=
  ∃ permit, sys.permits[id]? = some permit ∧ permit.released = false ∧
    permit.engineId = engineId ∧ permit.requestId = requestId

/-- The executions active on an engine are those with an outstanding permit. -/
theorem Sound.active_iff_holdsPermit (hsound : Sound sys) (engineId : EngineInstanceId)
    (requestId : RequestId) :
    (activeOn sys.entries engineId requestId).isSome ↔
      ∃ id, sys.HoldsPermit engineId requestId id := by
  constructor
  · intro hactive
    obtain ⟨token, htoken⟩ := Option.isSome_iff_exists.mp hactive
    obtain ⟨id, hid⟩ := List.mem_iff_getElem?.mp ((hsound.active_iff _ _ _).mp htoken)
    exact ⟨id, _, hid, rfl, rfl, rfl⟩
  · rintro ⟨id, permit, hpermit, houtstanding, rfl, rfl⟩
    rw [hsound.activeOn_permit (List.mem_of_getElem? hpermit) houtstanding]
    rfl

theorem Sound.holdsPermit_unique (hsound : Sound sys) {engineId : EngineInstanceId}
    {requestId : RequestId} {i j : ℕ} (hi : sys.HoldsPermit engineId requestId i)
    (hj : sys.HoldsPermit engineId requestId j) : i = j := by
  obtain ⟨permit, hpermit, houtstanding, rfl, rfl⟩ := hi
  obtain ⟨permit', hpermit', houtstanding', hengine, hrequest⟩ := hj
  have htoken := hsound.activeOn_permit (List.mem_of_getElem? hpermit) houtstanding
  have htoken' := hsound.activeOn_permit (List.mem_of_getElem? hpermit') houtstanding'
  rw [hengine, hrequest, htoken, Option.some.injEq] at htoken'
  have hsame : permit' = permit := by
    cases permit
    cases permit'
    simp_all
  subst hsame
  exact hsound.permit_unique i j permit' houtstanding hpermit hpermit'

theorem Sound.stopped_active (hsound : Sound sys) {engineId : EngineInstanceId}
    (hstopped : lifecycle sys.entries engineId = .ok .stopped) :
    activeExecutionsFor sys.entries engineId = .ok 0 := by
  obtain ⟨entry, hentry, hlifecycle⟩ := lifecycle_eq_ok.mp hstopped
  have hidle := hsound.stopped_idle engineId entry hentry hlifecycle
  rw [TreeMap.isEmpty_eq_size_eq_zero, beq_iff_eq] at hidle
  simp [activeExecutionsFor, hentry, hidle]

/-- In every reachable state the active executions are the outstanding permits, each held
once, a stopped engine has none of them, and every step keeps to the contract. -/
theorem engine_lifecycle (hreach : Reaches labels sys) :
    (∀ engineId requestId, (activeOn sys.entries engineId requestId).isSome ↔
      ∃ id, sys.HoldsPermit engineId requestId id) ∧
    (∀ engineId requestId i j, sys.HoldsPermit engineId requestId i →
      sys.HoldsPermit engineId requestId j → i = j) ∧
    (∀ engineId, lifecycle sys.entries engineId = .ok .stopped →
      activeExecutionsFor sys.entries engineId = .ok 0) ∧
    ∀ label sys', step sys label = some sys' → StepContract labels sys label sys' := by
  have hsound := sound_of_reaches hreach
  refine ⟨hsound.active_iff_holdsPermit, ?_, ?_, ?_⟩
  · intro engineId requestId i j hi hj
    exact hsound.holdsPermit_unique hi hj
  · intro engineId hstopped
    exact hsound.stopped_active hstopped
  · intro label sys' hstep
    exact step_contract hreach hstep

end Contract

/-- A target on the first generation of an engine. -/
def sampleTarget (engineId : EngineInstanceId) : ExecutionTarget where
  id := engineId ++ "/model"
  engine := { id := engineId, generation := 1 }
  model := { modelRevision := "model-v1", adapterRevision := none, executionProfile := "default" }
  role := .combined
  parallelLayout := {
    tensorParallel := 1, pipelineParallel := 1, expertParallel := 1, layoutRevision := "layout-v1" }
  residency := "resident"
  capabilityRevision := "cap-v1"

/-- A drain of one of two engines that are both in use, and the release of its execution. -/
def targetedDrain : List Label :=
  [.register { id := "engine-a", generation := 1 }, .register { id := "engine-b", generation := 1 },
    .acquireExecution (sampleTarget "engine-a") { requestId := "first", cancellation := 0 } none,
    .acquireExecution (sampleTarget "engine-b") { requestId := "second", cancellation := 1 } none,
    .drain (.engine "engine-a") (some 0), .subscribe 0, .check 0, .expire 0 0, .collect 0,
    .cancel 0, .cancel 0, .dropPermit 0]

/-- The drain cancels one context and reports it, the other engine stays ready, and the
drained engine stops with its last execution. -/
theorem engine_lifecycle_targetedDrain : ∃ sys, Reaches targetedDrain sys ∧
    lifecycle sys.entries "engine-a" = .ok .stopped ∧
    lifecycle sys.entries "engine-b" = .ok .ready ∧ sys.cancelled = {0} ∧
    activeExecutionsFor sys.entries "engine-a" = .ok 0 ∧
    ∃ id, sys.HoldsPermit "engine-b" "second" id := by
  have h : (List.foldlM step {} targetedDrain).map
      (fun sys => (lifecycle sys.entries "engine-a", lifecycle sys.entries "engine-b",
        sys.cancelled, activeOn sys.entries "engine-b" "second")) =
      some (.ok .stopped, .ok .ready, {0}, some 1) := by decide
  obtain ⟨sys, hrun, heq⟩ := Option.map_eq_some_iff.mp h
  simp only [Prod.mk.injEq] at heq
  obtain ⟨hstopped, hready, hcancelled, hactive⟩ := heq
  have hreach : Reaches targetedDrain sys := Lib.Run.of_foldlM hrun
  obtain ⟨hpermits, -, hidle, -⟩ := engine_lifecycle hreach
  refine ⟨sys, hreach, hstopped, hready, hcancelled, hidle "engine-a" hstopped, ?_⟩
  exact (hpermits "engine-b" "second").mp (by simp [hactive])

end Locus.Engine.Registry
