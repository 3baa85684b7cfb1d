import Locus.Engine.DrainSteps

/-!
# The lifecycle of engines

In every reachable state the executions active on an engine are those of the outstanding
permits, and a stopped engine has none. `StepContract` says what any further step may do.
-/

namespace Locus.Engine.Registry

open Std (TreeMap)
open Locus.Core

section ActiveOn

variable {entries : Entries} {engineId other : EngineInstanceId} {requestId : RequestId}

theorem activeOn_insert (entry : RegisteredEngine) :
    activeOn (entries.insert engineId entry) other requestId =
      if engineId = other then entry.active[requestId]? else activeOn entries other requestId := by
  unfold activeOn
  by_cases heq : engineId = other
  · simp [heq]
  · simp [TreeMap.getElem?_insert, heq]

theorem activeOn_of_getElem? {entry : RegisteredEngine} (h : entries[engineId]? = some entry) :
    activeOn entries engineId requestId = entry.active[requestId]? := by
  simp [activeOn, h]

theorem stopDrained_active (entry : RegisteredEngine) :
    entry.stopDrained.active = entry.active := by
  have hsettles : Settles False entry entry.stopDrained := settles_stopDrained entry
  exact hsettles.active_eq

/-- Releasing an active execution takes it out, may stop its engine and notifies. -/
theorem releaseExecution_of_active {token : ℕ}
    (h : activeOn entries engineId requestId = some token) :
    ∃ entry, entries[engineId]? = some entry ∧
      releaseExecution entries engineId requestId =
        (true, entries.insert engineId
          { entry with active := entry.active.erase requestId }.stopDrained) := by
  obtain ⟨entry, hentry, htoken⟩ := Option.bind_eq_some_iff.mp h
  have hcontains : entry.active.contains requestId := by
    rw [TreeMap.contains_eq_isSome_getElem?, htoken]
    rfl
  exact ⟨entry, hentry, by simp [releaseExecution, hentry, hcontains]⟩

end ActiveOn

/-- The invariant of the registry with its permits and drains. -/
structure Sound (sys : System) : Prop where
  /-- An execution is active exactly as long as its permit is outstanding. -/
  active_iff : ∀ engineId requestId token, activeOn sys.entries engineId requestId = some token ↔
    { engineId, requestId, cancellation := token } ∈ sys.permits
  /-- No execution has two outstanding permits. -/
  permit_unique : ∀ (i j : ℕ) (permit : EngineExecutionPermit), permit.released = false →
    sys.permits[i]? = some permit → sys.permits[j]? = some permit → i = j
  stopped_idle : ∀ (engineId : EngineInstanceId) (entry : RegisteredEngine),
    sys.entries[engineId]? = some entry → entry.lifecycle = .stopped → entry.active.isEmpty
  /-- No drain has seen a notification that was not sent. -/
  seen_le : ∀ (id : ℕ) (call : DrainCall) (seen : ℕ), sys.drains[id]? = some call →
    call.phase = .checking seen ∨ call.phase = .waiting seen → seen ≤ sys.notifications

section Step

variable {sys sys' : System} {label : Label}

theorem Sound.activeOn_permit (hsound : Sound sys) {permit : EngineExecutionPermit}
    (hpermit : permit ∈ sys.permits) (houtstanding : permit.released = false) :
    activeOn sys.entries permit.engineId permit.requestId = some permit.cancellation := by
  refine (hsound.active_iff _ _ _).mpr ?_
  rw [← houtstanding]
  exact hpermit

/-- The outstanding permits after one was dropped. -/
theorem mem_permits_modify {id : ℕ} {permit : EngineExecutionPermit}
    (houtstanding : permit.released = false) :
    permit ∈ sys.permits.modify id (fun permit => { permit with released := true }) ↔
      ∃ j, j ≠ id ∧ sys.permits[j]? = some permit := by
  rw [List.mem_iff_getElem?]
  refine exists_congr fun j => ?_
  rw [List.getElem?_modify]
  by_cases hj : id = j
  · subst hj
    simp only [↓reduceIte, Option.map_eq_map, Option.map_eq_some_iff, ne_eq, not_true_eq_false,
      false_and, iff_false, not_exists, not_and]
    rintro dropped - rfl
    cases houtstanding
  · simp [hj, Ne.symm hj]

/-- The release of an outstanding permit removes its execution and no other. -/
theorem activeOn_release (hsound : Sound sys) {id : ℕ} {permit : EngineExecutionPermit}
    (hpermit : sys.permits[id]? = some permit) (houtstanding : permit.released = false)
    (engineId : EngineInstanceId) (requestId : RequestId) :
    activeOn (releaseExecution sys.entries permit.engineId permit.requestId).2 engineId requestId =
      if permit.engineId = engineId ∧ permit.requestId = requestId then none
      else activeOn sys.entries engineId requestId := by
  have hactive := hsound.activeOn_permit (List.mem_of_getElem? hpermit) houtstanding
  obtain ⟨entry, hentry, hrelease⟩ := releaseExecution_of_active hactive
  rw [hrelease, activeOn_insert, stopDrained_active]
  by_cases hengine : permit.engineId = engineId
  · subst hengine
    rw [activeOn_of_getElem? hentry]
    by_cases hrequest : permit.requestId = requestId
    · simp [hrequest]
    · simp [TreeMap.getElem?_erase, hrequest]
  · simp [hengine]

/-- An admission adds its execution and its permit. -/
theorem Sound.active_iff_admission (hsound : Sound sys) {permit : EngineExecutionPermit}
    {entry : RegisteredEngine} (hfound : sys.entries[permit.engineId]? = some entry)
    (habsent : entry.active[permit.requestId]? = none) (houtstanding : permit.released = false)
    (engineId : EngineInstanceId) (requestId : RequestId) (token : ℕ) :
    activeOn (sys.entries.insert permit.engineId
        { entry with active := entry.active.insert permit.requestId permit.cancellation })
        engineId requestId = some token ↔
      { engineId, requestId, cancellation := token } ∈ sys.permits ++ [permit] := by
  rw [List.mem_append, List.mem_singleton, ← hsound.active_iff, activeOn_insert]
  by_cases hengine : permit.engineId = engineId
  · subst hengine
    rw [activeOn_of_getElem? hfound]
    by_cases hrequest : permit.requestId = requestId
    · subst hrequest
      obtain ⟨permitEngine, permitRequest, released, cancellation⟩ := permit
      cases houtstanding
      simp [habsent, eq_comm]
    · have hne : ({ engineId := permit.engineId, requestId, cancellation := token } :
          EngineExecutionPermit) ≠ permit := by
        intro heq
        exact hrequest (congrArg EngineExecutionPermit.requestId heq).symm
      simp [TreeMap.getElem?_insert, hrequest, hne]
  · have hne : ({ engineId, requestId, cancellation := token } :
        EngineExecutionPermit) ≠ permit := by
      intro heq
      exact hengine (congrArg EngineExecutionPermit.engineId heq).symm
    simp [hengine, hne]

/-- A release removes the execution of its permit, and no other permit stands for the same one. -/
theorem Sound.active_iff_release (hsound : Sound sys) {id : ℕ} {permit : EngineExecutionPermit}
    (hheld : sys.permits[id]? = some permit) (houtstanding : permit.released = false)
    (engineId : EngineInstanceId) (requestId : RequestId) (token : ℕ) :
    activeOn (releaseExecution sys.entries permit.engineId permit.requestId).2 engineId requestId =
        some token ↔
      { engineId, requestId, cancellation := token } ∈
        sys.permits.modify id fun permit => { permit with released := true } := by
  rw [mem_permits_modify rfl, activeOn_release hsound hheld houtstanding]
  split
  next hsame =>
    obtain ⟨rfl, rfl⟩ := hsame
    refine iff_of_false (by simp) ?_
    rintro ⟨j, hj, hother⟩
    have hactive := (hsound.active_iff _ _ _).mpr (List.mem_of_getElem? hother)
    have hactive' := hsound.activeOn_permit (List.mem_of_getElem? hheld) houtstanding
    rw [hactive, Option.some.injEq] at hactive'
    subst hactive'
    rw [← houtstanding] at hother
    exact hj (hsound.permit_unique j id _ houtstanding hother hheld)
  next hdiffer =>
    rw [hsound.active_iff, List.mem_iff_getElem?]
    refine exists_congr fun j => ⟨fun hother => ⟨?_, hother⟩, And.right⟩
    rintro rfl
    rw [hheld, Option.some.injEq] at hother
    subst hother
    exact hdiffer ⟨rfl, rfl⟩

theorem Sound.active_iff_step (hsound : Sound sys) (hmove : Move label sys sys')
    (engineId : EngineInstanceId) (requestId : RequestId) (token : ℕ) :
    activeOn sys'.entries engineId requestId = some token ↔
      { engineId, requestId, cancellation := token } ∈ sys'.permits := by
  cases hmove with
  | settle hentries hpermits _ =>
    rw [hentries.activeOn_eq, hpermits]
    exact hsound.active_iff engineId requestId token
  | register id generation habsent hentries hpermits _ =>
    rw [hentries, hpermits, ← hsound.active_iff, activeOn_insert]
    split
    next heq =>
      subst heq
      simp [activeOn, habsent]
    next => rfl
  | admission permit entry hfound _ habsent houtstanding hentries hpermits _ =>
    rw [hentries, hpermits]
    exact hsound.active_iff_admission hfound habsent houtstanding engineId requestId token
  | release id permit hheld houtstanding hentries hpermits _ =>
    rw [hentries, hpermits]
    exact hsound.active_iff_release hheld houtstanding engineId requestId token

theorem Sound.permit_unique_step (hsound : Sound sys) (hmove : Move label sys sys') (i j : ℕ)
    (permit : EngineExecutionPermit) (houtstanding : permit.released = false)
    (hi : sys'.permits[i]? = some permit) (hj : sys'.permits[j]? = some permit) : i = j := by
  cases hmove with
  | settle _ hpermits _ =>
    rw [hpermits] at hi hj
    exact hsound.permit_unique i j permit houtstanding hi hj
  | register _ _ _ _ hpermits _ =>
    rw [hpermits] at hi hj
    exact hsound.permit_unique i j permit houtstanding hi hj
  | admission new entry hfound _ habsent hnew _ hpermits _ =>
    -- The new permit is for a request that no outstanding permit is for.
    have hfresh : new ∉ sys.permits := by
      intro hmem
      have hactive := hsound.activeOn_permit hmem hnew
      rw [activeOn_of_getElem? hfound, habsent] at hactive
      cases hactive
    rw [hpermits] at hi hj
    rcases Lib.getElem?_concat_eq_some.mp hi with hold | ⟨hi, rfl⟩ <;>
      rcases Lib.getElem?_concat_eq_some.mp hj with hold' | ⟨hj, hsame⟩
    · exact hsound.permit_unique i j permit houtstanding hold hold'
    · subst hsame
      exact absurd (List.mem_of_getElem? hold) hfresh
    · exact absurd (List.mem_of_getElem? hold') hfresh
    · omega
  | release id dropped _ _ _ hpermits _ =>
    have hold : ∀ k : ℕ, sys'.permits[k]? = some permit → sys.permits[k]? = some permit := by
      intro k hk
      rw [hpermits, List.getElem?_modify] at hk
      by_cases hid : id = k
      · simp only [hid, ↓reduceIte, Option.map_eq_map, Option.map_eq_some_iff] at hk
        obtain ⟨_, -, rfl⟩ := hk
        cases houtstanding
      · simpa [hid] using hk
    exact hsound.permit_unique i j permit houtstanding (hold i hi) (hold j hj)

/-- An engine stops only without executions, and a stopped engine admits none. -/
theorem Sound.stopped_idle_step (hsound : Sound sys) (hmove : Move label sys sys')
    (engineId : EngineInstanceId) (entry' : RegisteredEngine)
    (hentry' : sys'.entries[engineId]? = some entry') (hstopped : entry'.lifecycle = .stopped) :
    entry'.active.isEmpty := by
  cases hmove with
  | settle hentries _ _ =>
    obtain ⟨entry, hentry, hsettles⟩ := hentries.before hentry'
    rw [hsettles.active_eq]
    rcases hsettles.stops_idle hstopped with hbefore | hidle
    · exact hsound.stopped_idle engineId entry hentry hbefore
    · exact hidle
  | register id generation _ hentries _ _ =>
    rw [hentries, TreeMap.getElem?_insert] at hentry'
    split at hentry'
    · cases hentry'
      cases hstopped
    · exact hsound.stopped_idle engineId entry' hentry' hstopped
  | admission permit entry _ hready _ _ hentries _ _ =>
    rw [hentries, TreeMap.getElem?_insert] at hentry'
    split at hentry'
    · cases hentry'
      rw [hready] at hstopped
      cases hstopped
    · exact hsound.stopped_idle engineId entry' hentry' hstopped
  | release id permit hheld houtstanding hentries _ _ =>
    have hactive := hsound.activeOn_permit (List.mem_of_getElem? hheld) houtstanding
    obtain ⟨entry, hentry, hrelease⟩ := releaseExecution_of_active hactive
    rw [hentries, hrelease, TreeMap.getElem?_insert] at hentry'
    split at hentry'
    · cases hentry'
      rw [stopDrained_active]
      have hsettles : Settles False { entry with active := entry.active.erase permit.requestId }
          _ := settles_stopDrained _
      rcases hsettles.stops_idle hstopped with hbefore | hidle
      · have hidle := hsound.stopped_idle permit.engineId entry hentry hbefore
        simp [TreeMap.isEmpty_erase, hidle]
      · exact hidle
    · exact hsound.stopped_idle engineId entry' hentry' hstopped

/-- What may become of one engine in a step. -/
structure EngineMove (resumed : Prop) (entry entry' : RegisteredEngine) : Prop where
  stays_stopped : entry.lifecycle = .stopped → entry'.lifecycle = .stopped
  ready_before : entry'.lifecycle = .ready →
    entry.lifecycle = .ready ∨ resumed ∧ entry.lifecycle = .draining
  never_grows : entry.lifecycle ≠ .ready → ∀ (requestId : RequestId) (token : ℕ),
    entry'.active[requestId]? = some token → entry.active[requestId]? = some token

theorem EngineMove.refl (resumed : Prop) (entry : RegisteredEngine) :
    EngineMove resumed entry entry :=
  ⟨id, Or.inl, fun _ _ _ => id⟩

/-- An engine stays registered, stays stopped, and takes new executions only when ready. -/
theorem Sound.engine_step (hsound : Sound sys) (hmove : Move label sys sys')
    {engineId : EngineInstanceId} {entry : RegisteredEngine}
    (hentry : sys.entries[engineId]? = some entry) :
    ∃ entry', sys'.entries[engineId]? = some entry' ∧
      EngineMove (label = .resume engineId) entry entry' := by
  cases hmove with
  | settle hentries _ _ =>
    obtain ⟨entry', hentry', hsettles⟩ := hentries.after hentry
    refine ⟨entry', hentry', hsettles.stays_stopped, hsettles.ready_before, ?_⟩
    intro _ requestId token htoken
    rwa [hsettles.active_eq] at htoken
  | register id generation habsent hentries _ _ =>
    have hne : id ≠ engineId := by
      rintro rfl
      simp [habsent] at hentry
    rw [hentries]
    exact ⟨entry, by simpa [TreeMap.getElem?_insert, hne] using hentry, .refl _ entry⟩
  | admission permit found hfound hready _ _ hentries _ _ =>
    rw [hentries, TreeMap.getElem?_insert]
    split
    next heq =>
      obtain rfl := Std.LawfulEqCmp.eq_of_compare heq
      obtain rfl := Option.some.inj (hfound.symm.trans hentry)
      exact ⟨_, rfl, fun hstopped => hstopped, Or.inl, fun hbusy => absurd hready hbusy⟩
    next => exact ⟨entry, hentry, .refl _ entry⟩
  | release id permit hheld houtstanding hentries _ _ =>
    have hactive := hsound.activeOn_permit (List.mem_of_getElem? hheld) houtstanding
    obtain ⟨found, hfound, hrelease⟩ := releaseExecution_of_active hactive
    rw [hentries, hrelease, TreeMap.getElem?_insert]
    split
    next heq =>
      obtain rfl := Std.LawfulEqCmp.eq_of_compare heq
      obtain rfl := Option.some.inj (hfound.symm.trans hentry)
      have hsettles : Settles (label = .resume permit.engineId)
          { found with active := found.active.erase permit.requestId } _ := settles_stopDrained _
      refine ⟨_, rfl, hsettles.stays_stopped, hsettles.ready_before, ?_⟩
      intro _ requestId token htoken
      rw [stopDrained_active, TreeMap.getElem?_erase] at htoken
      exact (Option.ite_none_left_eq_some.mp htoken).2
    next => exact ⟨entry, hentry, .refl _ entry⟩

/-- A step never takes notifications back. -/
theorem Move.notifications_le (hmove : Move label sys sys') :
    sys.notifications ≤ sys'.notifications := by
  cases hmove <;> omega

/-- What a drain has seen it saw when it subscribed. -/
theorem Advance.seen {scope : DrainScope} {before phase : DrainPhase} {entries : Entries}
    {cancelled : Finset ℕ} {seen : ℕ} (h : Advance sys scope before phase entries cancelled)
    (hphase : phase = .checking seen ∨ phase = .waiting seen) :
    seen = sys.notifications ∨ before = .checking seen := by
  cases h <;> simp_all

/-- What a drain has seen after a step was sent before it. -/
theorem Sound.seen_le_before (hsound : Sound sys) (h : step sys label = some sys') {id : ℕ}
    {call' : DrainCall} {seen : ℕ} (hcall' : sys'.drains[id]? = some call')
    (hphase : call'.phase = .checking seen ∨ call'.phase = .waiting seen) :
    seen ≤ sys.notifications := by
  rcases step_call h hcall' with hold | (hstart | ⟨error, hfailed⟩) |
    ⟨call, -, hcall, -, hadvance⟩
  · exact hsound.seen_le id call' seen hold hphase
  · simp [hstart] at hphase
  · simp [hfailed] at hphase
  · rcases hadvance.seen hphase with rfl | hchecking
    · exact le_refl _
    · exact hsound.seen_le id call seen hcall (.inl hchecking)

/-- Every step keeps the invariant. -/
theorem Sound.after_step (hsound : Sound sys) (h : step sys label = some sys') : Sound sys' where
  active_iff := hsound.active_iff_step (step_move h)
  permit_unique := hsound.permit_unique_step (step_move h)
  stopped_idle := hsound.stopped_idle_step (step_move h)
  seen_le _ _ _ hcall hphase :=
    (hsound.seen_le_before h hcall hphase).trans (step_move h).notifications_le

end Step

/-- The invariant holds in every reachable state. -/
theorem sound_of_reaches {labels : List Label} {sys : System} (h : Reaches labels sys) :
    Sound sys := by
  refine Lib.Run.invariant Sound (fun _ _ _ hsound hstep => hsound.after_step hstep) h ?_
  exact ⟨by simp [activeOn], by simp, by simp, by simp⟩

end Locus.Engine.Registry
