import Locus.Traffic.DrainSteps
import Locus.Traffic.WorkConservation

/-!
# Drains and the idle controller

A drain that waits has found some request active after it subscribed, so a later idle
controller was made idle by some section. Only `release` announces that, and what the
scheduling loop takes out of `active` again it has put there itself, unless it grants a
ticket twice. The condition below excludes that the loop takes the last active request
away in this manner.
-/

namespace Locus.Traffic

open Std (TreeMap)
open Locus.Lib

variable {ctl : TrafficController}

section Idle

variable {sys sys' : System} {label : Label} {n : ℕ}

/-- Outside `release`, an iteration of the scheduling loop does not grant the ticket of the
only active request to a request whose receiver is gone. -/
def SparesLast (ctl : TrafficController) (sys : System) : Label → Prop
  | .schedule _ => sys.lock = .scheduling false → ∀ q ∈ nextHead ctl sys.state,
      phaseOf sys.channels q.sender ≠ .waiting → sys.state.active[q.ticket]?.isSome →
      1 < sys.state.active.size
  | _ => True

instance (sys : System) : (label : Label) → Decidable (SparesLast ctl sys label)
  | .schedule _ => (inferInstance : Decidable (sys.lock = .scheduling false →
      ∀ q ∈ nextHead ctl sys.state, phaseOf sys.channels q.sender ≠ .waiting →
        sys.state.active[q.ticket]?.isSome → 1 < sys.state.active.size))
  | .admitRequest .. | .unlock | .cancel .. | .receive _ | .dropReceiver _ | .dropPermit _
  | .release _ | .beginDrain | .resume => instDecidableTrue

theorem FreshGrant.sparesLast (h : FreshGrant ctl sys label) : SparesLast ctl sys label := by
  cases label with
  | schedule now =>
    intro _ q hq _ hactive
    simp [h q hq] at hactive
  | _ => trivial

/-- Since there were `n` notifications, either another one came or the controller is busy.
While `release` runs it may be idle, because it is then announced at the end. -/
structure Watched (n : ℕ) (sys : System) : Prop where
  le : n ≤ sys.idleNotifications
  busy : sys.idleNotifications = n → sys.lock ≠ .scheduling true →
    sys.state.active.isEmpty = false

/-- What the end of a scheduling section does. -/
theorem unlock_spec (h : step ctl sys .unlock = some sys') :
    ∃ fromRelease, sys.lock = .scheduling fromRelease ∧ sys' = { sys with
      lock := .free
      idleNotifications := sys.idleNotifications +
        if fromRelease ∧ sys.state.active.isEmpty then 1 else 0 } := by
  simp only [step] at h
  split at h
  · cases h
  next fromRelease hlock =>
    obtain ⟨-, h⟩ := Option.ite_none_right_eq_some.mp h
    exact ⟨fromRelease, hlock, (Option.some.inj h).symm⟩

/-- Only the end of a section announces anything. -/
theorem idleNotifications_eq (hqueues : QueuesSound ctl sys.state)
    (hstep : step ctl sys label = some sys') (hlabel : label ≠ .unlock) :
    sys'.idleNotifications = sys.idleNotifications := by
  cases move_of_step hqueues.known hstep with
  | unlocked => exact absurd rfl hlabel
  | drained => exact foldl_sendDraining_idleNotifications _ _
  | _ => rfl

theorem idleNotifications_le (hqueues : QueuesSound ctl sys.state)
    (hstep : step ctl sys label = some sys') :
    sys.idleNotifications ≤ sys'.idleNotifications := by
  by_cases hunlock : label = .unlock
  · subst hunlock
    obtain ⟨fromRelease, -, rfl⟩ := unlock_spec hstep
    exact Nat.le_add_right _ _
  · exact (idleNotifications_eq hqueues hstep hunlock).ge

theorem Watched.unlock (h : Watched n sys) (hstep : step ctl sys .unlock = some sys') :
    Watched n sys' := by
  obtain ⟨fromRelease, hlock, rfl⟩ := unlock_spec hstep
  have hle := h.le
  refine ⟨by simp only; omega, ?_⟩
  intro heq _
  simp only at heq
  by_cases hannounced : fromRelease ∧ sys.state.active.isEmpty
  · rw [if_pos hannounced] at heq
    omega
  · rw [if_neg hannounced] at heq
    cases fromRelease with
    | false => exact h.busy heq (by simp [hlock])
    | true => simpa using hannounced

/-- What the loop grants and takes back at once leaves another request active. -/
theorem isEmpty_insert_erase {active : TreeMap UInt64 ActiveRequest} {ticket : UInt64}
    {a : ActiveRequest} (hbusy : active.isEmpty = false)
    (hspares : active[ticket]?.isSome → 1 < active.size) :
    ((active.insert ticket a).erase ticket).isEmpty = false := by
  have hinsert := TreeMap.size_insert (t := active) (k := ticket) (v := a)
  have herase := TreeMap.size_erase (t := active.insert ticket a) (k := ticket)
  rw [if_pos (by simp)] at herase
  rw [TreeMap.isEmpty_eq_size_eq_zero] at hbusy ⊢
  simp only [beq_eq_false_iff_ne, ne_eq] at hbusy ⊢
  by_cases hmem : active.contains ticket = true
  · have hlarge := hspares (TreeMap.isSome_getElem?_iff_mem.mpr hmem)
    rw [if_pos hmem] at hinsert
    omega
  · rw [if_neg hmem] at hinsert
    omega

/-- One step keeps the controller watched. -/
theorem Watched.step (h : Watched n sys) (hqueues : QueuesSound ctl sys.state)
    (hok : SparesLast ctl sys label) (hstep : step ctl sys label = some sys') :
    Watched n sys' := by
  by_cases hunlock : label = .unlock
  · subst hunlock
    exact h.unlock hstep
  cases move_of_step hqueues.known hstep with
  | unlocked => exact absurd rfl hunlock
  | refused | cancelMissed | rephased | releaseMissed | drainRepeated | resumed =>
    exact ⟨h.le, h.busy⟩
  | enqueued free henqueues =>
    obtain ⟨cv, tv, adm, rfl⟩ := henqueues.state_eq
    exact ⟨h.le, fun heq _ => h.busy heq (by simp [free])⟩
  | cancelled free _ _ hcancels =>
    obtain ⟨before, after, rej, -, rfl⟩ := hcancels.state_eq
    exact ⟨h.le, fun heq _ => h.busy heq (by simp [free])⟩
  | delivered busy hgrants =>
    obtain ⟨rest, serviceClass, tenant, now, -, -, -, rfl⟩ := hgrants.state_eq
    exact ⟨h.le, fun _ _ => by simp [activate]⟩
  | @undelivered c t q s₁ s₂ a now busy hgrants hreleases gone =>
    have hhead := hgrants.mem_nextHead
    obtain ⟨rest, serviceClass, tenant, now, -, -, -, rfl⟩ := hgrants.state_eq
    obtain ⟨-, rfl⟩ := hreleases
    refine ⟨h.le, fun heq hlock => ?_⟩
    have hsection : sys.lock = .scheduling false := by
      cases hcases : sys.lock with
      | free => exact absurd hcases busy
      | scheduling fromRelease => cases fromRelease <;> simp_all
    exact isEmpty_insert_erase (h.busy heq hlock) (hok hsection q hhead gone)
  | released => exact ⟨h.le, fun _ hlock => absurd rfl hlock⟩
  | drained free hdrains =>
    obtain ⟨rej, rfl⟩ := hdrains.state_eq
    refine ⟨by simpa using h.le, fun heq _ => ?_⟩
    rw [foldl_sendDraining_idleNotifications] at heq
    rw [foldl_sendDraining_state]
    exact h.busy heq (by simp [free])

end Idle

section Drains

variable {sys sys' : DrainSystem} {label : DrainLabel} {labels : List DrainLabel} {id : ℕ}
  {call call' : DrainCall}

/-- The condition, on the controller's step. -/
def SparesLastIn (ctl : TrafficController) (sys : DrainSystem) : DrainLabel → Prop
  | .traffic label => SparesLast ctl sys.traffic label
  | _ => True

instance (sys : DrainSystem) (label : DrainLabel) : Decidable (SparesLastIn ctl sys label) := by
  cases label <;> unfold SparesLastIn <;> infer_instance

/-- Since a drain subscribed, another notification came or the controller is busy. -/
structure DrainsWatch (ctl : TrafficController) (sys : DrainSystem) : Prop where
  queues : QueuesSound ctl sys.traffic.state
  checking : ∀ (id : ℕ) (call : DrainCall) (seen : ℕ), sys.drains[id]? = some call →
    call.phase = .checking seen → seen ≤ sys.traffic.idleNotifications
  waiting : ∀ (id : ℕ) (call : DrainCall) (seen : ℕ), sys.drains[id]? = some call →
    call.phase = .waiting seen → Watched seen sys.traffic

/-- What holds of the controller is kept by every step of the system. -/
theorem DrainMove.traffic_invariant (h : DrainMove ctl sys label sys')
    (hok : SparesLastIn ctl sys label) (Inv : System → Prop) (hinv : Inv sys.traffic)
    (hsteps : ∀ l traffic, SparesLast ctl sys.traffic l → step ctl sys.traffic l = some traffic →
      Inv traffic) : Inv sys'.traffic := by
  cases h with
  | traffic hstep => exact hsteps _ _ hok hstep
  | begun hstep => exact hsteps .beginDrain _ trivial hstep
  | advanced | disconnected => exact hinv

theorem DrainMove.watched (h : DrainMove ctl sys label sys') (hok : SparesLastIn ctl sys label)
    (hqueues : QueuesSound ctl sys.traffic.state) {n : ℕ} (hwatched : Watched n sys.traffic) :
    Watched n sys'.traffic :=
  h.traffic_invariant hok (Watched n) hwatched fun _ _ hok hstep =>
    hwatched.step hqueues hok hstep

/-- One step keeps every drain watching. -/
theorem DrainsWatch.step (h : DrainsWatch ctl sys) (hok : SparesLastIn ctl sys label)
    (hstep : drainStep ctl sys label = some sys') : DrainsWatch ctl sys' := by
  have hmove := drainMove_of_step hstep
  refine ⟨?_, ?_, ?_⟩
  · exact hmove.traffic_invariant hok (fun traffic => QueuesSound ctl traffic.state)
      h.queues fun _ _ _ hstep => h.queues.step hstep
  · intro id call' seen hcall' hphase
    have hle : sys.traffic.idleNotifications ≤ sys'.traffic.idleNotifications :=
      hmove.traffic_invariant hok
        (fun traffic => sys.traffic.idleNotifications ≤ traffic.idleNotifications)
        le_rfl fun _ _ _ hstep => idleNotifications_le h.queues hstep
    rcases hmove.call_before hcall' with hold | ⟨hfresh | hfailed, -⟩ | ⟨call, hcall, hadvance⟩
    · exact (h.checking id call' seen hold hphase).trans hle
    · simp [hfresh] at hphase
    · simp [hfailed] at hphase
    · cases hadvance with
      | subscribe =>
        obtain rfl := DrainPhase.checking.inj hphase
        exact hle
      | _ => cases hphase
  · intro id call' seen hcall' hphase
    rcases hmove.call_before hcall' with hold | ⟨hfresh | hfailed, -⟩ | ⟨call, hcall, hadvance⟩
    · exact hmove.watched hok h.queues (h.waiting id call' seen hold hphase)
    · simp [hfresh] at hphase
    · simp [hfailed] at hphase
    · refine hmove.watched hok h.queues ?_
      cases hadvance with
      | busy hbefore hfree hbusy =>
        obtain rfl := DrainPhase.waiting.inj hphase
        exact ⟨h.checking id call _ hcall hbefore, fun _ _ => hbusy⟩
      | _ => cases hphase

end Drains

section Reports

variable {sys sys' : DrainSystem} {label : DrainLabel} {labels : List DrainLabel} {id : ℕ}
  {call call' : DrainCall}

/-- The run passes through a state and goes on with the rest of its labels. -/
def DrainPasses (ctl : TrafficController) (labels : List DrainLabel) (sys m : DrainSystem)
    (rest : List DrainLabel) : Prop :=
  Passes (stepRel (drainStep ctl)) {} labels sys m rest

/-- A drain checked when no request was active. -/
def SawIdle (ctl : TrafficController) (labels : List DrainLabel) (sys : DrainSystem) (id : ℕ) :
    Prop :=
  ∃ m rest, DrainPasses ctl labels sys m (.check id :: rest) ∧ m.traffic.lock = .free ∧
    activeRequests m.traffic.state = 0

/-- After its deadline a drain collected the tokens of the active requests. -/
def SawActive (ctl : TrafficController) (labels : List DrainLabel) (sys : DrainSystem) (id : ℕ)
    (tokens : List ℕ) (count : ℕ) : Prop :=
  ∃ m rest call, DrainPasses ctl labels sys m (.collect id :: rest) ∧ m.traffic.lock = .free ∧
    m.drains[id]? = some call ∧ call.phase = .expired ∧
    activeCancellations m.traffic.state = tokens ∧ activeRequests m.traffic.state = count

theorem SawIdle.snoc (h : SawIdle ctl labels sys id)
    (hstep : drainStep ctl sys label = some sys') : SawIdle ctl (labels ++ [label]) sys' id := by
  obtain ⟨m, rest, hpasses, hidle⟩ := h
  exact ⟨m, rest ++ [label], Passes.snoc hpasses hstep, hidle⟩

theorem SawActive.snoc {tokens : List ℕ} {count : ℕ} (h : SawActive ctl labels sys id tokens count)
    (hstep : drainStep ctl sys label = some sys') :
    SawActive ctl (labels ++ [label]) sys' id tokens count := by
  obtain ⟨m, rest, call, hpasses, hactive⟩ := h
  exact ⟨m, rest ++ [label], call, Passes.snoc hpasses hstep, hactive⟩

/-- What a drain knows was observed in the run. -/
def Observed (ctl : TrafficController) (labels : List DrainLabel) (sys : DrainSystem) (id : ℕ)
    (call : DrainCall) : Prop :=
  match call.phase with
  | .cancelling tokens collected =>
    SawActive ctl labels sys id (call.cancelled ++ tokens) collected
  | .returned report =>
    if report.completed then report.forcedCancellations = 0 ∧ SawIdle ctl labels sys id
    else SawActive ctl labels sys id call.cancelled report.forcedCancellations
  | _ => call.cancelled = []

theorem Observed.snoc (h : Observed ctl labels sys id call)
    (hstep : drainStep ctl sys label = some sys') :
    Observed ctl (labels ++ [label]) sys' id call := by
  cases hphase : call.phase with
  | cancelling tokens collected =>
    simp only [Observed, hphase] at h ⊢
    exact h.snoc hstep
  | returned report =>
    simp only [Observed, hphase] at h ⊢
    by_cases hcompleted : report.completed = true
    · rw [if_pos hcompleted] at h ⊢
      exact ⟨h.1, h.2.snoc hstep⟩
    · rw [if_neg hcompleted] at h ⊢
      exact h.snoc hstep
  | _ => simpa only [Observed, hphase] using h

/-- A section of a drain observes what it needs. -/
theorem Advance.observed (h : Advance sys id call label call')
    (hbefore : Observed ctl labels sys id call) (hcall : sys.drains[id]? = some call)
    (hrun : DrainReaches ctl labels sys) (hstep : drainStep ctl sys label = some sys') :
    Observed ctl (labels ++ [label]) sys' id call' := by
  have hlast : DrainPasses ctl (labels ++ [label]) sys' sys [label] := Passes.last hrun hstep
  have hafter := hbefore.snoc hstep
  cases h with
  | subscribe hphase | busy hphase | wake hphase | expire hphase =>
    simpa [Observed, hphase] using hafter
  | idle hphase hfree hidle =>
    exact ⟨rfl, sys, [], hlast, hfree, by
      simpa [activeRequests, TreeMap.isEmpty_eq_size_eq_zero] using hidle⟩
  | collect hphase hfree =>
    have hnone : call.cancelled = [] := by simpa [Observed, hphase] using hbefore
    refine ⟨sys, [], call, hlast, hfree, hcall, hphase, by simp [hnone], ?_⟩
    simp [activeRequests, activeCancellations]
  | cancel hphase =>
    simpa [Observed, hphase] using hafter
  | finish hphase => simpa [Observed, hphase] using hafter

/-- Every drain has observed what it knows, and has cancelled what it says. -/
structure DrainsObserve (ctl : TrafficController) (labels : List DrainLabel) (sys : DrainSystem) :
    Prop where
  observed : ∀ (id : ℕ) (call : DrainCall), sys.drains[id]? = some call →
    Observed ctl labels sys id call
  cancelled : ∀ (id : ℕ) (call : DrainCall), sys.drains[id]? = some call →
    ∀ token ∈ call.cancelled, token ∈ sys.cancelled

theorem drainsObserve_of_reaches (h : DrainReaches ctl labels sys) :
    DrainsObserve ctl labels sys := by
  induction h with
  | nil => exact ⟨by simp, by simp⟩
  | @snoc sys sys' labels label hrun hstep ih =>
    have hmove := drainMove_of_step hstep
    refine ⟨fun id call' hcall' => ?_, fun id call' hcall' token htoken => ?_⟩
    · rcases hmove.call_before hcall' with hold | ⟨hphase | hphase, hnone⟩ |
        ⟨call, hcall, hadvance⟩
      · exact (ih.observed id call' hold).snoc hstep
      · simpa [Observed, hphase] using hnone
      · simpa [Observed, hphase] using hnone
      · exact hadvance.observed (ih.observed id call hcall) hcall hrun hstep
    · exact hmove.cancelled_mem ih.cancelled hcall' htoken

end Reports

/-- What drains are promised, at the end of a run. -/
structure NeverMissesIdleness (ctl : TrafficController) (labels : List DrainLabel)
    (sys : DrainSystem) : Prop where
  /-- If no section is under way at either of two moments, in particular around a single
  section, and the first has an active request and the second none, `notify_waiters` was
  called in between. -/
  announced : ∀ m rest, DrainPasses ctl labels sys m rest →
    m.traffic.lock = .free → sys.traffic.lock = .free →
    m.traffic.state.active.isEmpty = false → sys.traffic.state.active.isEmpty = true →
    m.traffic.idleNotifications < sys.traffic.idleNotifications
  /-- A drain during whose wait the controller became idle can go on. -/
  woken : ∀ m rest id call call' seen, DrainPasses ctl labels sys m rest →
    m.drains[id]? = some call → call.phase = .waiting seen →
    m.traffic.lock = .free → m.traffic.state.active.isEmpty = true →
    sys.drains[id]? = some call' → call'.phase = .waiting seen →
    (drainStep ctl sys (.wake id)).isSome
  /-- A drain that reports completion saw the controller idle. -/
  completed : ∀ id call report, sys.drains[id]? = some call → call.phase = .returned report →
    report.completed = true → report.forcedCancellations = 0 ∧ SawIdle ctl labels sys id
  /-- Any other drain that reports saw requests after its deadline, cancelled the tokens of
  exactly these and reports their number. -/
  forced : ∀ id call report, sys.drains[id]? = some call → call.phase = .returned report →
    report.completed = false →
    SawActive ctl labels sys id call.cancelled report.forcedCancellations ∧
      ∀ token ∈ call.cancelled, token ∈ sys.cancelled

section Runs

variable {sys sys' m : DrainSystem} {labels rest : List DrainLabel}

theorem drainsWatch_of_run (h : Run (permitted (SparesLastIn ctl) (stepRel (drainStep ctl)))
    {} labels sys) : DrainsWatch ctl sys :=
  h.invariant (DrainsWatch ctl) (fun _ _ _ hwatch hstep => hwatch.step hstep.1 hstep.2)
    ⟨QueuesSound.empty, by simp, by simp⟩

/-- What the steps of the controller keep holds along a run with drains. -/
theorem traffic_invariant_of_run (Inv : System → Prop)
    (hsteps : ∀ traffic l traffic', Inv traffic → QueuesSound ctl traffic.state →
      SparesLast ctl traffic l → step ctl traffic l = some traffic' → Inv traffic')
    (h : Run (permitted (SparesLastIn ctl) (stepRel (drainStep ctl))) m rest sys)
    (hwatch : DrainsWatch ctl m) (hinv : Inv m.traffic) : Inv sys.traffic := by
  have hboth : DrainsWatch ctl sys ∧ Inv sys.traffic := by
    refine h.invariant (fun sys => DrainsWatch ctl sys ∧ Inv sys.traffic) ?_ ⟨hwatch, hinv⟩
    rintro s l t ⟨hwatch, hinv⟩ ⟨hok, hstep⟩
    exact ⟨hwatch.step hok hstep, (drainMove_of_step hstep).traffic_invariant hok Inv hinv
      fun l traffic hok hstep => hsteps _ l traffic hinv hwatch.queues hok hstep⟩
  exact hboth.2

/-- A controller that is watched and idle was announced. -/
theorem Watched.lt_of_idle {n : ℕ} {sys : System} (h : Watched n sys) (hfree : sys.lock = .free)
    (hidle : sys.state.active.isEmpty = true) : n < sys.idleNotifications := by
  refine lt_of_le_of_ne h.le fun heq => ?_
  have hbusy := h.busy heq.symm (by simp [hfree])
  simp [hidle] at hbusy

/-- In a run in which the scheduling loop never takes the last active request away, no
drain misses that the controller became idle, and every report is true. -/
theorem drains_of_run (h : Run (permitted (SparesLastIn ctl) (stepRel (drainStep ctl)))
    {} labels sys) : NeverMissesIdleness ctl labels sys := by
  have hobserve := drainsObserve_of_reaches (h.mono fun _ _ _ hstep => hstep.2)
  refine ⟨?_, ?_, ?_, ?_⟩
  · intro m rest hpasses hfree hfree' hbusy hidle
    obtain ⟨first, -, hfirst, hrest⟩ := Passes.permitted h hpasses
    have hwatched : Watched m.traffic.idleNotifications sys.traffic := by
      refine traffic_invariant_of_run (Watched _) ?_ hrest (drainsWatch_of_run hfirst)
        ⟨le_rfl, fun _ _ => hbusy⟩
      exact fun _ _ _ hwatched hqueues hok hstep => hwatched.step hqueues hok hstep
    exact hwatched.lt_of_idle hfree' hidle
  · intro m rest id call call' seen hpasses hcall hphase hfree hidle hcall' hphase'
    obtain ⟨first, -, hfirst, hrest⟩ := Passes.permitted h hpasses
    have hwatch := drainsWatch_of_run hfirst
    have hlt := (hwatch.waiting id call seen hcall hphase).lt_of_idle hfree hidle
    -- Notifications are not taken back.
    have hlt' : seen < sys.traffic.idleNotifications := by
      refine traffic_invariant_of_run (fun traffic => seen < traffic.idleNotifications) ?_
        hrest hwatch hlt
      exact fun _ _ _ hlt hqueues _ hstep => hlt.trans_le (idleNotifications_le hqueues hstep)
    simp [drainStep, hcall', hphase', hlt']
  · intro id call report hcall hphase hcompleted
    have hobserved := hobserve.observed id call hcall
    simpa [Observed, hphase, hcompleted] using hobserved
  · intro id call report hcall hphase hforced
    have hobserved := hobserve.observed id call hcall
    refine ⟨?_, hobserve.cancelled id call hcall⟩
    simpa [Observed, hphase, hforced] using hobserved

/-- Every run with fewer than `2 ^ 64` enqueued requests meets the condition. -/
theorem sparesLast_run_of_reaches (h : DrainReaches ctl labels sys)
    (hlt : sys.traffic.enqueues < 2 ^ 64) :
    Run (permitted (SparesLastIn ctl) (stepRel (drainStep ctl))) {} labels sys := by
  induction h with
  | nil => exact .nil _
  | @snoc sys sys' labels label hrun hlast ih =>
    have hle : sys.traffic.enqueues ≤ sys'.traffic.enqueues := by
      cases drainMove_of_step hlast with
      | traffic hstep => exact enqueues_le_of_log_prefix (log_prefix_of_step hstep)
      | begun hstep => exact enqueues_le_of_log_prefix (log_prefix_of_step hstep)
      | advanced | disconnected => exact le_rfl
    have hsound := ticketsSound_of_reaches (traffic_reaches hrun) (by omega)
    refine .snoc (ih (by omega)) ⟨?_, hlast⟩
    cases label with
    | traffic label => exact (hsound.freshGrant label).sparesLast
    | _ => trivial

end Runs

/-- One drain waits for the only request, and another cancels it after its deadline. -/
def patientAndForced : List DrainLabel :=
  [.traffic (.admitRequest (some "a") 99 0 7), .traffic (.schedule 0), .traffic .unlock,
    .drain (some 10), .drain (some 0), .subscribe 0, .check 0, .subscribe 1, .check 1,
    .expire 1 0, .collect 1, .cancel 1, .cancel 1, .traffic (.dropReceiver 0),
    .traffic (.release 0), .traffic .unlock, .wake 0, .subscribe 0, .check 0]

theorem drains_patientAndForced_run : ∃ sys,
    Run (permitted (SparesLastIn narrow) (stepRel (drainStep narrow))) {} patientAndForced sys ∧
    sys.drains.map DrainCall.phase =
      [.returned { completed := true, forcedCancellations := 0 },
        .returned { completed := false, forcedCancellations := 1 }] ∧
    sys.drains.map DrainCall.cancelled = [[], [7]] ∧
    NeverMissesIdleness narrow patientAndForced sys := by
  have h : (List.foldlM (drainStep narrow) {} patientAndForced).map
      (fun sys => (sys.drains.map DrainCall.phase, sys.drains.map DrainCall.cancelled,
        sys.traffic.enqueues)) =
      some ([.returned { completed := true, forcedCancellations := 0 },
        .returned { completed := false, forcedCancellations := 1 }], [[], [7]], 1) := by decide
  obtain ⟨sys, hrun, heq⟩ := Option.map_eq_some_iff.mp h
  simp only [Prod.mk.injEq] at heq
  obtain ⟨hphases, hcancelled, henqueues⟩ := heq
  have hreach : DrainReaches narrow _ sys := Run.of_foldlM hrun
  have hrun := sparesLast_run_of_reaches hreach (by omega)
  exact ⟨sys, hrun, hphases, hcancelled, drains_of_run hrun⟩

end Locus.Traffic
