import Locus.Traffic.Mirror

/-!
# What an idle controller remembers

When nothing waits and nothing is active, the past of a controller is in its virtual
runtimes and in its draining flag: from there on it grants as a new controller does
that starts with them. The virtual runtimes of a tenant that used the controller alone
stay, so an idle controller is in general not a new one.
-/

namespace Locus.Traffic

open Std (TreeMap)
open Locus.Lib

variable {ctl : TrafficController} {sys sys' : System}

/-- Nothing waits and nothing is active. -/
def System.Idle (sys : System) : Prop :=
  waitingList sys.state.waiting = [] ∧ sys.state.active.size = 0

instance (sys : System) : Decidable sys.Idle := inferInstanceAs (Decidable (_ ∧ _))

/-- A new controller with the virtual runtimes and the draining flag of another. A thread
that is still inside its scheduling loop is kept there. -/
def System.renewed (sys : System) : System where
  state := {
    draining := sys.state.draining
    classVruntime := sys.state.classVruntime
    tenantVruntime := sys.state.tenantVruntime }
  lock := sys.lock

/-- A new controller is sound, whatever its virtual runtimes are. -/
private theorem ticketsSound_renewed (ctl : TrafficController) (sys : System) :
    TicketsSound ctl sys.renewed := by
  have hqueue : QueueSound ctl ∅ sys.state.draining {} {} :=
    { QueueSound.empty with drained := by simp }
  refine ⟨⟨hqueue, ActiveSound.empty⟩, ?_, rfl, fun c t => ?_⟩
  · simpa [System.renewed] using Ledger.empty
  · simp [System.renewed, grantedTo]

/-- The queues of an idle system are empty. -/
private theorem System.Idle.queue (h : sys.Idle) (c t : String) :
    queueOf sys.state.waiting c t = [] := by
  refine List.eq_nil_iff_forall_not_mem.mpr fun q hq => ?_
  have hmem : (⟨c, t, q⟩ : WaitingEntry) ∈ waitingEntries sys.state.waiting :=
    mem_waitingEntries.mpr hq
  rw [← coe_waitingList, h.1] at hmem
  simp at hmem

/-- An idle system and its renewal are in step. -/
private theorem System.Idle.twins (h : sys.Idle) (hsound : TicketsSound ctl sys) :
    Twins ctl sys.channels.length (grantedTickets sys.log) sys sys.renewed := by
  have hempty : sys.state.active.isEmpty := by
    rw [TreeMap.isEmpty_eq_size_eq_zero, h.2]
    rfl
  have hlike : Renumbered sys.channels.length sys.state sys.renewed.state := by
    refine ⟨rfl, fun c t => ?_, fun ticket => ?_, fun _ => rfl, fun _ => rfl⟩
    · simp [System.renewed, h.queue c t]
    · simp [System.renewed, TreeMap.getElem?_of_isEmpty hempty]
  have hlog : Continues sys.channels.length (grantedTickets sys.log) sys.log sys.renewed.log := by
    refine ⟨by simp [System.renewed, grantedTickets], ?_⟩
    rw [hsound.ledger.enqueued, List.length_map]
    exact (Nat.zero_add _).symm
  exact ⟨⟨hlike, rfl, ⟨sys.channels, rfl, by simp [System.renewed]⟩, hlog⟩, hsound,
    ticketsSound_renewed ctl sys⟩

/-- From an idle state on, the controller grants what a new one with the same virtual runtimes
and draining flag grants, under tickets moved up by the number handed out before. -/
theorem grants_of_idle {before later : List Label} (hreach : Reaches ctl before sys)
    (hidle : sys.Idle) (hrun : Run (stepRel (step ctl)) sys later sys')
    (hlt : sys'.enqueues < 2 ^ 64) :
    ∃ new, Run (stepRel (step ctl)) sys.renewed
        (later.filterMap (Label.after sys.channels.length)) new ∧
      grantedTickets sys'.log = grantedTickets sys.log ++
        (grantedTickets new.log).map (laterTicket sys.channels.length) := by
  have hle := enqueues_le_of_log_prefix (log_prefix_of_run hrun)
  have hsound := ticketsSound_of_reaches hreach (by omega)
  obtain ⟨new, hnew, htwins⟩ := (hidle.twins hsound).run hrun hlt
  exact ⟨new, hnew, htwins.log.granted⟩

section Turns

/-- A tenant of the only class. -/
def turnsTenant (id : String) : TenantPolicy where
  id := id
  serviceClass := "batch"
  weight := 1
  maxActiveRequests := 1
  maxActiveTokens := 100
  maxQueuedRequests := 8
  maxTokensPerRequest := 100
  defaultRequestTimeout := 1000000000
  maxRequestTimeout := 1000000000

/-- Two tenants of one class take turns: one request is active at a time. -/
def turns : TrafficController where
  policy := {
    maxActiveRequests := 1, maxActiveTokens := 100, maxQueuedRequests := 8,
    defaultOutputTokens := 10
    classes := [{
      id := "batch", weight := 1, maxActiveRequests := 1, maxActiveTokens := 100,
      shedAtGlobalUtilizationBps := none }]
    tenants := [turnsTenant "a", turnsTenant "b"] }
  accepted := by decide

/-- One tenant uses the controller alone and leaves it idle. -/
def aloneOnce : List Label :=
  [.admitRequest (some "a") 10 0 0, .schedule 0, .unlock, .dropReceiver 0, .release 0, .unlock]

/-- Both tenants queue up behind a request, given the number of its channel, and it is released. -/
def contend (id : ℕ) : List Label :=
  [.admitRequest (some "b") 1 0 0, .schedule 0, .unlock, .admitRequest (some "a") 1 0 0, .unlock,
    .admitRequest (some "b") 1 0 0, .unlock, .dropReceiver id, .release id, .schedule 0]

/-- The tenant that was alone before is granted second, although a new controller grants it
first; and a controller that drains does not admit what a new one admits. -/
theorem not_grants_of_idle_turns :
    (∃ sys sys' new, Reaches turns aloneOnce sys ∧ sys.Idle ∧ sys.lock = .free ∧
      Run (stepRel (step turns)) sys (contend 1) sys' ∧
      Run (stepRel (step turns)) {} ((contend 1).filterMap (Label.after sys.channels.length)) new ∧
      grantedTickets sys'.log = grantedTickets sys.log ++ [2, 4] ∧
      (grantedTickets new.log).map (laterTicket sys.channels.length) = [2, 3]) ∧
    ∃ sys sys' new, Reaches turns [.beginDrain] sys ∧ sys.Idle ∧ sys.lock = .free ∧
      Run (stepRel (step turns)) sys [.admitRequest (some "a") 1 0 0] sys' ∧ sys'.lock = .free ∧
      Run (stepRel (step turns)) {} [.admitRequest (some "a") 1 0 0, .schedule 0, .unlock] new ∧
      new.lock = .free ∧ grantedTickets sys'.log = grantedTickets sys.log ∧
      grantedTickets new.log = [1] := by
  have halone : (aloneOnce.foldlM (step turns) {}).bind (fun sys =>
      ((contend 1).foldlM (step turns) sys).bind fun sys' =>
      (((contend 1).filterMap (Label.after sys.channels.length)).foldlM (step turns) {}).map
        fun new => (decide sys.Idle, sys.lock, grantedTickets sys.log, grantedTickets sys'.log,
          (grantedTickets new.log).map (laterTicket sys.channels.length))) =
      some (true, .free, [1], [1, 2, 4], [2, 3]) := by decide
  have hdrained : (List.foldlM (step turns) {} [.beginDrain]).bind (fun sys =>
      (List.foldlM (step turns) sys [.admitRequest (some "a") 1 0 0]).bind fun sys' =>
      (List.foldlM (step turns) {} [.admitRequest (some "a") 1 0 0, .schedule 0, .unlock]).map
        fun new => (decide sys.Idle, [sys.lock, sys'.lock, new.lock], grantedTickets sys.log,
          grantedTickets sys'.log, grantedTickets new.log)) =
      some (true, [.free, .free, .free], [], [], [1]) := by decide
  constructor
  · obtain ⟨sys, hreach, h⟩ := Option.bind_eq_some_iff.mp halone
    obtain ⟨sys', hrun, h⟩ := Option.bind_eq_some_iff.mp h
    obtain ⟨new, hnew, heq⟩ := Option.map_eq_some_iff.mp h
    simp only [Prod.mk.injEq, decide_eq_true_eq] at heq
    obtain ⟨hidle, hlock, hbefore, hafter, hfresh⟩ := heq
    exact ⟨sys, sys', new, Run.of_foldlM hreach, hidle, hlock, Run.of_foldlM hrun,
      Run.of_foldlM hnew, by rw [hbefore, hafter]; rfl, hfresh⟩
  · obtain ⟨sys, hreach, h⟩ := Option.bind_eq_some_iff.mp hdrained
    obtain ⟨sys', hrun, h⟩ := Option.bind_eq_some_iff.mp h
    obtain ⟨new, hnew, heq⟩ := Option.map_eq_some_iff.mp h
    simp only [Prod.mk.injEq, List.cons.injEq, and_true, decide_eq_true_eq] at heq
    obtain ⟨hidle, ⟨hlock, hlock', hnewLock⟩, hbefore, hafter, hfresh⟩ := heq
    exact ⟨sys, sys', new, Run.of_foldlM hreach, hidle, hlock, Run.of_foldlM hrun, hlock',
      Run.of_foldlM hnew, hnewLock, by rw [hbefore, hafter], hfresh⟩

/-- The renewed controller grants in the order of the one that was idle. -/
theorem grants_of_idle_turns : ∃ sys sys' new, Reaches turns aloneOnce sys ∧ sys.Idle ∧
    Run (stepRel (step turns)) sys (contend 1) sys' ∧
    Run (stepRel (step turns)) sys.renewed
      ((contend 1).filterMap (Label.after sys.channels.length)) new ∧
    grantedTickets sys'.log = [1, 2, 4] ∧
    grantedTickets sys'.log = grantedTickets sys.log ++
      (grantedTickets new.log).map (laterTicket sys.channels.length) := by
  have h : (aloneOnce.foldlM (step turns) {}).bind (fun sys =>
      ((contend 1).foldlM (step turns) sys).map fun sys' =>
        (decide sys.Idle, sys'.enqueues, grantedTickets sys'.log)) =
      some (true, 4, [1, 2, 4]) := by decide
  obtain ⟨sys, hreach, h⟩ := Option.bind_eq_some_iff.mp h
  obtain ⟨sys', hrun, heq⟩ := Option.map_eq_some_iff.mp h
  simp only [Prod.mk.injEq, decide_eq_true_eq] at heq
  obtain ⟨hidle, henqueues, hgranted⟩ := heq
  have hreach : Reaches turns aloneOnce sys := Run.of_foldlM hreach
  have hrun := Run.of_foldlM hrun
  obtain ⟨new, hnew, heq⟩ := grants_of_idle hreach hidle hrun (by omega)
  exact ⟨sys, sys', new, hreach, hidle, hrun, hnew, hgranted, heq⟩

end Turns

end Locus.Traffic
