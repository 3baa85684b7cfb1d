import Locus.Server.ConnectionLimit

/-!
# Shutting the transport down

Once the loop is left, every step of the transport uses up some of the work that is left,
and until `serve` has returned there is always such a step, whatever the peers of the
connections do. So `serve` returns after a bounded number of steps.
-/

namespace Locus.Server

open Locus.Http Locus.Lib

/-- The loop was left. -/
def ServePhase.stopped : ServePhase → Bool
  | .leaving | .closingListener | .notifying | .draining | .aborting | .returned => true
  | _ => false

/-- The steps that a task can still take, its join included. -/
def ConnectionTask.work : ConnectionTask → ℕ
  | .spawned => 7
  | .serving false => 6
  | .serving true => 5
  | .failed => 4
  | .closing | .discarded => 3
  | .releasing | .uncounting => 2
  | .finished => 1

/-- The steps that the loop can still take when it takes up no connection. -/
def ServePhase.work : ServePhase → ℕ
  | .opening => 16
  | .counting => 15
  | .configuring => 14
  | .misconfigured | .acceptFailed => 9
  | .uncounting | .recordingFailure => 8
  | .unpermitting | .backingOff | .accepting => 7
  | .acquiring => 6
  | .leaving => 5
  | .closingListener => 4
  | .notifying => 3
  | .draining => 2
  | .aborting => 1
  | .returned => 0

/-- The steps that the transport can still take when it takes up no connection. -/
def Transport.work (server : Transport) : ℕ :=
  (if server.shutdown then 0 else 1) + server.phase.work +
    totalWeight ConnectionTask.work server.tasks

/-- A step in which the loop goes on to take up a connection. -/
def Act.takesUp : Act → Bool
  | .acquire | .accept _ => true
  | _ => false

theorem ConnectionTask.step_work {sent aborted : Bool} {task next : ConnectionTask}
    {event : TaskEvent} {effect : Effect} (h : task.step sent aborted event = some (effect, next)) :
    next.work < task.work := by
  revert h
  fun_cases ConnectionTask.step <;> intro h <;> cases h <;> decide +revert

theorem ServePhase.advance_work {phase next : ServePhase} {effect : Effect}
    (h : phase.advance = some (effect, next)) :
    next.work < phase.work ∧ (phase.stopped → next.stopped) ∧ next ≠ .returned := by
  revert h
  fun_cases ServePhase.advance <;> intro h <;> cases h <;> decide

@[simp] theorem Transport.perform_shutdown (server : Transport) (effect : Effect) :
    (server.perform effect).shutdown = server.shutdown := by
  cases effect <;> rfl

/-- A step that takes up no connection uses up some of the work. -/
theorem Transport.step_work {server next : Transport} {label : Act} (h : label.takesUp = false)
    (hstep : server.step label = some next) : next.work < server.work := by
  cases label with
  | signal =>
    simp only [step, Option.ite_none_left_eq_some] at hstep
    obtain ⟨hopen, ⟨⟩⟩ := hstep
    simp [work, hopen]
  | leave =>
    simp only [step, Option.ite_none_right_eq_some] at hstep
    obtain ⟨-, hstep⟩ := hstep
    split at hstep <;> cases hstep
    all_goals
      rename_i hphase
      simp [work, hphase, ServePhase.work]
  | acquire => cases h
  | accept ok => cases h
  | configure ok =>
    simp only [step, Option.ite_none_right_eq_some] at hstep
    obtain ⟨hphase, hstep⟩ := hstep
    cases ok <;> cases hstep
    all_goals
      simp [work, hphase, ServePhase.work, ConnectionTask.work]
    omega
  | advance =>
    obtain ⟨⟨effect, phase⟩, hadvance, rfl⟩ := Option.map_eq_some_iff.mp hstep
    have hless := (ServePhase.advance_work hadvance).1
    simp [work]
    omega
  | join index =>
    simp only [step, Option.ite_none_right_eq_some] at hstep
    obtain ⟨⟨-, htask⟩, ⟨⟩⟩ := hstep
    have htotal := totalWeight_eraseIdx ConnectionTask.work htask
    have hone : ConnectionTask.finished.work = 1 := rfl
    simp only [work]
    omega
  | joined =>
    simp only [step, Option.ite_none_right_eq_some] at hstep
    obtain ⟨⟨hphase, -⟩, ⟨⟩⟩ := hstep
    rcases hphase with hphase | hphase <;> simp [work, hphase, ServePhase.work]
  | timeout =>
    simp only [step, Option.ite_none_right_eq_some] at hstep
    obtain ⟨⟨hphase, -⟩, ⟨⟩⟩ := hstep
    simp [work, hphase, ServePhase.work]
  | task index event =>
    obtain ⟨task, htask, hstep⟩ := Option.bind_eq_some_iff.mp hstep
    obtain ⟨⟨effect, new⟩, hnew, rfl⟩ := Option.map_eq_some_iff.mp hstep
    have hless := ConnectionTask.step_work hnew
    have htotal := totalWeight_set ConnectionTask.work htask new
    simp [work]
    omega

/-- A loop that was left takes up no connection and stays left. -/
theorem Transport.step_stopped {server next : Transport} {label : Act}
    (h : server.phase.stopped) (hstep : server.step label = some next) :
    label.takesUp = false ∧ next.phase.stopped := by
  cases label with
  | signal =>
    simp only [step, Option.ite_none_left_eq_some] at hstep
    obtain ⟨-, ⟨⟩⟩ := hstep
    exact ⟨rfl, h⟩
  | leave =>
    simp only [step, Option.ite_none_right_eq_some] at hstep
    obtain ⟨-, hstep⟩ := hstep
    split at hstep <;> cases hstep <;> exact ⟨rfl, rfl⟩
  | acquire =>
    simp only [step, Option.ite_none_right_eq_some] at hstep
    simp [hstep.1.1, ServePhase.stopped] at h
  | accept ok =>
    simp only [step, Option.ite_none_right_eq_some] at hstep
    simp [hstep.1, ServePhase.stopped] at h
  | configure ok =>
    simp only [step, Option.ite_none_right_eq_some] at hstep
    simp [hstep.1, ServePhase.stopped] at h
  | advance =>
    obtain ⟨⟨effect, phase⟩, hadvance, rfl⟩ := Option.map_eq_some_iff.mp hstep
    exact ⟨rfl, (ServePhase.advance_work hadvance).2.1 h⟩
  | join index =>
    simp only [step, Option.ite_none_right_eq_some] at hstep
    obtain ⟨-, ⟨⟩⟩ := hstep
    exact ⟨rfl, h⟩
  | joined =>
    simp only [step, Option.ite_none_right_eq_some] at hstep
    obtain ⟨-, ⟨⟩⟩ := hstep
    exact ⟨rfl, rfl⟩
  | timeout =>
    simp only [step, Option.ite_none_right_eq_some] at hstep
    obtain ⟨-, ⟨⟩⟩ := hstep
    exact ⟨rfl, rfl⟩
  | task index event =>
    obtain ⟨task, htask, hstep⟩ := Option.bind_eq_some_iff.mp hstep
    obtain ⟨⟨effect, new⟩, hnew, rfl⟩ := Option.map_eq_some_iff.mp hstep
    exact ⟨rfl, by simpa using h⟩

/-- Until `serve` has returned, some step takes up no connection. -/
theorem Transport.exists_step (server : Transport) (h : server.phase ≠ .returned) :
    ∃ label next, label.takesUp = false ∧ server.step label = some next := by
  cases hphase : server.phase with
  | acquiring | accepting =>
    by_cases hsignal : server.shutdown
    · exact ⟨.leave, _, rfl, by simp [step, hsignal, hphase]; rfl⟩
    · exact ⟨.signal, _, rfl, by simp [step, hsignal]; rfl⟩
  | configuring => exact ⟨.configure false, _, rfl, by simp [step, hphase]; rfl⟩
  | draining =>
    by_cases htasks : server.tasks = []
    · exact ⟨.joined, _, rfl, by simp [step, hphase, htasks]; rfl⟩
    · exact ⟨.timeout, _, rfl, by simp [step, hphase, htasks]; rfl⟩
  | aborting =>
    cases htasks : server.tasks with
    | nil => exact ⟨.joined, _, rfl, by simp [step, hphase, htasks]; rfl⟩
    | cons task rest =>
      -- The first task is aborted, goes on or is joined.
      cases task with
      | spawned | serving told =>
        exact ⟨.task 0 .abort, _, rfl, by simp [step, hphase, htasks, ConnectionTask.step]; rfl⟩
      | finished => exact ⟨.join 0, _, rfl, by simp [step, hphase, htasks]; rfl⟩
      | failed | closing | releasing | discarded | uncounting =>
        exact ⟨.task 0 .advance, _, rfl, by simp [step, htasks, ConnectionTask.step]; rfl⟩
  | returned => exact absurd hphase h
  | acceptFailed | recordingFailure | backingOff | opening | counting | misconfigured | uncounting
  | unpermitting | leaving | closingListener | notifying =>
    exact ⟨.advance, _, rfl, by simp [step, hphase, ServePhase.advance]; rfl⟩

/-- `serve` returns when no task is left. -/
theorem Transport.step_returned {server next : Transport} {label : Act}
    (h : server.phase = .returned → server.tasks = []) (hstep : server.step label = some next) :
    next.phase = .returned → next.tasks = [] := by
  intro hreturned
  cases label with
  | signal =>
    simp only [step, Option.ite_none_left_eq_some] at hstep
    obtain ⟨-, ⟨⟩⟩ := hstep
    exact h hreturned
  | leave =>
    simp only [step, Option.ite_none_right_eq_some] at hstep
    obtain ⟨-, hstep⟩ := hstep
    split at hstep <;> cases hstep <;> cases hreturned
  | acquire =>
    simp only [step, Option.ite_none_right_eq_some] at hstep
    obtain ⟨-, ⟨⟩⟩ := hstep
    cases hreturned
  | accept ok =>
    simp only [step, Option.ite_none_right_eq_some] at hstep
    obtain ⟨-, ⟨⟩⟩ := hstep
    cases ok <;> cases hreturned
  | configure ok =>
    simp only [step, Option.ite_none_right_eq_some] at hstep
    obtain ⟨-, hstep⟩ := hstep
    cases ok <;> cases hstep <;> cases hreturned
  | advance =>
    obtain ⟨⟨effect, phase⟩, hadvance, rfl⟩ := Option.map_eq_some_iff.mp hstep
    exact absurd hreturned (ServePhase.advance_work hadvance).2.2
  | join index =>
    simp only [step, Option.ite_none_right_eq_some] at hstep
    obtain ⟨⟨hphase, -⟩, ⟨⟩⟩ := hstep
    rcases hphase with hphase | hphase <;> simp [hphase] at hreturned
  | joined =>
    simp only [step, Option.ite_none_right_eq_some] at hstep
    obtain ⟨⟨-, htasks⟩, ⟨⟩⟩ := hstep
    exact htasks
  | timeout =>
    simp only [step, Option.ite_none_right_eq_some] at hstep
    obtain ⟨-, ⟨⟩⟩ := hstep
    cases hreturned
  | task index event =>
    obtain ⟨task, htask, hstep⟩ := Option.bind_eq_some_iff.mp hstep
    obtain ⟨⟨effect, new⟩, -, rfl⟩ := Option.map_eq_some_iff.mp hstep
    rw [h (by simpa using hreturned)] at htask
    cases htask

/-- The loop takes up no connection in a run from where it was left. -/
theorem takesUp_of_stopped {server t : Transport} {labels : List Act}
    (hrun : Run (stepRel Transport.step) server labels t) (h : server.phase.stopped) :
    t.phase.stopped ∧ ∀ label ∈ labels, label.takesUp = false := by
  induction hrun with
  | nil => exact ⟨h, by simp⟩
  | snoc _ hlast ih =>
    obtain ⟨hstopped, hnone⟩ := ih
    obtain ⟨hlabel, hnext⟩ := Transport.step_stopped hstopped hlast
    refine ⟨hnext, fun label hmem => ?_⟩
    rcases List.mem_append.mp hmem with hmem | hmem
    · exact hnone label hmem
    · rwa [List.mem_singleton.mp hmem]

/-- `serve` can return from every state it reaches. After its loop was left, every run takes
no more steps than there is work left and takes up no connection. It is not stuck before
`serve` has returned, and then no task is left, every permit is free and the gauge is zero. -/
theorem serve_shuts_down {settings : HttpSettings} {server s : Transport} {labels : List Act}
    (hserve : serve settings = .ok server) (hrun : Run (stepRel Transport.step) server labels s) :
    (∃ more t, Run (stepRel Transport.step) s more t ∧ t.phase = .returned) ∧
      (s.phase.stopped → ∀ more t, Run (stepRel Transport.step) s more t →
        more.length ≤ s.work ∧ (∀ label ∈ more, label.takesUp = false) ∧
        (t.phase ≠ .returned → ∃ label next, t.step label = some next) ∧
        (t.phase = .returned → t.tasks = [] ∧ t.available = settings.maxConnections.toNat ∧
          t.metrics.activeConnections = 0)) := by
  constructor
  · refine exists_run_to_end (fun _ => True) Transport.work
      (fun server _ hopen => ?_) s trivial
    obtain ⟨label, next, hlabel, hstep⟩ := server.exists_step hopen
    exact ⟨label, next, hstep, trivial, Transport.step_work hlabel hstep⟩
  intro hstopped more t hmore
  refine ⟨?_, (takesUp_of_stopped hmore hstopped).2, fun hopen => ?_, fun hreturned => ?_⟩
  · have hlength := hmore.length_add_le (fun server => server.phase.stopped)
      Transport.work (fun _ _ _ h hstep => (Transport.step_stopped h hstep).2)
      (fun _ _ _ h hstep => Transport.step_work (Transport.step_stopped h hstep).1 hstep) hstopped
    omega
  · obtain ⟨label, next, -, hstep⟩ := t.exists_step hopen
    exact ⟨label, next, hstep⟩
  · have hall := hrun.append hmore
    have htasks : t.tasks = [] := by
      refine hall.invariant (fun server => server.phase = .returned → server.tasks = [])
        (fun _ _ _ h hstep => Transport.step_returned h hstep) ?_ hreturned
      rw [(serve_eq_ok hserve).1]
      intro _
      rfl
    have h := accounts_of_run hserve hall
    have hpermits := h.permits
    have hactive := h.active
    simp [Transport.permitsHeld, hreturned, htasks, ServePhase.permits] at hpermits
    simp [Transport.connectionsCounted, hreturned, htasks, ServePhase.guards] at hactive
    exact ⟨htasks, hpermits, hactive⟩

/-- A server with room for one connection is shut down while the connection is open. -/
theorem serve_shuts_down_one :
    ∃ server s, serve { maxConnections := 1 } = .ok server ∧
      Run (stepRel Transport.step) server
        [.acquire, .accept true, .advance, .advance, .configure true, .task 0 .poll, .signal,
          .leave] s ∧ s.phase.stopped ∧
      ∃ more t, Run (stepRel Transport.step) s more t ∧ t.phase = .returned := by
  refine ⟨_, _, rfl, Run.of_foldlM rfl, rfl, ?_⟩
  exact (@serve_shuts_down { maxConnections := 1 } _ _ [.acquire, .accept true, .advance, .advance,
    .configure true, .task 0 .poll, .signal, .leave] rfl (Run.of_foldlM rfl)).1

end Locus.Server
