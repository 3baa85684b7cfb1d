import Locus.Server.ConnectionNames

/-!
# The connection limit

Every permit is free, held by the loop or held by a task, and a connection is counted for
as long as its guard lives. In every run of the transport the counters are what the steps
taken so far have made of them.
-/

namespace Locus.Server

open Locus.Http Locus.Lib

/-- The permits that a task holds. -/
def ConnectionTask.permits : ConnectionTask → ℕ
  | .spawned | .serving _ | .failed | .closing | .releasing | .discarded => 1
  | .uncounting | .finished => 0

/-- The guards of the active connections that a task holds. -/
def ConnectionTask.guards : ConnectionTask → ℕ
  | .spawned | .serving _ | .failed | .closing | .discarded | .uncounting => 1
  | .releasing | .finished => 0

/-- The errors that a task has met and not recorded. -/
def ConnectionTask.errors : ConnectionTask → ℕ
  | .failed => 1
  | _ => 0

/-- Whether a task is one that was dropped before it was polled. -/
def ConnectionTask.unpolled : ConnectionTask → ℕ
  | .discarded | .uncounting => 1
  | _ => 0

/-- The permits that the loop holds. -/
def ServePhase.permits : ServePhase → ℕ
  | .accepting | .acceptFailed | .opening | .counting | .configuring | .misconfigured
  | .uncounting | .unpermitting | .leaving => 1
  | _ => 0

/-- The guards of the active connections that the loop holds. -/
def ServePhase.guards : ServePhase → ℕ
  | .configuring | .misconfigured | .uncounting => 1
  | _ => 0

/-- The connections that the loop has accepted and not counted. -/
def ServePhase.unopened : ServePhase → ℕ
  | .opening => 1
  | _ => 0

/-- The failures to accept that the loop has not recorded. -/
def ServePhase.unrecorded : ServePhase → ℕ
  | .acceptFailed | .recordingFailure => 1
  | _ => 0

/-- The errors of connections that the loop has not recorded. -/
def ServePhase.errors : ServePhase → ℕ
  | .misconfigured => 1
  | _ => 0

/-- The permits that are taken. -/
def Transport.permitsHeld (server : Transport) : ℕ :=
  server.phase.permits + totalWeight ConnectionTask.permits server.tasks

/-- The connections whose guards are alive. -/
def Transport.connectionsCounted (server : Transport) : ℕ :=
  server.phase.guards + totalWeight ConnectionTask.guards server.tasks

/-- The errors of connections that are not recorded yet. -/
def Transport.errorsPending (server : Transport) : ℕ :=
  server.phase.errors + totalWeight ConnectionTask.errors server.tasks

/-- The connections that can still be lost to an error. -/
def Transport.undecided (server : Transport) : ℕ :=
  server.phase.undecided + totalWeight ConnectionTask.undecided server.tasks

/-- What is entered in the books. -/
structure Entry where
  permits : ℕ := 0
  accepted : ℕ := 0
  opened : ℕ := 0
  dropped : ℕ := 0
  acceptErrors : ℕ := 0
  connectionErrors : ℕ := 0
  forcedCloses : ℕ := 0

def Effect.entry : Effect → Entry
  | .pass | .sendShutdown => {}
  | .countAccepted => { accepted := 1 }
  | .countActive => { opened := 1 }
  | .dropConnection => { dropped := 1 }
  | .recordAcceptError => { acceptErrors := 1 }
  | .recordConnectionError => { connectionErrors := 1 }
  | .releasePermit => { permits := 1 }

/-- An event in which a connection is lost to an error. -/
def TaskEvent.errors : TaskEvent → ℕ
  | .fail => 1
  | _ => 0

/-- What a task gives up, it enters in the books. -/
theorem ConnectionTask.step_entry {sent aborted : Bool} {task next : ConnectionTask}
    {event : TaskEvent} {effect : Effect} (h : task.step sent aborted event = some (effect, next)) :
    next.permits + effect.entry.permits = task.permits ∧
      next.guards + effect.entry.dropped = task.guards ∧
      next.errors + effect.entry.connectionErrors = task.errors + event.errors ∧
      next.undecided + event.errors ≤ task.undecided ∧
      (aborted = false → next.unpolled ≤ task.unpolled) ∧
      effect.entry.accepted = 0 ∧ effect.entry.opened = 0 ∧ effect.entry.acceptErrors = 0 := by
  revert h
  fun_cases ConnectionTask.step <;> intro h <;> cases h <;> decide +revert

/-- What the loop gives up where it does not wait, it enters in the books. -/
theorem ServePhase.advance_entry {phase next : ServePhase} {effect : Effect}
    (h : phase.advance = some (effect, next)) :
    next.permits + effect.entry.permits = phase.permits ∧
      next.guards + effect.entry.dropped = phase.guards + effect.entry.opened ∧
      next.unopened + effect.entry.accepted = phase.unopened ∧
      next.unrecorded + effect.entry.acceptErrors = phase.unrecorded ∧
      next.errors + effect.entry.connectionErrors = phase.errors ∧
      next.undecided = phase.undecided ∧ phase ≠ .aborting ∧ next ≠ .aborting := by
  revert h
  fun_cases ServePhase.advance <;> intro h <;> cases h <;> decide

section Perform

variable (server : Transport) (effect : Effect)

@[simp] theorem Effect.entry_forcedCloses : effect.entry.forcedCloses = 0 := by
  cases effect <;> rfl

@[simp] theorem Transport.perform_available :
    (server.perform effect).available = server.available + effect.entry.permits := by
  cases effect <;> rfl

/-- The counters are the books, up to the size of a word. -/
theorem Transport.perform_metrics :
    let after := (server.perform effect).metrics
    let before := server.metrics
    after.acceptedConnections = before.acceptedConnections + .ofNat effect.entry.accepted ∧
      after.activeConnections + .ofNat effect.entry.dropped =
        before.activeConnections + .ofNat effect.entry.opened ∧
      after.acceptErrors = before.acceptErrors + .ofNat effect.entry.acceptErrors ∧
      after.connectionErrors = before.connectionErrors + .ofNat effect.entry.connectionErrors ∧
      after.forcedCloses = before.forcedCloses + .ofNat effect.entry.forcedCloses := by
  cases effect <;> simp [perform, Effect.entry, TransportMetrics.countAccepted,
    TransportMetrics.countActive, TransportMetrics.connectionDropped,
    TransportMetrics.recordAcceptError, TransportMetrics.recordConnectionError]

end Perform

/-- The books after the given steps. -/
structure Accounts (limit : ℕ) (labels : List Act) (server : Transport) : Prop where
  permits : server.available + server.permitsHeld = limit
  active : server.metrics.activeConnections = .ofNat server.connectionsCounted
  accepted : server.metrics.acceptedConnections + .ofNat server.phase.unopened =
    .ofNat (labels.count (.accept true))
  acceptErrors : server.metrics.acceptErrors + .ofNat server.phase.unrecorded =
    .ofNat (labels.count (.accept false))
  connectionErrors : server.metrics.connectionErrors + .ofNat server.errorsPending =
    .ofNat (labels.countP Act.isConnectionError)
  forcedCloses : server.metrics.forcedCloses = .ofNat (rosterAfter labels).forced.length
  decided : labels.countP Act.isConnectionError + server.undecided ≤ labels.count (.accept true)
  unpolled : server.phase ≠ .aborting →
    totalWeight ConnectionTask.unpolled server.tasks = 0
  counted : server.connectionsCounted ≤ limit

/-- A connection whose permit is given back before its guard was dropped unpolled. -/
theorem Transport.connectionsCounted_le (server : Transport) :
    server.connectionsCounted ≤
      server.permitsHeld + totalWeight ConnectionTask.unpolled server.tasks := by
  have hphase : server.phase.guards ≤ server.phase.permits := by
    cases server.phase <;> decide
  have htasks : totalWeight ConnectionTask.guards server.tasks ≤
      totalWeight ConnectionTask.permits server.tasks +
        totalWeight ConnectionTask.unpolled server.tasks := by
    rw [← totalWeight_add]
    refine totalWeight_le _ fun task _ => ?_
    cases task <;> simp [ConnectionTask.guards, ConnectionTask.permits, ConnectionTask.unpolled]
  simp only [connectionsCounted, permitsHeld]
  omega

/-- A counter of what there is follows what comes and goes. -/
theorem word_balance {before after : UInt64} {n n' opened dropped : ℕ}
    (hbefore : before = .ofNat n) (hafter : after + .ofNat dropped = before + .ofNat opened)
    (hn : n' + dropped = n + opened) : after = .ofNat n' := by
  rw [hbefore, ← UInt64.ofNat_add, ← hn, UInt64.ofNat_add] at hafter
  exact (UInt64.add_left_inj _).mp hafter

/-- A counter of events together with the events that are pending follows the events. -/
theorem word_record {before after : UInt64} {pending pending' total new recorded : ℕ}
    (hbefore : before + .ofNat pending = .ofNat total) (hafter : after = before + .ofNat recorded)
    (hpending : pending' + recorded = pending + new) :
    after + .ofNat pending' = .ofNat (total + new) := by
  rw [hafter, UInt64.ofNat_add, ← hbefore, UInt64.add_assoc, UInt64.add_assoc,
    ← UInt64.ofNat_add, ← UInt64.ofNat_add, ← hpending, Nat.add_comm]

/-- A step that enters its effect in the books keeps them. -/
theorem Accounts.enter {limit : ℕ} {labels : List Act} {label : Act} {server next : Transport}
    (h : Accounts limit labels server) (entry : Entry)
    (hpermits : next.available + next.permitsHeld = server.available + server.permitsHeld)
    (hactive : next.metrics.activeConnections + .ofNat entry.dropped =
      server.metrics.activeConnections + .ofNat entry.opened)
    (hcounted : next.connectionsCounted + entry.dropped =
      server.connectionsCounted + entry.opened)
    (haccepted : next.metrics.acceptedConnections =
      server.metrics.acceptedConnections + .ofNat entry.accepted)
    (hunopened : next.phase.unopened + entry.accepted =
      server.phase.unopened + [label].count (.accept true))
    (hacceptErrors : next.metrics.acceptErrors =
      server.metrics.acceptErrors + .ofNat entry.acceptErrors)
    (hunrecorded : next.phase.unrecorded + entry.acceptErrors =
      server.phase.unrecorded + [label].count (.accept false))
    (herrors : next.metrics.connectionErrors =
      server.metrics.connectionErrors + .ofNat entry.connectionErrors)
    (hpending : next.errorsPending + entry.connectionErrors =
      server.errorsPending + [label].countP Act.isConnectionError)
    (hforcedCloses : next.metrics.forcedCloses =
      server.metrics.forcedCloses + .ofNat entry.forcedCloses)
    (hforced : (rosterAfter (labels ++ [label])).forced.length =
      (rosterAfter labels).forced.length + entry.forcedCloses)
    (hundecided : next.undecided + [label].countP Act.isConnectionError ≤
      server.undecided + [label].count (.accept true))
    (hunpolled : next.phase ≠ .aborting →
      totalWeight ConnectionTask.unpolled next.tasks = 0)
    (haborting : next.phase = .aborting → next.connectionsCounted ≤ server.connectionsCounted) :
    Accounts limit (labels ++ [label]) next := by
  have hdecided := h.decided
  refine ⟨hpermits.trans h.permits, word_balance h.active hactive hcounted, ?_, ?_, ?_, ?_, ?_,
    hunpolled, ?_⟩
  · rw [List.count_append]
    exact word_record h.accepted haccepted hunopened
  · rw [List.count_append]
    exact word_record h.acceptErrors hacceptErrors hunrecorded
  · rw [List.countP_append]
    exact word_record h.connectionErrors herrors hpending
  · rw [hforcedCloses, hforced, h.forcedCloses, UInt64.ofNat_add]
  · rw [List.count_append, List.countP_append]
    omega
  · by_cases hphase : next.phase = .aborting
    · exact (haborting hphase).trans h.counted
    · have hle := next.connectionsCounted_le
      rw [hunpolled hphase] at hle
      have hlimit := hpermits.trans h.permits
      omega

/-- A step that enters nothing in the books keeps them. -/
theorem Accounts.pass {limit : ℕ} {labels : List Act} {label : Act} {server next : Transport}
    (h : Accounts limit labels server) (hlabel : label ≠ .timeout)
    (hmetrics : next.metrics = server.metrics)
    (hpermits : next.available + next.permitsHeld = server.available + server.permitsHeld)
    (hcounted : next.connectionsCounted = server.connectionsCounted)
    (hunopened : next.phase.unopened = server.phase.unopened + [label].count (.accept true))
    (hunrecorded : next.phase.unrecorded = server.phase.unrecorded + [label].count (.accept false))
    (hpending : next.errorsPending = server.errorsPending + [label].countP Act.isConnectionError)
    (hundecided : next.undecided + [label].countP Act.isConnectionError ≤
      server.undecided + [label].count (.accept true))
    (hunpolled : next.phase ≠ .aborting →
      totalWeight ConnectionTask.unpolled next.tasks = 0) :
    Accounts limit (labels ++ [label]) next :=
  h.enter {} hpermits (by rw [hmetrics]) hcounted (by simp [hmetrics]) hunopened
    (by simp [hmetrics]) hunrecorded (by simp [hmetrics]) hpending (by simp [hmetrics])
    (by simp [Roster.read_forced hlabel]) hundecided hunpolled fun _ => hcounted.le

/-- A step of the loop where it does not wait is entered in the books. -/
theorem Accounts.advance {limit : ℕ} {labels : List Act} {server next : Transport}
    (h : Accounts limit labels server) (hstep : server.step .advance = some next) :
    Accounts limit (labels ++ [.advance]) next := by
  obtain ⟨⟨effect, phase⟩, hadvance, rfl⟩ := Option.map_eq_some_iff.mp hstep
  have hunpolled := h.unpolled
  have hentry := ServePhase.advance_entry hadvance
  have hmetrics := server.perform_metrics effect
  refine h.enter effect.entry ?_ hmetrics.2.1 ?_ hmetrics.1 ?_ hmetrics.2.2.1 ?_
    hmetrics.2.2.2.1 ?_ hmetrics.2.2.2.2 ?_ ?_ ?_ ?_
  · simp [Transport.permitsHeld]
    omega
  · simp [Transport.connectionsCounted]
    omega
  · simp
    omega
  · simp
    omega
  · simp [Transport.errorsPending, Act.isConnectionError]
    omega
  · simp [Roster.read]
  · simp [Transport.undecided, Act.isConnectionError]
    omega
  · intro _
    simpa using hunpolled hentry.2.2.2.2.2.2.1
  · intro hphase
    exact absurd hphase hentry.2.2.2.2.2.2.2

/-- A step of a task is entered in the books. -/
theorem Accounts.task {limit : ℕ} {labels : List Act} {server next : Transport} {index : ℕ}
    {event : TaskEvent} (h : Accounts limit labels server)
    (hstep : server.step (.task index event) = some next) :
    Accounts limit (labels ++ [.task index event]) next := by
  obtain ⟨task, htask, hstep⟩ := Option.bind_eq_some_iff.mp hstep
  obtain ⟨⟨effect, new⟩, hnew, rfl⟩ := Option.map_eq_some_iff.mp hstep
  have hunpolled := h.unpolled
  have hentry := ConnectionTask.step_entry hnew
  have hmetrics := server.perform_metrics effect
  have hpermits := totalWeight_set ConnectionTask.permits htask new
  have hguards := totalWeight_set ConnectionTask.guards htask new
  have herrors := totalWeight_set ConnectionTask.errors htask new
  have hundecided := totalWeight_set ConnectionTask.undecided htask new
  have hnone := totalWeight_set ConnectionTask.unpolled htask new
  have hevent : [Act.task index event].countP Act.isConnectionError = event.errors := by
    cases event <;> rfl
  refine h.enter effect.entry ?_ hmetrics.2.1 ?_ hmetrics.1 ?_ hmetrics.2.2.1 ?_
    hmetrics.2.2.2.1 ?_ hmetrics.2.2.2.2 ?_ ?_ ?_ ?_
  · simp [Transport.permitsHeld]
    omega
  · simp [Transport.connectionsCounted]
    omega
  · simp
    omega
  · simp
    omega
  · simp [Transport.errorsPending, hevent]
    omega
  · rw [rosterAfter_concat, Roster.read_forced (by simp)]
    simp
  · simp [Transport.undecided, hevent]
    omega
  · intro hphase
    simp at hphase
    have hkept := hentry.2.2.2.2.1 (by simpa using hphase)
    have hzero := hunpolled hphase
    dsimp only
    omega
  · intro _
    simp [Transport.connectionsCounted]
    omega

section Step

attribute [local simp] ConnectionTask.permits ConnectionTask.guards ConnectionTask.errors
  ConnectionTask.undecided ConnectionTask.unpolled ServePhase.permits ServePhase.guards
  ServePhase.undecided ServePhase.unopened ServePhase.unrecorded ServePhase.errors
  Act.isConnectionError

/-- Every step of the transport is entered in the books. -/
theorem Accounts.step {limit : ℕ} {labels : List Act} {label : Act} {server next : Transport}
    (h : Accounts limit labels server) (hroster : (rosterAfter labels).Matches server)
    (hstep : server.step label = some next) :
    Accounts limit (labels ++ [label]) next := by
  have hunpolled := h.unpolled
  cases label with
  | signal =>
    simp only [Transport.step, Option.ite_none_left_eq_some] at hstep
    obtain ⟨-, ⟨⟩⟩ := hstep
    exact h.pass (by simp) rfl rfl rfl rfl rfl rfl le_rfl hunpolled
  | leave =>
    simp only [Transport.step, Option.ite_none_right_eq_some] at hstep
    obtain ⟨-, hstep⟩ := hstep
    split at hstep <;> cases hstep
    all_goals
      apply h.pass <;>
        simp_all [Transport.permitsHeld, Transport.connectionsCounted, Transport.errorsPending,
          Transport.undecided]
  | acquire =>
    simp only [Transport.step, Option.ite_none_right_eq_some] at hstep
    obtain ⟨⟨hphase, hfree⟩, ⟨⟩⟩ := hstep
    apply h.pass <;>
      simp_all [Transport.permitsHeld, Transport.connectionsCounted, Transport.errorsPending,
        Transport.undecided]
    omega
  | accept ok =>
    simp only [Transport.step, Option.ite_none_right_eq_some] at hstep
    obtain ⟨hphase, ⟨⟩⟩ := hstep
    cases ok
    all_goals
      apply h.pass <;>
        simp_all [Transport.permitsHeld, Transport.connectionsCounted, Transport.errorsPending,
          Transport.undecided]
    omega
  | configure ok =>
    simp only [Transport.step, Option.ite_none_right_eq_some] at hstep
    obtain ⟨hphase, hstep⟩ := hstep
    cases ok <;> cases hstep
    all_goals
      apply h.pass <;>
        simp_all [Transport.permitsHeld, Transport.connectionsCounted, Transport.errorsPending,
          Transport.undecided]
    all_goals omega
  | advance => exact h.advance hstep
  | join index =>
    simp only [Transport.step, Option.ite_none_right_eq_some] at hstep
    obtain ⟨⟨hphase, htask⟩, ⟨⟩⟩ := hstep
    have hpermits := totalWeight_eraseIdx ConnectionTask.permits htask
    have hguards := totalWeight_eraseIdx ConnectionTask.guards htask
    have herrors := totalWeight_eraseIdx ConnectionTask.errors htask
    have hundecided := totalWeight_eraseIdx ConnectionTask.undecided htask
    have hnone := totalWeight_eraseIdx ConnectionTask.unpolled htask
    apply h.pass <;>
      simp_all [Transport.permitsHeld, Transport.connectionsCounted, Transport.errorsPending,
        Transport.undecided]
  | joined =>
    simp only [Transport.step, Option.ite_none_right_eq_some] at hstep
    obtain ⟨⟨hphase, htasks⟩, ⟨⟩⟩ := hstep
    rcases hphase with hphase | hphase
    all_goals
      apply h.pass <;>
        simp_all [Transport.permitsHeld, Transport.connectionsCounted, Transport.errorsPending,
          Transport.undecided]
  | timeout =>
    simp only [Transport.step, Option.ite_none_right_eq_some] at hstep
    obtain ⟨⟨hphase, -⟩, ⟨⟩⟩ := hstep
    have hlength := hroster.length_eq
    apply h.enter { forcedCloses := server.tasks.length } <;>
      simp_all [Transport.permitsHeld, Transport.connectionsCounted, Transport.errorsPending,
        Transport.undecided, TransportMetrics.recordForcedCloses, Roster.read]
  | task index event => exact h.task hstep

end Step

/-- The books are kept in every run. -/
theorem accounts_of_run {settings : HttpSettings} {server s : Transport} {labels : List Act}
    (hserve : serve settings = .ok server) (hrun : Run (stepRel Transport.step) server labels s) :
    Accounts settings.maxConnections.toNat labels s := by
  have hstart := (serve_eq_ok hserve).1
  induction hrun with
  | nil =>
    subst hstart
    exact ⟨rfl, rfl, rfl, rfl, rfl, rfl, le_rfl, fun _ => rfl, Nat.zero_le _⟩
  | snoc hbefore hlast ih => exact ih.step (matches_of_run hserve hbefore) hlast

/-- In every interleaving of the loop with its connections, the permits that are free and
those that are taken make up `max_connections`. The gauge is the number of connections whose
guards are alive, which is no larger. Every other counter is the number of its events, less
those that are still to be recorded. No connection is lost to an error twice, and none is forced
to close twice. -/
theorem connections_accounted {settings : HttpSettings} {server s : Transport} {labels : List Act}
    (hserve : serve settings = .ok server) (hrun : Run (stepRel Transport.step) server labels s) :
    s.available + s.permitsHeld = settings.maxConnections.toNat ∧
      s.metrics.activeConnections.toNat = s.connectionsCounted ∧
      s.connectionsCounted ≤ settings.maxConnections.toNat ∧
      s.metrics.acceptedConnections + .ofNat s.phase.unopened =
        .ofNat (labels.count (.accept true)) ∧
      s.metrics.acceptErrors + .ofNat s.phase.unrecorded = .ofNat (labels.count (.accept false)) ∧
      s.metrics.connectionErrors + .ofNat s.errorsPending =
        .ofNat (labels.countP Act.isConnectionError) ∧
      s.metrics.forcedCloses = .ofNat (rosterAfter labels).forced.length ∧
      labels.countP Act.isConnectionError ≤ labels.count (.accept true) ∧
      (rosterAfter labels).failed.length = labels.countP Act.isConnectionError ∧
      (rosterAfter labels).failed.Nodup ∧ (rosterAfter labels).forced.Nodup := by
  have h := accounts_of_run hserve hrun
  have hroster := matches_of_run hserve hrun
  have hlimit := (serve_eq_ok hserve).2
  have hcounted := h.counted
  have hdecided := h.decided
  refine ⟨h.permits, ?_, hcounted, h.accepted, h.acceptErrors, h.connectionErrors, h.forcedCloses,
    by omega, length_failed hserve hrun, hroster.failed, hroster.forced⟩
  rw [h.active, UInt64.toNat_ofNat', Nat.mod_eq_of_lt]
  omega

/-- The socket of one connection cannot be configured, and one connection is left when the
grace period is over. -/
theorem connections_accounted_two :
    ∃ server s, serve { maxConnections := 1 } = .ok server ∧
      Run (stepRel Transport.step) server
        [.acquire, .accept true, .advance, .advance, .configure false, .advance, .advance, .advance,
          .acquire, .accept true, .advance, .advance, .configure true, .signal, .leave, .advance,
          .advance, .timeout] s ∧
      s.available + s.permitsHeld = 1 ∧ s.metrics.connectionErrors = 1 ∧
      s.metrics.forcedCloses = 1 := by
  refine ⟨_, _, rfl, Run.of_foldlM rfl, ?_⟩
  have h := @connections_accounted { maxConnections := 1 } _ _
    [.acquire, .accept true, .advance, .advance, .configure false, .advance, .advance, .advance,
      .acquire, .accept true, .advance, .advance, .configure true, .signal, .leave, .advance,
      .advance, .timeout] rfl (Run.of_foldlM rfl)
  exact ⟨h.1, h.2.2.2.2.2.1, h.2.2.2.2.2.2.1⟩

end Locus.Server
