import Locus.Lib.Runs
import Locus.Traffic.Sections

/-!
# The admission controller and its callers

A step of the system is a piece of work that no other thread can observe half
done. Under the lock these are the sections of the controller and the single
iterations of the scheduling loop, because a receiver may be dropped between two
of them. Outside the lock they are the moves of a caller: it receives the result
sent to it, drops its receiver, or drops a permit, whose `Drop` then waits for the
lock. A send succeeds as long as the receiver is alive, and an undelivered permit
is dropped with its receiver.

`log` is a ghost record of what happened to each ticket.
-/

namespace Locus.Traffic

open Std (TreeMap)

/-- How far one call of `admit` has come, seen from its oneshot channel. -/
inductive Phase
  /-- The receiver is alive and nothing was sent. -/
  | waiting
  /-- The receiver was dropped before anything was sent. -/
  | abandoned
  /-- A permit is in the channel and the receiver is alive. -/
  | sentPermit
  /-- An error is in the channel and the receiver is alive. -/
  | sentError
  /-- The caller holds the permit. -/
  | held
  /-- The permit is being dropped and waits for the lock. -/
  | dropping
  /-- The call is over and its permit, if it had one, was released. -/
  | closed
  deriving DecidableEq

/-- One oneshot channel, with the ticket and the tenant of the call it serves.
`cancelling` is set once the call has chosen to return an error. -/
structure Channel where
  ticket : UInt64
  tenant : String
  phase : Phase := .waiting
  cancelling : Bool := false
  deriving DecidableEq

/-- Whether a thread is inside the scheduling loop, and whether it came from `release`,
which announces an idle controller afterwards. -/
inductive Lock
  | free
  | scheduling (fromRelease : Bool)
  deriving DecidableEq

/-- What happened to a ticket or a channel. -/
inductive Event
  | enqueued (ticket : UInt64) (tenant : String)
  | granted (ticket : UInt64) (tenant : String)
  | left (ticket : UInt64)
  | released (ticket : UInt64)
  | sent (sender : ℕ)
  deriving DecidableEq

/-- The controller's state together with its callers. -/
structure System where
  state : TrafficState := {}
  lock : Lock := .free
  channels : List Channel := []
  log : List Event := []
  /-- How often `idle.notify_waiters` was called. -/
  idleNotifications : ℕ := 0

/-- The system's steps. `channel` is the index of the calling `admit`. -/
inductive Label
  | admitRequest (tenant : Option String) (tokenCost : UInt64) (now cancellation : ℕ)
  | schedule (now : ℕ)
  | unlock
  | cancel (channel : ℕ) (reason : String)
  | receive (channel : ℕ)
  | dropReceiver (channel : ℕ)
  | dropPermit (channel : ℕ)
  | release (channel : ℕ)
  | beginDrain
  | resume
  deriving DecidableEq

/-- Put one channel into another phase. -/
def setPhase (channels : List Channel) (id : ℕ) (phase : Phase) : List Channel :=
  channels.modify id fun channel => { channel with phase }

/-- The phase of a channel; one that was never opened has no receiver. -/
def phaseOf (channels : List Channel) (id : ℕ) : Phase :=
  (channels[id]?.map Channel.phase).getD .closed

/-- Send the permit of a granted request. When the receiver is gone the permit
comes back and is released under the lock. -/
def sendPermit (sys : System) (s : TrafficState) (queued : QueuedRequest) (tenantId : String) :
    System :=
  let log := sys.log ++ [.granted queued.ticket tenantId]
  if phaseOf sys.channels queued.sender = .waiting then
    { sys with
      state := s
      channels := setPhase sys.channels queued.sender .sentPermit
      log := log ++ [.sent queued.sender] }
  else
    let sys := { sys with channels := setPhase sys.channels queued.sender .closed }
    match releaseActiveLocked s queued.ticket with
    | some (_, s) => { sys with state := s, log := log ++ [.released queued.ticket] }
    | none => { sys with state := s, log }

/-- Send `Err(Draining)` to a waiter that `begin_drain` turned away. -/
def sendDraining (sys : System) (queued : QueuedRequest) : System :=
  let log := sys.log ++ [.left queued.ticket]
  if phaseOf sys.channels queued.sender = .waiting then
    { sys with
      channels := setPhase sys.channels queued.sender .sentError
      log := log ++ [.sent queued.sender] }
  else
    { sys with channels := setPhase sys.channels queued.sender .closed, log }

/-- Whether the loop of `schedule_locked` takes another turn, and for whom. -/
def nextCandidate (ctl : TrafficController) (s : TrafficState) : Option (String × String) :=
  if s.active.size < ctl.policy.maxActiveRequests.toNat then chooseCandidate ctl s else none

/-- One step of the system; `none` when the label is not enabled. -/
def step (ctl : TrafficController) (sys : System) : Label → Option System
  | .admitRequest tenant tokenCost now cancellation =>
    if sys.lock = .free then
      match admitRequest ctl sys.state tenant tokenCost now cancellation sys.channels.length with
      | (.error _, s) => some { sys with state := s }
      | (.ok ticket, s) =>
        some { sys with
          state := s
          lock := .scheduling false
          channels := sys.channels ++ [{ ticket, tenant := tenant.getD "" }]
          log := sys.log ++ [.enqueued ticket (tenant.getD "")] }
    else none
  | .schedule now =>
    if sys.lock = .free then none
    else do
      let (classId, tenantId) ← nextCandidate ctl sys.state
      let (queued, s) ← grantHead ctl sys.state classId tenantId now
      some (sendPermit sys s queued tenantId)
  | .unlock =>
    match sys.lock with
    | .free => none
    | .scheduling fromRelease =>
      if nextCandidate ctl sys.state = none then
        some { sys with
          lock := .free
          idleNotifications := sys.idleNotifications +
            if fromRelease ∧ sys.state.active.isEmpty then 1 else 0 }
      else none
  | .cancel id reason => do
    let channel ← sys.channels[id]?
    let tenant ← ctl.tenants[channel.tenant]?
    if sys.lock = .free ∧ channel.cancelling = false ∧
        (channel.phase = .waiting ∨ channel.phase = .sentPermit ∨ channel.phase = .sentError) then
      let sys := { sys with
        channels := sys.channels.modify id fun channel => { channel with cancelling := true } }
      match cancelWaiter sys.state channel.ticket tenant reason with
      | none => some sys
      | some (_, s) =>
        some { sys with
          state := s, lock := .scheduling false, log := sys.log ++ [.left channel.ticket] }
    else none
  | .receive id => do
    let channel ← sys.channels[id]?
    if channel.cancelling then none
    else match channel.phase with
      | .sentPermit => some { sys with channels := setPhase sys.channels id .held }
      | .sentError => some { sys with channels := setPhase sys.channels id .closed }
      | _ => none
  | .dropReceiver id => do
    let channel ← sys.channels[id]?
    match channel.phase with
    | .waiting => some { sys with channels := setPhase sys.channels id .abandoned }
    | .sentPermit => some { sys with channels := setPhase sys.channels id .dropping }
    | .sentError => some { sys with channels := setPhase sys.channels id .closed }
    | _ => none
  | .dropPermit id =>
    if phaseOf sys.channels id = .held then
      some { sys with channels := setPhase sys.channels id .dropping }
    else none
  | .release id => do
    let channel ← sys.channels[id]?
    if sys.lock = .free ∧ channel.phase = .dropping then
      let sys := { sys with channels := setPhase sys.channels id .closed }
      match releaseActiveLocked sys.state channel.ticket with
      | none => some sys
      | some (_, s) =>
        some { sys with
          state := s, lock := .scheduling true, log := sys.log ++ [.released channel.ticket] }
    else none
  | .beginDrain =>
    if sys.lock = .free then
      let (turnedAway, s) := beginDrain ctl sys.state
      some (turnedAway.foldl sendDraining { sys with state := s })
    else none
  | .resume =>
    if sys.lock = .free then some { sys with state := resume sys.state } else none

section History

variable (log : List Event)

/-- The tickets handed out so far, in order. -/
def enqueuedTickets : List UInt64 :=
  log.filterMap fun event => match event with
    | .enqueued ticket _ => some ticket
    | _ => none

/-- The tickets granted so far, in order. -/
def grantedTickets : List UInt64 :=
  log.filterMap fun event => match event with
    | .granted ticket _ => some ticket
    | _ => none

/-- The tickets granted to one tenant, in order. -/
def grantedTo (tenant : String) : List UInt64 :=
  log.filterMap fun event => match event with
    | .granted ticket t => if t = tenant then some ticket else none
    | _ => none

/-- The tickets that left their queue without a grant. -/
def leftTickets : List UInt64 :=
  log.filterMap fun event => match event with
    | .left ticket => some ticket
    | _ => none

/-- The tickets taken out of `active`. -/
def releasedTickets : List UInt64 :=
  log.filterMap fun event => match event with
    | .released ticket => some ticket
    | _ => none

/-- The tickets that are done. -/
def departedTickets : List UInt64 := leftTickets log ++ releasedTickets log

end History

/-- The number of requests enqueued so far. -/
def System.enqueues (sys : System) : ℕ := (enqueuedTickets sys.log).length

/-- Runs of the controller from its construction. -/
def Reaches (ctl : TrafficController) (labels : List Label) (sys : System) : Prop :=
  Lib.Run (Lib.stepRel (step ctl)) {} labels sys

end Locus.Traffic
