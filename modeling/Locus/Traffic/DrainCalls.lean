import Locus.Lib.Histories
import Locus.Traffic.Capacity
import Mathlib.Data.Finset.Basic

/-!
# Drains of the admission controller

The system of the controller and its callers, together with the calls of `drain` that have
begun. A drain holds the lock only while it begins, while it counts the active requests and
while it collects their tokens, so each of these is a step of its own and any other step may
come in between. Creating the `notified` future of a turn of the loop is a step too: from
then on the future receives every `notify_waiters`, also before it is first polled.
-/

namespace Locus.Traffic

open Std (TreeMap)
open Locus.Lib

/-- What a drain that came to its end reports. -/
structure DrainReport where
  completed : Bool
  forcedCancellations : ℕ
  deriving DecidableEq

/-- How far a drain has come. -/
inductive DrainPhase
  /-- At the head of the loop. -/
  | looping
  /-- `notified` exists since that many notifications; the requests are not yet counted. -/
  | checking (seen : ℕ)
  /-- Some request was active, and the drain awaits its notification or the deadline. -/
  | waiting (seen : ℕ)
  /-- The deadline has passed. -/
  | expired
  /-- The tokens still to be cancelled, of those collected. -/
  | cancelling (tokens : List ℕ) (collected : ℕ)
  | returned (report : DrainReport)
  | failed (error : AdmissionError)
  deriving DecidableEq

/-- One call of `drain`. The deadline is missing if the grace exceeds the range of the
timer. -/
structure DrainCall where
  deadline : Option ℕ
  phase : DrainPhase := .looping
  /-- Ghost: the tokens that this call has cancelled, in order. -/
  cancelled : List ℕ := []
  deriving DecidableEq

/-- The controller, its callers and its drains. -/
structure DrainSystem where
  traffic : System := {}
  drains : List DrainCall := []
  cancelled : Finset ℕ := ∅
  /-- `state.forced_cancellations` -/
  forcedCancellations : UInt64 := 0

/-- The system's steps. A drain is known by its index. The last one is a step of the
environment: a client cancels its own context. -/
inductive DrainLabel
  | traffic (label : Label)
  | drain (deadline : Option ℕ)
  | subscribe (drain : ℕ)
  | check (drain : ℕ)
  | wake (drain : ℕ)
  | expire (drain : ℕ) (now : ℕ)
  | collect (drain : ℕ)
  | cancel (drain : ℕ)
  | disconnect (token : ℕ)
  deriving DecidableEq

/-- `active_requests` -/
def activeRequests (s : TrafficState) : ℕ := s.active.size

/-- `state.active.values().map(|active| active.cancellation.clone())` -/
def activeCancellations (s : TrafficState) : List ℕ :=
  s.active.toList.map fun entry => entry.2.cancellation

/-- Put one drain into another phase. -/
def DrainSystem.setPhase (sys : DrainSystem) (drain : ℕ) (phase : DrainPhase) : DrainSystem :=
  { sys with drains := sys.drains.modify drain fun call => { call with phase } }

/-- Begin a drain. -/
def startDrain (ctl : TrafficController) (sys : DrainSystem) (deadline : Option ℕ) :
    Option DrainSystem := do
  let traffic ← step ctl sys.traffic .beginDrain
  let phase := if deadline.isSome then .looping else .failed .unavailable
  some { sys with traffic, drains := sys.drains ++ [{ deadline, phase }] }

/-- Count the requests that a drain waits for. -/
def checkDrain (sys : DrainSystem) (drain seen : ℕ) : DrainSystem :=
  if activeRequests sys.traffic.state = 0 then
    sys.setPhase drain (.returned { completed := true, forcedCancellations := 0 })
  else sys.setPhase drain (.waiting seen)

/-- Collect the tokens that a drain is going to cancel. -/
def collectTokens (sys : DrainSystem) (drain : ℕ) : DrainSystem :=
  let tokens := activeCancellations sys.traffic.state
  { sys with
    forcedCancellations := saturatingAdd sys.forcedCancellations (.ofNat tokens.length)
  }.setPhase drain (.cancelling tokens tokens.length)

/-- One turn of the loop that cancels the collected tokens. -/
def cancelNext (sys : DrainSystem) (drain : ℕ) (tokens : List ℕ) (collected : ℕ) : DrainSystem :=
  match tokens with
  | [] =>
    sys.setPhase drain (.returned { completed := false, forcedCancellations := collected })
  | token :: tokens =>
    { sys with
      cancelled := insert token sys.cancelled
      drains := sys.drains.modify drain fun call =>
        { call with
            phase := .cancelling tokens collected, cancelled := call.cancelled ++ [token] } }

/-- One step of the system; `none` when the label is not enabled. -/
def drainStep (ctl : TrafficController) (sys : DrainSystem) : DrainLabel → Option DrainSystem
  | .traffic label => do
    let traffic ← step ctl sys.traffic label
    some { sys with traffic }
  | .drain deadline => startDrain ctl sys deadline
  | .subscribe id => do
    let call ← sys.drains[id]?
    match call.phase with
    | .looping => some (sys.setPhase id (.checking sys.traffic.idleNotifications))
    | _ => none
  | .check id => do
    let call ← sys.drains[id]?
    match call.phase with
    | .checking seen => if sys.traffic.lock = .free then some (checkDrain sys id seen) else none
    | _ => none
  | .wake id => do
    let call ← sys.drains[id]?
    match call.phase with
    | .waiting seen =>
      if seen < sys.traffic.idleNotifications then some (sys.setPhase id .looping) else none
    | _ => none
  | .expire id now => do
    let call ← sys.drains[id]?
    let deadline ← call.deadline
    match call.phase with
    -- The timer is polled after the notification, which may have come in between.
    | .waiting _ => if deadline ≤ now then some (sys.setPhase id .expired) else none
    | _ => none
  | .collect id => do
    let call ← sys.drains[id]?
    match call.phase with
    | .expired => if sys.traffic.lock = .free then some (collectTokens sys id) else none
    | _ => none
  | .cancel id => do
    let call ← sys.drains[id]?
    match call.phase with
    | .cancelling tokens collected => some (cancelNext sys id tokens collected)
    | _ => none
  | .disconnect token => some { sys with cancelled := insert token sys.cancelled }

/-- Runs of the system from the controller's construction. -/
def DrainReaches (ctl : TrafficController) (labels : List DrainLabel) (sys : DrainSystem) : Prop :=
  Run (stepRel (drainStep ctl)) {} labels sys

end Locus.Traffic
