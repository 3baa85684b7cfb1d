import Locus.Http.TransportMetrics
import Locus.Lib.Progress

/-!
# The listener and its connections

`serve` takes a permit, accepts a connection and hands it to a task of its own, again and
again until the shutdown future completes. Then it drops the listener, tells the
connections and joins their tasks, by force when the grace period is over. The tasks run
beside the loop. One step below is one access to what they share: a permit, a counter, the
watch channel or the set of tasks.
-/

namespace Locus.Server

open Locus.Http Locus.Lib

structure HttpSettings where
  listenBacklog : UInt32 := 2048
  maxConnections : UInt64 := 4096
  tcpKeepaliveSeconds : UInt64 := 60
  http1HeaderReadTimeoutMillis : UInt64 := 10000
  http1MaxBufferBytes : UInt64 := 65536
  http2MaxConcurrentStreams : UInt32 := 256
  http2MaxHeaderListBytes : UInt32 := 65536
  http2MaxSendBufferBytes : UInt64 := 65536
  http2KeepAliveIntervalMillis : UInt64 := 30000
  http2KeepAliveTimeoutMillis : UInt64 := 10000
  connectionShutdownTimeoutMillis : UInt64 := 5000

def HttpSettings.validate (settings : HttpSettings) : Except String Unit := do
  if settings.listenBacklog = 0 then
    throw "http.listen_backlog must be greater than zero"
  if settings.maxConnections = 0 then
    throw "http.max_connections must be greater than zero"
  if settings.tcpKeepaliveSeconds = 0 then
    throw "http.tcp_keepalive_seconds must be greater than zero"
  if settings.http1HeaderReadTimeoutMillis = 0 then
    throw "http.http1_header_read_timeout_millis must be greater than zero"
  if settings.http1MaxBufferBytes < 8192 then
    throw "http.http1_max_buffer_bytes must be at least 8192"
  if settings.http2MaxConcurrentStreams = 0 then
    throw "http.http2_max_concurrent_streams must be greater than zero"
  if settings.http2MaxHeaderListBytes = 0 then
    throw "http.http2_max_header_list_bytes must be greater than zero"
  if settings.http2MaxSendBufferBytes = 0 ∨ 4294967295 < settings.http2MaxSendBufferBytes then
    throw "http.http2_max_send_buffer_bytes must be between 1 and u32::MAX"
  if settings.http2KeepAliveIntervalMillis = 0 ∨ settings.http2KeepAliveTimeoutMillis = 0 then
    throw "HTTP/2 keep-alive interval and timeout must be greater than zero"
  if settings.connectionShutdownTimeoutMillis = 0 then
    throw "http.connection_shutdown_timeout_millis must be greater than zero"

/-- What one step does to what the loop and the tasks share. -/
inductive Effect
  | pass
  | countAccepted
  | countActive
  | dropConnection
  | recordAcceptError
  | recordConnectionError
  | releasePermit
  | sendShutdown
  deriving DecidableEq

/-- Where the task of a connection stands. A future that is dropped before it was polled
drops what it captured in order, the permit first. Otherwise the locals of the task are
dropped, the permit last. -/
inductive ConnectionTask
  | spawned
  /-- In `serve_connection`, and whether the connection was told to shut down. -/
  | serving (told : Bool)
  | failed
  | closing
  | releasing
  | discarded
  | uncounting
  | finished
  deriving DecidableEq

/-- What happens to a task. A connection that ends well or panics is finished. -/
inductive TaskEvent
  | poll
  | notice
  | finish
  | fail
  | abort
  | advance
  deriving DecidableEq

/-- One step of a task. `sent` is the value in the watch channel. -/
def ConnectionTask.step (sent aborted : Bool) : ConnectionTask → TaskEvent →
    Option (Effect × ConnectionTask)
  | .spawned, .poll => some (.pass, .serving sent)
  | .serving false, .notice => if sent then some (.pass, .serving true) else none
  | .serving _, .finish => some (.pass, .closing)
  | .serving _, .fail => some (.pass, .failed)
  | .failed, .advance => some (.recordConnectionError, .closing)
  | .closing, .advance => some (.dropConnection, .releasing)
  | .releasing, .advance => some (.releasePermit, .finished)
  | .spawned, .abort => if aborted then some (.pass, .discarded) else none
  | .serving _, .abort => if aborted then some (.pass, .closing) else none
  | .discarded, .advance => some (.releasePermit, .uncounting)
  | .uncounting, .advance => some (.dropConnection, .finished)
  | _, _ => none

/-- Where `serve` stands. -/
inductive ServePhase
  | acquiring
  | accepting
  /-- `accept` failed: the permit is dropped, the error recorded, then the loop sleeps. -/
  | acceptFailed
  | recordingFailure
  | backingOff
  | opening
  | counting
  | configuring
  /-- `configure_stream` failed: the error is recorded, then the locals are dropped. -/
  | misconfigured
  | uncounting
  | unpermitting
  /-- The loop was left with a permit. -/
  | leaving
  | closingListener
  | notifying
  | draining
  | aborting
  | returned
  deriving DecidableEq

/-- The next step of `serve` where it does not wait for anything. -/
def ServePhase.advance : ServePhase → Option (Effect × ServePhase)
  | .acceptFailed => some (.releasePermit, .recordingFailure)
  | .recordingFailure => some (.recordAcceptError, .backingOff)
  | .backingOff => some (.pass, .acquiring)
  | .opening => some (.countAccepted, .counting)
  | .counting => some (.countActive, .configuring)
  | .misconfigured => some (.recordConnectionError, .uncounting)
  | .uncounting => some (.dropConnection, .unpermitting)
  | .unpermitting => some (.releasePermit, .acquiring)
  | .leaving => some (.releasePermit, .closingListener)
  | .closingListener => some (.pass, .notifying)
  | .notifying => some (.sendShutdown, .draining)
  | _ => none

/-- `shutdown` says whether the shutdown future is complete, and `sent` is the value in the
watch channel. A task stays in the set until it is joined. -/
structure Transport where
  phase : ServePhase := .acquiring
  shutdown : Bool := false
  available : ℕ
  sent : Bool := false
  tasks : List ConnectionTask := []
  metrics : TransportMetrics := {}

def Transport.perform (server : Transport) : Effect → Transport
  | .pass => server
  | .countAccepted => { server with metrics := server.metrics.countAccepted }
  | .countActive => { server with metrics := server.metrics.countActive }
  | .dropConnection => { server with metrics := server.metrics.connectionDropped }
  | .recordAcceptError => { server with metrics := server.metrics.recordAcceptError }
  | .recordConnectionError => { server with metrics := server.metrics.recordConnectionError }
  | .releasePermit => { server with available := server.available + 1 }
  | .sendShutdown => { server with sent := true }

inductive Act
  | signal
  /-- A `select!` of the loop takes its shutdown branch. -/
  | leave
  | acquire
  | accept (ok : Bool)
  | configure (ok : Bool)
  | advance
  /-- `join_next` returns a task. -/
  | join (index : ℕ)
  /-- `join_next` finds no task left. -/
  | joined
  | timeout
  | task (index : ℕ) (event : TaskEvent)
  deriving DecidableEq

/-- One step of the loop, of a task or of the shutdown future. The semaphore is never
closed, so acquiring a permit does not fail. `join_next` is polled before the deadline is,
so the deadline passes only while there are tasks. -/
def Transport.step (server : Transport) : Act → Option Transport
  | .signal => if server.shutdown then none else some { server with shutdown := true }
  | .leave =>
    if server.shutdown then
      match server.phase with
      | .acquiring => some { server with phase := .closingListener }
      | .accepting => some { server with phase := .leaving }
      | _ => none
    else none
  | .acquire =>
    if server.phase = .acquiring ∧ 0 < server.available then
      some { server with phase := .accepting, available := server.available - 1 }
    else none
  | .accept ok =>
    if server.phase = .accepting then
      some { server with phase := if ok then .opening else .acceptFailed }
    else none
  | .configure ok =>
    if server.phase = .configuring then
      if ok then some { server with phase := .acquiring, tasks := server.tasks ++ [.spawned] }
      else some { server with phase := .misconfigured }
    else none
  | .advance =>
    server.phase.advance.map fun next => { server.perform next.1 with phase := next.2 }
  | .join index =>
    if (server.phase = .draining ∨ server.phase = .aborting) ∧
        server.tasks[index]? = some .finished then
      some { server with tasks := server.tasks.eraseIdx index }
    else none
  | .joined =>
    if (server.phase = .draining ∨ server.phase = .aborting) ∧ server.tasks = [] then
      some { server with phase := .returned }
    else none
  | .timeout =>
    if server.phase = .draining ∧ server.tasks ≠ [] then
      some { server with
        phase := .aborting
        metrics := server.metrics.recordForcedCloses server.tasks.length }
    else none
  | .task index event =>
    server.tasks[index]?.bind fun task =>
      (task.step server.sent (server.phase = .aborting) event).map fun next =>
        { server.perform next.1 with tasks := server.tasks.set index next.2 }

/-- How `serve` can end before its loop. -/
inductive ServeError
  | invalidInput (message : String)
  | panic
  deriving DecidableEq

/-- `Semaphore::MAX_PERMITS` -/
def maxPermits : ℕ := (2 ^ 64 - 1) / 8

/-- The part of `serve` before its loop. `Semaphore::new` refuses a number of permits that
it cannot count, which `validate` lets through. -/
def serve (settings : HttpSettings) : Except ServeError Transport :=
  match settings.validate with
  | .error message => .error (.invalidInput message)
  | .ok () =>
    if maxPermits < settings.maxConnections.toNat then .error .panic
    else .ok { available := settings.maxConnections.toNat }

end Locus.Server
