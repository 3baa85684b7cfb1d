import Locus.Traffic.State

/-!
# The critical sections of the admission controller

The functions that run while the state lock is held: the enqueueing part of
`admit`, `cancel_waiter`, `begin_drain`, `resume`, and one iteration of the loop
of `schedule_locked`. A section that schedules leaves the loop to the system
model, so that channel ends may change between two iterations.
-/

namespace Locus.Traffic

open Std (TreeMap)

/-- Why a request is not admitted. -/
inductive AdmissionError
  | missingTrustedTenant
  | unknownTenant (tenant : String)
  | invalidDeadline
  | requestTokenLimit (requested limit : UInt64)
  | requestExceedsCapacity
  | queueFull
  | overloadShed
  | draining
  | cancelled
  | deadlineExceeded
  | unavailable
  deriving DecidableEq

section Fairness

variable (ctl : TrafficController)

/-- Some queue of the class holds a request. -/
def classHasWaiting (s : TrafficState) (classId : String) : Bool :=
  s.waiting[classId]?.any fun queues => queues.toList.any fun entry => !entry.2.isEmpty

/-- A class that was idle restarts no lower than the least class still in use. -/
def normalizeIdleClass (s : TrafficState) (tenant : TenantPolicy) : TrafficState :=
  if count s.classActiveRequests.map tenant.serviceClass = 0 ∧
      !classHasWaiting s tenant.serviceClass then
    let busy := (ctl.classes.keys.filter (· ≠ tenant.serviceClass)).filter fun classId =>
      decide (0 < count s.classActiveRequests.map classId) || classHasWaiting s classId
    let floor := (busy.map (count s.classVruntime)).min?.getD 0
    { s with
      classVruntime := s.classVruntime.insert tenant.serviceClass
        (max (count s.classVruntime tenant.serviceClass) floor) }
  else s

/-- A tenant that was idle restarts no lower than the least tenant of its class still in use. -/
def normalizeIdleTenant (s : TrafficState) (tenant : TenantPolicy) : TrafficState :=
  if count s.tenantActiveRequests.map tenant.id = 0 ∧
      (s.queue tenant.serviceClass tenant.id).isEmpty then
    let busy := (ctl.tenants.values.filter fun candidate =>
      candidate.serviceClass = tenant.serviceClass ∧ candidate.id ≠ tenant.id).filter
        fun candidate => decide (0 < count s.tenantActiveRequests.map candidate.id) ||
          !(s.queue candidate.serviceClass candidate.id).isEmpty
    let floor := (busy.map fun candidate => count s.tenantVruntime candidate.id).min?.getD 0
    { s with
      tenantVruntime := s.tenantVruntime.insert tenant.id
        (max (count s.tenantVruntime tenant.id) floor) }
  else s

/-- `normalize_idle_vruntime_locked` -/
def normalizeIdleVruntimeLocked (s : TrafficState) (tenant : TenantPolicy) : TrafficState :=
  normalizeIdleTenant ctl (normalizeIdleClass ctl s tenant) tenant

/-- Whether a tenant's queue head fits the token limits and the tenant's request limit. -/
def headFits (s : TrafficState) (serviceClass : ServiceClassPolicy) (classId : String)
    (tenant : TenantPolicy) (tenantId : String) (head : QueuedRequest) : Bool :=
  decide (saturatingAdd s.activeTokens head.tokenCost ≤ ctl.policy.maxActiveTokens) &&
  decide (saturatingAdd (count s.classActiveTokens.map classId) head.tokenCost ≤
    serviceClass.maxActiveTokens) &&
  decide (count s.tenantActiveRequests.map tenantId < tenant.maxActiveRequests) &&
  decide (saturatingAdd (count s.tenantActiveTokens.map tenantId) head.tokenCost ≤
    tenant.maxActiveTokens)

/-- The inner loop of `choose_candidate`: the tenants of one class whose head fits.
An unknown tenant ends the whole search. -/
def tenantCandidates (s : TrafficState) (serviceClass : ServiceClassPolicy) (classId : String) :
    List (String × List QueuedRequest) → Option (List (ℕ ×ₗ String))
  | [] => some []
  | (tenantId, queue) :: rest =>
    match queue.head? with
    | none => tenantCandidates s serviceClass classId rest
    | some head => do
      let tenant ← ctl.tenants[tenantId]?
      let others ← tenantCandidates s serviceClass classId rest
      if headFits ctl s serviceClass classId tenant tenantId head then
        some (toLex (count s.tenantVruntime tenantId, tenantId) :: others)
      else some others

/-- The outer loop of `choose_candidate`: the classes that offer a tenant. -/
def classCandidates (s : TrafficState) :
    List (String × TreeMap String (List QueuedRequest)) → Option (List (ℕ ×ₗ String ×ₗ String))
  | [] => some []
  | (classId, tenants) :: rest => do
    let serviceClass ← ctl.classes[classId]?
    if serviceClass.maxActiveRequests ≤ count s.classActiveRequests.map classId then
      classCandidates s rest
    else
      let candidates ← tenantCandidates ctl s serviceClass classId tenants.toList
      let others ← classCandidates s rest
      match (candidates.insertionSort (· ≤ ·)).head? with
      | some candidate =>
        some (toLex (count s.classVruntime classId, toLex (classId, (ofLex candidate).2)) :: others)
      | none => some others

/-- The class with the least virtual runtime and, inside it, the tenant with the least. -/
def chooseCandidate (s : TrafficState) : Option (String × String) := do
  let candidates ← classCandidates ctl s s.waiting.toList
  (candidates.insertionSort (· ≤ ·)).head?.map fun candidate => ofLex (ofLex candidate).2

/-- The bookkeeping of a grant: the request leaves the queue counters, becomes active
and is charged to its class and its tenant. -/
def activate (s : TrafficState) (serviceClass : ServiceClassPolicy) (classId : String)
    (tenant : TenantPolicy) (tenantId : String) (queued : QueuedRequest) (now : ℕ) :
    TrafficState :=
  { s with
    tenantQueuedRequests := decrement s.tenantQueuedRequests tenantId 1
    tenantQueuedTokens := decrement s.tenantQueuedTokens tenantId queued.tokenCost
    classActiveRequests := increment s.classActiveRequests classId 1
    classActiveTokens := increment s.classActiveTokens classId queued.tokenCost
    tenantActiveRequests := increment s.tenantActiveRequests tenantId 1
    tenantActiveTokens := increment s.tenantActiveTokens tenantId queued.tokenCost
    active := s.active.insert queued.ticket
      { tenant := tenantId, serviceClass := classId, tokenCost := queued.tokenCost,
        cancellation := queued.cancellation }
    classVruntime := s.classVruntime.insert classId (saturatingAdd128
      (count s.classVruntime classId) (virtualRuntimeDelta queued.tokenCost serviceClass.weight))
    tenantVruntime := s.tenantVruntime.insert tenantId (saturatingAdd128
      (count s.tenantVruntime tenantId) (virtualRuntimeDelta queued.tokenCost tenant.weight))
    admissions := increment s.admissions (toLex (classId, toLex (tenantId, "admitted"))) 1
    queueWaitMicros := s.queueWaitMicros.insert (toLex (classId, tenantId))
      (count s.queueWaitMicros (toLex (classId, tenantId)) + (now - queued.enqueuedAt))
    queueWaitCount := increment s.queueWaitCount (toLex (classId, tenantId)) 1 }

/-- The body of the loop of `schedule_locked` up to sending the permit: the head of
the chosen queue becomes active. `none` stands for a failed `expect`. -/
def grantHead (s : TrafficState) (classId tenantId : String) (now : ℕ) :
    Option (QueuedRequest × TrafficState) := do
  let tenants ← s.waiting[classId]?
  match tenants[tenantId]? with
  | some (queued :: rest) =>
    let serviceClass ← ctl.classes[classId]?
    let tenant ← ctl.tenants[tenantId]?
    let s := { s with waiting := s.waiting.insert classId (tenants.insert tenantId rest) }
    some (queued, activate s serviceClass classId tenant tenantId queued now)
  | _ => none

end Fairness

section Admission

variable (ctl : TrafficController)

/-- `waiting.entry(class).or_default().entry(tenant).or_default().push_back(request)` -/
def pushBack (waiting : Waiting) (classId tenantId : String) (request : QueuedRequest) : Waiting :=
  let tenants := waiting[classId]?.getD ∅
  waiting.insert classId (tenants.insert tenantId (tenants[tenantId]?.getD [] ++ [request]))

/-- The part of `admit` that puts an accepted request into its queue. -/
def enqueueLocked (s : TrafficState) (tenant : TenantPolicy) (tokenCost : UInt64)
    (now cancellation sender : ℕ) : UInt64 × TrafficState :=
  let ticket := saturatingAdd s.nextTicket 1
  let s := normalizeIdleVruntimeLocked ctl { s with nextTicket := ticket } tenant
  (ticket,
    { s with
      waiting := pushBack s.waiting tenant.serviceClass tenant.id
        { ticket, tokenCost, enqueuedAt := now, cancellation, sender }
      tenantQueuedRequests := increment s.tenantQueuedRequests tenant.id 1
      tenantQueuedTokens := increment s.tenantQueuedTokens tenant.id tokenCost
      admissions := increment s.admissions
        (toLex (tenant.serviceClass, toLex (tenant.id, "queued"))) 1 })

/-- The checks that `admit` makes on a known tenant, and its enqueueing section.
Of `ok`, the scheduling loop is still to run. -/
def admitTenant (s : TrafficState) (tenant : TenantPolicy) (serviceClass : ServiceClassPolicy)
    (tokenCost : UInt64) (now cancellation sender : ℕ) :
    Except AdmissionError UInt64 × TrafficState :=
  if tokenCost = 0 ∨ tenant.maxTokensPerRequest < tokenCost then
    (.error (.requestTokenLimit tokenCost tenant.maxTokensPerRequest),
      recordRejectionLocked s tenant "request_token_limit")
  else if ctl.policy.maxActiveTokens < tokenCost ∨ serviceClass.maxActiveTokens < tokenCost ∨
      tenant.maxActiveTokens < tokenCost then
    (.error .requestExceedsCapacity, recordRejectionLocked s tenant "active_token_capacity")
  else if s.draining then
    (.error .draining, recordRejectionLocked s tenant "draining")
  else if serviceClass.shedAtGlobalUtilizationBps.any
      (fun threshold => decide (threshold.toUInt64 ≤ activeTokenUtilizationBps s ctl.policy)) then
    (.error .overloadShed, recordRejectionLocked s tenant "overload_shed")
  else if ctl.policy.maxQueuedRequests ≤ queuedRequests s ∨
      tenant.maxQueuedRequests ≤ count s.tenantQueuedRequests.map tenant.id then
    (.error .queueFull, recordRejectionLocked s tenant "queue_full")
  else
    let (ticket, s) := enqueueLocked ctl s tenant tokenCost now cancellation sender
    (.ok ticket, s)

/-- `admit` up to its wait for a permit. The missing class of a configured tenant,
which `admit` excludes by `expect`, is reported as unavailable. -/
def admitRequest (s : TrafficState) (tenantId : Option String) (tokenCost : UInt64)
    (now cancellation sender : ℕ) : Except AdmissionError UInt64 × TrafficState :=
  match tenantId with
  | none => (.error .missingTrustedTenant, s)
  | some id =>
    match ctl.tenants[id]? with
    | none => (.error (.unknownTenant id), s)
    | some tenant =>
      match ctl.classes[tenant.serviceClass]? with
      | none => (.error .unavailable, s)
      | some serviceClass => admitTenant ctl s tenant serviceClass tokenCost now cancellation sender

/-- `cancel_waiter` up to its scheduling loop; `none` when the ticket is not queued. -/
def cancelWaiter (s : TrafficState) (ticket : UInt64) (tenant : TenantPolicy) (reason : String) :
    Option (QueuedRequest × TrafficState) := do
  let tenants ← s.waiting[tenant.serviceClass]?
  let queue ← tenants[tenant.id]?
  let queued ← queue.find? fun request => request.ticket == ticket
  some (queued,
    recordRejectionLocked
      { s with
        waiting := s.waiting.insert tenant.serviceClass
          (tenants.insert tenant.id (queue.eraseP fun request => request.ticket == ticket))
        tenantQueuedRequests := decrement s.tenantQueuedRequests tenant.id 1
        tenantQueuedTokens := decrement s.tenantQueuedTokens tenant.id queued.tokenCost }
      tenant reason)

/-- The requests that `begin_drain` turns away, in its order of iteration. A queue
of an unconfigured tenant is skipped. -/
def drainedRequests (waiting : Waiting) : List (String × TenantPolicy × QueuedRequest) :=
  waiting.toList.flatMap fun entry => entry.2.toList.flatMap fun (tenantId, queue) =>
    match ctl.tenants[tenantId]? with
    | some tenant => queue.map fun queued => (tenantId, tenant, queued)
    | none => []

/-- The body of the loop of `begin_drain` before it answers the waiter. -/
def drainOne (s : TrafficState) (request : String × TenantPolicy × QueuedRequest) : TrafficState :=
  recordRejectionLocked
    { s with
      tenantQueuedRequests := decrement s.tenantQueuedRequests request.1 1
      tenantQueuedTokens := decrement s.tenantQueuedTokens request.1 request.2.2.tokenCost }
    request.2.1 "draining"

/-- Stop admitting and turn every waiter away. -/
def beginDrain (s : TrafficState) : List QueuedRequest × TrafficState :=
  if s.draining then ([], s)
  else
    let drained := drainedRequests ctl s.waiting
    (drained.map fun request => request.2.2,
      drained.foldl drainOne { s with draining := true, waiting := ∅ })

/-- Admit again. -/
def resume (s : TrafficState) : TrafficState := { s with draining := false }

end Admission

end Locus.Traffic
