import Locus.Traffic.Policy
import Mathlib.Data.List.Sort
import Mathlib.Data.Prod.Lex

/-!
# The state behind the admission lock

`TrafficState` is what the controller's mutex guards: the queues, the active
requests, the counters kept beside them, and the virtual runtimes. Token and
request counters are 64-bit words that wrap, as the release build's do; virtual
runtimes are 128-bit and saturate.

`Counters` carries a ghost flag next to each table. It is set when an unchecked
`+=` or `-=` leaves the range of its word and is never read by the model.
-/

namespace Locus.Traffic

open Std (TreeMap)

/-- `u64::MAX` -/
def u64Max : UInt64 := 18446744073709551615

/-- `u128::MAX` -/
def u128Max : ℕ := 2 ^ 128 - 1

/-- `u64::saturating_add` -/
def saturatingAdd (a b : UInt64) : UInt64 :=
  if a.toNat + b.toNat < 2 ^ 64 then a + b else u64Max

/-- `u64::saturating_mul` -/
def saturatingMul (a b : UInt64) : UInt64 :=
  if a.toNat * b.toNat < 2 ^ 64 then a * b else u64Max

/-- `u128::saturating_add` -/
def saturatingAdd128 (a b : ℕ) : ℕ := min (a + b) u128Max

/-- A table of 64-bit counters. -/
structure Counters (κ : Type) [Ord κ] where
  map : TreeMap κ UInt64 := ∅
  /-- Ghost: some `+=` or `-=` on this table left the range of a 64-bit word. -/
  overflowed : Bool := false

/-- The value stored under a key, or the default. -/
def count {κ V : Type} [Ord κ] [Zero V] (map : TreeMap κ V) (key : κ) : V := map[key]?.getD 0

/-- `*map.entry(key).or_default() += value` -/
def increment {κ : Type} [Ord κ] (c : Counters κ) (key : κ) (value : UInt64) : Counters κ where
  map := c.map.insert key (count c.map key + value)
  overflowed := c.overflowed || decide (2 ^ 64 ≤ (count c.map key).toNat + value.toNat)

/-- Subtracts from a key that is present and ignores one that is absent. -/
def decrement {κ : Type} [Ord κ] (c : Counters κ) (key : κ) (value : UInt64) : Counters κ :=
  match c.map[key]? with
  | some current =>
    { map := c.map.insert key (current - value)
      overflowed := c.overflowed || decide (current < value) }
  | none => c

/-- A request waiting for admission. `sender` names its oneshot channel and
`cancellation` the request's cancellation token. -/
structure QueuedRequest where
  ticket : UInt64
  tokenCost : UInt64
  enqueuedAt : ℕ
  cancellation : ℕ
  sender : ℕ
  deriving DecidableEq

/-- An admitted request that has not been released. -/
structure ActiveRequest where
  tenant : String
  serviceClass : String
  tokenCost : UInt64
  cancellation : ℕ
  deriving DecidableEq

/-- The queues, by class and then by tenant. -/
abbrev Waiting := TreeMap String (TreeMap String (List QueuedRequest))

/-- The data guarded by the controller's mutex. -/
structure TrafficState where
  nextTicket : UInt64 := 0
  draining : Bool := false
  waiting : Waiting := ∅
  active : TreeMap UInt64 ActiveRequest := ∅
  classActiveRequests : Counters String := {}
  classActiveTokens : Counters String := {}
  tenantActiveRequests : Counters String := {}
  tenantActiveTokens : Counters String := {}
  tenantQueuedRequests : Counters String := {}
  tenantQueuedTokens : Counters String := {}
  classVruntime : TreeMap String ℕ := ∅
  tenantVruntime : TreeMap String ℕ := ∅
  admissions : Counters (String ×ₗ String ×ₗ String) := {}
  rejections : Counters (String ×ₗ String ×ₗ String) := {}
  queueWaitMicros : TreeMap (String ×ₗ String) ℕ := ∅
  queueWaitCount : Counters (String ×ₗ String) := {}

/-- The queue of one tenant in one class. -/
def TrafficState.queue (s : TrafficState) (classId tenantId : String) : List QueuedRequest :=
  (s.waiting[classId]?.bind fun tenants => tenants[tenantId]?).getD []

/-- `state.active.values().map(|active| active.token_cost).sum::<u64>()` -/
def TrafficState.activeTokens (s : TrafficState) : UInt64 :=
  (s.active.toList.map fun entry => entry.2.tokenCost).sum

/-- Active tokens in basis points of the global limit. -/
def activeTokenUtilizationBps (s : TrafficState) (policy : TrafficPolicy) : UInt64 :=
  saturatingMul s.activeTokens 10000 / policy.maxActiveTokens

/-- The number of queued requests, read from the tenants' counters. -/
def queuedRequests (s : TrafficState) : UInt64 :=
  (s.tenantQueuedRequests.map.toList.map Prod.snd).sum

/-- `VIRTUAL_RUNTIME_SCALE` -/
def virtualRuntimeScale : ℕ := 1000000

/-- The virtual runtime that a dispatch of `tokens` adds at the given weight. The
product of a 64-bit word and the scale fits 128 bits. -/
def virtualRuntimeDelta (tokens : UInt64) (weight : UInt32) : ℕ :=
  max 1 (if weight = 0 then u128Max else tokens.toNat * virtualRuntimeScale / weight.toNat)

/-- Count a rejected request. -/
def recordRejectionLocked (s : TrafficState) (tenant : TenantPolicy) (reason : String) :
    TrafficState :=
  { s with
    rejections :=
      increment s.rejections (toLex (tenant.serviceClass, toLex (tenant.id, reason))) 1 }

/-- Take a ticket out of `active` and give its capacity back. -/
def releaseActiveLocked (s : TrafficState) (ticket : UInt64) :
    Option (ActiveRequest × TrafficState) :=
  s.active[ticket]?.map fun active =>
    (active,
      { s with
        active := s.active.erase ticket
        classActiveRequests := decrement s.classActiveRequests active.serviceClass 1
        classActiveTokens := decrement s.classActiveTokens active.serviceClass active.tokenCost
        tenantActiveRequests := decrement s.tenantActiveRequests active.tenant 1
        tenantActiveTokens := decrement s.tenantActiveTokens active.tenant active.tokenCost })

end Locus.Traffic
