import Locus.Traffic.Moves

/-!
# Accounting of the queues

The two tables beside the queues are exactly what the queues hold, and the queue
limits are kept. `QueueSound` says so and is kept whenever a request joins or leaves
a queue. Every waiting request would fit an idle controller.
-/

namespace Locus.Traffic

open Std (TreeMap)
open Locus.Lib

variable {ctl : TrafficController}

/-- A waiting request of a configured tenant, queued under the tenant's class and
small enough for an idle controller. -/
def Fitting (ctl : TrafficController) (e : WaitingEntry) : Prop :=
  ∃ tenant serviceClass, ctl.tenants[e.tenant]? = some tenant ∧
    tenant.serviceClass = e.serviceClass ∧ ctl.classes[e.serviceClass]? = some serviceClass ∧
    e.request.tokenCost ≤ ctl.policy.maxActiveTokens ∧
    e.request.tokenCost ≤ serviceClass.maxActiveTokens ∧
    e.request.tokenCost ≤ tenant.maxActiveTokens

/-- The queues and the two tables kept beside them. -/
structure QueueSound (ctl : TrafficController) (w : Waiting) (draining : Bool)
    (requests tokens : Counters String) : Prop where
  known : QueuesKnown ctl w
  fitting : ∀ e ∈ waitingEntries w, Fitting ctl e
  requests_tracks : Tracks requests WaitingEntry.tenant (fun _ => 1) (waitingEntries w)
  tokens_tracks :
    Tracks tokens WaitingEntry.tenant (fun e => e.request.tokenCost) (waitingEntries w)
  requests_exact : requests.overflowed = false
  total_le : (waitingEntries w).card ≤ ctl.policy.maxQueuedRequests.toNat
  tenant_le : ∀ (t : String) tenant, ctl.tenants[t]? = some tenant →
    natTally WaitingEntry.tenant (fun _ => 1) (waitingEntries w) t ≤ tenant.maxQueuedRequests.toNat
  drained : draining = true → waitingEntries w = 0

section Queue

variable {w : Waiting} {draining : Bool} {requests tokens : Counters String}

theorem QueueSound.empty : QueueSound ctl ∅ false {} {} where
  known := ⟨by simp, by simp⟩
  fitting := by simp
  requests_tracks := by simpa using Tracks.empty
  tokens_tracks := by simpa using Tracks.empty
  requests_exact := rfl
  total_le := by simp
  tenant_le := by simp
  drained := by simp

/-- The checks of `admit` leave room for one more request in the queues. -/
theorem QueueSound.push (h : QueueSound ctl w draining requests tokens) {tenant : TenantPolicy}
    {serviceClass : ServiceClassPolicy} {q : QueuedRequest}
    (htenant : ctl.tenants[tenant.id]? = some tenant)
    (hclass : ctl.classes[tenant.serviceClass]? = some serviceClass)
    (hfits : Fitting ctl ⟨tenant.serviceClass, tenant.id, q⟩) (hdraining : draining = false)
    (hqueued : ((entries requests.map).map Prod.snd).sum < ctl.policy.maxQueuedRequests)
    (htenantQueued : count requests.map tenant.id < tenant.maxQueuedRequests) :
    QueueSound ctl (setQueue w tenant.serviceClass tenant.id
        (queueOf w tenant.serviceClass tenant.id ++ [q])) draining
      (increment requests tenant.id 1) (increment tokens tenant.id q.tokenCost) := by
  have hpush := waitingEntries_push w tenant.serviceClass tenant.id q
  have htotal : (waitingEntries w).card + 1 ≤ ctl.policy.maxQueuedRequests.toNat := by
    rw [h.requests_tracks.total_eq, UInt64.lt_iff_toNat_lt, toNat_sum_one] at hqueued
    have hle := h.total_le
    have hlt := ctl.policy.maxQueuedRequests.toNat_lt
    omega
  have hcount : natTally WaitingEntry.tenant (fun _ => 1) (waitingEntries w) tenant.id + 1 ≤
      tenant.maxQueuedRequests.toNat := by
    rw [UInt64.lt_iff_toNat_lt, h.requests_tracks.toNat_count (natTally_one_lt _ h.total_le)]
      at htenantQueued
    omega
  refine ⟨⟨fun c hc => ?_, fun c t hne => ?_⟩, fun e he => ?_, ?_, ?_, ?_, ?_, fun t p hp => ?_, ?_⟩
  · rcases isSome_setQueue.mp hc with rfl | hc
    · simp [hclass]
    · exact h.known.classes c hc
  · rw [queueOf_setQueue] at hne
    split_ifs at hne with hct
    · simp [← hct.2, htenant]
    · exact h.known.tenants c t hne
  · rw [hpush, Multiset.mem_cons] at he
    rcases he with rfl | he
    · exact hfits
    · exact h.fitting e he
  · rw [hpush]
    exact h.requests_tracks.increment ⟨tenant.serviceClass, tenant.id, q⟩
  · rw [hpush]
    exact h.tokens_tracks.increment ⟨tenant.serviceClass, tenant.id, q⟩
  · refine h.requests_tracks.increment_overflowed ⟨tenant.serviceClass, tenant.id, q⟩
      h.requests_exact (natTally_one_lt _ (n := ctl.policy.maxQueuedRequests) ?_)
    rwa [Multiset.card_cons]
  · rwa [hpush, Multiset.card_cons]
  · rw [hpush, natTally_cons]
    have hle := h.tenant_le t p hp
    split_ifs with ht
    · obtain rfl : tenant.id = t := ht
      obtain rfl : tenant = p := by simpa [htenant] using hp
      simp only [UInt64.toNat_one]
      omega
    · omega
  · simp [hdraining]

/-- A request leaves its queue, by a grant or a cancellation. -/
theorem QueueSound.remove (h : QueueSound ctl w draining requests tokens) {c t : String}
    (before : List QueuedRequest) {after : List QueuedRequest} {q : QueuedRequest}
    (hqueue : queueOf w c t = before ++ q :: after) :
    QueueSound ctl (setQueue w c t (before ++ after)) draining
      (decrement requests t 1) (decrement tokens t q.tokenCost) := by
  have hremove := waitingEntries_remove before hqueue
  have hne : queueOf w c t ≠ [] := by simp [hqueue]
  have hrequests := h.requests_tracks
  have htokens := h.tokens_tracks
  have htotal := h.total_le
  rw [hremove] at hrequests htokens htotal
  refine ⟨⟨fun c' hc' => ?_, fun c' t' hne' => ?_⟩, fun e he => h.fitting e ?_, hrequests.decrement,
    htokens.decrement, hrequests.decrement_overflowed h.requests_exact
      (natTally_one_lt _ htotal), ?_, fun t' p hp => ?_, fun hdraining => ?_⟩
  · rcases isSome_setQueue.mp hc' with rfl | hc'
    · exact h.known.classes c (isSome_of_queueOf_ne_nil hne)
    · exact h.known.classes c' hc'
  · rw [queueOf_setQueue] at hne'
    split_ifs at hne' with hct
    · exact hct.2 ▸ h.known.tenants c t hne
    · exact h.known.tenants c' t' hne'
  · rw [hremove]
    exact Multiset.mem_cons_of_mem he
  · rw [Multiset.card_cons] at htotal
    omega
  · have hle := h.tenant_le t' p hp
    rw [hremove, natTally_cons] at hle
    omega
  · have := h.drained hdraining
    rw [hremove] at this
    simp at this

/-- `begin_drain` empties the queues through their counters. -/
theorem QueueSound.drain (h : QueueSound ctl w draining requests tokens) :
    QueueSound ctl ∅ true ((waitingList w).foldl (fun c e => decrement c e.tenant 1) requests)
      ((waitingList w).foldl (fun c e => decrement c e.tenant e.request.tokenCost) tokens) := by
  have hrequests := h.requests_tracks
  have htokens := h.tokens_tracks
  rw [← coe_waitingList] at hrequests htokens
  refine ⟨⟨by simp, by simp⟩, by simp, ?_, ?_, ?_, by simp, by simp, by simp⟩
  · exact Tracks.foldl_decrement (by simpa using hrequests)
  · exact Tracks.foldl_decrement (by simpa using htokens)
  · refine hrequests.foldl_decrement_overflowed h.requests_exact fun t => ?_
    rw [coe_waitingList]
    exact natTally_one_lt _ h.total_le

theorem QueueSound.resume (h : QueueSound ctl w draining requests tokens) :
    QueueSound ctl w false requests tokens :=
  { h with drained := by simp }

end Queue

end Locus.Traffic
