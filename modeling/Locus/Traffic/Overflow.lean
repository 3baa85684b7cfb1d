import Locus.Lib.WordSums
import Locus.Traffic.Caps
import Locus.Traffic.Meters
import Locus.Traffic.Tickets

/-!
# Overflow under the admission lock

Every unchecked addition, subtraction and sum of the controller, while fewer than `2 ^ 64` calls
are made. The request counters, the decision counters and the sum of the queue lengths cannot
leave their words. Three additions can: the tokens that a tenant has queued, the tokens that are
active, and the microseconds that a tenant has waited. Nothing overflows in a run exactly if each
of its steps leaves room for these three.
-/

namespace Locus.Traffic

open Std (TreeMap TransOrd LawfulEqOrd)
open Locus.Lib

section Monitor

/-- The controller with the terminations that were reported to it. -/
structure Monitored where
  traffic : System := {}
  terminations : Counters (String ×ₗ String ×ₗ String) := {}

/-- A step of the controller or the report of a termination. -/
inductive Call
  | traffic (label : Label)
  | recordTermination (tenant : Option String) (reason : String)
  deriving DecidableEq

/-- `record_termination` -/
def recordTermination (ctl : TrafficController)
    (terminations : Counters (String ×ₗ String ×ₗ String)) (tenantId : Option String)
    (reason : String) : Counters (String ×ₗ String ×ₗ String) :=
  match tenantId.bind fun id => ctl.tenants[id]? with
  | none => terminations
  | some tenant =>
    increment terminations (toLex (tenant.serviceClass, toLex (tenant.id, reason))) 1

/-- One step; `none` when the call is not enabled. -/
def monitoredStep (ctl : TrafficController) (sys : Monitored) : Call → Option Monitored
  | .traffic label => do
    let traffic ← step ctl sys.traffic label
    some { sys with traffic }
  | .recordTermination tenantId reason =>
    if sys.traffic.lock = .free then
      some { sys with terminations := recordTermination ctl sys.terminations tenantId reason }
    else none

/-- A call of `admit` or of `record_termination`. -/
def Call.counted : Call → ℕ
  | .traffic label => label.admits
  | .recordTermination .. => 1

/-- The number of calls of `admit` and `record_termination` among some steps. -/
def callCount (calls : List Call) : ℕ := (calls.map Call.counted).sum

/-- Runs from the construction of the controller. -/
def MonitoredReaches (ctl : TrafficController) (calls : List Call) (sys : Monitored) : Prop :=
  Run (stepRel (monitoredStep ctl)) {} calls sys

/-- No addition or subtraction has left its type so far, and the sums over the active and over
the queued requests do not leave theirs. -/
structure NoOverflow (sys : Monitored) : Prop where
  classActive : sys.traffic.state.classActiveRequests.overflowed = false ∧
    sys.traffic.state.classActiveTokens.overflowed = false
  tenantActive : sys.traffic.state.tenantActiveRequests.overflowed = false ∧
    sys.traffic.state.tenantActiveTokens.overflowed = false
  tenantQueued : sys.traffic.state.tenantQueuedRequests.overflowed = false ∧
    sys.traffic.state.tenantQueuedTokens.overflowed = false
  decisions : sys.traffic.state.admissions.overflowed = false ∧
    sys.traffic.state.rejections.overflowed = false
  queueWait : (∀ key, count sys.traffic.state.queueWaitMicros key < 2 ^ 128) ∧
    sys.traffic.state.queueWaitCount.overflowed = false
  terminations : sys.terminations.overflowed = false
  activeSum : SumFits (sys.traffic.state.active.toList.map fun entry => entry.2.tokenCost)
  queuedSum : SumFits (sys.traffic.state.tenantQueuedRequests.map.toList.map Prod.snd)

/-- A granted request leaves room in the tokens of its class and its tenant, in the sum of all
active tokens unless it is released at once, and in the time that its tenant has waited. -/
structure GrantFits (sys : System) (c t : String) (q : QueuedRequest) (now : ℕ) : Prop where
  classTokens : activeCost (sys.state.activeInClass c) + q.tokenCost.toNat < 2 ^ 64
  tenantTokens : activeCost (sys.state.activeOfTenant t) + q.tokenCost.toNat < 2 ^ 64
  activeTokens : phaseOf sys.channels q.sender = .waiting →
    sys.state.exactActiveTokens + q.tokenCost.toNat < 2 ^ 64
  queueWait : count sys.state.queueWaitMicros (toLex (c, t)) + (now - q.enqueuedAt) < 2 ^ 128

instance (sys : System) (c t : String) (q : QueuedRequest) (now : ℕ) :
    Decidable (GrantFits sys c t q now) :=
  decidable_of_iff
    ((activeCost (sys.state.activeInClass c) + q.tokenCost.toNat < 2 ^ 64 ∧
        activeCost (sys.state.activeOfTenant t) + q.tokenCost.toNat < 2 ^ 64) ∧
      (phaseOf sys.channels q.sender = .waiting →
        sys.state.exactActiveTokens + q.tokenCost.toNat < 2 ^ 64) ∧
      count sys.state.queueWaitMicros (toLex (c, t)) + (now - q.enqueuedAt) < 2 ^ 128)
    ⟨fun h => ⟨h.1.1, h.1.2, h.2.1, h.2.2⟩,
      fun h => ⟨⟨h.classTokens, h.tenantTokens⟩, h.activeTokens, h.queueWait⟩⟩

/-- An accepted request leaves room in the queued tokens of its tenant, and a granted one leaves
room as well. -/
def StepFits (ctl : TrafficController) (sys : Monitored) : Call → Prop
  | .traffic (.admitRequest tenantId tokenCost now cancellation) =>
    (admitRequest ctl sys.traffic.state tenantId tokenCost now cancellation
        sys.traffic.channels.length).1.isOk = true →
      ∀ id ∈ tenantId,
        queuedCost (sys.traffic.state.queuedOfTenant id) + tokenCost.toNat < 2 ^ 64
  | .traffic (.schedule now) =>
    ∀ candidate ∈ nextCandidate ctl sys.traffic.state,
      ∀ q ∈ (queueOf sys.traffic.state.waiting candidate.1 candidate.2).head?,
        GrantFits sys.traffic candidate.1 candidate.2 q now
  | _ => True

instance (sys : Monitored) (call : Call) (ctl : TrafficController) :
    Decidable (StepFits ctl sys call) := by
  unfold StepFits
  split <;> infer_instance

end Monitor

section Tallies

variable {α κ : Type} [Ord κ] [DecidableEq κ]

/-- A table whose flag is clear and whose exact tallies fit a word. -/
structure TallyClear (c : Counters κ) (key : α → κ) (size : α → UInt64) (M : Multiset α) :
    Prop where
  clear : c.overflowed = false
  fits : ∀ k, natTally key size M k < 2 ^ 64

variable {c : Counters κ} {key : α → κ} {size : α → UInt64} {M : Multiset α} {a : α}

theorem TallyClear.empty : TallyClear ({} : Counters κ) key size (0 : Multiset α) where
  clear := rfl
  fits _ := by simp

/-- An addition stays in its word exactly if the larger tally does. -/
theorem TallyClear.increment_iff (h : TallyClear c key size M) (htracks : Tracks c key size M)
    (a : α) : (increment c (key a) (size a)).overflowed = false ↔
      natTally key size M (key a) + (size a).toNat < 2 ^ 64 := by
  simp only [increment, h.clear, Bool.false_or, decide_eq_false_iff_not, Nat.not_le,
    htracks.toNat_count (h.fits (key a))]

/-- An element joins. -/
theorem TallyClear.increment (h : TallyClear c key size M) (htracks : Tracks c key size M)
    (hfits : natTally key size M (key a) + (size a).toNat < 2 ^ 64) :
    TallyClear (increment c (key a) (size a)) key size (a ::ₘ M) where
  clear := (h.increment_iff htracks a).mpr hfits
  fits k := by
    have hk := h.fits k
    rw [natTally_cons]
    split_ifs with heq
    · subst heq
      omega
    · omega

/-- An element leaves. -/
theorem TallyClear.decrement (h : TallyClear c key size (a ::ₘ M))
    (htracks : Tracks c key size (a ::ₘ M)) :
    TallyClear (decrement c (key a) (size a)) key size M where
  clear := htracks.decrement_overflowed h.clear (h.fits (key a))
  fits k := by
    have hk := h.fits k
    rw [natTally_cons] at hk
    omega

omit [DecidableEq κ] in
/-- A subtraction keeps a set flag. -/
theorem clear_of_decrement {k : κ} {v : UInt64} (h : (decrement c k v).overflowed = false) :
    c.overflowed = false := by
  unfold decrement at h
  split at h
  next => exact (Bool.or_eq_false_iff.mp h).1
  next => exact h

end Tallies

variable {ctl : TrafficController} {s s' : TrafficState} {sys sys' : System} {calls : ℕ}

section Sums

theorem exactSum_eq (s : TrafficState) :
    exactSum (s.active.toList.map fun entry => entry.2.tokenCost) = s.exactActiveTokens := by
  simp [exactSum, TrafficState.exactActiveTokens, Function.comp_def]

/-- The sum over the queue lengths is the number of queued requests. -/
theorem sumFits_queued (h : QueuesSound ctl s) :
    SumFits (s.tenantQueuedRequests.map.toList.map Prod.snd) := by
  rw [sumFits_iff]
  have hcard := h.total_le
  have hlimit := ctl.policy.maxQueuedRequests.toNat_lt
  have hkeys : s.tenantQueuedRequests.map.keys.Nodup := s.tenantQueuedRequests.map.nodup_keys
  have hsum := sum_natTally_le WaitingEntry.tenant (fun _ => 1) hkeys
    (waitingEntries s.waiting)
  have hvalues : exactSum (s.tenantQueuedRequests.map.toList.map Prod.snd) =
      (s.tenantQueuedRequests.map.keys.map fun t =>
        natTally WaitingEntry.tenant (fun _ => 1) (waitingEntries s.waiting) t).sum := by
    rw [exactSum, List.map_map, ← TreeMap.map_fst_toList_eq_keys, List.map_map]
    refine congrArg List.sum (List.map_congr_left fun entry hentry => ?_)
    obtain ⟨t, n⟩ := entry
    have hn := TreeMap.mem_toList_iff_getElem?_eq_some.mp hentry
    have hcount := h.requests_tracks.toNat_count (natTally_one_lt _ h.total_le) (k := t)
    rw [count, hn] at hcount
    exact hcount
  rw [hvalues]
  have hones : ((waitingEntries s.waiting).map fun _ => (1 : UInt64).toNat).sum =
      (waitingEntries s.waiting).card := by simp
  omega

end Sums

section Invariant

/-- What holds after some calls of every run, whether or not anything has overflowed. -/
structure Counted (ctl : TrafficController) (sys : Monitored) (calls : ℕ) : Prop where
  tickets : TicketsSound ctl sys.traffic
  enqueues_le : sys.traffic.enqueues ≤ calls
  metered : Metered sys.traffic.state calls
  terminations : Meters sys.terminations (fun _ => 0) calls

/-- The three tables of tokens have not left their words. -/
structure TablesClear (s : TrafficState) : Prop where
  classTokens : TallyClear s.classActiveTokens (fun e : UInt64 × ActiveRequest => e.2.serviceClass)
    (fun e => e.2.tokenCost) (entries s.active)
  tenantTokens : TallyClear s.tenantActiveTokens (fun e : UInt64 × ActiveRequest => e.2.tenant)
    (fun e => e.2.tokenCost) (entries s.active)
  queuedTokens : TallyClear s.tenantQueuedTokens WaitingEntry.tenant
    (fun e => e.request.tokenCost) (waitingEntries s.waiting)

/-- The additions that can leave their types have not done so. -/
structure TokensClear (s : TrafficState) : Prop extends TablesClear s where
  activeTokens : s.exactActiveTokens < 2 ^ 64
  queueWait : ∀ key, count s.queueWaitMicros key < 2 ^ 128

/-- Nothing else can overflow. -/
theorem Counted.noOverflow {sys : Monitored} (h : Counted ctl sys calls)
    (hclear : TokensClear sys.traffic.state) : NoOverflow sys where
  classActive := ⟨h.tickets.state.active.classRequests_exact, hclear.classTokens.clear⟩
  tenantActive := ⟨h.tickets.state.active.tenantRequests_exact, hclear.tenantTokens.clear⟩
  tenantQueued := ⟨h.tickets.state.queue.requests_exact, hclear.queuedTokens.clear⟩
  decisions := ⟨h.metered.admissions.clear, h.metered.rejections.clear⟩
  queueWait := ⟨hclear.queueWait, h.metered.queueWaitCount.clear⟩
  terminations := h.terminations.clear
  activeSum := sumFits_iff.mpr (by rw [exactSum_eq]; exact hclear.activeTokens)
  queuedSum := sumFits_queued h.tickets.state.queue

theorem Counted.empty : Counted ctl {} 0 where
  tickets := ⟨StateSound.empty, by simpa using Ledger.empty, rfl, by intro c t; simp [grantedTo]⟩
  enqueues_le := Nat.le_refl _
  metered := Metered.empty
  terminations := Meters.empty

theorem TokensClear.empty : TokensClear {} where
  classTokens := TallyClear.empty
  tenantTokens := TallyClear.empty
  queuedTokens := by simpa using TallyClear.empty
  activeTokens := by simp [exactActiveTokens_eq]
  queueWait key := by simp [count]

/-- A step hands out a ticket only for a call of `admit`. -/
theorem enqueues_le_of_step (hknown : QueuesKnown ctl sys.state.waiting) {label : Label}
    (hstep : step ctl sys label = some sys') :
    sys'.enqueues ≤ sys.enqueues + label.admits := by
  cases move_of_step hknown hstep with
  | refused | unlocked | cancelMissed | rephased | releaseMissed | drainRepeated | resumed =>
    exact Nat.le_add_right _ _
  | enqueued | delivered | undelivered | cancelled | released =>
    simp [System.enqueues, enqueuedTickets, Label.admits]
  | drained free drains =>
    have hkept (sys : System) (q : QueuedRequest) :
        (sendDraining sys q).enqueues = sys.enqueues := by
      unfold sendDraining
      split_ifs <;> simp [System.enqueues, enqueuedTickets]
    rw [foldl_sendDraining_eq System.enqueues hkept]
    exact Nat.le_add_right _ _

/-- One step keeps the counts, as long as there are not too many calls. -/
theorem Counted.step {sys sys' : Monitored} (h : Counted ctl sys calls) {call : Call}
    (hstep : monitoredStep ctl sys call = some sys') (hlt : calls + call.counted < 2 ^ 64) :
    Counted ctl sys' (calls + call.counted) := by
  cases call with
  | traffic label =>
    obtain ⟨traffic, htraffic, hsys⟩ := Option.bind_eq_some_iff.mp hstep
    obtain rfl := Option.some.inj hsys
    have hknown := h.tickets.state.queue.known
    have hle := enqueues_le_of_step hknown htraffic
    have hfew : traffic.enqueues ≤ calls + label.admits :=
      hle.trans (Nat.add_le_add_right h.enqueues_le _)
    exact ⟨h.tickets.step htraffic (Nat.lt_of_le_of_lt hfew hlt), hfew,
      h.metered.step hknown htraffic hlt,
      h.terminations.mono fun _ => Nat.add_le_add_left (Nat.le_add_right _ _) _⟩
  | recordTermination tenantId reason =>
    simp only [monitoredStep] at hstep
    split_ifs at hstep with hfree
    obtain rfl := Option.some.inj hstep
    simp only [Call.counted] at hlt ⊢
    refine ⟨h.tickets, Nat.le_succ_of_le h.enqueues_le, h.metered.mono (Nat.le_succ _), ?_⟩
    simp only [recordTermination]
    split
    · exact h.terminations.mono fun _ => by omega
    · exact h.terminations.increment (by omega) (fun _ _ => by omega) hlt

end Invariant

section Steps

/-- A call of `admit` keeps the lock for the scheduling loop exactly if it is accepted. -/
theorem admit_isOk_iff {tenant : Option String} {cost : UInt64} {now cancellation : ℕ}
    (h : step ctl sys (.admitRequest tenant cost now cancellation) = some sys') :
    sys.lock = .free ∧ ((admitRequest ctl sys.state tenant cost now cancellation
      sys.channels.length).1.isOk = true ↔ sys'.lock ≠ .free) := by
  simp only [step] at h
  split_ifs at h with hfree
  split at h
  next hadmission =>
    obtain rfl := Option.some.inj h
    simp [hadmission, hfree, Except.isOk, Except.toBool]
  next hadmission =>
    obtain rfl := Option.some.inj h
    simp [hadmission, hfree, Except.isOk, Except.toBool]

/-- An iteration of the scheduling loop records how long the granted request has waited. -/
theorem queueWait_of_schedule {now : ℕ} (h : step ctl sys (.schedule now) = some sys') :
    ∃ c t q, nextCandidate ctl sys.state = some (c, t) ∧
      (queueOf sys.state.waiting c t).head? = some q ∧
      sys'.state.queueWaitMicros = sys.state.queueWaitMicros.insert (toLex (c, t))
        (count sys.state.queueWaitMicros (toLex (c, t)) + (now - q.enqueuedAt)) := by
  simp only [step] at h
  split_ifs at h with hbusy
  obtain ⟨⟨c, t⟩, hnext, h⟩ := Option.bind_eq_some_iff.mp h
  obtain ⟨⟨q, s₁⟩, hgrant, h⟩ := Option.bind_eq_some_iff.mp h
  obtain rfl := Option.some.inj h
  obtain ⟨rest, serviceClass, tenant, hqueue, -, -, rfl⟩ := grantHead_spec hgrant
  refine ⟨c, t, q, hnext, by rw [hqueue]; rfl, ?_⟩
  unfold sendPermit
  split_ifs
  · rfl
  · dsimp only
    split
    next hrelease =>
      obtain ⟨-, rfl⟩ := releaseActiveLocked_spec hrelease
      rfl
    next => rfl

/-- The active requests after a grant under a fresh ticket. -/
theorem Grants.active_eq {c t : String} {q : QueuedRequest} (hg : Grants ctl s c t q s')
    (hfresh : s.active[q.ticket]? = none) :
    entries s'.active = (q.ticket, ⟨t, c, q.tokenCost, q.cancellation⟩) ::ₘ entries s.active := by
  obtain ⟨rest, serviceClass, tenant, now, -, -, -, rfl⟩ := hg.state_eq
  rw [← entries_erase_of_none hfresh, ← entries_insert]
  rfl

/-- The granted request is active. -/
theorem Grants.active_ticket {c t : String} {q : QueuedRequest} (hg : Grants ctl s c t q s') :
    s'.active[q.ticket]? = some ⟨t, c, q.tokenCost, q.cancellation⟩ := by
  obtain ⟨rest, serviceClass, tenant, now, -, -, -, rfl⟩ := hg.state_eq
  simp [activate]

/-- A grant keeps the tables of active tokens in range exactly if there is room in both. -/
theorem TablesClear.grant_iff (h : TablesClear s) (hsound : StateSound ctl s) {c t : String}
    {q : QueuedRequest} (hg : Grants ctl s c t q s') :
    (s'.classActiveTokens.overflowed = false ↔
        activeCost (s.activeInClass c) + q.tokenCost.toNat < 2 ^ 64) ∧
      (s'.tenantActiveTokens.overflowed = false ↔
        activeCost (s.activeOfTenant t) + q.tokenCost.toNat < 2 ^ 64) := by
  obtain ⟨rest, serviceClass, tenant, now, -, -, -, rfl⟩ := hg.state_eq
  rw [← (natTally_activeInClass s c).2, ← (natTally_activeOfTenant s t).2]
  let a : UInt64 × ActiveRequest := (q.ticket, ⟨t, c, q.tokenCost, q.cancellation⟩)
  exact ⟨h.classTokens.increment_iff hsound.active.classTokens_tracks a,
    h.tenantTokens.increment_iff hsound.active.tenantTokens_tracks a⟩

/-- A grant that fits keeps the tables in range. -/
theorem TablesClear.grant (h : TablesClear s) (hsound : StateSound ctl s) {c t : String}
    {q : QueuedRequest} (hg : Grants ctl s c t q s') (hfresh : s.active[q.ticket]? = none)
    (hclass : activeCost (s.activeInClass c) + q.tokenCost.toNat < 2 ^ 64)
    (htenant : activeCost (s.activeOfTenant t) + q.tokenCost.toNat < 2 ^ 64) :
    TablesClear s' := by
  have hactive := hg.active_eq hfresh
  obtain ⟨rest, serviceClass, tenant, now, hqueue, -, -, rfl⟩ := hg.state_eq
  rw [← (natTally_activeInClass s c).2] at hclass
  rw [← (natTally_activeOfTenant s t).2] at htenant
  have hremove := waitingEntries_remove [] hqueue
  have hqueued := h.queuedTokens
  have htracks := hsound.queue.tokens_tracks
  rw [hremove] at hqueued htracks
  let a : UInt64 × ActiveRequest := (q.ticket, ⟨t, c, q.tokenCost, q.cancellation⟩)
  refine ⟨?_, ?_, hqueued.decrement htracks⟩
  · rw [hactive]
    exact TallyClear.increment (a := a) h.classTokens hsound.active.classTokens_tracks hclass
  · rw [hactive]
    exact TallyClear.increment (a := a) h.tenantTokens hsound.active.tenantTokens_tracks htenant

/-- A release keeps the tables in range. -/
theorem TablesClear.release (h : TablesClear s) (hsound : StateSound ctl s) {ticket : UInt64}
    {a : ActiveRequest} (hr : Releases s ticket a s') : TablesClear s' := by
  obtain ⟨ha, rfl⟩ := hr
  obtain ⟨hclass, htenant, hqueued⟩ := h
  have hclassTracks := hsound.active.classTokens_tracks
  have htenantTracks := hsound.active.tenantTokens_tracks
  rw [entries_of_getElem? ha] at hclass htenant hclassTracks htenantTracks
  exact ⟨hclass.decrement hclassTracks, htenant.decrement htenantTracks, hqueued⟩

/-- A release does not hide an overflow. -/
theorem Releases.clear {ticket : UInt64} {a : ActiveRequest} (hr : Releases s ticket a s')
    (hclass : s'.classActiveTokens.overflowed = false)
    (htenant : s'.tenantActiveTokens.overflowed = false) :
    s.classActiveTokens.overflowed = false ∧ s.tenantActiveTokens.overflowed = false := by
  obtain ⟨-, rfl⟩ := hr
  exact ⟨clear_of_decrement hclass, clear_of_decrement htenant⟩

/-- A grant adds the tokens of its request to the exact sum. -/
theorem Grants.exactActiveTokens_eq {c t : String} {q : QueuedRequest}
    (hg : Grants ctl s c t q s') (hfresh : s.active[q.ticket]? = none) :
    s'.exactActiveTokens = s.exactActiveTokens + q.tokenCost.toNat := by
  rw [Traffic.exactActiveTokens_eq, Traffic.exactActiveTokens_eq, hg.active_eq hfresh,
    Multiset.map_cons, Multiset.sum_cons, Nat.add_comm]

/-- A release takes the tokens of its request from the exact sum. -/
theorem Releases.exactActiveTokens_add {ticket : UInt64} {a : ActiveRequest}
    (hr : Releases s ticket a s') :
    s'.exactActiveTokens + a.tokenCost.toNat = s.exactActiveTokens := by
  obtain ⟨ha, rfl⟩ := hr
  rw [Traffic.exactActiveTokens_eq, Traffic.exactActiveTokens_eq, entries_of_getElem? ha,
    Multiset.map_cons, Multiset.sum_cons, Nat.add_comm]

theorem Grants.nextCandidate_eq {c t : String} {q : QueuedRequest} (hg : Grants ctl s c t q s') :
    nextCandidate ctl s = some (c, t) ∧ (queueOf s.waiting c t).head? = some q := by
  obtain ⟨rest, serviceClass, tenant, now, hqueue, -⟩ := hg.state_eq
  exact ⟨by rw [nextCandidate, if_pos hg.room, hg.chosen], by rw [hqueue]; rfl⟩

/-- The times that tenants have waited, after an iteration of the scheduling loop. -/
theorem queueWait_schedule_iff {now : ℕ} (h : step ctl sys (.schedule now) = some sys')
    (hwait : ∀ key, count sys.state.queueWaitMicros key < 2 ^ 128) {c t : String}
    {q : QueuedRequest} (hnext : nextCandidate ctl sys.state = some (c, t))
    (hhead : (queueOf sys.state.waiting c t).head? = some q) :
    (∀ key, count sys'.state.queueWaitMicros key < 2 ^ 128) ↔
      count sys.state.queueWaitMicros (toLex (c, t)) + (now - q.enqueuedAt) < 2 ^ 128 := by
  obtain ⟨c', t', q', hnext', hhead', heq⟩ := queueWait_of_schedule h
  obtain ⟨rfl, rfl⟩ := Prod.mk.inj (Option.some.inj (hnext.symm.trans hnext'))
  obtain rfl := Option.some.inj (hhead.symm.trans hhead')
  rw [heq]
  constructor
  · intro hlt
    simpa [count_insert] using hlt (toLex (c, t))
  · intro hlt key
    rw [count_insert]
    split_ifs
    · exact hlt
    · exact hwait key

/-- A grant whose permit comes back leaves the exact sum as it was. -/
theorem Grants.exactActiveTokens_release {c t : String} {q : QueuedRequest} {a : ActiveRequest}
    {s'' : TrafficState} (hg : Grants ctl s c t q s') (hfresh : s.active[q.ticket]? = none)
    (hr : Releases s' q.ticket a s'') : s''.exactActiveTokens = s.exactActiveTokens := by
  have hadded := hg.exactActiveTokens_eq hfresh
  have htaken := hr.exactActiveTokens_add
  have hactive := hr.active_eq
  rw [hg.active_ticket] at hactive
  obtain rfl := Option.some.inj hactive
  simp only at htaken
  omega

/-- The table of queued tokens stays in range exactly if there is room for the new request. -/
theorem TablesClear.enqueue_iff (h : TablesClear s) (hsound : StateSound ctl s)
    {tenant : TenantPolicy} {serviceClass : ServiceClassPolicy} {request : QueuedRequest}
    (he : Enqueues ctl s tenant serviceClass request s') :
    s'.tenantQueuedTokens.overflowed = false ↔
      queuedCost (s.queuedOfTenant tenant.id) + request.tokenCost.toNat < 2 ^ 64 := by
  obtain ⟨cv, tv, adm, rfl⟩ := he.state_eq
  let e : WaitingEntry := ⟨tenant.serviceClass, tenant.id, request⟩
  rw [← (natTally_queuedOfTenant s tenant.id).2]
  exact h.queuedTokens.increment_iff hsound.queue.tokens_tracks e

/-- A request that fits is queued. -/
theorem TokensClear.enqueue (h : TokensClear s) (hsound : StateSound ctl s)
    {tenant : TenantPolicy} {serviceClass : ServiceClassPolicy} {request : QueuedRequest}
    (he : Enqueues ctl s tenant serviceClass request s')
    (hfit : queuedCost (s.queuedOfTenant tenant.id) + request.tokenCost.toNat < 2 ^ 64) :
    TokensClear s' := by
  rw [← (natTally_queuedOfTenant s tenant.id).2] at hfit
  obtain ⟨cv, tv, adm, rfl⟩ := he.state_eq
  let e : WaitingEntry := ⟨tenant.serviceClass, tenant.id, request⟩
  refine ⟨⟨h.classTokens, h.tenantTokens, ?_⟩, h.activeTokens, h.queueWait⟩
  rw [waitingEntries_push]
  exact TallyClear.increment (a := e) h.queuedTokens hsound.queue.tokens_tracks hfit

/-- A waiter that leaves its queue keeps everything in range. -/
theorem TokensClear.cancel (h : TokensClear s) (hsound : StateSound ctl s) {c t : String}
    {q : QueuedRequest} (hc : Cancels s c t q s') : TokensClear s' := by
  obtain ⟨before, after, rej, hqueue, rfl⟩ := hc.state_eq
  have hremove := waitingEntries_remove before hqueue
  have hqueued := h.queuedTokens
  have htracks := hsound.queue.tokens_tracks
  rw [hremove] at hqueued htracks
  exact ⟨⟨h.classTokens, h.tenantTokens, hqueued.decrement htracks⟩, h.activeTokens, h.queueWait⟩

/-- A release keeps everything in range. -/
theorem TokensClear.release (h : TokensClear s) (hsound : StateSound ctl s) {ticket : UInt64}
    {a : ActiveRequest} (hr : Releases s ticket a s') : TokensClear s' := by
  refine ⟨h.toTablesClear.release hsound hr, ?_, ?_⟩
  · have htaken := hr.exactActiveTokens_add
    have hlt := h.activeTokens
    omega
  · obtain ⟨-, rfl⟩ := hr
    exact h.queueWait

/-- A drain keeps everything in range. -/
theorem TokensClear.drain (h : TokensClear s) (hsound : StateSound ctl s) (hd : Drains s s') :
    TokensClear s' := by
  obtain ⟨rej, rfl⟩ := hd.state_eq
  have htracks := hsound.queue.tokens_tracks
  have hqueued := h.queuedTokens
  rw [← coe_waitingList] at htracks hqueued
  refine ⟨⟨h.classTokens, h.tenantTokens, ?_⟩, h.activeTokens, h.queueWait⟩
  refine ⟨htracks.foldl_decrement_overflowed hqueued.clear hqueued.fits, fun t => ?_⟩
  simp

/-- A step that fits keeps everything in range. -/
theorem TokensClear.step {sys sys' : Monitored} (h : TokensClear sys.traffic.state)
    (hcounted : Counted ctl sys calls) {call : Call}
    (hstep : monitoredStep ctl sys call = some sys') (hfits : StepFits ctl sys call) :
    TokensClear sys'.traffic.state := by
  have hsound := hcounted.tickets.state
  cases call with
  | recordTermination tenantId reason =>
    simp only [monitoredStep] at hstep
    split_ifs at hstep with hfree
    obtain rfl := Option.some.inj hstep
    exact h
  | traffic label =>
    obtain ⟨traffic, htraffic, hsys⟩ := Option.bind_eq_some_iff.mp hstep
    obtain rfl := Option.some.inj hsys
    have hfresh := hcounted.tickets.freshGrant label
    simp only
    cases move_of_step hsound.queue.known htraffic with
    | unlocked | cancelMissed | rephased | releaseMissed | drainRepeated => exact h
    | refused | resumed =>
      exact ⟨⟨h.classTokens, h.tenantTokens, h.queuedTokens⟩, h.activeTokens, h.queueWait⟩
    | enqueued free enqueues =>
      exact h.enqueue hsound enqueues (hfits ((admit_isOk_iff htraffic).2.mpr (by simp)) _ rfl)
    | delivered busy grants alive =>
      obtain ⟨hnext, hhead⟩ := grants.nextCandidate_eq
      have hfit := hfits _ hnext _ hhead
      have hticket := hfresh _ grants.mem_nextHead
      refine ⟨h.toTablesClear.grant hsound grants hticket hfit.classTokens hfit.tenantTokens,
        ?_, ?_⟩
      · rw [grants.exactActiveTokens_eq hticket]
        exact hfit.activeTokens alive
      · exact (queueWait_schedule_iff htraffic h.queueWait hnext hhead).mpr hfit.queueWait
    | undelivered busy grants releases gone =>
      obtain ⟨hnext, hhead⟩ := grants.nextCandidate_eq
      have hfit := hfits _ hnext _ hhead
      have hticket := hfresh _ grants.mem_nextHead
      have htables := h.toTablesClear.grant hsound grants hticket hfit.classTokens
        hfit.tenantTokens
      refine ⟨htables.release (hsound.grant grants hticket) releases, ?_, ?_⟩
      · rw [grants.exactActiveTokens_release hticket releases]
        exact h.activeTokens
      · exact (queueWait_schedule_iff htraffic h.queueWait hnext hhead).mpr hfit.queueWait
    | cancelled free channel_eq tenant_eq cancels => exact h.cancel hsound cancels
    | released free channel_eq dropping releases => exact h.release hsound releases
    | drained free drains =>
      rw [foldl_sendDraining_state]
      exact h.drain hsound drains

/-- A step after which everything is in range fits. -/
theorem TokensClear.stepFits {sys sys' : Monitored} (h : TokensClear sys.traffic.state)
    (hcounted : Counted ctl sys calls) {call : Call}
    (hstep : monitoredStep ctl sys call = some sys') (hno : NoOverflow sys') :
    StepFits ctl sys call := by
  have hsound := hcounted.tickets.state
  cases call with
  | recordTermination => trivial
  | traffic label =>
    obtain ⟨traffic, htraffic, hsys⟩ := Option.bind_eq_some_iff.mp hstep
    obtain rfl := Option.some.inj hsys
    have hfresh := hcounted.tickets.freshGrant label
    have hmove := move_of_step hsound.queue.known htraffic
    cases label with
    | admitRequest tenantId tokenCost now cancellation =>
      rintro hok id rfl
      obtain ⟨hfree, hlock⟩ := admit_isOk_iff htraffic
      have hbusy := hlock.mp hok
      cases hmove with
      | refused | rephased => exact absurd hfree hbusy
      | enqueued free enqueues =>
        exact (h.toTablesClear.enqueue_iff hsound enqueues).mp hno.tenantQueued.2
    | schedule now =>
      rintro ⟨c, t⟩ hnext q hhead
      have hwait := (queueWait_schedule_iff htraffic h.queueWait hnext hhead).mp hno.queueWait.1
      have hgranted : ∀ {c' t' : String} {q' : QueuedRequest} {s' : TrafficState},
          Grants ctl sys.traffic.state c' t' q' s' → c' = c ∧ t' = t ∧ q' = q := by
        intro c' t' q' s' grants
        obtain ⟨hnext', hhead'⟩ := grants.nextCandidate_eq
        obtain ⟨rfl, rfl⟩ := Prod.mk.inj (Option.some.inj (hnext.symm.trans hnext'))
        exact ⟨rfl, rfl, Option.some.inj (hhead'.symm.trans hhead)⟩
      cases hmove with
      | delivered busy grants alive =>
        obtain ⟨rfl, rfl, rfl⟩ := hgranted grants
        obtain ⟨hclass, htenant⟩ := h.toTablesClear.grant_iff hsound grants
        refine ⟨hclass.mp hno.classActive.2, htenant.mp hno.tenantActive.2, fun _ => ?_, hwait⟩
        rw [← grants.exactActiveTokens_eq (hfresh _ grants.mem_nextHead), ← exactSum_eq]
        exact sumFits_iff.mp hno.activeSum
      | undelivered busy grants releases gone =>
        obtain ⟨rfl, rfl, rfl⟩ := hgranted grants
        obtain ⟨hclass, htenant⟩ := h.toTablesClear.grant_iff hsound grants
        obtain ⟨hclassClear, htenantClear⟩ := releases.clear hno.classActive.2 hno.tenantActive.2
        exact ⟨hclass.mp hclassClear, htenant.mp htenantClear, fun alive => absurd alive gone,
          hwait⟩
      | rephased caller => exact absurd rfl (caller now)
    | _ => trivial

end Steps

section Runs

variable {steps : List Call} {sys : Monitored}

/-- Nothing overflows in any state of a run. -/
def NeverOverflows (ctl : TrafficController) (steps : List Call) : Prop :=
  ∀ front mid, front <+: steps → MonitoredReaches ctl front mid → NoOverflow mid

/-- Every step of a run fits. -/
def StepsFit (ctl : TrafficController) (steps : List Call) : Prop :=
  ∀ front call mid, front ++ [call] <+: steps → MonitoredReaches ctl front mid →
    StepFits ctl mid call

/-- A run of steps that fit. -/
theorem stepsFit_of_permitted
    (h : Run (permitted (StepFits ctl) (stepRel (monitoredStep ctl))) {} steps sys) :
    StepsFit ctl steps := by
  rintro front call mid ⟨back, rfl⟩ hmid
  obtain ⟨next, hfront, -⟩ := h.split
  generalize hlabels : front ++ [call] = labels at hfront
  cases hfront with
  | nil => simp at hlabels
  | snoc hrun hlast =>
    obtain ⟨rfl, hcall⟩ := List.append_inj' hlabels rfl
    obtain rfl := List.singleton_inj.mp hcall
    obtain rfl := hmid.unique (hrun.mono fun _ _ _ hstep => hstep.2)
    exact hlast.1

theorem callCount_snoc (steps : List Call) (call : Call) :
    callCount (steps ++ [call]) = callCount steps + call.counted := by
  simp [callCount]

/-- The counts hold in every run without too many calls. -/
theorem counted_of_reaches (h : MonitoredReaches ctl steps sys) (hcalls : callCount steps < 2 ^ 64) :
    Counted ctl sys (callCount steps) := by
  induction h with
  | nil => exact Counted.empty
  | snoc _ hlast ih =>
    rw [callCount_snoc] at hcalls ⊢
    exact (ih (by omega)).step hlast hcalls

/-- Everything stays in range in a run of steps that fit. -/
theorem tokensClear_of_stepsFit (h : MonitoredReaches ctl steps sys)
    (hcalls : callCount steps < 2 ^ 64) (hfits : StepsFit ctl steps) :
    TokensClear sys.traffic.state := by
  induction h with
  | nil => exact TokensClear.empty
  | @snoc mid sys steps call hrun hlast ih =>
    rw [callCount_snoc] at hcalls
    have hfront : StepsFit ctl steps := fun front call mid hfront hmid =>
      hfits front call mid (hfront.trans (List.prefix_append _ _)) hmid
    have hcalls' : callCount steps < 2 ^ 64 := by omega
    exact (ih hcalls' hfront).step (counted_of_reaches hrun hcalls') hlast
      (hfits steps call mid (List.prefix_refl _) hrun)

/-- A run without overflow consists of steps that fit. -/
theorem stepsFit_of_neverOverflows (h : MonitoredReaches ctl steps sys)
    (hcalls : callCount steps < 2 ^ 64) (hnever : NeverOverflows ctl steps) :
    StepsFit ctl steps := by
  induction h with
  | nil =>
    intro front call mid hfront
    simp at hfront
  | @snoc mid sys steps call hrun hlast ih =>
    rw [callCount_snoc] at hcalls
    have hcalls' : callCount steps < 2 ^ 64 := by omega
    have hfits := ih hcalls' fun front mid hfront hmid =>
      hnever front mid (hfront.trans (List.prefix_append _ _)) hmid
    intro front call' mid' hfront hmid
    rcases List.prefix_concat_iff.mp hfront with heq | hfront
    · obtain ⟨rfl, hcall⟩ := List.append_inj' heq rfl
      obtain rfl := List.singleton_inj.mp hcall
      obtain rfl := hmid.unique hrun
      exact (tokensClear_of_stepsFit hrun hcalls' hfits).stepFits
        (counted_of_reaches hrun hcalls') hlast
        (hnever _ _ (List.prefix_refl _) (.snoc hrun hlast))
    · exact hfits front call' mid' hfront hmid

/-- With fewer than `2 ^ 64` calls nothing overflows in a run exactly if each of its steps
fits. -/
theorem neverOverflows_iff (h : MonitoredReaches ctl steps sys)
    (hcalls : callCount steps < 2 ^ 64) : NeverOverflows ctl steps ↔ StepsFit ctl steps := by
  constructor
  · exact stepsFit_of_neverOverflows h hcalls
  · intro hfits front mid hfront hmid
    obtain ⟨back, rfl⟩ := hfront
    have hcalls' : callCount front < 2 ^ 64 := by
      rw [callCount, List.map_append, List.sum_append] at hcalls
      exact Nat.lt_of_le_of_lt (Nat.le_add_right _ _) hcalls
    refine (counted_of_reaches hmid hcalls').noOverflow
      (tokensClear_of_stepsFit hmid hcalls' fun front' call mid' hfront' hmid' => ?_)
    exact hfits front' call mid' (hfront'.trans (List.prefix_append _ _)) hmid'

/-- A request of the default tenant that is served, and its termination. -/
def oneServed : List Call :=
  [.traffic (.admitRequest (some "default") 1000 0 0), .traffic (.schedule 25), .traffic .unlock,
    .recordTermination (some "default") "completed", .traffic (.receive 0),
    .traffic (.dropPermit 0), .traffic (.release 0), .traffic .unlock]

theorem neverOverflows_iff_oneServed : ∃ sys, MonitoredReaches .default oneServed sys ∧
    sys.traffic.state.queueWaitMicros.toList.map Prod.snd = [25] ∧
    NeverOverflows .default oneServed := by
  have h : (List.foldlM (fun sys call => if StepFits .default sys call then
      monitoredStep .default sys call else none) {} oneServed).map
      (fun sys => sys.traffic.state.queueWaitMicros.toList.map Prod.snd) = some [25] := by decide
  obtain ⟨sys, hrun, heq⟩ := Option.map_eq_some_iff.mp h
  have hpermitted := Run.of_foldlM_permitted hrun
  have hreaches : MonitoredReaches .default oneServed sys :=
    hpermitted.mono fun _ _ _ hstep => hstep.2
  exact ⟨sys, hreaches, heq,
    (neverOverflows_iff hreaches (by decide)).mpr (stepsFit_of_permitted hpermitted)⟩

/-- Two requests of `2 ^ 63` tokens under limits of `u64::MAX`: the second one takes the tokens
of the class out of their word while the lock is held. -/
theorem not_neverOverflows_unlimitedTokens :
    let steps : List Call := [.traffic (.admitRequest (some "default") 9223372036854775808 0 0),
      .traffic (.schedule 0), .traffic .unlock,
      .traffic (.admitRequest (some "default") 9223372036854775808 0 0), .traffic (.schedule 0)]
    callCount steps = 2 ∧ (∃ sys, MonitoredReaches unlimitedTokens steps sys) ∧
      ¬ NeverOverflows unlimitedTokens steps := by
  intro steps
  have h : (List.foldlM (monitoredStep unlimitedTokens) {} steps).map
      (fun sys => sys.traffic.state.classActiveTokens.overflowed) = some true := by decide
  obtain ⟨sys, hrun, hflag⟩ := Option.map_eq_some_iff.mp h
  have hreaches : MonitoredReaches unlimitedTokens steps sys := Run.of_foldlM hrun
  refine ⟨by decide, ⟨sys, hreaches⟩, fun hnever => ?_⟩
  have hclear := (hnever steps sys (List.prefix_refl _) hreaches).classActive.2
  rw [hflag] at hclear
  cases hclear

end Runs

end Locus.Traffic
