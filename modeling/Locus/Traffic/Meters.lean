import Locus.Traffic.Capacity

/-!
# Counters that only grow

Rejections, admissions and waits are counted one at a time and never go down. Under each key no
more is counted than calls of `admit` were made, and a call that still waits has not been counted
yet. So none of these counters can leave a word before that many calls.
-/

namespace Locus.Traffic

open Std (TreeMap TransOrd LawfulEqOrd)
open Locus.Lib

section Keys

/-- Pairs in lexicographic order are compared by both components. -/
instance lawfulEqOrd_lex {α β : Type} [Ord α] [Ord β] [LawfulEqOrd α] [LawfulEqOrd β] :
    LawfulEqOrd (α ×ₗ β) where
  compare_self := Ordering.then_eq_eq.mpr ⟨Std.ReflOrd.compare_self, Std.ReflOrd.compare_self⟩
  eq_of_compare h := by
    obtain ⟨hfst, hsnd⟩ := Ordering.then_eq_eq.mp h
    exact Prod.ext (LawfulEqOrd.eq_of_compare hfst) (LawfulEqOrd.eq_of_compare hsnd)

end Keys

section Meters

variable {κ : Type} [Ord κ]

/-- What was counted under a key and what is still to be counted are no more than the calls. -/
structure Meters (c : Counters κ) (pending : κ → ℕ) (calls : ℕ) : Prop where
  clear : c.overflowed = false
  le : ∀ key, (count c.map key).toNat + pending key ≤ calls

/-- Count once under each of some keys. -/
def incrementAll (c : Counters κ) (keys : List κ) : Counters κ :=
  keys.foldl (fun c key => increment c key 1) c

variable {c : Counters κ} {pending pending' : κ → ℕ} {calls calls' : ℕ}

/-- A fresh table has counted nothing. -/
theorem Meters.empty : Meters ({} : Counters κ) (fun _ => 0) 0 where
  clear := rfl
  le _ := Nat.le_refl _

/-- What is pending may be dropped, and calls may be added. -/
theorem Meters.mono (h : Meters c pending calls)
    (hle : ∀ key, pending' key + calls ≤ pending key + calls') : Meters c pending' calls' where
  clear := h.clear
  le key := by
    have hkey := h.le key
    have hpending := hle key
    omega

variable [TransOrd κ] [LawfulEqOrd κ] [DecidableEq κ]

/-- Counting under one key leaves the word of no table that the calls bound. -/
theorem Meters.increment (h : Meters c pending calls) {key : κ}
    (hkey : pending' key + 1 + calls ≤ pending key + calls')
    (hother : ∀ other, key ≠ other → pending' other + calls ≤ pending other + calls')
    (hlt : calls' < 2 ^ 64) : Meters (Traffic.increment c key 1) pending' calls' := by
  have hone : (1 : UInt64).toNat = 1 := rfl
  have hcount := h.le key
  have hfits : (count c.map key).toNat + 1 < 2 ^ 64 := by omega
  refine ⟨?_, fun other => ?_⟩
  · simp only [Traffic.increment, h.clear, Bool.false_or, decide_eq_false_iff_not, hone]
    omega
  · rw [Traffic.increment, count_insert]
    split_ifs with heq
    · subst heq
      rw [UInt64.toNat_add, hone, Nat.mod_eq_of_lt hfits]
      omega
    · have hle := h.le other
      have hpending := hother other heq
      omega

/-- Counting once under each of some keys, of which none was counted before. -/
theorem Meters.incrementAll (h : Meters c pending calls) {keys : List κ}
    (hle : ∀ key, pending' key + keys.length + calls ≤ pending key + calls')
    (hlt : calls' < 2 ^ 64) : Meters (incrementAll c keys) pending' calls' := by
  induction keys generalizing c pending calls with
  | nil => exact h.mono hle
  | cons key keys ih =>
    have hkeys := fun other => hle other
    simp only [List.length_cons] at hkeys
    have hfirst : Meters (Traffic.increment c key 1) (fun other => pending' other + keys.length)
        calls' := by
      refine h.increment ?_ (fun other _ => ?_) hlt
      · have := hkeys key
        omega
      · have := hkeys other
        omega
    exact ih hfirst fun other => Nat.le_refl _

end Meters

variable {ctl : TrafficController} {s s' : TrafficState} {sys sys' : System} {calls : ℕ}

section Sections

/-- A refused request is counted under at most one reason. -/
theorem admit_error_rejections {tenantId : Option String} {tokenCost : UInt64}
    {now cancellation sender : ℕ} {e : AdmissionError}
    (h : admitRequest ctl s tenantId tokenCost now cancellation sender = (.error e, s')) :
    ∃ keys, keys.length ≤ 1 ∧ s'.rejections = incrementAll s.rejections keys := by
  obtain ⟨_, _, rfl⟩ | ⟨_, tenant, reason, _, rfl⟩ | ⟨_, _, _, _, _, _, _, _, hok, _⟩ :=
    admitRequest_cases h
  · exact ⟨[], Nat.zero_le _, rfl⟩
  · exact ⟨[_], Nat.le_refl _, rfl⟩
  · cases hok

/-- An accepted request is counted as queued. -/
theorem admit_ok_admissions {tenantId : Option String} {tokenCost : UInt64}
    {now cancellation sender : ℕ} {ticket : UInt64}
    (h : admitRequest ctl s tenantId tokenCost now cancellation sender = (.ok ticket, s')) :
    ∃ c t, s'.admissions = increment s.admissions (toLex (c, toLex (t, "queued"))) 1 := by
  obtain ⟨id, tenant, serviceClass, -, -, -, -, henqueue⟩ := admit_ok h
  obtain ⟨cv, tv, heq, -, -⟩ := normalizeIdleVruntimeLocked_spec ctl
    { s with nextTicket := saturatingAdd s.nextTicket 1 } tenant
  refine ⟨tenant.serviceClass, tenant.id, ?_⟩
  rw [← (Prod.mk.inj henqueue).2]
  simp only [heq]

/-- A cancelled waiter is counted once. -/
theorem cancelWaiter_rejections {ticket : UInt64} {tenant : TenantPolicy} {reason : String}
    {q : QueuedRequest} (h : cancelWaiter s ticket tenant reason = some (q, s')) :
    ∃ key, s'.rejections = increment s.rejections key 1 := by
  rw [cancelWaiter_eq] at h
  obtain ⟨queued, -, heq⟩ := Option.map_eq_some_iff.mp h
  rw [← (Prod.mk.inj heq).2]
  exact ⟨_, rfl⟩

/-- Each waiter that a drain turns away is counted once. -/
theorem foldl_drainOne_rejections (drained : List (String × TenantPolicy × QueuedRequest))
    (s : TrafficState) : ∃ keys, keys.length = drained.length ∧
    (drained.foldl drainOne s).rejections = incrementAll s.rejections keys := by
  induction drained generalizing s with
  | nil => exact ⟨[], rfl, rfl⟩
  | cons request drained ih =>
    obtain ⟨keys, hlength, heq⟩ := ih (drainOne s request)
    exact ⟨_ :: keys, congrArg Nat.succ hlength, heq⟩

theorem beginDrain_rejections (hknown : QueuesKnown ctl s.waiting) (h : s.draining = false) :
    ∃ keys, keys.length = (waitingEntries s.waiting).card ∧
      (beginDrain ctl s).2.rejections = incrementAll s.rejections keys := by
  have hrequests := congrArg List.length (beginDrain_spec hknown h).1
  simp only [beginDrain, h, Bool.false_eq_true, if_false, List.length_map] at hrequests ⊢
  obtain ⟨keys, hlength, heq⟩ := foldl_drainOne_rejections (drainedRequests ctl s.waiting)
    { s with draining := true, waiting := ∅ }
  refine ⟨keys, ?_, heq⟩
  rw [hlength, hrequests, ← coe_waitingList, Multiset.coe_card]

/-- A call of `admit` either counts a rejection and leaves the lock, or counts a queued request. -/
theorem counts_of_admit {tenant : Option String} {cost : UInt64} {now cancellation : ℕ}
    (h : step ctl sys (.admitRequest tenant cost now cancellation) = some sys') :
    sys'.lock = .free ∧ (∃ keys, keys.length ≤ 1 ∧
        sys'.state.rejections = incrementAll sys.state.rejections keys) ∨
      sys'.lock = .scheduling false ∧ ∃ c t, sys'.state.admissions =
        increment sys.state.admissions (toLex (c, toLex (t, "queued"))) 1 := by
  simp only [step] at h
  split_ifs at h with hfree
  split at h
  next hadmit =>
    obtain rfl := Option.some.inj h
    exact .inl ⟨hfree, admit_error_rejections hadmit⟩
  next hadmit =>
    obtain rfl := Option.some.inj h
    exact .inr ⟨rfl, admit_ok_admissions hadmit⟩

/-- A cancellation that takes the lock counts a rejection. -/
theorem counts_of_cancel {id : ℕ} {reason : String}
    (h : step ctl sys (.cancel id reason) = some sys') :
    sys'.lock = .free ∨ ∃ key, sys'.state.rejections = increment sys.state.rejections key 1 := by
  simp only [step] at h
  obtain ⟨channel, -, h⟩ := Option.bind_eq_some_iff.mp h
  obtain ⟨tenant, -, h⟩ := Option.bind_eq_some_iff.mp h
  split_ifs at h with hguard
  split at h
  next =>
    obtain rfl := Option.some.inj h
    exact .inl hguard.1
  next hhit =>
    obtain rfl := Option.some.inj h
    exact .inr (cancelWaiter_rejections hhit)

/-- The beginning of a drain counts a rejection for each waiter. -/
theorem counts_of_beginDrain (hknown : QueuesKnown ctl sys.state.waiting)
    (hdraining : sys.state.draining = false) (h : step ctl sys .beginDrain = some sys') :
    ∃ keys, keys.length = (waitingEntries sys.state.waiting).card ∧
      sys'.state.rejections = incrementAll sys.state.rejections keys := by
  simp only [step] at h
  split_ifs at h with hfree
  obtain rfl := Option.some.inj h
  rw [foldl_sendDraining_state]
  exact beginDrain_rejections hknown hdraining

end Sections

section Steps

/-- The tables of a state that only grow, after some calls of `admit`. A request is counted as
queued at once, and under all other keys when it leaves its queue. -/
structure Metered (s : TrafficState) (calls : ℕ) : Prop where
  rejections : Meters s.rejections (fun _ => (waitingEntries s.waiting).card) calls
  admissions : Meters s.admissions
    (fun key => if (ofLex (ofLex key).2).2 = "queued" then 0
      else (waitingEntries s.waiting).card) calls
  queueWaitCount : Meters s.queueWaitCount (fun _ => (waitingEntries s.waiting).card) calls

/-- A label that calls `admit`. -/
def Label.admits : Label → ℕ
  | .admitRequest .. => 1
  | _ => 0

theorem Metered.empty : Metered {} 0 where
  rejections := Meters.empty.mono (by simp)
  admissions := Meters.empty.mono (by simp)
  queueWaitCount := Meters.empty.mono (by simp)

/-- A step that neither counts nor changes the queues. -/
theorem Metered.mono (h : Metered s calls) {calls' : ℕ} (hle : calls ≤ calls') :
    Metered s calls' where
  rejections := h.rejections.mono fun _ => Nat.add_le_add_left hle _
  admissions := h.admissions.mono fun _ => Nat.add_le_add_left hle _
  queueWaitCount := h.queueWaitCount.mono fun _ => Nat.add_le_add_left hle _

/-- A grant is counted as admitted and as a wait. -/
theorem Metered.grant (h : Metered s calls) (hlt : calls < 2 ^ 64) {c t : String}
    {q : QueuedRequest} (hg : Grants ctl s c t q s') : Metered s' calls := by
  obtain ⟨rest, serviceClass, tenant, now, hqueue, -, -, rfl⟩ := hg.state_eq
  have hcard : (waitingEntries s.waiting).card =
      (waitingEntries (setQueue s.waiting c t rest)).card + 1 := by
    rw [waitingEntries_remove [] hqueue, Multiset.card_cons]
    rfl
  have hadmitted : ("admitted" : String) ≠ "queued" := by decide
  refine ⟨h.rejections.mono fun _ => ?_, h.admissions.increment ?_ (fun key _ => ?_) hlt,
    h.queueWaitCount.increment ?_ (fun key _ => ?_) hlt⟩
  · simp only [activate]
    omega
  · simp only [activate, ofLex_toLex, hadmitted, if_false]
    omega
  · simp only [activate]
    split_ifs <;> omega
  · simp only [activate]
    omega
  · simp only [activate]
    omega

/-- A release neither counts nor changes the queues. -/
theorem Metered.release (h : Metered s calls) {ticket : UInt64} {a : ActiveRequest}
    (hr : Releases s ticket a s') : Metered s' calls := by
  obtain ⟨-, rfl⟩ := hr
  exact ⟨h.rejections, h.admissions, h.queueWaitCount⟩

/-- A refused request is counted under at most one reason. -/
theorem Metered.refuse (h : Metered s calls) (hlt : calls + 1 < 2 ^ 64)
    {keys : List (String ×ₗ String ×ₗ String)} (hlength : keys.length ≤ 1) :
    Metered { s with rejections := incrementAll s.rejections keys } (calls + 1) where
  rejections := h.rejections.incrementAll (fun _ => by dsimp only; omega) hlt
  admissions := h.admissions.mono fun _ => Nat.add_le_add_left (Nat.le_add_right _ _) _
  queueWaitCount := h.queueWaitCount.mono fun _ => Nat.add_le_add_left (Nat.le_add_right _ _) _

/-- An accepted request is counted as queued and waits. -/
theorem Metered.enqueue (h : Metered s calls) (hlt : calls + 1 < 2 ^ 64) {tenant : TenantPolicy}
    {serviceClass : ServiceClassPolicy} {request : QueuedRequest} {c t : String}
    (henqueues : Enqueues ctl s tenant serviceClass request s')
    (heq : s'.admissions = increment s.admissions (toLex (c, toLex (t, "queued"))) 1) :
    Metered s' (calls + 1) := by
  obtain ⟨cv, tv, adm, rfl⟩ := henqueues.state_eq
  simp only at heq
  subst heq
  refine ⟨h.rejections.mono fun _ => ?_, h.admissions.increment ?_ (fun key _ => ?_) hlt,
    h.queueWaitCount.mono fun _ => ?_⟩ <;>
    simp only [waitingEntries_push, Multiset.card_cons, ofLex_toLex, if_true]
  · omega
  · omega
  · split_ifs <;> omega
  · omega

/-- A cancelled waiter is counted as rejected and leaves its queue. -/
theorem Metered.cancel (h : Metered s calls) (hlt : calls < 2 ^ 64) {c t : String}
    {q : QueuedRequest} {key : String ×ₗ String ×ₗ String} (hcancels : Cancels s c t q s')
    (heq : s'.rejections = increment s.rejections key 1) : Metered s' calls := by
  obtain ⟨before, after, rej, hqueue, rfl⟩ := hcancels.state_eq
  simp only at heq
  subst heq
  have hcard := congrArg Multiset.card (waitingEntries_remove before hqueue)
  rw [Multiset.card_cons] at hcard
  refine ⟨h.rejections.increment ?_ (fun _ _ => ?_) hlt, h.admissions.mono fun key => ?_,
    h.queueWaitCount.mono fun _ => ?_⟩ <;> dsimp only
  · omega
  · omega
  · split_ifs <;> omega
  · omega

/-- The waiters that a drain turns away are counted as rejected, and the queues are empty. -/
theorem Metered.drain (h : Metered s calls) (hlt : calls < 2 ^ 64)
    {keys : List (String ×ₗ String ×ₗ String)}
    (hlength : keys.length = (waitingEntries s.waiting).card) (hdrains : Drains s s')
    (heq : s'.rejections = incrementAll s.rejections keys) : Metered s' calls := by
  obtain ⟨rej, rfl⟩ := hdrains.state_eq
  simp only at heq
  subst heq
  refine ⟨h.rejections.incrementAll (fun _ => ?_) hlt, h.admissions.mono fun key => ?_,
    h.queueWaitCount.mono fun _ => ?_⟩ <;> simp only [waitingEntries_empty, Multiset.card_zero]
  · omega
  · split_ifs <;> omega
  · omega

/-- One step keeps the counts within the calls. -/
theorem Metered.step (h : Metered sys.state calls) (hknown : QueuesKnown ctl sys.state.waiting)
    {label : Label} (hstep : step ctl sys label = some sys')
    (hlt : calls + label.admits < 2 ^ 64) :
    Metered sys'.state (calls + label.admits) := by
  cases move_of_step hknown hstep with
  | unlocked | cancelMissed | rephased | releaseMissed | drainRepeated =>
    exact h.mono (Nat.le_add_right _ _)
  | resumed => exact ⟨h.rejections, h.admissions, h.queueWaitCount⟩
  | refused free =>
    obtain ⟨-, keys, hlength, heq⟩ | ⟨hlock, -⟩ := counts_of_admit hstep
    · simp only at heq
      subst heq
      exact h.refuse hlt hlength
    · simp [free] at hlock
  | enqueued free enqueues sender_eq =>
    obtain ⟨hlock, -⟩ | ⟨-, c, t, heq⟩ := counts_of_admit hstep
    · cases hlock
    · exact h.enqueue hlt enqueues heq
  | delivered busy grants => exact h.grant hlt grants
  | undelivered busy grants releases => exact (h.grant hlt grants).release releases
  | cancelled free channel_eq tenant_eq cancels =>
    obtain hlock | ⟨key, heq⟩ := counts_of_cancel hstep
    · cases hlock
    · exact h.cancel hlt cancels heq
  | released free channel_eq dropping releases => exact h.release releases
  | drained free drains =>
    obtain ⟨keys, hlength, heq⟩ := counts_of_beginDrain hknown drains.not_draining hstep
    rw [foldl_sendDraining_state] at heq ⊢
    exact h.drain hlt hlength drains heq

end Steps

end Locus.Traffic
