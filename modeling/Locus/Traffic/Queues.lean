import Locus.Traffic.Counters
import Locus.Traffic.Sections
import Mathlib.Data.Multiset.Bind

/-!
# The waiting requests as a collection

The queues are a map of maps of lists. The accounting arguments only need the
collection of requests they hold, each with the class and the tenant it is queued
under; the ordering arguments need one tenant's queue. Every section changes one
queue, so both views change at one place.
-/

namespace Locus.Traffic

open Std Locus.Lib

/-- A queued request with the class and the tenant of its queue. -/
structure WaitingEntry where
  serviceClass : String
  tenant : String
  request : QueuedRequest
  deriving DecidableEq

/-- The queue of one tenant in one class. -/
def queueOf (w : Waiting) (classId tenantId : String) : List QueuedRequest :=
  (w[classId]?.bind fun tenants => tenants[tenantId]?).getD []

/-- Replace one tenant's queue. -/
def setQueue (w : Waiting) (classId tenantId : String) (queue : List QueuedRequest) : Waiting :=
  w.insert classId ((w[classId]?.getD ∅).insert tenantId queue)

/-- The requests of one class. -/
def classEntries (classId : String) (tenants : TreeMap String (List QueuedRequest)) :
    Multiset WaitingEntry :=
  (entries tenants).bind fun entry => (entry.2 : Multiset QueuedRequest).map (.mk classId entry.1)

/-- All waiting requests. -/
def waitingEntries (w : Waiting) : Multiset WaitingEntry :=
  (entries w).bind fun entry => classEntries entry.1 entry.2

@[simp] theorem queue_eq_queueOf (s : TrafficState) (c t : String) :
    s.queue c t = queueOf s.waiting c t := rfl

@[simp] theorem waitingEntries_empty : waitingEntries ∅ = 0 := by simp [waitingEntries]

@[simp] theorem queueOf_empty (c t : String) : queueOf ∅ c t = [] := by simp [queueOf]

/-- A request waits exactly when it is in the queue of its class and tenant. -/
theorem mem_waitingEntries {w : Waiting} {e : WaitingEntry} :
    e ∈ waitingEntries w ↔ e.request ∈ queueOf w e.serviceClass e.tenant := by
  obtain ⟨c, t, q⟩ := e
  simp only [waitingEntries, classEntries, Multiset.mem_bind, Multiset.mem_map, Prod.exists,
    mem_entries, Multiset.mem_coe, WaitingEntry.mk.injEq, queueOf]
  constructor
  · rintro ⟨c', tenants, hc, t', queue, ht, q', hq, rfl, rfl, rfl⟩
    simpa [hc, ht] using hq
  · intro hq
    cases hc : w[c]? with
    | none => simp [hc] at hq
    | some tenants =>
      cases ht : tenants[t]? with
      | none => simp [hc, ht] at hq
      | some queue =>
        exact ⟨c, tenants, hc, t, queue, ht, q, by simpa [hc, ht] using hq, rfl, rfl, rfl⟩

theorem queueOf_setQueue (w : Waiting) (c t c' t' : String) (queue : List QueuedRequest) :
    queueOf (setQueue w c t queue) c' t' = if c = c' ∧ t = t' then queue else queueOf w c' t' := by
  by_cases hc : c = c'
  · subst hc
    by_cases ht : t = t'
    · simp [queueOf, setQueue, ht]
    · cases hw : w[c]? <;> simp [queueOf, setQueue, TreeMap.getElem?_insert, ht, hw]
  · simp [queueOf, setQueue, TreeMap.getElem?_insert, hc]

private theorem classEntries_insert (c t : String) (tenants : TreeMap String (List QueuedRequest))
    (queue : List QueuedRequest) :
    classEntries c (tenants.insert t queue) +
        ((tenants[t]?.getD [] : List QueuedRequest) : Multiset QueuedRequest).map (.mk c t) =
      classEntries c tenants + (queue : Multiset QueuedRequest).map (.mk c t) := by
  unfold classEntries
  rw [entries_insert, Multiset.cons_bind]
  cases ht : tenants[t]? with
  | none => simp [entries_erase_of_none ht, add_comm]
  | some old =>
    conv_rhs => rw [entries_of_getElem? ht, Multiset.cons_bind]
    simp only [Option.getD_some]
    abel

/-- Replacing a queue exchanges its old requests for its new ones. -/
theorem waitingEntries_setQueue (w : Waiting) (c t : String) (queue : List QueuedRequest) :
    waitingEntries (setQueue w c t queue) +
        (queueOf w c t : Multiset QueuedRequest).map (.mk c t) =
      waitingEntries w + (queue : Multiset QueuedRequest).map (.mk c t) := by
  unfold waitingEntries setQueue
  rw [entries_insert, Multiset.cons_bind]
  cases hc : w[c]? with
  | none =>
    have hempty := classEntries_insert c t ∅ queue
    simp only [classEntries, entries_empty, Multiset.zero_bind] at hempty
    simp only [Option.getD_none, classEntries, queueOf, hc, Option.bind_none,
      entries_erase_of_none hc]
    simp only [TreeMap.getElem?_emptyc, Option.getD_none, Multiset.coe_nil,
      Multiset.map_zero, add_zero, zero_add] at hempty ⊢
    rw [hempty, add_comm]
  | some tenants =>
    have hclass := classEntries_insert c t tenants queue
    conv_rhs => rw [entries_of_getElem? hc, Multiset.cons_bind]
    have hqueue : queueOf w c t = tenants[t]?.getD [] := by simp [queueOf, hc]
    rw [hqueue, Option.getD_some, add_right_comm, hclass, add_right_comm]

/-- Appending to a queue adds one waiting request. -/
theorem waitingEntries_push (w : Waiting) (c t : String) (q : QueuedRequest) :
    waitingEntries (setQueue w c t (queueOf w c t ++ [q])) = ⟨c, t, q⟩ ::ₘ waitingEntries w := by
  have h := waitingEntries_setQueue w c t (queueOf w c t ++ [q])
  refine add_right_cancel (h.trans ?_)
  rw [← Multiset.coe_add, Multiset.map_add, Multiset.coe_singleton, Multiset.map_singleton,
    ← Multiset.singleton_add]
  abel

/-- Taking a request out of a queue takes one waiting request away. -/
theorem waitingEntries_remove {w : Waiting} {c t : String} {q : QueuedRequest}
    (before : List QueuedRequest) {after : List QueuedRequest}
    (hqueue : queueOf w c t = before ++ q :: after) :
    waitingEntries w = ⟨c, t, q⟩ ::ₘ waitingEntries (setQueue w c t (before ++ after)) := by
  have h := waitingEntries_setQueue w c t (before ++ after)
  refine (add_right_cancel (Eq.trans ?_ h)).symm
  rw [hqueue, ← Multiset.coe_add, ← Multiset.coe_add, ← Multiset.cons_coe, Multiset.map_add,
    Multiset.map_add, Multiset.map_cons, ← Multiset.singleton_add, ← Multiset.singleton_add]
  abel

/-- The waiting requests when no other queue holds any. -/
theorem waitingEntries_of_single {w : Waiting} {c t : String} {queue : List QueuedRequest}
    (h : ∀ c' t', queueOf w c' t' = if c' = c ∧ t' = t then queue else []) :
    waitingEntries w = (queue : Multiset QueuedRequest).map (.mk c t) := by
  have hempty : waitingEntries (setQueue w c t []) = 0 := by
    refine Multiset.eq_zero_of_forall_notMem fun e he => ?_
    have hmem := mem_waitingEntries.mp he
    rw [queueOf_setQueue, h] at hmem
    split_ifs at hmem with hown hown'
    · cases hmem
    · exact hown ⟨hown'.1.symm, hown'.2.symm⟩
    · cases hmem
  have hset := waitingEntries_setQueue w c t []
  rw [hempty, h c t, if_pos ⟨rfl, rfl⟩] at hset
  simpa using hset.symm

/-- Replacing a queue adds no class but its own. -/
theorem isSome_setQueue {w : Waiting} {c t c' : String} {queue : List QueuedRequest} :
    (setQueue w c t queue)[c']?.isSome ↔ c = c' ∨ w[c']?.isSome := by
  by_cases hc : c = c'
  · simp [setQueue, hc]
  · simp [setQueue, TreeMap.getElem?_insert, hc]

/-- A class with a waiting request has its map of queues. -/
theorem isSome_of_queueOf_ne_nil {w : Waiting} {c t : String} (h : queueOf w c t ≠ []) :
    w[c]?.isSome := by
  cases hc : w[c]? with
  | none => simp [queueOf, hc] at h
  | some tenants => rfl

end Locus.Traffic
