import Locus.Traffic.Lifecycle

/-!
# The log and the order of tickets

The ghost log only grows along a run, and with it the number of enqueued requests.
Each tenant's granted tickets, followed by the tickets in its queue, are in
increasing order: a grant takes the head, and a new ticket goes to the end.
-/

namespace Locus.Traffic

open Std (TreeMap)
open Locus.Lib

variable {ctl : TrafficController} {sys sys' : System}

section Log

private theorem foldl_sendDraining_log (l : List QueuedRequest) (sys : System) :
    sys.log <+: (l.foldl sendDraining sys).log := by
  induction l generalizing sys with
  | nil => exact List.prefix_refl _
  | cons q l ih =>
    refine List.IsPrefix.trans ?_ (ih _)
    unfold sendDraining
    split_ifs <;> simp

/-- A move adds to the log. -/
private theorem Move.log_grows {label : Label} (h : Move ctl sys label sys') :
    sys.log <+: sys'.log := by
  cases h with
  | enqueued | delivered | undelivered | cancelled | released => exact List.prefix_append _ _
  | @drained s' => exact foldl_sendDraining_log _ { sys with state := s' }
  | refused | unlocked | cancelMissed | rephased | releaseMissed | drainRepeated | resumed =>
    exact List.prefix_refl _

/-- The log only grows. -/
theorem log_prefix_of_step {label : Label} (h : step ctl sys label = some sys') :
    sys.log <+: sys'.log := by
  by_cases hlabel : label = .beginDrain
  · subst hlabel
    simp only [step] at h
    split_ifs at h
    obtain rfl := Option.some.inj h
    exact foldl_sendDraining_log _ { sys with state := (beginDrain ctl sys.state).2 }
  · exact (move_of_step_of_ne hlabel h).log_grows

/-- A run only adds to the log. -/
theorem log_prefix_of_run {labels : List Label} (h : Run (stepRel (step ctl)) sys labels sys') :
    sys.log <+: sys'.log := by
  induction h with
  | nil => exact List.prefix_refl _
  | snoc _ hlast ih => exact ih.trans (log_prefix_of_step hlast)

/-- No request is taken back from the count of enqueued ones. -/
theorem enqueues_le_of_log_prefix (h : sys.log <+: sys'.log) : sys.enqueues ≤ sys'.enqueues :=
  (h.filterMap _).length_le

end Log

/-- The granted tickets of a tenant followed by its queue are in increasing order. -/
def Fifo (w : Waiting) (log : List Event) : Prop :=
  ∀ c t, (grantedTo log t ++ (queueOf w c t).map QueuedRequest.ticket).Pairwise (· < ·)

section Order

variable {w : Waiting} {log news : List Event} {c t : String} {q : QueuedRequest}

theorem grantedTo_append (log news : List Event) (t : String) :
    grantedTo (log ++ news) t = grantedTo log t ++ grantedTo news t := List.filterMap_append

/-- A grant adds one ticket to its tenant. -/
theorem grantedTo_pair {k : UInt64} {event : Event} (hevent : ∀ t, grantedTo [event] t = [])
    (t' : String) : grantedTo [.granted k t, event] t' = if t = t' then [k] else [] := by
  have hcons := grantedTo_append [.granted k t] [event] t'
  rw [hevent, List.append_nil] at hcons
  by_cases ht : t = t' <;> simpa [grantedTo, ht] using hcons

/-- Order is kept when queues shrink and nothing is granted. -/
theorem Fifo.shrink {w' : Waiting} (h : Fifo w log)
    (hqueue : ∀ c t, (queueOf w' c t).Sublist (queueOf w c t))
    (hnews : ∀ t, grantedTo news t = []) : Fifo w' (log ++ news) := by
  intro c t
  rw [grantedTo_append, hnews, List.append_nil]
  exact (h c t).sublist (((hqueue c t).map _).append_left _)

/-- A new ticket goes to the end. -/
theorem Fifo.push (h : Fifo w log)
    (hlast : ∀ k ∈ grantedTo log t ++ (queueOf w c t).map QueuedRequest.ticket, k < q.ticket)
    (hnews : ∀ t, grantedTo news t = []) :
    Fifo (setQueue w c t (queueOf w c t ++ [q])) (log ++ news) := by
  intro c' t'
  rw [grantedTo_append, hnews, List.append_nil, queueOf_setQueue]
  split_ifs with hct
  · obtain ⟨rfl, rfl⟩ := hct
    rw [List.map_append, ← List.append_assoc, List.pairwise_append]
    refine ⟨h c t, by simp, fun k hk k' hk' => ?_⟩
    obtain rfl : k' = q.ticket := by simpa using hk'
    exact hlast k hk
  · exact h c' t'

/-- A granted head keeps its place between the granted tickets and the queue. -/
theorem Fifo.grant {rest : List QueuedRequest} (h : Fifo w log)
    (hqueue : queueOf w c t = q :: rest) (hclass : ∀ c', c' ≠ c → queueOf w c' t = [])
    (hnews : ∀ t', grantedTo news t' = if t = t' then [q.ticket] else []) :
    Fifo (setQueue w c t rest) (log ++ news) := by
  intro c' t'
  rw [grantedTo_append, hnews, queueOf_setQueue]
  by_cases ht : t = t'
  · subst ht
    have hold := h c t
    rw [hqueue] at hold
    by_cases hc : c = c'
    · simpa [hc] using hold
    · rw [if_pos rfl, if_neg (by simp [hc]), hclass c' (Ne.symm hc)]
      exact hold.sublist (by simp)
  · simpa [ht] using h c' t'

end Order

end Locus.Traffic
