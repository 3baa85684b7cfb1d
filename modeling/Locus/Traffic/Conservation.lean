import Locus.Traffic.Tickets

/-!
# Conservation of tickets

Every ticket handed out is in one place at a time: queued, active, or departed for
good. Its channel is sent at most one result, and its capacity is given back once,
whichever way its permit ends. Nothing is granted while the controller drains, and
each tenant is served in the order of its tickets.
-/

namespace Locus.Traffic

open Std (TreeMap)
open Locus.Lib

variable {ctl : TrafficController} {sys sys' : System}

/-- The tickets in the queues. -/
def waitingTickets (s : TrafficState) : List UInt64 :=
  (waitingList s.waiting).map fun e => e.request.ticket

/-- A permit that exists: in its channel, held, or being dropped. -/
def Phase.HasPermit (phase : Phase) : Prop :=
  phase = .sentPermit ∨ phase = .held ∨ phase = .dropping

/-- Where the tickets are, what was sent, what was taken back and in which order. -/
structure TicketsConserved (sys : System) : Prop where
  distinct : (enqueuedTickets sys.log).Nodup
  channels : sys.channels.map Channel.ticket = enqueuedTickets sys.log
  /-- A ticket handed out occurs once among the queues, the active map and the departed. -/
  located : ∀ k, (waitingTickets sys.state).count k + sys.state.active.keys.count k +
    (departedTickets sys.log).count k = (enqueuedTickets sys.log).count k
  sent_le : ∀ i, sys.log.count (.sent i) ≤ 1
  /-- A granted ticket is active as long as its permit exists and was removed once otherwise. -/
  removed : ∀ channel ∈ sys.channels, channel.ticket ∈ grantedTickets sys.log →
    (channel.phase.HasPermit ∧ sys.state.active.keys.count channel.ticket = 1 ∧
      (releasedTickets sys.log).count channel.ticket = 0) ∨
    (channel.phase = .closed ∧ sys.state.active.keys.count channel.ticket = 0 ∧
      (releasedTickets sys.log).count channel.ticket = 1)
  fifo : ∀ t, (grantedTo sys.log t).Pairwise (· < ·)

section Places

private theorem count_keys (active : TreeMap UInt64 ActiveRequest) (k : UInt64) :
    active.keys.count k = if active[k]?.isSome then 1 else 0 := by
  rw [TreeMap.nodup_keys.count]
  simp only [TreeMap.mem_keys, TreeMap.mem_iff_isSome_getElem?]

private theorem count_waitingTickets (h : TicketsSound ctl sys) {i : ℕ} {channel : Channel}
    (hchannel : sys.channels[i]? = some channel) :
    (waitingTickets sys.state).count channel.ticket =
      (waitingEntries sys.state.waiting).countP fun e => e.request.sender = i := by
  rw [← coe_waitingList, Multiset.coe_countP, waitingTickets, List.count, List.countP_map]
  refine List.countP_congr fun e he => ?_
  have hmem : e ∈ waitingEntries sys.state.waiting := by
    rw [← coe_waitingList]
    exact he
  obtain ⟨c, hc, hticket, -⟩ := h.ledger.request e hmem
  simp only [Function.comp_apply, beq_iff_eq, decide_eq_true_eq, ← hticket]
  constructor
  · exact fun heq => h.ledger.ticket_inj hc hchannel heq
  · rintro rfl
    rw [hchannel, Option.some.injEq] at hc
    rw [hc]

/-- A ticket with a channel is in one place. -/
private theorem located_channel (h : TicketsSound ctl sys) {i : ℕ} {channel : Channel}
    (hchannel : sys.channels[i]? = some channel) :
    (waitingTickets sys.state).count channel.ticket + sys.state.active.keys.count channel.ticket +
      (departedTickets sys.log).count channel.ticket = 1 := by
  have hlife := h.ledger.life i channel hchannel
  rw [count_waitingTickets h hchannel, count_keys, departedTickets, List.count_append]
  generalize hfacts : factsOf _ _ _ _ _ = facts at hlife
  cases hlife <;>
    · simp only [factsOf, Facts.mk.injEq] at hfacts
      simp [hfacts]

private theorem enqueuedTickets_nodup (h : TicketsSound ctl sys) :
    (enqueuedTickets sys.log).Nodup := by
  rw [h.ledger.enqueued, List.Nodup, List.pairwise_iff_getElem]
  intro i j hi hj hij heq
  simp only [List.getElem_map] at heq
  simp only [List.length_map] at hi hj
  exact hij.ne (h.ledger.ticket_inj (List.getElem?_eq_getElem hi) (List.getElem?_eq_getElem hj) heq)

private theorem located (h : TicketsSound ctl sys) (k : UInt64) :
    (waitingTickets sys.state).count k + sys.state.active.keys.count k +
      (departedTickets sys.log).count k = (enqueuedTickets sys.log).count k := by
  by_cases hk : k ∈ sys.channels.map Channel.ticket
  · rw [(enqueuedTickets_nodup h).count, h.ledger.enqueued, if_pos hk]
    obtain ⟨channel, hchannel, rfl⟩ := List.mem_map.mp hk
    obtain ⟨i, hi⟩ := List.getElem?_of_mem hchannel
    exact located_channel h hi
  · obtain ⟨hactive, hleft, hreleased, -⟩ := h.ledger.unknown k hk
    have hwaiting : k ∉ waitingTickets sys.state := by
      rw [waitingTickets, List.mem_map]
      rintro ⟨e, he, rfl⟩
      obtain ⟨channel, hchannel, hticket, -⟩ := h.ledger.request e (coe_waitingList _ ▸ he)
      exact hk (List.mem_map.mpr ⟨channel, List.mem_of_getElem? hchannel, hticket⟩)
    rw [h.ledger.enqueued, List.count_eq_zero.mpr hk, List.count_eq_zero.mpr hwaiting, count_keys,
      departedTickets, List.count_append, List.count_eq_zero.mpr hleft,
      List.count_eq_zero.mpr hreleased, hactive]
    rfl

end Places

/-- Sound tickets are conserved. -/
theorem TicketsSound.conserved (h : TicketsSound ctl sys) : TicketsConserved sys where
  distinct := enqueuedTickets_nodup h
  channels := h.ledger.enqueued.symm
  located := located h
  sent_le i := by
    by_cases hi : i < sys.channels.length
    · have hlife := h.ledger.life i _ (List.getElem?_eq_getElem hi)
      generalize hfacts : factsOf _ _ _ _ _ = facts at hlife
      have hsent : sys.log.count (.sent i) = facts.sent := by rw [← hfacts, factsOf]
      rw [hsent]
      cases hlife <;> first | assumption | simp
    · rw [List.count_eq_zero.mpr (h.ledger.unsent i (Nat.le_of_not_lt hi))]
      simp
  removed channel hmem hgranted := by
    obtain ⟨i, hi⟩ := List.getElem?_of_mem hmem
    have hlife := h.ledger.life i channel hi
    have hpos := List.count_pos_iff.mpr hgranted
    rw [count_keys]
    generalize hfacts : factsOf _ _ _ _ _ = facts at hlife
    cases hlife with
    | admitted hphase =>
      simp only [factsOf, Facts.mk.injEq] at hfacts
      refine .inl ⟨?_, by simp [hfacts], hfacts.2.2.2.1⟩
      simpa [Phase.HasPermit, hfacts] using hphase
    | released _ =>
      simp only [factsOf, Facts.mk.injEq] at hfacts
      exact .inr ⟨hfacts.2.2.2.2.2.2, by simp [hfacts], hfacts.2.2.2.1⟩
    | _ =>
      simp only [factsOf, Facts.mk.injEq] at hfacts
      omega
  fifo t := (List.pairwise_append.mp (h.fifo "" t)).1

/-- Along every run with fewer than `2 ^ 64` enqueued requests, tickets are conserved,
a departed ticket never comes back, and nothing is granted while draining. -/
theorem tickets_conserved {labels labels' : List Label} (hrun : Reaches ctl labels sys)
    (hlater : Run (stepRel (step ctl)) sys labels' sys') (hlt : sys'.enqueues < 2 ^ 64) :
    TicketsConserved sys' ∧
    (∀ k ∈ departedTickets sys.log, k ∈ departedTickets sys'.log ∧
      k ∉ waitingTickets sys'.state ∧ k ∉ sys'.state.active.keys) ∧
    ∀ label next, step ctl sys' label = some next → sys'.state.draining = true →
      grantedTickets next.log = grantedTickets sys'.log := by
  have hsound : TicketsSound ctl sys' := ticketsSound_of_reaches (Run.append hrun hlater) hlt
  have hconserved := hsound.conserved
  refine ⟨hconserved, fun k hk => ?_, fun label next hstep hdraining => ?_⟩
  · have hearlier := log_prefix_of_run hlater
    have hmem : k ∈ departedTickets sys'.log := by
      rw [departedTickets, List.mem_append] at hk ⊢
      exact hk.imp (fun hk => (hearlier.filterMap _).subset hk)
        fun hk => (hearlier.filterMap _).subset hk
    have hcount := hconserved.located k
    rw [hconserved.distinct.count] at hcount
    have hpos := List.count_pos_iff.mpr hmem
    refine ⟨hmem, ?_, ?_⟩ <;>
      · rw [← List.count_eq_zero]
        split_ifs at hcount <;> omega
  · have hempty := hsound.state.queue.drained hdraining
    have hnone : ∀ {c t q s₁}, ¬Grants ctl sys'.state c t q s₁ := by
      intro c t q s₁ hgrants
      obtain ⟨rest, _, _, _, hqueue, -⟩ := hgrants.state_eq
      have hmem : (⟨c, t, q⟩ : WaitingEntry) ∈ waitingEntries sys'.state.waiting :=
        mem_waitingEntries.mpr (by simp [hqueue])
      simp [hempty] at hmem
    cases move_of_step hsound.state.queue.known hstep with
    | delivered busy hgrants => exact absurd hgrants hnone
    | undelivered busy hgrants => exact absurd hgrants hnone
    | drained free hdrains =>
      rw [hdrains.not_draining] at hdraining
      cases hdraining
    | _ => simp [grantedTickets]

/-- A permit dropped undelivered inside its channel, and a later request. -/
theorem tickets_conserved_default_run : ∃ sys sys',
    Reaches .default [.admitRequest (some "default") 1000 0 0, .schedule 0, .unlock,
      .dropReceiver 0,
      .release 0, .unlock] sys ∧
    Run (stepRel (step .default)) sys
      [.admitRequest (some "default") 2000 0 0, .schedule 0, .unlock, .beginDrain] sys' ∧
    sys'.enqueues < 2 ^ 64 ∧ departedTickets sys.log = [1] ∧ sys'.state.draining = true ∧
    TicketsConserved sys' ∧
    (∀ k ∈ departedTickets sys.log, k ∈ departedTickets sys'.log ∧
      k ∉ waitingTickets sys'.state ∧ k ∉ sys'.state.active.keys) ∧
    ∀ label next, step .default sys' label = some next → sys'.state.draining = true →
      grantedTickets next.log = grantedTickets sys'.log := by
  have h : ((List.foldlM (step .default) {}
      [.admitRequest (some "default") 1000 0 0, .schedule 0, .unlock,
      .dropReceiver 0, .release 0, .unlock]).bind fun sys =>
        (List.foldlM (step .default) sys
          [.admitRequest (some "default") 2000 0 0, .schedule 0, .unlock, .beginDrain]).map
          fun sys' => (sys'.enqueues, departedTickets sys.log, sys'.state.draining)) =
      some (2, [1], true) := by decide
  obtain ⟨sys, hrun, h⟩ := Option.bind_eq_some_iff.mp h
  obtain ⟨sys', hlater, h⟩ := Option.map_eq_some_iff.mp h
  simp only [Prod.mk.injEq] at h
  have hrun := Run.of_foldlM hrun
  have hlater := Run.of_foldlM hlater
  have hlt : sys'.enqueues < 2 ^ 64 := by omega
  exact ⟨sys, sys', hrun, hlater, hlt, h.2.1, h.2.2, tickets_conserved hrun hlater hlt⟩

end Locus.Traffic
