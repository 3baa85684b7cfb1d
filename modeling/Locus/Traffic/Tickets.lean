import Locus.Traffic.Capacity
import Locus.Traffic.Ledger
import Locus.Traffic.TicketOrder

/-!
# Tickets along runs

As long as fewer than `2 ^ 64` requests have been enqueued, tickets are handed out
without repetition and every step keeps the ledger, the order of each queue and the
accounting. In particular no grant meets an active ticket.
-/

namespace Locus.Traffic

open Std (TreeMap)
open Locus.Lib

variable {ctl : TrafficController} {sys sys' : System}

/-- What holds of every state reached with fewer than `2 ^ 64` tickets. -/
structure TicketsSound (ctl : TrafficController) (sys : System) : Prop where
  state : StateSound ctl sys.state
  ledger : Ledger (waitingEntries sys.state.waiting) sys.state.active sys.channels sys.log
  next : sys.state.nextTicket.toNat = sys.channels.length
  fifo : Fifo sys.state.waiting sys.log

theorem TicketsSound.enqueues_eq (h : TicketsSound ctl sys) :
    sys.enqueues = sys.channels.length := by
  rw [System.enqueues, h.ledger.enqueued, List.length_map]

/-- No grant meets an active ticket. -/
theorem TicketsSound.freshGrant (h : TicketsSound ctl sys) (label : Label) :
    FreshGrant ctl sys label := by
  cases label with
  | schedule now =>
    intro q hq
    obtain ⟨⟨c, t⟩, -, hhead⟩ := Option.bind_eq_some_iff.mp hq
    have hmem : (⟨c, t, q⟩ : WaitingEntry) ∈ waitingEntries sys.state.waiting :=
      mem_waitingEntries.mpr (List.mem_of_head? hhead)
    exact h.ledger.fresh hmem
  | _ => trivial

section Steps

private theorem foldl_sendDraining_channels (l : List QueuedRequest) (sys : System) :
    (l.foldl sendDraining sys).channels.length = sys.channels.length ∧
      ∀ t, grantedTo (l.foldl sendDraining sys).log t = grantedTo sys.log t := by
  have hone (sys : System) (q : QueuedRequest) :
      (sendDraining sys q).channels.length = sys.channels.length ∧
        ∀ t, grantedTo (sendDraining sys q).log t = grantedTo sys.log t := by
    unfold sendDraining
    split_ifs <;> simp [setPhase, grantedTo]
  exact ⟨foldl_sendDraining_eq (fun sys => sys.channels.length) (fun sys q => (hone sys q).1) l sys,
    fun t => foldl_sendDraining_eq (fun sys => grantedTo sys.log t)
      (fun sys q => (hone sys q).2 t) l sys⟩

/-- Every ticket in use is one that was handed out before. -/
private theorem TicketsSound.ticket_le (h : TicketsSound ctl sys) {k : UInt64}
    (hk : k ∈ sys.channels.map Channel.ticket) : k.toNat ≤ sys.channels.length := by
  obtain ⟨channel, hchannel, rfl⟩ := List.mem_map.mp hk
  obtain ⟨i, hi⟩ := List.getElem?_of_mem hchannel
  rw [h.ledger.ticket_eq i channel hi]
  exact (List.getElem?_eq_some_iff.mp hi).1

private theorem TicketsSound.granted_known (h : TicketsSound ctl sys) {k : UInt64} {t : String}
    (hk : k ∈ grantedTo sys.log t) : k ∈ sys.channels.map Channel.ticket := by
  by_contra hunknown
  refine (h.ledger.unknown k hunknown).2.2.2 ?_
  obtain ⟨event, hevent, heq⟩ := List.mem_filterMap.mp hk
  refine List.mem_filterMap.mpr ⟨event, hevent, ?_⟩
  cases event with
  | granted ticket tenant =>
    simp only [Option.ite_none_right_eq_some] at heq
    exact heq.2
  | _ => cases heq

private theorem TicketsSound.queued_known (h : TicketsSound ctl sys) {q : QueuedRequest}
    {c t : String} (hq : q ∈ queueOf sys.state.waiting c t) :
    q.ticket ∈ sys.channels.map Channel.ticket := by
  have hmem : (⟨c, t, q⟩ : WaitingEntry) ∈ waitingEntries sys.state.waiting :=
    mem_waitingEntries.mpr hq
  obtain ⟨channel, hchannel, hticket, -⟩ := h.ledger.request _ hmem
  exact List.mem_map.mpr ⟨channel, List.mem_of_getElem? hchannel, hticket⟩

/-- An enqueued request gets a ticket above all others. -/
private theorem TicketsSound.enqueue (h : TicketsSound ctl sys) {tenant : TenantPolicy}
    {serviceClass : ServiceClassPolicy} {request : QueuedRequest} {s' : TrafficState}
    (henqueues : Enqueues ctl sys.state tenant serviceClass request s')
    (hsender : request.sender = sys.channels.length) (hlt : sys.channels.length + 1 < 2 ^ 64)
    {lock : Lock} :
    TicketsSound ctl { sys with
      state := s'
      lock := lock
      channels := sys.channels ++ [{ ticket := request.ticket, tenant := tenant.id }]
      log := sys.log ++ [.enqueued request.ticket tenant.id] } := by
  have hqueue := h.state.queue.enqueue henqueues
  have hticket : request.ticket.toNat = sys.channels.length + 1 := by
    rw [henqueues.ticket_eq, toNat_saturatingAdd, h.next]
    · rfl
    · rw [h.next]
      exact hlt
  obtain ⟨cv, tv, adm, rfl⟩ := henqueues.state_eq
  refine ⟨⟨hqueue, h.state.active⟩, ?_, by simpa using hticket, ?_⟩
  · rw [waitingEntries_push]
    exact h.ledger.enqueue (e := ⟨tenant.serviceClass, tenant.id, request⟩) hsender hticket
  · refine h.fifo.push (fun k hk => ?_) (by simp [grantedTo])
    rw [UInt64.lt_iff_toNat_lt, hticket, Nat.lt_succ_iff]
    refine h.ticket_le ?_
    rcases List.mem_append.mp hk with hk | hk
    · exact h.granted_known hk
    · obtain ⟨q, hq, rfl⟩ := List.mem_map.mp hk
      exact h.queued_known hq

/-- A grant, delivered or not, moves the head out of its queue. -/
private theorem TicketsSound.grant (h : TicketsSound ctl sys) {c t : String} {q : QueuedRequest}
    {s₁ : TrafficState} (hgrants : Grants ctl sys.state c t q s₁) :
    StateSound ctl s₁ ∧ s₁.nextTicket = sys.state.nextTicket ∧
    (∃ a, s₁.active = sys.state.active.insert q.ticket a) ∧
    waitingEntries sys.state.waiting = ⟨c, t, q⟩ ::ₘ waitingEntries s₁.waiting ∧
    ∀ news, (∀ t', grantedTo news t' = if t = t' then [q.ticket] else []) →
      Fifo s₁.waiting (sys.log ++ news) := by
  have hstate := h.state.grant hgrants (h.freshGrant (.schedule 0) _ hgrants.mem_nextHead)
  obtain ⟨rest, serviceClass, tenant, now, hqueue, -, -, rfl⟩ := hgrants.state_eq
  have hne : queueOf sys.state.waiting c t ≠ [] := by simp [hqueue]
  exact ⟨hstate, rfl, ⟨_, rfl⟩, waitingEntries_remove [] hqueue,
    fun news hnews => h.fifo.grant hqueue (fun c' hc' => h.state.queue.class_unique hne hc') hnews⟩

/-- A request that is withdrawn leaves its queue. -/
private theorem TicketsSound.cancel (h : TicketsSound ctl sys) {id : ℕ} {channel : Channel}
    {tenant : TenantPolicy} {q : QueuedRequest} {s' : TrafficState} {lock : Lock}
    (hchannel : sys.channels[id]? = some channel)
    (hcancels : Cancels sys.state tenant.serviceClass channel.tenant q s')
    (hticket : q.ticket = channel.ticket) (hstate : StateSound ctl s') :
    TicketsSound ctl { sys with
      state := s'
      lock := lock
      channels := sys.channels.modify id fun channel => { channel with cancelling := true }
      log := sys.log ++ [.left channel.ticket] } := by
  obtain ⟨before, after, rej, hqueue, rfl⟩ := hcancels.state_eq
  have hledger := h.ledger
  rw [waitingEntries_remove before hqueue] at hledger
  obtain ⟨c, hc, hck, -⟩ := hledger.request _ (Multiset.mem_cons_self _ _)
  have hsender := hledger.ticket_inj hc hchannel (hck.trans hticket)
  refine ⟨hstate, ?_, by simpa using h.next,
    h.fifo.shrink (fun c' t' => ?_) (by simp [grantedTo])⟩
  · rw [← hsender, ← hticket]
    exact hledger.withdraw
  · rw [queueOf_setQueue]
    split_ifs with hct
    · rw [← hct.1, ← hct.2, hqueue]
      simp
    · exact List.Sublist.refl _

/-- A drain turns all queued requests away. -/
private theorem TicketsSound.drain (h : TicketsSound ctl sys) {s' : TrafficState}
    (hdrains : Drains sys.state s')
    (hstate : StateSound ctl (((waitingList sys.state.waiting).map WaitingEntry.request).foldl
      sendDraining { sys with state := s' }).state) :
    TicketsSound ctl (((waitingList sys.state.waiting).map WaitingEntry.request).foldl
      sendDraining { sys with state := s' }) := by
  obtain ⟨rej, rfl⟩ := hdrains.state_eq
  have hledger := h.ledger
  rw [← coe_waitingList] at hledger
  obtain ⟨hlength, hgranted⟩ := foldl_sendDraining_channels
    ((waitingList sys.state.waiting).map WaitingEntry.request) { sys with state := _ }
  refine ⟨hstate, ?_, ?_, fun c t => ?_⟩
  · rw [foldl_sendDraining_state, waitingEntries_empty]
    exact Ledger.drain { sys with state := _ } hledger
  · rw [foldl_sendDraining_state, hlength]
    exact h.next
  · rw [foldl_sendDraining_state, hgranted, queueOf_empty]
    exact (h.fifo c t).sublist (by simp)

/-- One step keeps the tickets sound, as long as it does not hand out too many. -/
theorem TicketsSound.step (h : TicketsSound ctl sys) {label : Label}
    (hstep : step ctl sys label = some sys') (hlt : sys'.enqueues < 2 ^ 64) :
    TicketsSound ctl sys' := by
  have hstate := h.state.step (h.freshGrant label) hstep
  cases move_of_step h.state.queue.known hstep with
  | refused | drainRepeated | resumed | unlocked => exact ⟨hstate, h.ledger, h.next, h.fifo⟩
  | enqueued free henqueues hsender =>
    refine h.enqueue henqueues hsender ?_
    rw [← h.enqueues_eq]
    simpa [System.enqueues, enqueuedTickets] using hlt
  | delivered busy hgrants alive =>
    obtain ⟨-, hnext, ⟨a, hactive⟩, hwaiting, hfifo⟩ := h.grant hgrants
    refine ⟨hstate, ?_, ?_, hfifo _ (grantedTo_pair (by simp [grantedTo]))⟩
    · have hledger := h.ledger
      rw [hwaiting] at hledger
      simpa [hactive] using hledger.deliver a
    · simpa [hnext, setPhase] using h.next
  | undelivered busy hgrants hreleases gone =>
    obtain ⟨-, hnext, ⟨a, hactive⟩, hwaiting, hfifo⟩ := h.grant hgrants
    obtain ⟨-, rfl⟩ := hreleases
    refine ⟨hstate, ?_, ?_, hfifo _ (grantedTo_pair (by simp [grantedTo]))⟩
    · have hledger := h.ledger
      rw [hwaiting] at hledger
      simpa [hactive] using hledger.undelivered a
    · simpa [hnext, setPhase] using h.next
  | cancelMissed free hchannel =>
    exact ⟨hstate, h.ledger.markCancelling hchannel, by simpa using h.next, h.fifo⟩
  | cancelled free hchannel htenant hcancels hticket =>
    exact h.cancel hchannel hcancels hticket hstate
  | rephased caller hchannel hmove =>
    exact ⟨hstate, h.ledger.rephase hchannel hmove, by simpa [setPhase] using h.next, h.fifo⟩
  | releaseMissed free hchannel hdropping habsent =>
    have hactive := congrArg Facts.active (h.ledger.active_of_dropping hchannel hdropping)
    simp [factsOf, habsent] at hactive
  | released free hchannel hdropping hreleases =>
    obtain ⟨-, rfl⟩ := hreleases
    refine ⟨hstate, h.ledger.release hchannel hdropping, by simpa [setPhase] using h.next, ?_⟩
    exact h.fifo.shrink (fun _ _ => List.Sublist.refl _) (by simp [grantedTo])
  | drained free hdrains => exact h.drain hdrains hstate

/-- A run keeps tickets sound as long as it does not hand out too many. -/
theorem TicketsSound.run (h : TicketsSound ctl sys) {labels : List Label}
    (hrun : Run (stepRel (Traffic.step ctl)) sys labels sys') (hlt : sys'.enqueues < 2 ^ 64) :
    TicketsSound ctl sys' := by
  induction hrun with
  | nil => exact h
  | snoc _ hlast ih =>
    have hle := enqueues_le_of_log_prefix (log_prefix_of_step hlast)
    exact (ih (by omega)).step hlast hlt

/-- Every run with fewer than `2 ^ 64` tickets keeps them sound. -/
theorem ticketsSound_of_reaches {labels : List Label} (h : Reaches ctl labels sys)
    (hlt : sys.enqueues < 2 ^ 64) : TicketsSound ctl sys := by
  have hempty : TicketsSound ctl {} :=
    ⟨StateSound.empty, by simpa using Ledger.empty, rfl, by intro c t; simp [grantedTo]⟩
  exact hempty.run h hlt

end Steps

end Locus.Traffic
