import Locus.Lib.Histories
import Locus.Traffic.Lifecycle

/-!
# Moves on the ledger

What each move does to the ticket it concerns. A queued ticket has no history yet,
so a move that takes a request out of its queue determines all facts about it.
-/

namespace Locus.Traffic

open Std (TreeMap)
open Locus.Lib

variable {W : Multiset WaitingEntry} {active active' : TreeMap UInt64 ActiveRequest}
  {channels : List Channel} {log news : List Event} {channel : Channel} {e : WaitingEntry}

private theorem modify_eq_set {j : ℕ} (f : Channel → Channel)
    (h : channels[j]? = some channel) : channels.modify j f = channels.set j (f channel) := by
  refine List.ext_getElem? fun i => ?_
  by_cases hij : j = i
  · subst hij
    rw [List.getElem?_modify_eq, List.getElem?_set_self (List.getElem?_eq_some_iff.mp h).1, h]
    rfl
  · rw [List.getElem?_modify_ne _ _ hij, List.getElem?_set_ne hij]

/-- Nothing has happened yet to a queued ticket. -/
theorem Ledger.queued (h : Ledger (e ::ₘ W) active channels log) : ∃ channel,
    channels[e.request.sender]? = some channel ∧ channel.ticket = e.request.ticket ∧
    channel.tenant = e.tenant ∧
    factsOf (e ::ₘ W) active log e.request.sender channel = ⟨1, false, 0, 0, 0, 0, channel.phase⟩ ∧
    (channel.phase = .waiting ∨ channel.phase = .abandoned) := by
  obtain ⟨channel, hchannel, hticket, htenant⟩ := h.request e (Multiset.mem_cons_self e W)
  have hlife := h.life _ _ hchannel
  have hwaiting : (factsOf (e ::ₘ W) active log e.request.sender channel).waiting ≠ 0 := by
    simp [factsOf]
  refine ⟨channel, hchannel, hticket, htenant, ?_⟩
  have hphase : (factsOf (e ::ₘ W) active log e.request.sender channel).phase = channel.phase := rfl
  generalize factsOf (e ::ₘ W) active log e.request.sender channel = facts at *
  cases hlife with
  | queued hq =>
    simp only at hphase
    subst hphase
    exact ⟨rfl, hq⟩
  | _ => simp at hwaiting

/-- A queued ticket is not active. -/
theorem Ledger.fresh (h : Ledger W active channels log) (he : e ∈ W) :
    active[e.request.ticket]? = none := by
  obtain ⟨rest, rfl⟩ := Multiset.exists_cons_of_mem he
  obtain ⟨channel, -, hticket, -, hfacts, -⟩ := h.queued
  have hactive := congrArg Facts.active hfacts
  simp only [factsOf, Option.isSome_eq_false_iff, Option.isNone_iff_eq_none] at hactive
  rwa [hticket] at hactive

/-- A request leaves its queue: its news are its whole history. -/
theorem Ledger.dequeue (h : Ledger (e ::ₘ W) active channels log) {channel' : Channel}
    (hchannel : channels[e.request.sender]? = some channel)
    (hticket : channel'.ticket = channel.ticket) (htenant : channel'.tenant = channel.tenant)
    (hactive : ∀ k ≠ channel.ticket, active'[k]? = active[k]?)
    (hnews : ∀ event ∈ news, event.About channel.ticket e.request.sender)
    (hlife : Lifecycle (factsOf 0 active' news e.request.sender channel')) :
    Ledger W active' (channels.set e.request.sender channel') (log ++ news) := by
  obtain ⟨c, hc, -, -, hfacts, -⟩ := h.queued
  obtain rfl : channel = c := by rwa [hchannel, Option.some.injEq] at hc
  simp only [factsOf, Multiset.countP_cons, Facts.mk.injEq] at hfacts
  obtain ⟨hw, -, hl, hr, hg, hs, -⟩ := hfacts
  have heq : factsOf W active' (log ++ news) e.request.sender channel' =
      factsOf 0 active' news e.request.sender channel' := by
    simp only [leftTickets, releasedTickets, grantedTickets] at hl hr hg
    simp only [factsOf, leftTickets, releasedTickets, grantedTickets, List.filterMap_append,
      List.count_append, hticket, hl, hr, hg, hs, Nat.zero_add, Multiset.countP_zero]
    simpa using hw
  refine h.update hchannel hticket htenant (Multiset.le_cons_self W e) (fun i hi => ?_) hactive
    hnews (heq ▸ hlife)
  rw [Multiset.countP_cons, if_neg (Ne.symm hi), Nat.add_zero]

/-- A permit is sent to a waiting receiver. -/
theorem Ledger.deliver (h : Ledger (e ::ₘ W) active channels log) (a : ActiveRequest) :
    Ledger W (active.insert e.request.ticket a)
      (setPhase channels e.request.sender .sentPermit)
      (log ++ [Event.granted e.request.ticket e.tenant, .sent e.request.sender]) := by
  obtain ⟨channel, hchannel, hticket, -, -, -⟩ := h.queued
  rw [setPhase, modify_eq_set _ hchannel, ← hticket]
  refine h.dequeue hchannel rfl rfl (fun k hk => ?_) ?_ ?_
  · simp [TreeMap.getElem?_insert, Ne.symm hk]
  · simp [Event.About]
  · simpa [factsOf, leftTickets, releasedTickets, grantedTickets] using
      Lifecycle.admitted (.inl rfl)

/-- A permit that could not be sent is released at once. -/
theorem Ledger.undelivered (h : Ledger (e ::ₘ W) active channels log) (a : ActiveRequest) :
    Ledger W ((active.insert e.request.ticket a).erase e.request.ticket)
      (setPhase channels e.request.sender .closed)
      (log ++ [Event.granted e.request.ticket e.tenant, .released e.request.ticket]) := by
  obtain ⟨channel, hchannel, hticket, -, -, -⟩ := h.queued
  rw [setPhase, modify_eq_set _ hchannel, ← hticket]
  refine h.dequeue hchannel rfl rfl (fun k hk => ?_) ?_ ?_
  · simp [TreeMap.getElem?_erase, TreeMap.getElem?_insert, Ne.symm hk]
  · simp [Event.About]
  · simpa [factsOf, leftTickets, releasedTickets, grantedTickets] using
      Lifecycle.released (Nat.zero_le 1)

/-- A waiter that gives up leaves its queue. -/
theorem Ledger.withdraw (h : Ledger (e ::ₘ W) active channels log) :
    Ledger W active
      (channels.modify e.request.sender fun channel => { channel with cancelling := true })
      (log ++ [Event.left e.request.ticket]) := by
  obtain ⟨channel, hchannel, hticket, -, hfacts, hphase⟩ := h.queued
  rw [modify_eq_set _ hchannel, ← hticket]
  refine h.dequeue hchannel rfl rfl (fun _ _ => rfl) (by simp [Event.About]) ?_
  have hactive := congrArg Facts.active hfacts
  simp only [factsOf] at hactive
  simpa [factsOf, leftTickets, releasedTickets, grantedTickets, hactive] using
    Lifecycle.withdrawn hphase

/-- `begin_drain` answers one waiter. -/
theorem Ledger.turnAway {sys : System} (h : Ledger (e ::ₘ W) active sys.channels sys.log) :
    Ledger W active (sendDraining sys e.request).channels (sendDraining sys e.request).log := by
  obtain ⟨channel, hchannel, hticket, -, hfacts, -⟩ := h.queued
  have hactive := congrArg Facts.active hfacts
  simp only [factsOf] at hactive
  unfold sendDraining
  split_ifs with halive
  · simp only [List.append_assoc, List.singleton_append]
    rw [setPhase, modify_eq_set _ hchannel, ← hticket]
    refine h.dequeue hchannel rfl rfl (fun _ _ => rfl) (by simp [Event.About]) ?_
    simpa [factsOf, leftTickets, releasedTickets, grantedTickets, hactive] using
      Lifecycle.turnedAway (.inl rfl)
  · simp only
    rw [setPhase, modify_eq_set _ hchannel, ← hticket]
    refine h.dequeue hchannel rfl rfl (fun _ _ => rfl) (by simp [Event.About]) ?_
    simpa [factsOf, leftTickets, releasedTickets, grantedTickets, hactive] using Lifecycle.lost

/-- `begin_drain` answers every waiter. -/
theorem Ledger.drain {l : List WaitingEntry} (sys : System)
    (h : Ledger (l : Multiset WaitingEntry) active sys.channels sys.log) :
    Ledger 0 active ((l.map WaitingEntry.request).foldl sendDraining sys).channels
      ((l.map WaitingEntry.request).foldl sendDraining sys).log := by
  induction l generalizing sys with
  | nil => exact h
  | cons e l ih =>
    rw [← Multiset.cons_coe] at h
    exact ih _ h.turnAway

/-- A waiter has a channel. -/
theorem Ledger.sender_lt (h : Ledger W active channels log) (he : e ∈ W) :
    e.request.sender < channels.length := by
  obtain ⟨channel, hchannel, -⟩ := h.request e he
  exact (List.getElem?_eq_some_iff.mp hchannel).1

/-- The next ticket is larger than every ticket handed out before. -/
theorem Ledger.ticket_fresh (h : Ledger W active channels log) {ticket : UInt64}
    (hticket : ticket.toNat = channels.length + 1) : ticket ∉ channels.map Channel.ticket := by
  rw [List.mem_map]
  rintro ⟨channel, hmem, rfl⟩
  obtain ⟨i, hi⟩ := List.getElem?_of_mem hmem
  have heq := h.ticket_eq i channel hi
  have hlt := (List.getElem?_eq_some_iff.mp hi).1
  omega

/-- A new ticket is queued. -/
theorem Ledger.enqueue (h : Ledger W active channels log)
    (hsender : e.request.sender = channels.length)
    (hticket : e.request.ticket.toNat = channels.length + 1) :
    Ledger (e ::ₘ W) active (channels ++ [{ ticket := e.request.ticket, tenant := e.tenant }])
      (log ++ [Event.enqueued e.request.ticket e.tenant]) := by
  have hnew := h.ticket_fresh hticket
  have hl : leftTickets (log ++ [Event.enqueued e.request.ticket e.tenant]) = leftTickets log := by
    simp [leftTickets]
  have hr : releasedTickets (log ++ [Event.enqueued e.request.ticket e.tenant]) =
      releasedTickets log := by
    simp [releasedTickets]
  have hg : grantedTickets (log ++ [Event.enqueued e.request.ticket e.tenant]) =
      grantedTickets log := by
    simp [grantedTickets]
  refine ⟨?_, fun i c hc => ?_, fun e' he' => ?_, fun i c hc => ?_, fun k hk => ?_, fun i hi => ?_⟩
  · simpa [enqueuedTickets] using h.enqueued
  · rcases getElem?_concat_eq_some.mp hc with hc | ⟨rfl, rfl⟩
    · exact h.ticket_eq i c hc
    · exact hticket
  · rcases Multiset.mem_cons.mp he' with rfl | he'
    · exact ⟨_, getElem?_concat_eq_some.mpr (.inr ⟨hsender.symm, rfl⟩), rfl, rfl⟩
    · obtain ⟨c, hc, hfacts⟩ := h.request e' he'
      exact ⟨c, getElem?_concat_eq_some.mpr (.inl hc), hfacts⟩
  · rcases getElem?_concat_eq_some.mp hc with hc | ⟨rfl, rfl⟩
    · have hi := (List.getElem?_eq_some_iff.mp hc).1
      have hne : e.request.sender ≠ i := by omega
      have heq : factsOf (e ::ₘ W) active (log ++ [Event.enqueued e.request.ticket e.tenant]) i c =
          factsOf W active log i c := by
        simp [factsOf, hl, hr, hg, hne, List.count_append]
      rw [heq]
      exact h.life i c hc
    · obtain ⟨ha, hkl, hkr, hkg⟩ := h.unknown _ hnew
      have hnone : W.countP (fun e' => e'.request.sender = channels.length) = 0 :=
        Multiset.countP_eq_zero.mpr fun e' he' => (h.sender_lt he').ne
      have hsent := List.count_eq_zero.mpr (h.unsent channels.length le_rfl)
      rw [← List.count_eq_zero] at hkl hkr hkg
      simpa [factsOf, hl, hr, hg, hkl, hkr, hkg, ha, hsender, hnone, hsent, List.count_append]
        using Lifecycle.queued (.inl rfl)
  · rw [List.map_append, List.mem_append, not_or] at hk
    rw [hl, hr, hg]
    exact h.unknown k hk.1
  · rw [List.length_append] at hi
    have hunsent := h.unsent i (by omega)
    simpa using hunsent

/-- A caller that starts to cancel leaves its ticket where it is. -/
theorem Ledger.markCancelling {id : ℕ} (h : Ledger W active channels log)
    (hchannel : channels[id]? = some channel) :
    Ledger W active
      (channels.modify id fun channel => { channel with cancelling := true }) log := by
  rw [modify_eq_set _ hchannel]
  have hupdate :
      Ledger W active (channels.set id { channel with cancelling := true }) (log ++ []) :=
    h.update hchannel rfl rfl le_rfl (fun _ _ => rfl) (fun _ _ => rfl) (by simp)
      (by rw [List.append_nil]; exact h.life id channel hchannel)
  simpa using hupdate

/-- A caller's move changes the phase of its channel only. -/
theorem Ledger.rephase {id : ℕ} {phase : Phase} (h : Ledger W active channels log)
    (hchannel : channels[id]? = some channel) (hmove : PhaseMove channel.phase phase) :
    Ledger W active (setPhase channels id phase) log := by
  rw [setPhase, modify_eq_set _ hchannel]
  have hlife := h.life id channel hchannel
  have hnew : factsOf W active log id { channel with phase } =
      { factsOf W active log id channel with phase } := rfl
  have hupdate : Ledger W active (channels.set id { channel with phase }) (log ++ []) :=
    h.update hchannel rfl rfl le_rfl (fun _ _ => rfl) (fun _ _ => rfl) (by simp) (by
      rw [List.append_nil, hnew]
      have hphase : (factsOf W active log id channel).phase = channel.phase := rfl
      generalize factsOf W active log id channel = facts at *
      rw [← hphase] at hmove
      cases hlife with
      | queued hq => rcases hq with rfl | rfl <;> cases hmove; exact .queued (by simp)
      | withdrawn hw => rcases hw with rfl | rfl <;> cases hmove; exact .withdrawn (by simp)
      | turnedAway ht => rcases ht with rfl | rfl <;> cases hmove; exact .turnedAway (by simp)
      | lost => cases hmove
      | admitted ha => rcases ha with rfl | rfl | rfl <;> cases hmove <;> exact .admitted (by simp)
      | released _ => cases hmove)
  simpa using hupdate

/-- Dropping a permit finds its ticket active. -/
theorem Ledger.active_of_dropping {id : ℕ} (h : Ledger W active channels log)
    (hchannel : channels[id]? = some channel) (hdropping : channel.phase = .dropping) :
    factsOf W active log id channel = ⟨0, true, 0, 0, 1, 1, .dropping⟩ := by
  have hlife := h.life id channel hchannel
  have hphase : (factsOf W active log id channel).phase = .dropping := hdropping
  generalize factsOf W active log id channel = facts at *
  cases hlife with
  | admitted _ => simp only at hphase; rw [hphase]
  | queued hq | withdrawn hq | turnedAway hq => rcases hq with rfl | rfl <;> cases hphase
  | lost | released _ => cases hphase

/-- A dropped permit is released. -/
theorem Ledger.release {id : ℕ} (h : Ledger W active channels log)
    (hchannel : channels[id]? = some channel) (hdropping : channel.phase = .dropping) :
    Ledger W (active.erase channel.ticket) (setPhase channels id .closed)
      (log ++ [Event.released channel.ticket]) := by
  have hfacts := h.active_of_dropping hchannel hdropping
  simp only [factsOf, Facts.mk.injEq, leftTickets, releasedTickets, grantedTickets] at hfacts
  obtain ⟨hw, -, hl, hr, hg, hs, -⟩ := hfacts
  rw [setPhase, modify_eq_set _ hchannel]
  refine h.update hchannel rfl rfl le_rfl (fun _ _ => rfl) (fun k hk => ?_)
    (by simp [Event.About]) ?_
  · simp [TreeMap.getElem?_erase, Ne.symm hk]
  · simpa [factsOf, leftTickets, releasedTickets, grantedTickets, hw, hl, hr, hg, hs,
      List.count_append] using Lifecycle.released (le_refl 1)

end Locus.Traffic
