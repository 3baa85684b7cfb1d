import Locus.Traffic.Moves

/-!
# The life of a ticket

Every call of `admit` that is enqueued has its own channel, its own ticket and its
own life: it is queued, then either active or gone, and an active one is released
once. `Facts` collects what the controller and the ghost log say about one ticket,
`Lifecycle` lists the combinations that can occur, and `Ledger` says that every
ticket is in one of them. A move touches one ticket only, which is what
`Ledger.update` exploits.
-/

namespace Locus.Traffic

open Std (TreeMap)
open Locus.Lib

/-- What is recorded about one ticket and its channel. -/
structure Facts where
  /-- How many queued requests carry the channel's sender. -/
  waiting : ℕ
  active : Bool
  left : ℕ
  released : ℕ
  granted : ℕ
  sent : ℕ
  phase : Phase

/-- The stages of a ticket. -/
inductive Lifecycle : Facts → Prop
  /-- In its queue; the receiver may be gone already. -/
  | queued {phase} : phase = .waiting ∨ phase = .abandoned →
      Lifecycle ⟨1, false, 0, 0, 0, 0, phase⟩
  /-- Taken out of its queue by `cancel_waiter`. -/
  | withdrawn {phase} : phase = .waiting ∨ phase = .abandoned →
      Lifecycle ⟨0, false, 1, 0, 0, 0, phase⟩
  /-- Told by `begin_drain` to go away. -/
  | turnedAway {phase} : phase = .sentError ∨ phase = .closed →
      Lifecycle ⟨0, false, 1, 0, 0, 1, phase⟩
  /-- Removed by `begin_drain` after its receiver was dropped. -/
  | lost : Lifecycle ⟨0, false, 1, 0, 0, 0, .closed⟩
  /-- Active, with the permit in the channel, held, or about to be dropped. -/
  | admitted {phase} : phase = .sentPermit ∨ phase = .held ∨ phase = .dropping →
      Lifecycle ⟨0, true, 0, 0, 1, 1, phase⟩
  /-- Released, by its holder or, when nothing could be sent, by the scheduler. -/
  | released {sent} : sent ≤ 1 → Lifecycle ⟨0, false, 0, 1, 1, sent, .closed⟩

/-- The facts about the channel with index `i`. -/
def factsOf (W : Multiset WaitingEntry) (active : TreeMap UInt64 ActiveRequest) (log : List Event)
    (i : ℕ) (channel : Channel) : Facts where
  waiting := W.countP fun e => e.request.sender = i
  active := active[channel.ticket]?.isSome
  left := (leftTickets log).count channel.ticket
  released := (releasedTickets log).count channel.ticket
  granted := (grantedTickets log).count channel.ticket
  sent := log.count (.sent i)
  phase := channel.phase

/-- Every ticket handed out lives its life, and no other ticket occurs anywhere. -/
structure Ledger (W : Multiset WaitingEntry) (active : TreeMap UInt64 ActiveRequest)
    (channels : List Channel) (log : List Event) : Prop where
  enqueued : enqueuedTickets log = channels.map Channel.ticket
  ticket_eq : ∀ i channel, channels[i]? = some channel → channel.ticket.toNat = i + 1
  request : ∀ e ∈ W, ∃ channel, channels[e.request.sender]? = some channel ∧
    channel.ticket = e.request.ticket ∧ channel.tenant = e.tenant
  life : ∀ i channel, channels[i]? = some channel → Lifecycle (factsOf W active log i channel)
  unknown : ∀ k, k ∉ channels.map Channel.ticket → active[k]? = none ∧ k ∉ leftTickets log ∧
    k ∉ releasedTickets log ∧ k ∉ grantedTickets log
  unsent : ∀ i, channels.length ≤ i → .sent i ∉ log

/-- An event that concerns one ticket and its channel, other than handing it out. -/
def Event.About (ticket : UInt64) (sender : ℕ) : Event → Prop
  | .enqueued _ _ => False
  | .granted k _ => k = ticket
  | .left k => k = ticket
  | .released k => k = ticket
  | .sent i => i = sender

variable {W W' : Multiset WaitingEntry} {active active' : TreeMap UInt64 ActiveRequest}
  {channels : List Channel} {log news : List Event}

theorem Ledger.empty : Ledger 0 ∅ [] [] where
  enqueued := rfl
  ticket_eq := by simp
  request := by simp
  life := by simp
  unknown := by simp [leftTickets, releasedTickets, grantedTickets]
  unsent := by simp

section News

variable {ticket k : UInt64} {sender i : ℕ}

private theorem count_filterMap_append {f : Event → Option UInt64}
    (hf : ∀ event ∈ news, f event ≠ some k) :
    ((log ++ news).filterMap f).count k = (log.filterMap f).count k := by
  have hnone : (news.filterMap f).count k = 0 := by
    rw [List.count_eq_zero, List.mem_filterMap]
    rintro ⟨event, hevent, heq⟩
    exact hf event hevent heq
  rw [List.filterMap_append, List.count_append, hnone, Nat.add_zero]

/-- News about one ticket says nothing about another. -/
private theorem counts_append_of_ne (log : List Event)
    (hnews : ∀ event ∈ news, event.About ticket sender) (hk : k ≠ ticket) :
    (leftTickets (log ++ news)).count k = (leftTickets log).count k ∧
    (releasedTickets (log ++ news)).count k = (releasedTickets log).count k ∧
    (grantedTickets (log ++ news)).count k = (grantedTickets log).count k := by
  refine ⟨count_filterMap_append ?_, count_filterMap_append ?_, count_filterMap_append ?_⟩ <;>
    · intro event hevent heq
      have habout := hnews event hevent
      cases event <;> simp_all [Event.About]

private theorem sent_append_of_ne (log : List Event)
    (hnews : ∀ event ∈ news, event.About ticket sender) (hi : i ≠ sender) :
    (log ++ news).count (.sent i) = log.count (.sent i) := by
  have hnone : news.count (.sent i) = 0 := by
    rw [List.count_eq_zero]
    intro hmem
    exact hi (hnews _ hmem)
  rw [List.count_append, hnone, Nat.add_zero]

private theorem enqueuedTickets_append (hnews : ∀ event ∈ news, event.About ticket sender) :
    enqueuedTickets (log ++ news) = enqueuedTickets log := by
  have hnone : enqueuedTickets news = [] := by
    refine List.filterMap_eq_nil_iff.mpr fun event hevent => ?_
    have habout := hnews event hevent
    cases event <;> simp_all [Event.About]
  rw [enqueuedTickets, List.filterMap_append]
  exact (congrArg _ hnone).trans (List.append_nil _)

end News

/-- Tickets are told apart by their channels. -/
theorem Ledger.ticket_inj (h : Ledger W active channels log) {i j : ℕ} {a b : Channel}
    (ha : channels[i]? = some a) (hb : channels[j]? = some b) (heq : a.ticket = b.ticket) :
    i = j := by
  have := h.ticket_eq i a ha
  have := h.ticket_eq j b hb
  rw [heq] at *
  omega

/-- No request waits twice. -/
theorem Ledger.nodup (h : Ledger W active channels log) : W.Nodup := by
  refine Multiset.nodup_iff_le.mpr fun e hle => ?_
  obtain ⟨channel, hchannel, -⟩ := h.request e (Multiset.mem_of_le hle (by simp))
  have hlife := h.life _ _ hchannel
  have hwaiting : 2 ≤ (factsOf W active log e.request.sender channel).waiting := by
    refine le_trans ?_ (Multiset.countP_le_of_le _ hle)
    rw [Multiset.countP_cons, Multiset.countP_cons, if_pos rfl, Multiset.countP_zero]
  generalize factsOf W active log e.request.sender channel = facts at hlife hwaiting
  cases hlife <;> simp at hwaiting

/-- The channels after one of them was replaced. -/
private theorem getElem?_set_cases {i j : ℕ} {channel channel' c : Channel}
    (hchannel : channels[j]? = some channel) (hc : (channels.set j channel')[i]? = some c) :
    (i = j ∧ c = channel') ∨ (i ≠ j ∧ channels[i]? = some c) := by
  by_cases hij : i = j
  · subst hij
    rw [List.getElem?_set_self (List.getElem?_eq_some_iff.mp hchannel).1] at hc
    exact .inl ⟨rfl, (Option.some.inj hc).symm⟩
  · rw [List.getElem?_set_ne (Ne.symm hij)] at hc
    exact .inr ⟨hij, hc⟩

/-- A channel is replaced by one for the same ticket. -/
private theorem map_ticket_set {j : ℕ} {channel channel' : Channel}
    (hchannel : channels[j]? = some channel) (hticket : channel'.ticket = channel.ticket) :
    (channels.set j channel').map Channel.ticket = channels.map Channel.ticket := by
  rw [List.map_set, hticket]
  refine List.ext_getElem? fun i => ?_
  by_cases hij : j = i
  · subst hij
    rw [List.getElem?_set_self', List.getElem?_map, hchannel]
    rfl
  · rw [List.getElem?_set_ne hij]

/-- A move that concerns one ticket only has to account for that ticket. -/
theorem Ledger.update (h : Ledger W active channels log) {j : ℕ} {channel channel' : Channel}
    (hchannel : channels[j]? = some channel) (hticket : channel'.ticket = channel.ticket)
    (htenant : channel'.tenant = channel.tenant) (hsub : W' ≤ W)
    (hwaiting : ∀ i ≠ j, W'.countP (fun e => e.request.sender = i) =
      W.countP fun e => e.request.sender = i)
    (hactive : ∀ k ≠ channel.ticket, active'[k]? = active[k]?)
    (hnews : ∀ event ∈ news, event.About channel.ticket j)
    (hlife : Lifecycle (factsOf W' active' (log ++ news) j channel')) :
    Ledger W' active' (channels.set j channel') (log ++ news) := by
  have htickets := map_ticket_set hchannel hticket
  refine ⟨?_, fun i c hc => ?_, fun e he => ?_, fun i c hc => ?_, fun k hk => ?_, fun i hi => ?_⟩
  · rw [enqueuedTickets_append hnews, htickets, h.enqueued]
  · rcases getElem?_set_cases hchannel hc with ⟨rfl, rfl⟩ | ⟨-, hc⟩
    · rw [hticket]
      exact h.ticket_eq i channel hchannel
    · exact h.ticket_eq i c hc
  · obtain ⟨c, hc, hck, hct⟩ := h.request e (Multiset.mem_of_le hsub he)
    by_cases hij : e.request.sender = j
    · rw [hij, hchannel] at hc
      obtain rfl := Option.some.inj hc
      refine ⟨channel', ?_, hticket.trans hck, htenant.trans hct⟩
      rw [hij, List.getElem?_set_self (List.getElem?_eq_some_iff.mp hchannel).1]
    · exact ⟨c, by rwa [List.getElem?_set_ne (Ne.symm hij)], hck, hct⟩
  · rcases getElem?_set_cases hchannel hc with ⟨rfl, rfl⟩ | ⟨hij, hc⟩
    · exact hlife
    · have hne : c.ticket ≠ channel.ticket := fun heq => hij (h.ticket_inj hc hchannel heq)
      obtain ⟨hl, hr, hg⟩ := counts_append_of_ne log hnews hne
      have heq : factsOf W' active' (log ++ news) i c = factsOf W active log i c := by
        simp only [factsOf, hwaiting i hij, hactive _ hne, hl, hr, hg,
          sent_append_of_ne log hnews hij]
      rw [heq]
      exact h.life i c hc
  · rw [htickets] at hk
    have hne : k ≠ channel.ticket := by
      rintro rfl
      exact hk (List.mem_map_of_mem (List.mem_of_getElem? hchannel))
    obtain ⟨hl, hr, hg⟩ := counts_append_of_ne log hnews hne
    obtain ⟨ha, hkl, hkr, hkg⟩ := h.unknown k hk
    simp only [← List.count_eq_zero] at hkl hkr hkg ⊢
    exact ⟨(hactive k hne).trans ha, hl.trans hkl, hr.trans hkr, hg.trans hkg⟩
  · rw [List.length_set] at hi
    have hij : i ≠ j := by
      have := (List.getElem?_eq_some_iff.mp hchannel).1
      omega
    rw [← List.count_eq_zero, sent_append_of_ne log hnews hij, List.count_eq_zero]
    exact h.unsent i hi

end Locus.Traffic
