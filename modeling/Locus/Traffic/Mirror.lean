import Locus.Traffic.Renumbering
import Locus.Traffic.Tickets

/-!
# Two systems in step

A system that was idle once is compared with a new one that takes the same steps.
The calls made before the idle moment keep their channels in the first system only;
all others correspond, with tickets and channels moved up by the number of those
calls. `Mirrors` states the correspondence, and every step of the first system is a
step of the second or concerns an old call, which can change nothing but its own
channel.
-/

namespace Locus.Traffic

open Std (TreeMap)
open Locus.Lib

variable {ctl : TrafficController} {k : ℕ} {sys sys' new : System} {base : List UInt64}

/-- The same channel of a later call. -/
def Channel.later (k : ℕ) (channel : Channel) : Channel :=
  { channel with ticket := laterTicket k channel.ticket }

/-- The same event of a later ticket or channel. -/
def Event.later (k : ℕ) : Event → Event
  | .enqueued ticket tenant => .enqueued (laterTicket k ticket) tenant
  | .granted ticket tenant => .granted (laterTicket k ticket) tenant
  | .left ticket => .left (laterTicket k ticket)
  | .released ticket => .released (laterTicket k ticket)
  | .sent sender => .sent (sender + k)

/-- A step as a system sees it that does not know the first `k` calls. -/
def Label.after (k : ℕ) : Label → Option Label
  | .cancel id reason => if id < k then none else some (.cancel (id - k) reason)
  | .receive id => if id < k then none else some (.receive (id - k))
  | .dropReceiver id => if id < k then none else some (.dropReceiver (id - k))
  | .dropPermit id => if id < k then none else some (.dropPermit (id - k))
  | .release id => if id < k then none else some (.release (id - k))
  | label => some label

section Channels

variable {channels fresh : List Channel}

/-- The channels of `k` old calls are followed by those of the new ones. -/
def Joined (k : ℕ) (channels fresh : List Channel) : Prop :=
  ∃ old : List Channel, old.length = k ∧ channels = old ++ fresh.map (.later k)

theorem Joined.length_eq (h : Joined k channels fresh) : channels.length = fresh.length + k := by
  obtain ⟨old, rfl, rfl⟩ := h
  simp [Nat.add_comm]

theorem Joined.getElem? (h : Joined k channels fresh) (i : ℕ) :
    channels[i + k]? = (fresh[i]?).map (.later k) := by
  obtain ⟨old, rfl, rfl⟩ := h
  rw [List.getElem?_append_right (Nat.le_add_left _ _), Nat.add_sub_cancel, List.getElem?_map]

theorem Joined.phaseOf_eq (h : Joined k channels fresh) (i : ℕ) :
    phaseOf channels (i + k) = phaseOf fresh i := by
  rw [phaseOf, h.getElem?, Option.map_map]
  rfl

private theorem modify_map {f g : Channel → Channel} (h : ∀ channel, f (g channel) = g (f channel))
    (l : List Channel) (i : ℕ) : (l.map g).modify i f = (l.modify i f).map g := by
  induction l generalizing i with
  | nil => simp
  | cons channel l ih => cases i <;> simp [h, ih]

private theorem modify_append_right (f : Channel → Channel) (l l' : List Channel) (i : ℕ) :
    (l ++ l').modify (i + l.length) f = l ++ l'.modify i f := by
  induction l with
  | nil => rfl
  | cons channel l ih => simpa [← Nat.add_assoc] using ih

private theorem modify_append_left (f : Channel → Channel) {l : List Channel} (l' : List Channel)
    {i : ℕ} (hi : i < l.length) : (l ++ l').modify i f = l.modify i f ++ l' := by
  induction l generalizing i with
  | nil => cases hi
  | cons channel l ih =>
    cases i with
    | zero => rfl
    | succ i => simpa using ih (Nat.lt_of_succ_lt_succ hi)

/-- A change of a new call's channel that does not look at its ticket. -/
theorem Joined.modify (h : Joined k channels fresh) {f : Channel → Channel}
    (hf : ∀ channel, f (channel.later k) = (f channel).later k) (i : ℕ) :
    Joined k (channels.modify (i + k) f) (fresh.modify i f) := by
  obtain ⟨old, rfl, rfl⟩ := h
  refine ⟨old, rfl, ?_⟩
  rw [modify_append_right, modify_map hf]

/-- A change of an old call's channel. -/
theorem Joined.modify_old (h : Joined k channels fresh) (f : Channel → Channel) {i : ℕ}
    (hi : i < k) : Joined k (channels.modify i f) fresh := by
  obtain ⟨old, rfl, rfl⟩ := h
  exact ⟨old.modify i f, List.length_modify _ _ _, modify_append_left f _ hi⟩

theorem Joined.push (h : Joined k channels fresh) (channel : Channel) :
    Joined k (channels ++ [channel.later k]) (fresh ++ [channel]) := by
  obtain ⟨old, hold, rfl⟩ := h
  exact ⟨old, hold, by simp⟩

end Channels

section Log

variable {log newLog : List Event}

/-- A log continues after `k` requests, of which `base` were granted, as another one does. -/
structure Continues (k : ℕ) (base : List UInt64) (log newLog : List Event) : Prop where
  granted : grantedTickets log = base ++ (grantedTickets newLog).map (laterTicket k)
  enqueued : (enqueuedTickets log).length = (enqueuedTickets newLog).length + k

private theorem grantedTickets_later (news : List Event) :
    grantedTickets (news.map (.later k)) = (grantedTickets news).map (laterTicket k) := by
  rw [grantedTickets, grantedTickets, List.filterMap_map, List.map_filterMap]
  refine List.filterMap_congr fun event _ => ?_
  cases event <;> rfl

private theorem length_enqueuedTickets_later (news : List Event) :
    (enqueuedTickets (news.map (.later k))).length = (enqueuedTickets news).length := by
  have hmap : enqueuedTickets (news.map (.later k)) =
      (enqueuedTickets news).map (laterTicket k) := by
    rw [enqueuedTickets, enqueuedTickets, List.filterMap_map, List.map_filterMap]
    refine List.filterMap_congr fun event _ => ?_
    cases event <;> rfl
  rw [hmap, List.length_map]

theorem Continues.append (h : Continues k base log newLog) (news : List Event) :
    Continues k base (log ++ news.map (.later k)) (newLog ++ news) where
  granted := by
    have hlater := grantedTickets_later (k := k) news
    have hgranted := h.granted
    simp only [grantedTickets, List.filterMap_append, List.map_append] at hgranted hlater ⊢
    rw [hgranted, hlater, List.append_assoc]
  enqueued := by
    have hlater := length_enqueuedTickets_later (k := k) news
    have henqueued := h.enqueued
    simp only [enqueuedTickets, List.filterMap_append, List.length_append] at henqueued hlater ⊢
    omega

end Log

/-- One system is another with `k` old calls before it, whose granted tickets are `base`. -/
structure Mirrors (k : ℕ) (base : List UInt64) (sys new : System) : Prop where
  state : Renumbered k sys.state new.state
  lock : sys.lock = new.lock
  channels : Joined k sys.channels new.channels
  log : Continues k base sys.log new.log

/-- Two systems in step whose tickets are sound. -/
structure Twins (ctl : TrafficController) (k : ℕ) (base : List UInt64) (sys new : System) : Prop
    extends Mirrors k base sys new where
  sound : TicketsSound ctl sys
  newSound : TicketsSound ctl new

/-- The second system takes the step the first has taken, unless it concerns an old call. -/
def Follows (ctl : TrafficController) (k : ℕ) (base : List UInt64) (new : System) (label : Label)
    (sys' : System) : Prop :=
  ∃ new', Run (stepRel (step ctl)) new (label.after k).toList new' ∧ Mirrors k base sys' new'

theorem Follows.of_step {label label' : Label} {new' : System}
    (hlabel : label.after k = some label') (hstep : step ctl new label' = some new')
    (h : Mirrors k base sys' new') : Follows ctl k base new label sys' := by
  refine ⟨new', ?_, h⟩
  rw [hlabel]
  exact Run.snoc (.nil new) hstep

theorem Follows.of_old {label : Label} (hlabel : label.after k = none)
    (h : Mirrors k base sys' new) : Follows ctl k base new label sys' := by
  refine ⟨new, ?_, h⟩
  rw [hlabel]
  exact .nil new

section Counts

/-- The same requests wait, under later tickets. -/
theorem Twins.waitingEntries_eq (h : Twins ctl k base sys new) :
    waitingEntries sys.state.waiting = (waitingEntries new.state.waiting).map (.later k) := by
  have hinj : Function.Injective (WaitingEntry.later k) := by
    rintro ⟨c, t, q⟩ ⟨c', t', q'⟩ heq
    cases q
    cases q'
    simpa [WaitingEntry.later, QueuedRequest.later] using heq
  refine (h.sound.ledger.nodup.ext (h.newSound.ledger.nodup.map hinj)).mpr fun e => ?_
  rw [mem_waitingEntries, h.state.queue, List.mem_map, Multiset.mem_map]
  constructor
  · rintro ⟨q, hq, heq⟩
    exact ⟨⟨e.serviceClass, e.tenant, q⟩, mem_waitingEntries.mpr hq,
      by simp [WaitingEntry.later, heq]⟩
  · rintro ⟨e', he', rfl⟩
    exact ⟨e'.request, mem_waitingEntries.mp he', rfl⟩

theorem Twins.sameCounts (h : Twins ctl k base sys new) : SameCounts sys.state new.state :=
  h.state.sameCounts h.sound.state h.newSound.state h.waitingEntries_eq

theorem Twins.nextCandidate_eq (h : Twins ctl k base sys new) :
    nextCandidate ctl sys.state = nextCandidate ctl new.state :=
  h.state.nextCandidate_eq h.sameCounts h.sound.state.queue.known h.newSound.state.queue.known

end Counts

section Admission

/-- The next ticket of the first system is the next one of the second, moved up. -/
private theorem Twins.nextTicket (h : Twins ctl k base sys new) (hlt : sys.enqueues + 1 < 2 ^ 64) :
    saturatingAdd sys.state.nextTicket 1 =
      laterTicket k (saturatingAdd new.state.nextTicket 1) := by
  have henqueues : sys.enqueues = new.enqueues + k := h.log.enqueued
  have hnext := h.sound.next
  have hnewNext := h.newSound.next
  rw [← h.sound.enqueues_eq] at hnext
  rw [← h.newSound.enqueues_eq] at hnewNext
  rw [← UInt64.toNat_inj, laterTicket, UInt64.toNat_add, UInt64.toNat_ofNat',
    toNat_saturatingAdd (by simp; omega), toNat_saturatingAdd (by simp; omega), hnext, hnewNext]
  simp only [UInt64.toNat_one]
  omega

/-- `admit` up to its wait. -/
private theorem Twins.admitRequest (h : Twins ctl k base sys new) {tenant : Option String}
    {tokenCost : UInt64} {now cancellation : ℕ}
    (hstep : step ctl sys (.admitRequest tenant tokenCost now cancellation) = some sys')
    (hlt : sys'.enqueues < 2 ^ 64) :
    Follows ctl k base new (.admitRequest tenant tokenCost now cancellation) sys' := by
  simp only [step, h.channels.length_eq] at hstep
  split_ifs at hstep with hfree
  have hnewFree : new.lock = .free := h.lock ▸ hfree
  obtain ⟨e, s', g', hs, hg, hlike⟩ | ⟨p, hs, hg⟩ :=
    h.state.admit h.sameCounts tenant tokenCost now cancellation new.channels.length
  · rw [hs] at hstep
    obtain rfl := Option.some.inj hstep
    refine .of_step rfl (by simp only [step]; rw [if_pos hnewFree, hg]) ?_
    exact ⟨hlike, h.lock, h.channels, h.log⟩
  · rw [hs] at hstep
    obtain rfl := Option.some.inj hstep
    have hticket := h.nextTicket (by simpa [System.enqueues, enqueuedTickets] using hlt)
    have hlike := h.state.enqueue ctl h.sameCounts hticket p tokenCost now cancellation
      new.channels.length
    refine .of_step rfl (by simp only [step]; rw [if_pos hnewFree, hg]; rfl) ?_
    have hchannels := h.channels.push
      { ticket := saturatingAdd new.state.nextTicket 1, tenant := tenant.getD "" }
    have hlog := h.log.append [.enqueued (saturatingAdd new.state.nextTicket 1) (tenant.getD "")]
    simp only [Channel.later, List.map_cons, List.map_nil, Event.later, ← hticket]
      at hchannels hlog
    exact ⟨hlike, rfl, hchannels, hlog⟩

end Admission

section Scheduling

/-- The channel of a new call goes into another phase. -/
theorem Joined.setPhase {channels fresh : List Channel} (h : Joined k channels fresh) (i : ℕ)
    (phase : Phase) : Joined k (setPhase channels (i + k) phase) (setPhase fresh i phase) :=
  Joined.modify h (f := fun channel => { channel with phase }) (fun _ => rfl) i

/-- A permit is delivered, or comes back, in both systems. -/
private theorem Mirrors.sendPermit (h : Mirrors k base sys new) {s g : TrafficState}
    (hlike : Renumbered k s g) (q : QueuedRequest) (t : String) :
    Mirrors k base (sendPermit sys s (q.later k) t) (sendPermit new g q t) := by
  have hlog := h.log.append [.granted q.ticket t]
  unfold Traffic.sendPermit
  simp only [QueuedRequest.later, h.channels.phaseOf_eq]
  split_ifs
  · exact ⟨hlike, h.lock, h.channels.setPhase _ _, hlog.append [.sent q.sender]⟩
  · obtain ⟨hs, hg⟩ | ⟨a, s', g', hs, hg, hlike'⟩ := hlike.release q.ticket
    · rw [hs, hg]
      exact ⟨hlike, h.lock, h.channels.setPhase _ _, hlog⟩
    · rw [hs, hg]
      exact ⟨hlike', h.lock, h.channels.setPhase _ _, hlog.append [.released q.ticket]⟩

/-- One iteration of the scheduling loop. -/
private theorem Twins.schedule (h : Twins ctl k base sys new) {now : ℕ}
    (hstep : step ctl sys (.schedule now) = some sys') :
    Follows ctl k base new (.schedule now) sys' := by
  simp only [step, h.nextCandidate_eq] at hstep
  split_ifs at hstep with hfree
  have hbusy : new.lock ≠ .free := fun hnew => hfree (h.lock.trans hnew)
  obtain ⟨⟨c, t⟩, hnext, hstep⟩ := Option.bind_eq_some_iff.mp hstep
  obtain ⟨⟨q, s'⟩, hgrant, hstep⟩ := Option.bind_eq_some_iff.mp hstep
  obtain rfl := Option.some.inj hstep
  obtain ⟨rest, serviceClass, tenant, hqueue, hclass, htenant, rfl⟩ := grantHead_spec hgrant
  rw [h.state.queue] at hqueue
  obtain ⟨q, rest, hnewQueue, rfl, rfl⟩ := List.map_eq_cons_iff.mp hqueue
  have hnewGrant := grantHead_of_queue now hnewQueue hclass htenant
  refine .of_step rfl (by simp only [step]; rw [if_neg hbusy, hnext, Option.bind_eq_bind,
    Option.bind_some, hnewGrant]; rfl) ?_
  exact Mirrors.sendPermit h.toMirrors (h.state.activate serviceClass c tenant t q rest now) q t

/-- The scheduling loop ends. -/
private theorem Twins.unlock (h : Twins ctl k base sys new)
    (hstep : step ctl sys .unlock = some sys') : Follows ctl k base new .unlock sys' := by
  simp only [step, h.nextCandidate_eq, h.lock] at hstep
  cases hlock : new.lock with
  | free => simp [hlock] at hstep
  | scheduling fromRelease =>
    simp only [hlock] at hstep
    by_cases hidle : nextCandidate ctl new.state = none
    · rw [if_pos hidle] at hstep
      obtain rfl := Option.some.inj hstep
      refine .of_step rfl (by simp only [step, hlock]; rw [if_pos hidle]) ?_
      exact ⟨h.state, rfl, h.channels, h.log⟩
    · rw [if_neg hidle] at hstep
      cases hstep

end Scheduling

section Callers

/-- An old call moves on its own channel. -/
private theorem Mirrors.modify_old (h : Mirrors k base sys new) (f : Channel → Channel) {id : ℕ}
    (hid : id < k) : Mirrors k base { sys with channels := sys.channels.modify id f } new :=
  ⟨h.state, h.lock, h.channels.modify_old f hid, h.log⟩

/-- The channel of a new call goes into another phase in both systems. -/
private theorem Mirrors.setPhase (h : Mirrors k base sys new) (i : ℕ) (phase : Phase) :
    Mirrors k base { sys with channels := setPhase sys.channels (i + k) phase }
      { new with channels := setPhase new.channels i phase } :=
  ⟨h.state, h.lock, h.channels.setPhase i phase, h.log⟩

/-- A step of a caller that only moves its channel to the next phase. -/
private def phaseStep (next : Channel → Option Phase) (sys : System) (id : ℕ) : Option System :=
  (sys.channels[id]?.bind next).map fun phase =>
    { sys with channels := setPhase sys.channels id phase }

private def receivePhase (channel : Channel) : Option Phase :=
  if channel.cancelling then none
  else match channel.phase with
    | .sentPermit => some .held
    | .sentError => some .closed
    | _ => none

private def dropReceiverPhase (channel : Channel) : Option Phase :=
  match channel.phase with
  | .waiting => some .abandoned
  | .sentPermit => some .dropping
  | .sentError => some .closed
  | _ => none

private def dropPermitPhase (channel : Channel) : Option Phase :=
  if channel.phase = .held then some .dropping else none

private theorem step_receive (sys : System) (id : ℕ) :
    step ctl sys (.receive id) = phaseStep receivePhase sys id := by
  simp only [step, phaseStep]
  cases sys.channels[id]? with
  | none => rfl
  | some channel =>
    obtain ⟨ticket, tenant, phase, cancelling⟩ := channel
    cases cancelling <;> cases phase <;> rfl

private theorem step_dropReceiver (sys : System) (id : ℕ) :
    step ctl sys (.dropReceiver id) = phaseStep dropReceiverPhase sys id := by
  simp only [step, phaseStep]
  cases sys.channels[id]? with
  | none => rfl
  | some channel =>
    obtain ⟨ticket, tenant, phase, cancelling⟩ := channel
    cases phase <;> rfl

private theorem step_dropPermit (sys : System) (id : ℕ) :
    step ctl sys (.dropPermit id) = phaseStep dropPermitPhase sys id := by
  cases hchannel : sys.channels[id]? with
  | none => simp [step, phaseStep, phaseOf, hchannel]
  | some channel =>
    by_cases hheld : channel.phase = .held
    · simp [step, phaseStep, phaseOf, dropPermitPhase, hchannel, hheld]
    · simp [step, phaseStep, phaseOf, dropPermitPhase, hchannel, hheld]

/-- A caller's move is the same in both systems, and an old caller's is not seen. -/
private theorem Mirrors.phaseStep (h : Mirrors k base sys new) {label : ℕ → Label}
    {next : Channel → Option Phase}
    (hlabel : ∀ id, (label id).after k = if id < k then none else some (label (id - k)))
    (hsteps : ∀ sys id, step ctl sys (label id) = phaseStep next sys id)
    (hnext : ∀ channel, next (channel.later k) = next channel) {id : ℕ}
    (hstep : step ctl sys (label id) = some sys') : Follows ctl k base new (label id) sys' := by
  rw [hsteps] at hstep
  obtain ⟨phase, hphase, rfl⟩ := Option.map_eq_some_iff.mp hstep
  by_cases hid : id < k
  · exact .of_old (by rw [hlabel, if_pos hid]) (h.modify_old _ hid)
  · obtain ⟨i, rfl⟩ : ∃ i, id = i + k := ⟨id - k, by omega⟩
    have hnew : new.channels[i]?.bind next = some phase := by
      rw [← hphase, h.channels.getElem?]
      cases new.channels[i]? <;> simp [hnext]
    have hafter : (label (i + k)).after k = some (label i) := by
      rw [hlabel, if_neg hid, Nat.add_sub_cancel]
    refine .of_step hafter ?_ (h.setPhase i phase)
    rw [hsteps, Traffic.phaseStep, hnew]
    rfl

/-- An old call finds nothing to cancel. -/
private theorem Twins.cancelWaiter_old (h : Twins ctl k base sys new) {id : ℕ} (hid : id < k)
    {channel : Channel} (hchannel : sys.channels[id]? = some channel) (tenant : TenantPolicy)
    (reason : String) : cancelWaiter sys.state channel.ticket tenant reason = none := by
  cases hcancel : cancelWaiter sys.state channel.ticket tenant reason with
  | none => rfl
  | some result =>
    obtain ⟨q, s'⟩ := result
    obtain ⟨before, after, -, hqueue, hticket, -⟩ := cancelWaiter_spec hcancel
    have hmem : (⟨tenant.serviceClass, tenant.id, q⟩ : WaitingEntry) ∈
        waitingEntries sys.state.waiting := mem_waitingEntries.mpr (by simp [hqueue])
    obtain ⟨other, hother, hsame, -⟩ := h.sound.ledger.request _ hmem
    have heq := h.sound.ledger.ticket_inj hother hchannel (hsame.trans hticket)
    -- A queued request of the first system is one of the second, moved up.
    rw [h.waitingEntries_eq] at hmem
    obtain ⟨e, -, he⟩ := Multiset.mem_map.mp hmem
    have hsender : e.request.sender + k = q.sender :=
      congrArg (fun e => e.request.sender) he
    simp only at heq
    omega

/-- A caller gives up. -/
private theorem Twins.cancel (h : Twins ctl k base sys new) {id : ℕ} {reason : String}
    (hstep : step ctl sys (.cancel id reason) = some sys') :
    Follows ctl k base new (.cancel id reason) sys' := by
  simp only [step] at hstep
  obtain ⟨channel, hchannel, hstep⟩ := Option.bind_eq_some_iff.mp hstep
  obtain ⟨tenant, htenant, hstep⟩ := Option.bind_eq_some_iff.mp hstep
  split_ifs at hstep with hguard
  by_cases hid : id < k
  · rw [h.cancelWaiter_old hid hchannel] at hstep
    obtain rfl := Option.some.inj hstep
    exact .of_old (by simp [Label.after, hid]) (h.toMirrors.modify_old _ hid)
  · obtain ⟨i, rfl⟩ : ∃ i, id = i + k := ⟨id - k, by omega⟩
    rw [h.channels.getElem?] at hchannel
    obtain ⟨channel', hnewChannel, rfl⟩ := Option.map_eq_some_iff.mp hchannel
    have hlabel : (Label.cancel (i + k) reason).after k = some (.cancel i reason) := by
      simp [Label.after]
    have hmarked := h.channels.modify (f := fun channel => { channel with cancelling := true })
      (fun _ => rfl) i
    rw [h.lock] at hguard
    simp only [Channel.later] at htenant hguard hstep
    obtain ⟨hs, hg⟩ | ⟨q, s', g', hs, hg, hlike⟩ := h.state.cancel channel'.ticket tenant reason
    · rw [hs] at hstep
      obtain rfl := Option.some.inj hstep
      refine .of_step hlabel (by simp [step, hnewChannel, htenant, hguard, hg]; rfl) ?_
      exact ⟨h.state, h.lock.trans hguard.1, hmarked, h.log⟩
    · rw [hs] at hstep
      obtain rfl := Option.some.inj hstep
      refine .of_step hlabel (by simp [step, hnewChannel, htenant, hguard, hg]; rfl) ?_
      exact ⟨hlike, rfl, hmarked, h.log.append [.left channel'.ticket]⟩

/-- No old call holds a permit. -/
private theorem Twins.le_of_active (h : Twins ctl k base sys new) {id : ℕ} {channel : Channel}
    (hchannel : sys.channels[id]? = some channel)
    (hactive : (sys.state.active[channel.ticket]?).isSome) : k ≤ id := by
  obtain ⟨ticket, hticket⟩ := (laterTicket_bijective k).surjective channel.ticket
  rw [← hticket, h.state.active] at hactive
  have hknown : ticket ∈ new.channels.map Channel.ticket := by
    by_contra hunknown
    simp [(h.newSound.ledger.unknown ticket hunknown).1] at hactive
  obtain ⟨other, hother, rfl⟩ := List.mem_map.mp hknown
  obtain ⟨i, hi⟩ := List.getElem?_of_mem hother
  have hmoved : sys.channels[i + k]? = some (other.later k) := by
    rw [h.channels.getElem?, hi]
    rfl
  have heq := h.sound.ledger.ticket_inj hmoved hchannel hticket
  omega

/-- A dropped permit is released. -/
private theorem Twins.release (h : Twins ctl k base sys new) {id : ℕ}
    (hstep : step ctl sys (.release id) = some sys') :
    Follows ctl k base new (.release id) sys' := by
  simp only [step] at hstep
  obtain ⟨channel, hchannel, hstep⟩ := Option.bind_eq_some_iff.mp hstep
  split_ifs at hstep with hguard
  have hactive := congrArg Facts.active (h.sound.ledger.active_of_dropping hchannel hguard.2)
  have hid := h.le_of_active hchannel hactive
  obtain ⟨i, rfl⟩ : ∃ i, id = i + k := ⟨id - k, by omega⟩
  rw [h.channels.getElem?] at hchannel
  obtain ⟨channel', hnewChannel, rfl⟩ := Option.map_eq_some_iff.mp hchannel
  have hlabel : (Label.release (i + k)).after k = some (.release i) := by simp [Label.after]
  have hphase := h.channels.setPhase i .closed
  rw [h.lock] at hguard
  simp only [Channel.later] at hguard hstep
  obtain ⟨hs, hg⟩ | ⟨a, s', g', hs, hg, hlike⟩ := h.state.release channel'.ticket
  · rw [hs] at hstep
    obtain rfl := Option.some.inj hstep
    refine .of_step hlabel (by simp [step, hnewChannel, hguard, hg]; rfl) ?_
    exact ⟨h.state, h.lock.trans hguard.1, hphase, h.log⟩
  · rw [hs] at hstep
    obtain rfl := Option.some.inj hstep
    refine .of_step hlabel (by simp [step, hnewChannel, hguard, hg]; rfl) ?_
    exact ⟨hlike, rfl, hphase, h.log.append [.released channel'.ticket]⟩

end Callers

section Draining

/-- What `begin_drain` leaves of a waiter's channel. -/
private def answered (channel : Channel) : Channel :=
  { channel with phase := if channel.phase = .waiting then .sentError else .closed }

private theorem setPhase_answered (channels : List Channel) (id : ℕ) :
    setPhase channels id (if phaseOf channels id = .waiting then .sentError else .closed) =
      channels.modify id answered := by
  induction channels generalizing id with
  | nil => simp [setPhase]
  | cons channel channels ih =>
    cases id with
    | zero => simp [setPhase, phaseOf, answered]
    | succ id => exact congrArg (channel :: ·) (ih id)

/-- `begin_drain` answers each waiter on its own channel and grants nothing. -/
private theorem foldl_sendDraining_spec (l : List QueuedRequest) (sys : System) :
    (l.foldl sendDraining sys).channels =
      (l.map QueuedRequest.sender).foldl (fun channels id => channels.modify id answered)
        sys.channels ∧
    grantedTickets (l.foldl sendDraining sys).log = grantedTickets sys.log ∧
    enqueuedTickets (l.foldl sendDraining sys).log = enqueuedTickets sys.log := by
  have hone (sys : System) (q : QueuedRequest) :
      (sendDraining sys q).channels = sys.channels.modify q.sender answered ∧
        grantedTickets (sendDraining sys q).log = grantedTickets sys.log ∧
        enqueuedTickets (sendDraining sys q).log = enqueuedTickets sys.log := by
    rw [← setPhase_answered]
    unfold sendDraining
    split_ifs <;> simp [grantedTickets, enqueuedTickets]
  refine ⟨?_, foldl_sendDraining_eq (fun sys => grantedTickets sys.log)
      (fun sys q => (hone sys q).2.1) l sys, foldl_sendDraining_eq
      (fun sys => enqueuedTickets sys.log) (fun sys q => (hone sys q).2.2) l sys⟩
  induction l generalizing sys with
  | nil => rfl
  | cons q l ih => rw [List.foldl_cons, ih, (hone sys q).1, List.map_cons, List.foldl_cons]

/-- Answering the new calls in either order. -/
private theorem Joined.foldl_answered {channels fresh : List Channel} (h : Joined k channels fresh)
    {ids newIds : List ℕ} (hids : ids.Perm (newIds.map (· + k))) :
    Joined k (ids.foldl (fun channels id => channels.modify id answered) channels)
      (newIds.foldl (fun channels id => channels.modify id answered) fresh) := by
  rw [hids.foldl_eq' fun i _ j _ channels => by
    by_cases hij : i = j
    · rw [hij]
    · exact List.modify_modify_ne _ _ _ hij]
  clear hids
  induction newIds generalizing channels fresh with
  | nil => exact h
  | cons i newIds ih => exact ih (h.modify (f := answered) (fun _ => rfl) i)

private theorem Twins.beginDrain (h : Twins ctl k base sys new)
    (hstep : step ctl sys .beginDrain = some sys') : Follows ctl k base new .beginDrain sys' := by
  simp only [step] at hstep
  split_ifs at hstep with hfree
  have hnewFree : new.lock = .free := h.lock ▸ hfree
  obtain rfl := Option.some.inj hstep
  cases hdraining : new.state.draining with
  | true =>
    have hs : beginDrain ctl sys.state = ([], sys.state) := by
      simp [beginDrain, h.state.draining, hdraining]
    have hg : beginDrain ctl new.state = ([], new.state) := by simp [beginDrain, hdraining]
    refine .of_step rfl (by simp only [step]; rw [if_pos hnewFree, hg]) ?_
    rw [hs]
    exact h.toMirrors
  | false =>
    have hdraining' := h.state.draining.trans hdraining
    obtain ⟨hs, hdrains⟩ := beginDrain_spec h.sound.state.queue.known hdraining'
    obtain ⟨hg, hnewDrains⟩ := beginDrain_spec h.newSound.state.queue.known hdraining
    refine .of_step rfl (by simp only [step]; rw [if_pos hnewFree]) ?_
    rw [hs, hg]
    obtain ⟨rej, hs'⟩ := hdrains.state_eq
    obtain ⟨newRej, hg'⟩ := hnewDrains.state_eq
    obtain ⟨hchannels, hgranted, henqueued⟩ := foldl_sendDraining_spec
      ((waitingList sys.state.waiting).map WaitingEntry.request)
      { sys with state := (beginDrain ctl sys.state).2 }
    obtain ⟨hnewChannels, hnewGranted, hnewEnqueued⟩ := foldl_sendDraining_spec
      ((waitingList new.state.waiting).map WaitingEntry.request)
      { new with state := (beginDrain ctl new.state).2 }
    have hids : (((waitingList sys.state.waiting).map WaitingEntry.request).map
        QueuedRequest.sender).Perm ((((waitingList new.state.waiting).map
          WaitingEntry.request).map QueuedRequest.sender).map (· + k)) := by
      have heq := h.waitingEntries_eq
      rw [← coe_waitingList, ← coe_waitingList, Multiset.map_coe, Multiset.coe_eq_coe] at heq
      simpa [Function.comp_def, WaitingEntry.later, QueuedRequest.later] using
        heq.map fun e => e.request.sender
    refine ⟨?_, ?_, ?_, ?_, ?_⟩
    · rw [foldl_sendDraining_state, foldl_sendDraining_state, hs', hg']
      exact ⟨rfl, by simp, h.state.active, h.state.classVruntime, h.state.tenantVruntime⟩
    · rw [foldl_sendDraining_lock, foldl_sendDraining_lock]
      exact h.lock
    · rw [hchannels, hnewChannels]
      exact h.channels.foldl_answered hids
    · rw [hgranted, hnewGranted]
      exact h.log.granted
    · rw [henqueued, hnewEnqueued]
      exact h.log.enqueued

private theorem Twins.resume (h : Twins ctl k base sys new)
    (hstep : step ctl sys .resume = some sys') : Follows ctl k base new .resume sys' := by
  simp only [step] at hstep
  split_ifs at hstep with hfree
  obtain rfl := Option.some.inj hstep
  refine .of_step rfl (by simp only [step]; rw [if_pos (h.lock ▸ hfree)]) ?_
  refine ⟨⟨rfl, h.state.queue, h.state.active, h.state.classVruntime, h.state.tenantVruntime⟩,
    h.lock, h.channels, h.log⟩

end Draining

/-- Every step of the first system is followed by the second. -/
theorem Twins.follows (h : Twins ctl k base sys new) {label : Label}
    (hstep : step ctl sys label = some sys') (hlt : sys'.enqueues < 2 ^ 64) :
    Follows ctl k base new label sys' := by
  cases label with
  | admitRequest tenant tokenCost now cancellation => exact h.admitRequest hstep hlt
  | schedule now => exact h.schedule hstep
  | unlock => exact h.unlock hstep
  | cancel id reason => exact h.cancel hstep
  | receive id =>
    exact h.toMirrors.phaseStep (fun _ => rfl) step_receive (fun _ => rfl) hstep
  | dropReceiver id =>
    exact h.toMirrors.phaseStep (fun _ => rfl) step_dropReceiver (fun _ => rfl) hstep
  | dropPermit id =>
    exact h.toMirrors.phaseStep (fun _ => rfl) step_dropPermit (fun _ => rfl) hstep
  | release id => exact h.release hstep
  | beginDrain => exact h.beginDrain hstep
  | resume => exact h.resume hstep

private theorem filterMap_concat (labels : List Label) (label : Label) :
    (labels ++ [label]).filterMap (Label.after k) =
      labels.filterMap (Label.after k) ++ (label.after k).toList := by
  rw [List.filterMap_append]
  cases hlabel : label.after k <;> simp [hlabel]

/-- Two systems in step stay in step along every run. -/
theorem Twins.run (h : Twins ctl k base sys new) {labels : List Label}
    (hrun : Run (stepRel (step ctl)) sys labels sys') (hlt : sys'.enqueues < 2 ^ 64) :
    ∃ new', Run (stepRel (step ctl)) new (labels.filterMap (Label.after k)) new' ∧
      Twins ctl k base sys' new' := by
  induction hrun with
  | nil => exact ⟨new, .nil new, h⟩
  | snoc _ hlast ih =>
    have hle := enqueues_le_of_log_prefix (log_prefix_of_step hlast)
    obtain ⟨mid, hmid, htwins⟩ := ih (by omega)
    obtain ⟨new', hnew, hmirrors⟩ := htwins.follows hlast hlt
    have hnewLt := hmirrors.log.enqueued
    refine ⟨new', ?_, hmirrors, htwins.sound.step hlast hlt, htwins.newSound.run hnew ?_⟩
    · rw [filterMap_concat]
      exact hmid.append hnew
    · simp only [System.enqueues] at hlt ⊢
      omega

end Locus.Traffic
