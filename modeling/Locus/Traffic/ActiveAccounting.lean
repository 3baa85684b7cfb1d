import Locus.Traffic.Moves

/-!
# Accounting of the active requests

The four tables beside the active map are the tallies of what it holds, and the
request limits are kept: `ActiveSound`. A request that becomes active needs a ticket
that is not active already. `TokenSound` adds that the token sums are exact and stay
inside their limits, which holds as long as no sum reaches a full word.
-/

namespace Locus.Traffic

open Std (TreeMap)
open Locus.Lib

variable {ctl : TrafficController}

/-- The active requests and the two request tables and two token tables kept beside them. -/
structure ActiveSound (ctl : TrafficController) (active : TreeMap UInt64 ActiveRequest)
    (classRequests classTokens tenantRequests tenantTokens : Counters String) : Prop where
  classRequests_tracks : Tracks classRequests (fun e : UInt64 × ActiveRequest => e.2.serviceClass)
    (fun _ => 1) (entries active)
  classTokens_tracks : Tracks classTokens (fun e : UInt64 × ActiveRequest => e.2.serviceClass)
    (fun e => e.2.tokenCost) (entries active)
  tenantRequests_tracks : Tracks tenantRequests (fun e : UInt64 × ActiveRequest => e.2.tenant)
    (fun _ => 1) (entries active)
  tenantTokens_tracks : Tracks tenantTokens (fun e : UInt64 × ActiveRequest => e.2.tenant)
    (fun e => e.2.tokenCost) (entries active)
  classRequests_exact : classRequests.overflowed = false
  tenantRequests_exact : tenantRequests.overflowed = false
  total_le : (entries active).card ≤ ctl.policy.maxActiveRequests.toNat
  class_le : ∀ (c : String) serviceClass, ctl.classes[c]? = some serviceClass →
    natTally (fun e : UInt64 × ActiveRequest => e.2.serviceClass) (fun _ => 1) (entries active) c ≤
      serviceClass.maxActiveRequests.toNat
  tenant_le : ∀ (t : String) tenant, ctl.tenants[t]? = some tenant →
    natTally (fun e : UInt64 × ActiveRequest => e.2.tenant) (fun _ => 1) (entries active) t ≤
      tenant.maxActiveRequests.toNat

/-- The exact token sums and their limits. -/
structure TokenSound (ctl : TrafficController) (active : TreeMap UInt64 ActiveRequest)
    (classTokens tenantTokens : Counters String) : Prop where
  classTokens_exact : classTokens.overflowed = false
  tenantTokens_exact : tenantTokens.overflowed = false
  total_le : ((entries active).map fun e => e.2.tokenCost.toNat).sum ≤
    ctl.policy.maxActiveTokens.toNat
  class_le : ∀ (c : String) serviceClass, ctl.classes[c]? = some serviceClass →
    natTally (fun e : UInt64 × ActiveRequest => e.2.serviceClass) (fun e => e.2.tokenCost)
      (entries active) c ≤ serviceClass.maxActiveTokens.toNat
  tenant_le : ∀ (t : String) tenant, ctl.tenants[t]? = some tenant →
    natTally (fun e : UInt64 × ActiveRequest => e.2.tenant) (fun e => e.2.tokenCost)
      (entries active) t ≤ tenant.maxActiveTokens.toNat

/-- A saturating sum that fits a word is exact. -/
theorem toNat_saturatingAdd {a b : UInt64} (h : a.toNat + b.toNat < 2 ^ 64) :
    (saturatingAdd a b).toNat = a.toNat + b.toNat := by
  rw [saturatingAdd, if_pos h, UInt64.toNat_add, Nat.mod_eq_of_lt h]

section Active

variable {active : TreeMap UInt64 ActiveRequest}
  {classRequests classTokens tenantRequests tenantTokens : Counters String}

theorem ActiveSound.empty : ActiveSound ctl ∅ {} {} {} {} where
  classRequests_tracks := .empty
  classTokens_tracks := .empty
  tenantRequests_tracks := .empty
  tenantTokens_tracks := .empty
  classRequests_exact := rfl
  tenantRequests_exact := rfl
  total_le := by simp
  class_le := by simp
  tenant_le := by simp

theorem TokenSound.empty : TokenSound ctl ∅ {} {} where
  classTokens_exact := rfl
  tenantTokens_exact := rfl
  total_le := by simp
  class_le := by simp
  tenant_le := by simp

private theorem entries_insert_of_none {ticket : UInt64} (h : active[ticket]? = none)
    (a : ActiveRequest) : entries (active.insert ticket a) = (ticket, a) ::ₘ entries active := by
  rw [entries_insert, entries_erase_of_none h]

private theorem natTally_add_one_le {key : UInt64 × ActiveRequest → String} {c : Counters String}
    {k : String} {limit : UInt64} (h : Tracks c key (fun _ => 1) (entries active))
    (htotal : (entries active).card ≤ ctl.policy.maxActiveRequests.toNat)
    (hroom : count c.map k < limit) :
    natTally key (fun _ => 1) (entries active) k + 1 ≤ limit.toNat := by
  rw [UInt64.lt_iff_toNat_lt, h.toNat_count (natTally_one_lt _ htotal)] at hroom
  omega

/-- A request becomes active under a new ticket while its class and tenant have room. -/
theorem ActiveSound.grant
    (h : ActiveSound ctl active classRequests classTokens tenantRequests tenantTokens)
    {ticket : UInt64} {a : ActiveRequest} {serviceClass : ServiceClassPolicy}
    {tenant : TenantPolicy}
    (hfresh : active[ticket]? = none) (hroom : active.size < ctl.policy.maxActiveRequests.toNat)
    (hclass : ctl.classes[a.serviceClass]? = some serviceClass)
    (htenant : ctl.tenants[a.tenant]? = some tenant)
    (hclassRoom : count classRequests.map a.serviceClass < serviceClass.maxActiveRequests)
    (htenantRoom : count tenantRequests.map a.tenant < tenant.maxActiveRequests) :
    ActiveSound ctl (active.insert ticket a) (increment classRequests a.serviceClass 1)
      (increment classTokens a.serviceClass a.tokenCost) (increment tenantRequests a.tenant 1)
      (increment tenantTokens a.tenant a.tokenCost) := by
  have hcons := entries_insert_of_none hfresh a
  have htotal : ((ticket, a) ::ₘ entries active).card ≤ ctl.policy.maxActiveRequests.toNat := by
    rw [Multiset.card_cons, card_entries]
    omega
  have hclassLe := natTally_add_one_le h.classRequests_tracks h.total_le hclassRoom
  have htenantLe := natTally_add_one_le h.tenantRequests_tracks h.total_le htenantRoom
  refine ⟨?_, ?_, ?_, ?_, ?_, ?_, ?_, fun c p hp => ?_, fun t p hp => ?_⟩
  · rw [hcons]
    exact h.classRequests_tracks.increment (ticket, a)
  · rw [hcons]
    exact h.classTokens_tracks.increment (ticket, a)
  · rw [hcons]
    exact h.tenantRequests_tracks.increment (ticket, a)
  · rw [hcons]
    exact h.tenantTokens_tracks.increment (ticket, a)
  · exact h.classRequests_tracks.increment_overflowed (ticket, a) h.classRequests_exact
      (natTally_one_lt _ htotal)
  · exact h.tenantRequests_tracks.increment_overflowed (ticket, a) h.tenantRequests_exact
      (natTally_one_lt _ htotal)
  · rwa [hcons]
  · rw [hcons, natTally_cons]
    have hle := h.class_le c p hp
    split_ifs with hc
    · obtain rfl : a.serviceClass = c := hc
      obtain rfl : serviceClass = p := by simpa [hclass] using hp
      simp only [UInt64.toNat_one]
      omega
    · omega
  · rw [hcons, natTally_cons]
    have hle := h.tenant_le t p hp
    split_ifs with ht
    · obtain rfl : a.tenant = t := ht
      obtain rfl : tenant = p := by simpa [htenant] using hp
      simp only [UInt64.toNat_one]
      omega
    · omega

/-- An active request gives its capacity back. -/
theorem ActiveSound.release
    (h : ActiveSound ctl active classRequests classTokens tenantRequests tenantTokens)
    {ticket : UInt64} {a : ActiveRequest} (ha : active[ticket]? = some a) :
    ActiveSound ctl (active.erase ticket) (decrement classRequests a.serviceClass 1)
      (decrement classTokens a.serviceClass a.tokenCost) (decrement tenantRequests a.tenant 1)
      (decrement tenantTokens a.tenant a.tokenCost) := by
  obtain ⟨hcr, hct, htr, htt, hcx, htx, htotal, hclass, htenant⟩ := h
  rw [entries_of_getElem? ha] at hcr hct htr htt htotal
  refine ⟨hcr.decrement, hct.decrement, htr.decrement, htt.decrement,
    hcr.decrement_overflowed hcx (natTally_one_lt _ htotal),
    htr.decrement_overflowed htx (natTally_one_lt _ htotal), ?_, fun c p hp => ?_,
    fun t p hp => ?_⟩
  · rw [Multiset.card_cons] at htotal
    omega
  · have hle := hclass c p hp
    rw [entries_of_getElem? ha, natTally_cons] at hle
    omega
  · have hle := htenant t p hp
    rw [entries_of_getElem? ha, natTally_cons] at hle
    omega

/-- The sum that `choose_candidate` computes is the exact one modulo a word. -/
theorem toNat_activeTokens (s : TrafficState) : s.activeTokens.toNat =
    ((entries s.active).map fun e => e.2.tokenCost.toNat).sum % 2 ^ 64 := by
  rw [← toNat_sum]
  rfl

private theorem toNat_tally_add_le {key : UInt64 × ActiveRequest → String} {c : Counters String}
    {k : String} {cost limit : UInt64}
    (h : Tracks c key (fun e => e.2.tokenCost) (entries active))
    (hsum : ((entries active).map fun e => e.2.tokenCost.toNat).sum + cost.toNat < 2 ^ 64)
    (hfits : saturatingAdd (count c.map k) cost ≤ limit) :
    natTally key (fun e => e.2.tokenCost) (entries active) k + cost.toNat ≤ limit.toNat := by
  have hle := natTally_le_sum key (fun e => e.2.tokenCost) (entries active) k
  have hcount := h.toNat_count (k := k) (by omega)
  rw [UInt64.le_iff_toNat_le, toNat_saturatingAdd (by omega), hcount] at hfits
  exact hfits

/-- A head that fits keeps the token limits, as long as the exact sum fits a word. -/
theorem TokenSound.grant (h : TokenSound ctl active classTokens tenantTokens)
    (hsound : ActiveSound ctl active classRequests classTokens tenantRequests tenantTokens)
    {ticket : UInt64} {a : ActiveRequest} {serviceClass : ServiceClassPolicy}
    {tenant : TenantPolicy}
    (hfresh : active[ticket]? = none)
    (hclass : ctl.classes[a.serviceClass]? = some serviceClass)
    (htenant : ctl.tenants[a.tenant]? = some tenant)
    (hsum : ((entries active).map fun e => e.2.tokenCost.toNat).sum + a.tokenCost.toNat < 2 ^ 64)
    (hglobal : ((entries active).map fun e => e.2.tokenCost.toNat).sum + a.tokenCost.toNat ≤
      ctl.policy.maxActiveTokens.toNat)
    (hclassFits : saturatingAdd (count classTokens.map a.serviceClass) a.tokenCost ≤
      serviceClass.maxActiveTokens)
    (htenantFits : saturatingAdd (count tenantTokens.map a.tenant) a.tokenCost ≤
      tenant.maxActiveTokens) :
    TokenSound ctl (active.insert ticket a) (increment classTokens a.serviceClass a.tokenCost)
      (increment tenantTokens a.tenant a.tokenCost) := by
  have hcons := entries_insert_of_none hfresh a
  have hclassLe := toNat_tally_add_le hsound.classTokens_tracks hsum hclassFits
  have htenantLe := toNat_tally_add_le hsound.tenantTokens_tracks hsum htenantFits
  refine ⟨?_, ?_, ?_, fun c p hp => ?_, fun t p hp => ?_⟩
  · refine hsound.classTokens_tracks.increment_overflowed (ticket, a) h.classTokens_exact ?_
    rw [natTally_cons, if_pos rfl]
    have hlimit := serviceClass.maxActiveTokens.toNat_lt
    simp only
    omega
  · refine hsound.tenantTokens_tracks.increment_overflowed (ticket, a) h.tenantTokens_exact ?_
    rw [natTally_cons, if_pos rfl]
    have hlimit := tenant.maxActiveTokens.toNat_lt
    simp only
    omega
  · rw [hcons, Multiset.map_cons, Multiset.sum_cons]
    simp only
    omega
  · rw [hcons, natTally_cons]
    have hle := h.class_le c p hp
    split_ifs with hc
    · obtain rfl : a.serviceClass = c := hc
      obtain rfl : serviceClass = p := by simpa [hclass] using hp
      simp only
      omega
    · omega
  · rw [hcons, natTally_cons]
    have hle := h.tenant_le t p hp
    split_ifs with ht
    · obtain rfl : a.tenant = t := ht
      obtain rfl : tenant = p := by simpa [htenant] using hp
      simp only
      omega
    · omega

/-- Released tokens stay inside the limits. -/
theorem TokenSound.release (h : TokenSound ctl active classTokens tenantTokens)
    (hsound : ActiveSound ctl active classRequests classTokens tenantRequests tenantTokens)
    {ticket : UInt64} {a : ActiveRequest} (ha : active[ticket]? = some a) :
    TokenSound ctl (active.erase ticket) (decrement classTokens a.serviceClass a.tokenCost)
      (decrement tenantTokens a.tenant a.tokenCost) := by
  obtain ⟨hcx, htx, htotal, hclass, htenant⟩ := h
  have hct := hsound.classTokens_tracks
  have htt := hsound.tenantTokens_tracks
  have hfits : ∀ (key : UInt64 × ActiveRequest → String) k,
      natTally key (fun e => e.2.tokenCost) (entries active) k < 2 ^ 64 := by
    intro key k
    have hle := natTally_le_sum key (fun e => e.2.tokenCost) (entries active) k
    have hlimit := ctl.policy.maxActiveTokens.toNat_lt
    omega
  rw [entries_of_getElem? ha] at hct htt htotal hfits
  refine ⟨hct.decrement_overflowed hcx (hfits _ _), htt.decrement_overflowed htx (hfits _ _), ?_,
    fun c p hp => ?_, fun t p hp => ?_⟩
  · rw [Multiset.map_cons, Multiset.sum_cons] at htotal
    omega
  · have hle := hclass c p hp
    rw [entries_of_getElem? ha, natTally_cons] at hle
    omega
  · have hle := htenant t p hp
    rw [entries_of_getElem? ha, natTally_cons] at hle
    omega

end Active

end Locus.Traffic
