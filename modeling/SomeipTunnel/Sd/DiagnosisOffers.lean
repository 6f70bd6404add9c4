import Mathlib.Data.List.Nodup

/-!
# Collected offers in diagnosis mode

When the offer debounce timer expires in diagnosis mode, the services with instances that are not
SOME/IP go to the repetition phase: an iterator to the service is remembered for each such instance,
and then each iterator is read and its element erased. `moved_exactly_iff`: exactly the instances
that are not SOME/IP are moved, and no iterator is read behind its erasure, iff every service has
SOME/IP instances only, or a single instance.
-/

namespace SomeipTunnel.Sd

open List

/-- The collected instances of a service, by their ids. -/
structure Offered (α : Type*) where
  service : UInt16
  instances : List (UInt16 × α)
  nodup : (instances.map Prod.fst).Nodup

/-- Offers by their services.
Source: `routing_types.hpp`, `services_t` -/
structure Offers (α : Type*) where
  services : List (Offered α)
  nodup : (services.map Offered.service).Nodup

/-- An iterator is read whose element was erased. -/
inductive IteratorError
  | erased
deriving DecidableEq, Repr

namespace DiagnosisOffers

variable {α : Type*}

/-- The element that an iterator is for; the others stay valid when one is erased. -/
def find (services : List (Offered α)) (service : UInt16) : Option (Offered α) :=
  services.find? (·.service = service)

/-- The info of an instance. -/
def get (services : List (Offered α)) (service inst : UInt16) : Option α :=
  (find services service).bind fun o => (o.instances.find? (·.1 = inst)).map Prod.snd

/-- `std::map::insert`: what is there stays. -/
def insert (services : List (Offered α)) (o : Offered α) : List (Offered α) :=
  match find services o.service with
  | some _ => services
  | none => services ++ [o]

/-- Source: `service_discovery_impl::on_offer_debounce_timer_expired`, `non_someip_services` -/
def nonSomeipServices (isSomeip : UInt16 → UInt16 → Bool) (services : List (Offered α)) :
    List UInt16 :=
  services.flatMap fun o =>
    (o.instances.filter fun i => !isSomeip o.service i.1).map fun _ => o.service

/-- The loop over the iterators: what is moved and what stays.
Source: `service_discovery_impl::on_offer_debounce_timer_expired`, the second loop -/
def move : List UInt16 → List (Offered α) × List (Offered α) →
    Except IteratorError (List (Offered α) × List (Offered α))
  | [], s => .ok s
  | itsService :: rest, (repetitionPhaseOffers, collectedOffers) =>
      match find collectedOffers itsService with
      | some o => move rest
          (insert repetitionPhaseOffers o, collectedOffers.filter (·.service ≠ itsService))
      | none => .error .erased

/-- The offers for the repetition phase and those that stay collected.
Source: `service_discovery_impl::on_offer_debounce_timer_expired`, up to `new_offers` -/
def onOfferDebounceTimerExpired (isDiagnosis : Bool) (isSomeip : UInt16 → UInt16 → Bool)
    (collectedOffers : List (Offered α)) :
    Except IteratorError (List (Offered α) × List (Offered α)) :=
  if isDiagnosis then move (nonSomeipServices isSomeip collectedOffers) ([], collectedOffers)
  else .ok (collectedOffers, [])

/-- Exactly the instances that are not SOME/IP are moved, and the others stay as they are. -/
def MovedExactly (isSomeip : UInt16 → UInt16 → Bool) (collected : List (Offered α)) : Prop :=
  ∃ moved stayed, onOfferDebounceTimerExpired true isSomeip collected = .ok (moved, stayed) ∧
    ∀ service inst,
      (get moved service inst =
        if isSomeip service inst then none else get collected service inst) ∧
      get stayed service inst =
        if isSomeip service inst then get collected service inst else none

/-! ### The loop -/

variable {services moved stayed : List (Offered α)} {o : Offered α} {service : UInt16}

theorem find_filter (services : List (Offered α)) (k service : UInt16) :
    find (services.filter (·.service ≠ k)) service =
      if service = k then none else find services service := by
  rw [find, List.find?_filter]
  split_ifs with hk
  · rw [List.find?_eq_none]
    intro o _
    simp [hk]
  · refine congrArg (List.find? · services) (funext fun o => ?_)
    by_cases ho : o.service = service
    · simp [ho, hk]
    · simp [ho]

theorem find_insert (h : find services o.service = none) (service : UInt16) :
    find (insert services o) service =
      if service = o.service then some o else find services service := by
  have hinsert : insert services o = services ++ [o] := by rw [insert, h]
  rw [hinsert, find, List.find?_append]
  split_ifs with hk
  · subst hk
    rw [find] at h
    simp [h]
  · have hne : o.service ≠ service := fun heq => hk heq.symm
    simp [find, hne]

theorem service_of_find (h : find services service = some o) : o.service = service := by
  simpa using List.find?_some h

/-- A loop that goes through has read each iterator once. -/
theorem nodup_of_move {ks : List UInt16} {r : List (Offered α) × List (Offered α)}
    (h : move ks (moved, services) = .ok r) : ks.Nodup ∧ ∀ k ∈ ks, (find services k).isSome := by
  induction ks generalizing moved services with
  | nil => exact ⟨nodup_nil, fun _ hk => nomatch hk⟩
  | cons k ks ih =>
      rw [move] at h
      cases hfind : find services k with
      | none =>
          rw [hfind] at h
          cases h
      | some o =>
          rw [hfind] at h
          obtain ⟨hnodup, hsome⟩ := ih h
          simp only [find_filter] at hsome
          refine ⟨nodup_cons.mpr ⟨fun hk => ?_, hnodup⟩, ?_⟩
          · have := hsome k hk
            rw [if_pos rfl] at this
            cases this
          · simp only [forall_mem_cons]
            refine ⟨by rw [hfind]; rfl, fun k' hk' => ?_⟩
            have := hsome k' hk'
            split_ifs at this
            · cases this
            · exact this

/-- What the loop does with iterators to different elements: these are moved. -/
theorem move_of_nodup {ks : List UInt16} (hnodup : ks.Nodup)
    (hsome : ∀ k ∈ ks, (find services k).isSome) (hmoved : ∀ k ∈ ks, find moved k = none) :
    ∃ moved' stayed', move ks (moved, services) = .ok (moved', stayed') ∧ ∀ service,
      (find moved' service = if service ∈ ks then find services service else find moved service) ∧
      find stayed' service = if service ∈ ks then none else find services service := by
  induction ks generalizing moved services with
  | nil => exact ⟨moved, services, rfl, fun service => ⟨rfl, rfl⟩⟩
  | cons k ks ih =>
      obtain ⟨hk, hrest⟩ := nodup_cons.mp hnodup
      simp only [forall_mem_cons] at hsome hmoved
      obtain ⟨o, hfind⟩ := Option.isSome_iff_exists.mp hsome.1
      obtain rfl := service_of_find hfind
      have hne : ∀ k' ∈ ks, k' ≠ o.service := fun k' hk' heq => hk (heq ▸ hk')
      obtain ⟨moved', stayed', hmove, hfinds⟩ := @ih (services.filter (·.service ≠ o.service))
        (insert moved o) hrest
        (fun k' hk' => by
          rw [find_filter, if_neg (hne k' hk')]
          exact hsome.2 k' hk')
        (fun k' hk' => by
          rw [find_insert hmoved.1, if_neg (hne k' hk')]
          exact hmoved.2 k' hk')
      refine ⟨moved', stayed', by rw [move, hfind]; exact hmove, fun service => ?_⟩
      obtain ⟨hfindm, hfinds⟩ := hfinds service
      rw [find_insert hmoved.1, find_filter] at hfindm
      rw [find_filter] at hfinds
      rw [hfindm, hfinds]
      by_cases hservice : service = o.service
      · subst hservice
        simp [hk, hfind]
      · simp [hservice]

/-! ### The iterators -/

section iterators

variable {isSomeip : UInt16 → UInt16 → Bool}

theorem mem_nonSomeipServices : service ∈ nonSomeipServices isSomeip services ↔
    ∃ o ∈ services, o.service = service ∧ ∃ i ∈ o.instances, isSomeip o.service i.1 = false := by
  simp only [nonSomeipServices, mem_flatMap, mem_map, mem_filter,
    Bool.not_eq_true']
  constructor
  · rintro ⟨o, ho, i, hi, rfl⟩
    exact ⟨o, ho, rfl, i, hi⟩
  · rintro ⟨o, ho, rfl, i, hi⟩
    exact ⟨o, ho, i, hi, rfl⟩

/-- No iterator comes twice iff no service has two instances that are not SOME/IP. -/
theorem nodup_nonSomeipServices (h : (services.map Offered.service).Nodup) :
    (nonSomeipServices isSomeip services).Nodup ↔
      ∀ o ∈ services, (o.instances.filter fun i => !isSomeip o.service i.1).length ≤ 1 := by
  have hpart : ∀ o : Offered α,
      ((o.instances.filter fun i => !isSomeip o.service i.1).map fun _ => o.service).Nodup ↔
        (o.instances.filter fun i => !isSomeip o.service i.1).length ≤ 1 := fun o => by
    rw [map_const', nodup_replicate]
  rw [nonSomeipServices, nodup_flatMap]
  simp only [hpart]
  refine and_iff_left (List.Pairwise.imp ?_ (pairwise_map.mp h))
  intro o o' hne
  simp only [Function.onFun, disjoint_left, mem_map]
  rintro _ ⟨_, _, rfl⟩ ⟨_, _, heq⟩
  exact hne heq.symm

theorem find_eq_some_of_mem (h : (services.map Offered.service).Nodup) (ho : o ∈ services) :
    find services o.service = some o := by
  cases hfind : find services o.service with
  | none =>
      have := List.find?_eq_none.mp hfind o ho
      simp at this
  | some o' =>
      have hmem := mem_of_find?_eq_some hfind
      rw [inj_on_of_nodup_map h hmem ho (service_of_find hfind)]

theorem get_of_find (h : find services service = some o) {i : UInt16 × α} (hi : i ∈ o.instances) :
    get services service i.1 = some i.2 := by
  have hfind : o.instances.find? (fun j => decide (j.1 = i.1)) = some i := by
    cases hfind : o.instances.find? (fun j => decide (j.1 = i.1)) with
    | none =>
        have := List.find?_eq_none.mp hfind i hi
        simp at this
    | some j =>
        have hj : j.1 = i.1 := by simpa using List.find?_some hfind
        rw [inj_on_of_nodup_map o.nodup (mem_of_find?_eq_some hfind) hi hj]
  rw [get, h, Option.bind_some, hfind]
  rfl

theorem get_eq_none_of_forall (h : find services service = some o) {inst : UInt16}
    (hi : ∀ i ∈ o.instances, i.1 ≠ inst) : get services service inst = none := by
  rw [get, h, Option.bind_some, List.find?_eq_none.mpr (by simpa using hi)]
  rfl

/-- The iterators are to elements. -/
theorem isSome_of_mem_nonSomeipServices (h : (services.map Offered.service).Nodup) :
    ∀ k ∈ nonSomeipServices isSomeip services, (find services k).isSome := by
  intro k hk
  obtain ⟨o, ho, rfl, -⟩ := mem_nonSomeipServices.mp hk
  rw [find_eq_some_of_mem h ho]
  rfl

/-- An instance that is not SOME/IP is of a service that is moved. -/
theorem get_eq_none_of_not_mem (h : service ∉ nonSomeipServices isSomeip services) {inst : UInt16}
    (hinst : isSomeip service inst = false) : get services service inst = none := by
  cases hfind : find services service with
  | none => rw [get, hfind, Option.bind_none]
  | some o =>
      obtain rfl := service_of_find hfind
      refine get_eq_none_of_forall hfind fun i hi heq => h ?_
      exact mem_nonSomeipServices.mpr
        ⟨o, mem_of_find?_eq_some hfind, rfl, i, hi, heq ▸ hinst⟩

end iterators

/-- **Exactly the instances that are not SOME/IP are moved** iff every service has SOME/IP instances
only, or a single instance. -/
theorem moved_exactly_iff (isSomeip : UInt16 → UInt16 → Bool) (collected : Offers α) :
    MovedExactly isSomeip collected.services ↔ ∀ o ∈ collected.services,
      (∀ i ∈ o.instances, isSomeip o.service i.1 = true) ∨ o.instances.length = 1 := by
  obtain ⟨services, hkeys⟩ := collected
  have hsome := @isSome_of_mem_nonSomeipServices α services isSomeip hkeys
  have hempty : ∀ k ∈ nonSomeipServices isSomeip services, find ([] : List (Offered α)) k = none :=
    fun _ _ => rfl
  constructor
  · rintro ⟨moved, stayed, hok, hget⟩ o ho
    have hnodup := (nodup_of_move hok).1
    obtain ⟨moved', stayed', hok', hfind⟩ := move_of_nodup hnodup hsome hempty
    obtain ⟨rfl, rfl⟩ := Prod.mk.inj (Except.ok.inj (hok.symm.trans hok'))
    by_cases hall : ∀ i ∈ o.instances, isSomeip o.service i.1 = true
    · exact .inl hall
    · -- The service is moved as a whole, so that none of its instances is SOME/IP.
      push Not at hall
      obtain ⟨i₀, hi₀, hsomeip₀⟩ := hall
      have hmem : o.service ∈ nonSomeipServices isSomeip services :=
        mem_nonSomeipServices.mpr ⟨o, ho, rfl, i₀, hi₀, Bool.eq_false_iff.mpr hsomeip₀⟩
      have hfound := (hfind o.service).1
      rw [if_pos hmem, find_eq_some_of_mem hkeys ho] at hfound
      have hnone : ∀ i ∈ o.instances, (!isSomeip o.service i.1) = true := fun i hi => by
        have hgot := (hget o.service i.1).1
        rw [get_of_find hfound hi] at hgot
        split_ifs at hgot with hsomeip
        simpa using hsomeip
      have hcount := (nodup_nonSomeipServices hkeys).mp hnodup o ho
      rw [filter_eq_self.mpr hnone] at hcount
      exact .inr (Nat.le_antisymm hcount (length_pos_of_mem hi₀))
  · intro h
    have hnodup : (nonSomeipServices isSomeip services).Nodup := by
      refine (nodup_nonSomeipServices hkeys).mpr fun o ho => ?_
      rcases h o ho with hall | hone
      · rw [filter_eq_nil_iff.mpr fun i hi => by simp [hall i hi]]
        exact Nat.zero_le 1
      · exact Nat.le_trans (length_filter_le _ _) (Nat.le_of_eq hone)
    obtain ⟨moved, stayed, hok, hfind⟩ := move_of_nodup hnodup hsome hempty
    refine ⟨moved, stayed, hok, fun service inst => ?_⟩
    obtain ⟨hmoved, hstayed⟩ := hfind service
    by_cases hmem : service ∈ nonSomeipServices isSomeip services
    · rw [if_pos hmem] at hmoved hstayed
      have hsame : get moved service inst = get services service inst := by rw [get, hmoved, get]
      have hgone : get stayed service inst = none := by rw [get, hstayed]; rfl
      rw [hsame, hgone]
      obtain ⟨o, ho, rfl, i₀, hi₀, hsomeip₀⟩ := mem_nonSomeipServices.mp hmem
      -- The single instance is not SOME/IP, so that a SOME/IP one is not there.
      have hone : o.instances.length = 1 := (h o ho).resolve_left fun hall => by
        rw [hall i₀ hi₀] at hsomeip₀
        cases hsomeip₀
      obtain ⟨i, hi⟩ := length_eq_one_iff.mp hone
      rw [hi, mem_singleton] at hi₀
      cases hsomeip : isSomeip o.service inst with
      | false => exact ⟨rfl, rfl⟩
      | true =>
          have hnone : get services o.service inst = none := by
            refine get_eq_none_of_forall (find_eq_some_of_mem hkeys ho) fun j hj heq => ?_
            rw [hi, mem_singleton, ← hi₀] at hj
            rw [← heq, hj, hsomeip₀] at hsomeip
            cases hsomeip
          rw [hnone]
          exact ⟨rfl, rfl⟩
    · rw [if_neg hmem] at hmoved hstayed
      have hsame : get stayed service inst = get services service inst := by rw [get, hstayed, get]
      have hgone : get moved service inst = none := by rw [get, hmoved]; rfl
      rw [hsame, hgone]
      cases hsomeip : isSomeip service inst with
      | true => exact ⟨rfl, rfl⟩
      | false => rw [get_eq_none_of_not_mem hmem hsomeip]; exact ⟨rfl, rfl⟩

/-- A service with a SOME/IP instance and another one. -/
def mixedService : List (Offered Unit) := [⟨0x1111, [(1, ()), (2, ())], by decide⟩]

/-- Only instance 1 is SOME/IP. -/
def firstIsSomeip (_ inst : UInt16) : Bool := inst = 1

/-- **A SOME/IP instance is moved** with the other instance of its service. -/
theorem someip_instance_moved :
    (∃ moved stayed, onOfferDebounceTimerExpired true firstIsSomeip mixedService =
      .ok (moved, stayed) ∧ get moved 0x1111 1 = some () ∧ stayed.length = 0) ∧
    ¬ MovedExactly firstIsSomeip mixedService := by
  refine ⟨⟨_, _, rfl, by decide, rfl⟩, ?_⟩
  rintro ⟨moved, stayed, hok, hget⟩
  obtain ⟨rfl, rfl⟩ := Prod.mk.inj (Except.ok.inj hok)
  exact absurd (hget 0x1111 1).1 (by decide)

/-- An iterator is read behind its erasure if two instances of a service are not SOME/IP. -/
example : (onOfferDebounceTimerExpired true (fun _ _ => false) mixedService).isOk = false := by
  decide

end DiagnosisOffers

end SomeipTunnel.Sd
