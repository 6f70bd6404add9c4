import Mathlib

/-!
# Which handlers a subscription status queues

A handler for the status of subscriptions is registered for a service, an instance, an eventgroup and
an event, each of which may be a wildcard. A status is looked up under each of its four ids and under
the wildcard in its place, which makes sixteen look-ups; a handler that is not selective is passed
over if the status is an error.

`status_delivered_iff`: the handlers that are for a status are queued once each and no other one, iff,
where there is such a handler, no id of the status is itself the wildcard, which would be looked up
twice, and the status is no error or all these handlers are selective.

Source: vsomeip/implementation/runtime/src/application_impl.cpp
-/

namespace SomeipTunnel.Application

open List

/-- Source: `ANY_SERVICE`, `ANY_INSTANCE`, `ANY_EVENTGROUP`, `ANY_EVENT` -/
def anyId : UInt16 := 0xFFFF

/-- A service, an instance, an eventgroup and an event. -/
abbrev StatusIds := UInt16 × UInt16 × UInt16 × UInt16

/-- Source: `subscription_status_handlers_`, the handlers with `_is_selective` -/
abbrev StatusHandlers (H : Type*) := AList fun _ : StatusIds => H × Bool

/-- An id is looked up under its own value and under the wildcard. -/
def idKeys (id : UInt16) : List UInt16 := [id, anyId]

/-- The nested look-ups, in their order. -/
def statusKeys (status : StatusIds) : List StatusIds :=
  idKeys status.1 ×ˢ idKeys status.2.1 ×ˢ idKeys status.2.2.1 ×ˢ idKeys status.2.2.2

/-- Whether a handler that was found is queued. -/
def takes (error : UInt16) (isSelective : Bool) : Bool :=
  error = 0 || (error ≠ 0 && isSelective)

variable {H : Type*}

/-- Source: `application_impl::deliver_subscription_state`: the handlers that are queued, each with
the ids that it is registered for -/
def deliverSubscriptionState (handlers : StatusHandlers H) (status : StatusIds) (error : UInt16) :
    List (StatusIds × H) :=
  (statusKeys status).filterMap fun ids =>
    match handlers.lookup ids with
    | some (handler, isSelective) => if takes error isSelective then some (ids, handler) else none
    | none => none

/-- An id that a handler is registered for admits an id of a status. -/
def Admits (registered id : UInt16) : Prop := registered = id ∨ registered = anyId

/-- A handler that is registered for the ids is for the status. -/
def IsFor (ids status : StatusIds) : Prop :=
  Admits ids.1 status.1 ∧ Admits ids.2.1 status.2.1 ∧ Admits ids.2.2.1 status.2.2.1 ∧
    Admits ids.2.2.2 status.2.2.2

instance (ids status : StatusIds) : Decidable (IsFor ids status) :=
  inferInstanceAs (Decidable ((_ ∨ _) ∧ (_ ∨ _) ∧ (_ ∨ _) ∧ (_ ∨ _)))

/-- **The status is delivered**: what is queued are registered handlers, those that are for the status
once and the others not. -/
structure Delivered (handlers : StatusHandlers H) (status : StatusIds)
    (queued : List (StatusIds × H)) : Prop where
  registered : ∀ q ∈ queued, ∃ isSelective, handlers.lookup q.1 = some (q.2, isSelective)
  once : ∀ ids, (queued.map Prod.fst).count ids =
    if ids ∈ handlers ∧ IsFor ids status then 1 else 0

/-- No id of the status is the wildcard. -/
def NoWildcard (status : StatusIds) : Prop :=
  status.1 ≠ anyId ∧ status.2.1 ≠ anyId ∧ status.2.2.1 ≠ anyId ∧ status.2.2.2 ≠ anyId

/-! ### How often a key is looked up -/

theorem count_product {α β : Type*} [BEq α] [LawfulBEq α] [BEq β] [LawfulBEq β] (as : List α)
    (bs : List β) (a : α) (b : β) : (as ×ˢ bs).count (a, b) = as.count a * bs.count b := by
  induction as with
  | nil => simp
  | cons x as ih =>
      have hhead : (bs.map fun b => (x, b)).count (a, b) = if x == a then bs.count b else 0 := by
        split_ifs with hx
        · rw [eq_of_beq hx, count_map_of_injective bs (a, ·) (Prod.mk_right_injective a)]
        · rw [count_eq_zero]
          intro hin
          obtain ⟨b', -, heq⟩ := mem_map.mp hin
          exact hx (beq_iff_eq.mpr (Prod.mk.inj heq).1)
      rw [product_cons, count_append, ih, hhead, count_cons, Nat.add_mul]
      cases x == a
      · simp
      · simp [Nat.add_comm]

theorem count_idKeys_eq_zero {registered id : UInt16} :
    (idKeys id).count registered = 0 ↔ ¬ Admits registered id := by
  simp [count_eq_zero, idKeys, Admits]

/-- The wildcard itself is looked up twice. -/
theorem count_idKeys_eq_one {registered id : UInt16} :
    (idKeys id).count registered = 1 ↔ Admits registered id ∧ id ≠ anyId := by
  unfold idKeys Admits
  by_cases hid : id = registered
  · by_cases hany : anyId = registered
    · simp [← hany, hid]
    · simp [hid, Ne.symm hany]
  · by_cases hany : anyId = registered
    · simp [hid, hany]
    · simp [hid, hany, Ne.symm hid, Ne.symm hany]

variable {ids status : StatusIds}

theorem count_statusKeys_eq_zero : (statusKeys status).count ids = 0 ↔ ¬ IsFor ids status := by
  obtain ⟨s, i, g, e⟩ := ids
  obtain ⟨s', i', g', e'⟩ := status
  simp only [statusKeys, count_product, Nat.mul_eq_zero, count_idKeys_eq_zero, IsFor]
  tauto

theorem count_statusKeys_eq_one :
    (statusKeys status).count ids = 1 ↔ IsFor ids status ∧ NoWildcard status := by
  obtain ⟨s, i, g, e⟩ := ids
  obtain ⟨s', i', g', e'⟩ := status
  simp only [statusKeys, count_product, mul_eq_one, count_idKeys_eq_one, IsFor, NoWildcard]
  tauto

/-! ### What is queued -/

variable {handlers : StatusHandlers H} {error : UInt16}

/-- A handler is registered for the ids and is not passed over. -/
def queues (handlers : StatusHandlers H) (error : UInt16) (ids : StatusIds) : Bool :=
  (handlers.lookup ids).any fun entry => takes error entry.2

theorem map_fst_deliverSubscriptionState :
    (deliverSubscriptionState handlers status error).map Prod.fst =
      (statusKeys status).filter (queues handlers error) := by
  rw [deliverSubscriptionState, map_filterMap, ← filterMap_eq_filter]
  congr 1
  funext ids
  rcases hentry : handlers.lookup ids with _ | ⟨handler, isSelective⟩
  · simp [queues, hentry, Option.guard]
  · cases htakes : takes error isSelective <;> simp [queues, hentry, htakes, Option.guard]

theorem registered_of_mem {q : StatusIds × H}
    (h : q ∈ deliverSubscriptionState handlers status error) :
    ∃ isSelective, handlers.lookup q.1 = some (q.2, isSelective) := by
  obtain ⟨ids, -, hq⟩ := mem_filterMap.mp h
  rcases hentry : handlers.lookup ids with _ | ⟨handler, isSelective⟩
  · simp [hentry] at hq
  · simp only [hentry] at hq
    split_ifs at hq
    obtain rfl := Option.some.inj hq
    exact ⟨isSelective, hentry⟩

theorem takes_iff {isSelective : Bool} :
    takes error isSelective = true ↔ error = 0 ∨ isSelective = true := by
  unfold takes
  by_cases h : error = 0
  · simp [h]
  · simp [h]

/-- A status is delivered iff, for every registered handler that is for it, no id of the status is the
wildcard and the status is no error or the handler is selective. -/
theorem status_delivered_iff (handlers : StatusHandlers H) (status : StatusIds) (error : UInt16) :
    Delivered handlers status (deliverSubscriptionState handlers status error) ↔
      ∀ ids handler isSelective, handlers.lookup ids = some (handler, isSelective) →
        IsFor ids status → NoWildcard status ∧ (error = 0 ∨ isSelective = true) := by
  constructor
  · rintro ⟨-, honce⟩ ids handler isSelective hentry hfor
    have hcount := honce ids
    have hin : ids ∈ handlers := AList.lookup_isSome.mp (by rw [hentry]; rfl)
    rw [map_fst_deliverSubscriptionState, if_pos ⟨hin, hfor⟩] at hcount
    have hqueues : queues handlers error ids = true := by
      have hpos : 0 < ((statusKeys status).filter (queues handlers error)).count ids := by omega
      exact (mem_filter.mp (count_pos_iff.mp hpos)).2
    rw [count_filter hqueues] at hcount
    refine ⟨(count_statusKeys_eq_one.mp hcount).2, takes_iff.mp ?_⟩
    simpa [queues, hentry] using hqueues
  · intro h
    refine ⟨fun q => registered_of_mem, fun ids => ?_⟩
    rw [map_fst_deliverSubscriptionState]
    split_ifs with hids
    · obtain ⟨⟨handler, isSelective⟩, hentry⟩ :=
        Option.isSome_iff_exists.mp (AList.lookup_isSome.mpr hids.1)
      obtain ⟨hwild, htakes⟩ := h ids handler isSelective hentry hids.2
      have hqueues : queues handlers error ids = true := by
        simpa [queues, hentry] using takes_iff.mpr htakes
      rw [count_filter hqueues]
      exact count_statusKeys_eq_one.mpr ⟨hids.2, hwild⟩
    · rw [count_eq_zero, mem_filter]
      rintro ⟨hkey, hqueues⟩
      refine hids ⟨?_, ?_⟩
      · rw [← AList.lookup_isSome]
        rcases hentry : handlers.lookup ids with _ | entry
        · simp [queues, hentry] at hqueues
        · rfl
      · by_contra hnot
        exact count_eq_zero.mp (count_statusKeys_eq_zero.mpr hnot) hkey

/-- A handler for all events of an eventgroup, and a status with `ANY_EVENT`: the handler is queued
twice. -/
theorem any_event_delivered_twice :
    let handlers : StatusHandlers ℕ := AList.insert (0x1234, 1, 0x10, anyId) (7, false) ∅
    ¬ Delivered handlers (0x1234, 1, 0x10, anyId)
      (deliverSubscriptionState handlers (0x1234, 1, 0x10, anyId) 0) := by
  intro handlers h
  have hcount := h.once (0x1234, 1, 0x10, anyId)
  revert hcount
  decide

end SomeipTunnel.Application
