import SomeipTunnel.Lib.Table

/-!
# Which versions are available

`available_` has, for a service, an instance and a major version, the minor version with its state.
A query goes down the three levels: the entry of the key itself or, if there is none and the key is a
wildcard, the entries one after the other until one of them has a state.

`unavailability_local_iff`: an event that reports a version unavailable leaves the answers for all
other versions alone, iff a version that it takes out has no other major version of the same instance
beside it that is available. The removal is one level too high: it erases the instance.

A `std::map` is an association list; a loop that ends early meets its entries in the order of their
keys (`Table.ordered`).

Source: vsomeip/implementation/runtime/src/application_impl.cpp
-/

namespace SomeipTunnel.Application

open Table

/-- Source: `availability_state_e` -/
inductive AvailabilityState where
  | unavailable
  | offered
  | available
  | unknown
deriving DecidableEq

/-- What a query or an event is about. -/
structure Version where
  service : UInt16
  inst : UInt16
  major : UInt8
  minor : UInt32

def anyService : UInt16 := 0xFFFF
def anyInstance : UInt16 := 0xFFFF
def anyMajor : UInt8 := 0xFF
def defaultMajor : UInt8 := 0x00
def anyMinor : UInt32 := 0xFFFFFFFF
def defaultMinor : UInt32 := 0x00000000

/-- The major versions of an instance, each with a minor version and its state. -/
abbrev Majors := AList fun _ : UInt8 => UInt32 × AvailabilityState

/-- Source: `available_instance_t` -/
abbrev Instances := AList fun _ : UInt16 => Majors

/-- Source: `available_ext_t` -/
abbrev Available := AList fun _ : UInt16 => Instances

namespace Version

variable (q : Version)

/-- The minor version of an entry is sufficient. -/
def Covers (minor : UInt32) : Prop :=
  q.minor ≤ minor ∨ q.minor = anyMinor ∨ q.minor = defaultMinor

instance (minor : UInt32) : Decidable (q.Covers minor) :=
  inferInstanceAs (Decidable (_ ∨ _ ∨ _))

/-- Any major version will do. -/
def AnyMajor : Prop := q.major = defaultMajor ∨ q.major = anyMajor

instance : Decidable q.AnyMajor := inferInstanceAs (Decidable (_ ∨ _))

end Version

/-! ### The query -/

/-- Source: `application_impl::is_available_unlocked`, the lambda `check_major_minor` -/
def checkMajorMinor (q : Version) (majors : Majors) : AvailabilityState :=
  match majors.lookup q.major with
  | some entry => if q.Covers entry.1 then entry.2 else .unknown
  | none =>
      if q.AnyMajor then
        (((ordered majors).find? fun e => q.Covers e.2.1).map fun e => e.2.2).getD .unknown
      else .unknown

/-- The values that a search for a key goes through: that of the key, or for a wildcard without an
entry of its own all of them. -/
def looked {V : Type*} (key wildcard : UInt16) (table : AList fun _ : UInt16 => V) : List V :=
  match table.lookup key with
  | some v => [v]
  | none => if key = wildcard then (ordered table).map (·.2) else []

/-- A loop that ends at the first state other than `AS_UNKNOWN`. -/
def firstKnown (states : List AvailabilityState) : AvailabilityState :=
  (states.find? (· ≠ .unknown)).getD .unknown

/-- Source: `application_impl::is_available_unlocked`, the instances of a service -/
def instanceState (q : Version) (instances : Instances) : AvailabilityState :=
  firstKnown ((looked q.inst anyInstance instances).map (checkMajorMinor q))

/-- Source: `application_impl::is_available_unlocked` -/
def isAvailableUnlocked (a : Available) (q : Version) : AvailabilityState :=
  firstKnown ((looked q.service anyService a).map (instanceState q))

/-- Source: `application_impl::is_available` -/
def isAvailable (a : Available) (q : Version) : Bool := isAvailableUnlocked a q = .available

/-- Source: `application_impl::on_availability`, the part on `available_` -/
def onAvailability (a : Available) (v : Version) (state : AvailabilityState) : Available :=
  if state = isAvailableUnlocked a v then a
  else if state ≠ .unavailable then set₃ a (v.service, v.inst, v.major) (some (v.minor, state))
  else
    match a.lookup v.service with
    | none => a
    | some instances =>
        match (instances.lookup v.inst).bind fun majors => majors.lookup v.major with
        | none => a
        | some entry =>
            if v.minor = entry.1 then a.insert v.service (instances.erase v.inst) else a

/-! ### What a query looks at -/

theorem firstKnown_singleton (s : AvailabilityState) : firstKnown [s] = s := by
  cases s <;> rfl

theorem looked_of_ne {V : Type*} {key wildcard : UInt16} (h : key ≠ wildcard)
    (table : AList fun _ : UInt16 => V) : looked key wildcard table = (table.lookup key).toList := by
  unfold looked
  rcases table.lookup key with _ | v
  · exact if_neg h
  · rfl

/-- A version without wildcards. -/
structure ConcreteVersion extends Version where
  service_ne : service ≠ anyService
  inst_ne : inst ≠ anyInstance
  major_ne : ¬ toVersion.AnyMajor
  minor_ne : minor ≠ anyMinor

namespace ConcreteVersion

variable {v w : ConcreteVersion} {a : Available}

/-- The answer for a concrete version is that of its own entry. -/
theorem isAvailable_iff : isAvailable a v.toVersion = true ↔
    ∃ entry, get₃ a (v.service, v.inst, v.major) = some entry ∧ v.Covers entry.1 ∧
      entry.2 = .available := by
  have hunlocked : isAvailableUnlocked a v.toVersion = .available ↔
      ∃ instances, a.lookup v.service = some instances ∧ ∃ majors,
        instances.lookup v.inst = some majors ∧ checkMajorMinor v.toVersion majors = .available := by
    rw [isAvailableUnlocked, looked_of_ne v.service_ne]
    rcases a.lookup v.service with _ | instances
    · simp [firstKnown]
    · rw [Option.toList_some, List.map_singleton, firstKnown_singleton, instanceState,
        looked_of_ne v.inst_ne]
      rcases hmajors : instances.lookup v.inst with _ | majors
      · simp [firstKnown, hmajors]
      · simp [firstKnown_singleton, hmajors]
  have hcheck : ∀ majors : Majors, checkMajorMinor v.toVersion majors = .available ↔
      ∃ entry, majors.lookup v.major = some entry ∧ v.Covers entry.1 ∧ entry.2 = .available := by
    intro majors
    unfold checkMajorMinor
    rcases majors.lookup v.major with _ | entry
    · simp [if_neg v.major_ne]
    · by_cases hcovers : v.Covers entry.1
      · simp [hcovers]
      · simp [hcovers]
  rw [isAvailable, decide_eq_true_iff, hunlocked]
  simp only [hcheck, get₃_eq_some_iff]
  constructor
  · rintro ⟨instances, hinstances, majors, hmajors, entry, hentry, hserves⟩
    exact ⟨entry, ⟨instances, hinstances, majors, hmajors, hentry⟩, hserves⟩
  · rintro ⟨entry, ⟨instances, hinstances, majors, hmajors, hentry⟩, hserves⟩
    exact ⟨instances, hinstances, majors, hmajors, entry, hentry, hserves⟩

end ConcreteVersion

/-! ### A version becomes unavailable -/

/-- **Unavailability is local**: the version is not available if it was stored with its minor
version, and the answers for the versions that differ in the service, the instance or the major
version are the same. -/
structure UnavailabilityLocal (a a' : Available) (v : ConcreteVersion) : Prop where
  gone : ∀ state, get₃ a (v.service, v.inst, v.major) = some (v.minor, state) →
    isAvailable a' v.toVersion = false
  others : ∀ w : ConcreteVersion,
    (w.service, w.inst, w.major) ≠ (v.service, v.inst, v.major) →
      isAvailable a' w.toVersion = isAvailable a w.toVersion

/-- A version that is taken out has no other major version of its instance beside it that is
available. -/
def Alone (a : Available) (v : ConcreteVersion) : Prop :=
  ∀ state, get₃ a (v.service, v.inst, v.major) = some (v.minor, state) → state ≠ .unavailable →
    ∀ major, major ≠ v.major → major ≠ anyMajor → major ≠ defaultMajor → ∀ minor,
      get₃ a (v.service, v.inst, major) ≠ some (minor, .available)

section removal

variable {a : Available} {v : ConcreteVersion} {state : AvailabilityState}

/-- The entries behind the removal of an instance. -/
theorem get₃_eraseInstance (service inst : UInt16) (k : UInt16 × UInt16 × UInt8) :
    get₃ (a.insert service ((Table.inner a service).erase inst)) k =
      if k.1 = service ∧ k.2.1 = inst then none else get₃ a k := by
  obtain ⟨s, i, major⟩ := k
  simp only [get₃, inner_insert]
  by_cases hs : s = service
  · subst hs
    by_cases hi : i = inst
    · subst hi
      simp [Table.inner]
    · simp [Table.inner, hi]
  · simp [hs]

/-- The answer for a version that is stored with its minor version is the stored state. -/
theorem isAvailableUnlocked_of_stored
    (h : get₃ a (v.service, v.inst, v.major) = some (v.minor, state)) :
    isAvailableUnlocked a v.toVersion = state := by
  obtain ⟨instances, hs, majors, hi, hentry⟩ := get₃_eq_some_iff.mp h
  have hcovers : v.Covers v.minor := .inl (UInt32.le_refl _)
  have hcheck : checkMajorMinor v.toVersion majors = state := by
    simp [checkMajorMinor, hentry, hcovers]
  have hinstances : instanceState v.toVersion instances = state := by
    rw [instanceState, looked_of_ne v.inst_ne, hi, Option.toList_some, List.map_singleton,
      firstKnown_singleton, hcheck]
  rw [isAvailableUnlocked, looked_of_ne v.service_ne, hs, Option.toList_some, List.map_singleton,
    firstKnown_singleton, hinstances]

/-- A version that is stored with its minor version takes its instance along. -/
theorem onAvailability_of_stored
    (h : get₃ a (v.service, v.inst, v.major) = some (v.minor, state)) (hstate : state ≠ .unavailable) :
    onAvailability a v.toVersion .unavailable =
      a.insert v.service ((Table.inner a v.service).erase v.inst) := by
  obtain ⟨instances, hs, majors, hi, hentry⟩ := get₃_eq_some_iff.mp h
  rw [onAvailability, isAvailableUnlocked_of_stored h, if_neg hstate.symm, if_neg (by simp)]
  simp [Table.inner, hs, hi, hentry]

/-- A version that is not stored with its minor version, or as unavailable, is left alone. -/
theorem onAvailability_of_not_stored
    (h : ∀ state, get₃ a (v.service, v.inst, v.major) = some (v.minor, state) →
      state = .unavailable) : onAvailability a v.toVersion .unavailable = a := by
  unfold onAvailability
  split_ifs with hsame hne
  · rfl
  · simp at hne
  · rcases hs : a.lookup v.service with _ | instances
    · rfl
    · rcases hbind : (instances.lookup v.inst).bind fun majors => majors.lookup v.major with _ | entry
      · simp only [hbind]
      · obtain ⟨majors, hi, hentry⟩ := Option.bind_eq_some_iff.mp hbind
        simp only [hbind]
        refine if_neg fun hminor => hsame ?_
        have hstored : get₃ a (v.service, v.inst, v.major) = some (v.minor, entry.2) :=
          get₃_eq_some_iff.mpr ⟨instances, hs, majors, hi, by rw [hentry, hminor]⟩
        rw [isAvailableUnlocked_of_stored hstored, h _ hstored]

end removal

/-- A version with the number 0 for its minor version. -/
def ConcreteVersion.withMajor (v : ConcreteVersion) (major : UInt8) (hany : major ≠ anyMajor)
    (hdefault : major ≠ defaultMajor) : ConcreteVersion where
  toVersion := ⟨v.service, v.inst, major, 0⟩
  service_ne := v.service_ne
  inst_ne := v.inst_ne
  major_ne := not_or.mpr ⟨hdefault, hany⟩
  minor_ne := by decide

/-- An event that reports a concrete version unavailable is local to it iff the version, if it is
stored with its minor version, has no other major version of its instance beside it that is
available. -/
theorem unavailability_local_iff (a : Available) (v : ConcreteVersion) :
    UnavailabilityLocal a (onAvailability a v.toVersion .unavailable) v ↔ Alone a v := by
  constructor
  · rintro h state hstored hstate major hne hany hdefault minor hother
    let w := v.withMajor major hany hdefault
    have hbefore : isAvailable a w.toVersion = true :=
      ConcreteVersion.isAvailable_iff.mpr ⟨_, hother, .inr (.inr rfl), rfl⟩
    have hkey : (w.service, w.inst, w.major) ≠ (v.service, v.inst, v.major) := by
      intro heq
      exact hne (congrArg (·.2.2) heq)
    have hafter := h.others w hkey
    rw [hbefore, onAvailability_of_stored hstored hstate] at hafter
    obtain ⟨entry, hentry, -⟩ := ConcreteVersion.isAvailable_iff.mp hafter
    rw [get₃_eraseInstance, if_pos ⟨rfl, rfl⟩] at hentry
    cases hentry
  · intro h
    by_cases hstored : ∃ state, get₃ a (v.service, v.inst, v.major) = some (v.minor, state) ∧
        state ≠ .unavailable
    · obtain ⟨state, hstored, hstate⟩ := hstored
      rw [onAvailability_of_stored hstored hstate]
      refine ⟨fun _ _ => ?_, fun w hkey => ?_⟩
      · rw [Bool.eq_false_iff, Ne, ConcreteVersion.isAvailable_iff, get₃_eraseInstance,
          if_pos ⟨rfl, rfl⟩]
        simp
      · rw [Bool.eq_iff_iff, ConcreteVersion.isAvailable_iff, ConcreteVersion.isAvailable_iff,
          get₃_eraseInstance]
        split_ifs with hsame
        · -- another major version of the instance: it is lost, but was not available
          obtain ⟨hs : w.service = v.service, hi : w.inst = v.inst⟩ := hsame
          refine iff_of_false (by simp) ?_
          rintro ⟨⟨minor, state'⟩, hentry, -, rfl⟩
          rw [hs, hi] at hentry
          have hmajor : w.major ≠ v.major := fun heq => hkey (by simp_all)
          exact h state hstored hstate w.major hmajor (not_or.mp w.major_ne).2
            (not_or.mp w.major_ne).1 minor hentry
        · exact Iff.rfl
    · have hleft : ∀ state, get₃ a (v.service, v.inst, v.major) = some (v.minor, state) →
          state = .unavailable := by
        intro state hstate
        by_contra hne
        exact hstored ⟨state, hstate, hne⟩
      rw [onAvailability_of_not_stored hleft]
      refine ⟨fun state hstate => ?_, fun _ _ => rfl⟩
      rw [isAvailable, isAvailableUnlocked_of_stored hstate, hleft state hstate]
      rfl

/-- An instance in two major versions, 1.5 and 2.7: when 1.5 is reported unavailable, 2.7 is not
available either. -/
theorem other_major_lost :
    let majors : Majors := AList.insert 2 (7, .available) (AList.insert 1 (5, .available) ∅)
    let a : Available := AList.insert 0x1234 (AList.insert 1 majors ∅) ∅
    let v : ConcreteVersion := ⟨⟨0x1234, 1, 1, 5⟩, by decide, by decide, by decide, by decide⟩
    ¬ UnavailabilityLocal a (onAvailability a v.toVersion .unavailable) v := by
  intro majors a v h
  let w : ConcreteVersion := ⟨⟨0x1234, 1, 2, 7⟩, by decide, by decide, by decide, by decide⟩
  have hsame := h.others w (by decide)
  revert hsame
  decide

end SomeipTunnel.Application
