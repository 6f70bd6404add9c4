import SomeipTunnel.Application.Availability

/-!
# All versions that a query is for

`are_available` collects the versions that a query is for, level by level, and `is_available` says
whether there is one. The levels for the major and for the minor version go through all instances
and all major versions of a service, whichever the levels above have chosen, and `is_available` ends
at the first state that it meets.

* `get₃_collect`: what is collected.
* `query_exact_iff`: the two functions agree and the result is what the query is for, iff every
  service with a version that serves the query is `Transparent` to it and the search of
  `is_available` reaches one of them (`Reached`).

Source: vsomeip/implementation/runtime/src/application_impl.cpp
-/

namespace SomeipTunnel.Application

open List Table AList

/-! ### The function -/

/-- The versions of a service in the result: instance, major version and minor version. -/
abbrev ServiceVersions := AList fun _ : UInt16 => AList fun _ : UInt8 => UInt32

/-- Source: `available_t` -/
abbrev AvailableVersions := AList fun _ : UInt16 => ServiceVersions

/-- `_available[service][instance][major] = minor`, for one service -/
def setMinor (m : ServiceVersions) (k : UInt16 × UInt8) (minor : UInt32) : ServiceVersions :=
  m.insert k.1 ((inner m k.1).insert k.2 minor)

def getMinor (m : ServiceVersions) (k : UInt16 × UInt8) : Option UInt32 :=
  (inner m k.1).lookup k.2

/-- `_available[service][instance][major]`, for one service -/
def referMajor (m : ServiceVersions) (k : UInt16 × UInt8) : ServiceVersions :=
  match getMinor m k with
  | some _ => m
  | none => setMinor m k 0

/-- The entry of an instance and a major version of a service. -/
def getEntry (instances : Instances) (k : UInt16 × UInt8) : Option (UInt32 × AvailabilityState) :=
  (inner instances k.1).lookup k.2

/-- A version serves a query: its minor version is sufficient and it is available. -/
def Version.Serves (q : Version) (entry : UInt32 × AvailabilityState) : Prop :=
  q.Covers entry.1 ∧ entry.2 = .available

instance (q : Version) (entry : UInt32 × AvailabilityState) : Decidable (q.Serves entry) :=
  inferInstanceAs (Decidable (_ ∧ _))

/-- The keys that a level goes through: all of them, or the one that is asked for. -/
def chosen {κ V : Type*} [DecidableEq κ] (key : κ) (any : Prop) [Decidable any]
    (table : AList fun _ : κ => V) : List κ :=
  if any then table.keys else if key ∈ table then [key] else []

section service

variable (q : Version) (instances : Instances)

/-- Source: `application_impl::are_available_unlocked`, "find available instances" of a service -/
def findInstances (m : ServiceVersions) : ServiceVersions :=
  (chosen q.inst (q.inst = anyInstance) instances).foldl (fun m inst => insertNew m inst ∅) m

/-- The major versions of all instances that are referred to. -/
def majorKeys : List (UInt16 × UInt8) :=
  instances.entries.flatMap fun e => (chosen q.major q.AnyMajor e.2).map (Prod.mk e.1)

/-- Source: `application_impl::are_available_unlocked`, "find major versions" of a service -/
def findMajors (m : ServiceVersions) : ServiceVersions := (majorKeys q instances).foldl referMajor m

/-- All instances with all their major versions. -/
def versionKeys : List (UInt16 × UInt8) :=
  instances.entries.flatMap fun e => e.2.keys.map (Prod.mk e.1)

/-- The minor version of an entry that serves the query. -/
def servedMinor (k : UInt16 × UInt8) : Option UInt32 :=
  (getEntry instances k).bind fun entry => if q.Serves entry then some entry.1 else none

/-- "add minor version" -/
def addMinor (m : ServiceVersions) (k : UInt16 × UInt8) : ServiceVersions :=
  match servedMinor q instances k with
  | some minor => setMinor m k minor
  | none => m

/-- Source: `application_impl::are_available_unlocked`, "find minor" of a service. A service without a
version that serves the query is erased. -/
def findMinor (m : ServiceVersions) : Option ServiceVersions :=
  if (versionKeys instances).any fun k => (servedMinor q instances k).isSome then
    some ((versionKeys instances).foldl (addMinor q instances) m)
  else none

end service

variable (a : Available) (q : Version)

/-- Source: `application_impl::are_available_unlocked`, "find available services" -/
def findServices (out : AvailableVersions) : AvailableVersions :=
  (chosen q.service (q.service = anyService) a).foldl (fun out s => insertNew out s ∅) out

/-- The four levels; the last three are loops over the services found. -/
def collect (out : AvailableVersions) : AvailableVersions :=
  let out := findServices a q out
  let out := filterMapKeys (fun s m => some (findInstances q (inner a s) m)) out
  let out := filterMapKeys (fun s m => some (findMajors q (inner a s) m)) out
  filterMapKeys (fun s m => findMinor q (inner a s) m) out

/-- Source: `application_impl::are_available_unlocked` -/
def areAvailableUnlocked (out : AvailableVersions) : AvailabilityState × AvailableVersions :=
  let out := collect a q out
  if out.entries.isEmpty then
    (.unavailable, set₃ out (q.service, q.inst, q.major) (some q.minor))
  else (.available, out)

/-- Source: `application_impl::are_available` -/
def areAvailable (out : AvailableVersions) : Bool × AvailableVersions :=
  let res := areAvailableUnlocked a q out
  (res.1 = .available, res.2)

/-! ### What a query is for -/

namespace Version

/-- The query is for the service. -/
def ForService (service : UInt16) : Prop := q.service = service ∨ q.service = anyService

def ForInstance (inst : UInt16) : Prop := q.inst = inst ∨ q.inst = anyInstance

def ForMajor (major : UInt8) : Prop := q.major = major ∨ q.AnyMajor

end Version

/-- The service has a version that serves the query. -/
def HasServed (service : UInt16) : Prop :=
  ∃ inst major entry, get₃ a (service, inst, major) = some entry ∧ q.Serves entry

/-- **The query is exact**: both functions give the same answer and, if it is yes, the result has the
versions in state `AS_AVAILABLE` that the query is for and no other one. -/
structure QueryExact (out : Bool × AvailableVersions) : Prop where
  agree : out.1 = true ↔ isAvailable a q = true
  result : out.1 = true → ∀ service inst major minor,
    get₃ out.2 (service, inst, major) = some minor ↔
      get₃ a (service, inst, major) = some (minor, .available) ∧ q.ForService service ∧
        q.ForInstance inst ∧ q.ForMajor major ∧ q.Covers minor

/-- The versions of a service that serve the query are those of its major version, all of an instance
that the query is for. -/
def Transparent (service : UInt16) : Prop :=
  ∀ inst major entry, get₃ a (service, inst, major) = some entry →
    (q.Serves entry → q.ForInstance inst ∧ q.ForMajor major) ∧ (q.ForMajor major → q.Serves entry)

/-- Among the services that the search goes through, the first in which an instance has a state has a
version that serves the query, in an instance that the search goes through. -/
def Reached : Prop :=
  ∃ before instances behind, looked q.service anyService a = before ++ instances :: behind ∧
    (∀ others ∈ before, ∀ majors ∈ looked q.inst anyInstance others,
      checkMajorMinor q majors = .unknown) ∧
    ∃ majors ∈ looked q.inst anyInstance instances, ∃ major entry,
      majors.lookup major = some entry ∧ q.ForMajor major ∧ q.Serves entry

/-! ### What is collected of a service -/

section collected

variable {q} {instances : Instances} {m : ServiceVersions} {k : UInt16 × UInt8}

theorem getMinor_setMinor {k' : UInt16 × UInt8} {minor : UInt32} :
    getMinor (setMinor m k' minor) k = if k = k' then some minor else getMinor m k := by
  obtain ⟨i, major⟩ := k
  obtain ⟨i', major'⟩ := k'
  simp only [getMinor, setMinor, inner_insert, Prod.mk.injEq]
  by_cases hi : i = i'
  · subst hi
    by_cases hmajor : major = major'
    · subst hmajor
      simp
    · simp [hmajor]
  · simp [hi]

theorem mem_versionKeys : k ∈ versionKeys instances ↔ (getEntry instances k).isSome := by
  obtain ⟨i, major⟩ := k
  simp only [versionKeys, mem_flatMap, mem_map, Prod.mk.injEq, getEntry, Table.inner]
  constructor
  · rintro ⟨⟨i, majors⟩, he, major, hmajor, rfl, rfl⟩
    rw [mem_lookup_iff.mpr he, Option.getD_some]
    exact lookup_isSome.mpr (mem_keys.mpr hmajor)
  · intro hsome
    rcases hmajors : instances.lookup i with _ | majors
    · simp [hmajors] at hsome
    · rw [hmajors, Option.getD_some] at hsome
      exact ⟨⟨i, majors⟩, mem_lookup_iff.mp hmajors, major,
        mem_keys.mp (lookup_isSome.mp hsome), rfl, rfl⟩

theorem mem_chosen {κ V : Type*} [DecidableEq κ] {key k : κ} {any : Prop} [Decidable any]
    {table : AList fun _ : κ => V} : k ∈ chosen key any table ↔ k ∈ table ∧ (key = k ∨ any) := by
  unfold chosen
  split_ifs with hany hmem
  · simp [hany, AList.mem_keys]
  · simp only [mem_singleton, hany, or_false]
    exact ⟨by rintro rfl; exact ⟨hmem, rfl⟩, fun h => h.2.symm⟩
  · simp only [not_mem_nil, hany, or_false, false_iff, not_and]
    rintro hin rfl
    exact hmem hin

/-- What is referred to are the versions of the major version. -/
theorem mem_majorKeys :
    k ∈ majorKeys q instances ↔ (getEntry instances k).isSome ∧ q.ForMajor k.2 := by
  rw [← mem_versionKeys]
  simp only [majorKeys, versionKeys, mem_flatMap, mem_map, mem_chosen]
  constructor
  · rintro ⟨e, he, major, ⟨hin, hfor⟩, rfl⟩
    exact ⟨⟨e, he, major, mem_keys.mp hin, rfl⟩, hfor⟩
  · rintro ⟨⟨e, he, major, hin, rfl⟩, hfor⟩
    exact ⟨e, he, major, ⟨mem_keys.mpr hin, hfor⟩, rfl⟩

theorem servedMinor_eq_some {minor : UInt32} : servedMinor q instances k = some minor ↔
    getEntry instances k = some (minor, .available) ∧ q.Covers minor := by
  rw [servedMinor, Option.bind_eq_some_iff]
  constructor
  · rintro ⟨⟨m, state⟩, hget, hif⟩
    split_ifs at hif with hserves
    obtain ⟨hcovers, rfl⟩ := hserves
    cases hif
    exact ⟨hget, hcovers⟩
  · rintro ⟨hget, hcovers⟩
    exact ⟨_, hget, if_pos ⟨hcovers, rfl⟩⟩

theorem servedMinor_eq_none : servedMinor q instances k = none ↔
    ∀ entry, getEntry instances k = some entry → ¬ q.Serves entry := by
  rw [servedMinor, Option.bind_eq_none_iff]
  refine forall₂_congr fun entry hget => ?_
  split_ifs with hserves <;> simp [hserves]

theorem getMinor_findInstances : getMinor (findInstances q instances m) k = getMinor m k := by
  unfold findInstances
  generalize chosen q.inst (q.inst = anyInstance) instances = insts
  induction insts generalizing m with
  | nil => rfl
  | cons i insts ih =>
      rw [foldl_cons, ih, getMinor, getMinor, Table.inner, lookup_insertNew, Table.inner]
      rcases m.lookup k.1 with _ | majors
      · rw [Option.none_or]
        split_ifs <;> rfl
      · rfl

theorem getMinor_findMajors : getMinor (findMajors q instances m) k =
    (getMinor m k).or (if k ∈ majorKeys q instances then some 0 else none) := by
  unfold findMajors
  generalize majorKeys q instances = ks
  induction ks generalizing m with
  | nil => simp
  | cons k' ks ih =>
      rw [foldl_cons, ih, referMajor]
      rcases hk' : getMinor m k' with _ | minor
      · by_cases hk : k = k'
        · simp [getMinor_setMinor, hk, hk']
        · simp [getMinor_setMinor, hk]
      · by_cases hk : k = k'
        · simp [hk, hk']
        · simp [hk]

/-- **What is collected** of a service: the versions that serve the query and, of the others, what
was there before. -/
theorem getMinor_findMinor {m' : ServiceVersions} (h : findMinor q instances m = some m') :
    getMinor m' k = (servedMinor q instances k).or (getMinor m k) := by
  unfold findMinor at h
  split_ifs at h
  obtain rfl := Option.some.inj h
  have hloop : ∀ (ks : List (UInt16 × UInt8)) (m : ServiceVersions),
      getMinor (ks.foldl (addMinor q instances) m) k =
        if k ∈ ks then (servedMinor q instances k).or (getMinor m k) else getMinor m k := by
    intro ks
    induction ks with
    | nil => simp
    | cons k' ks ih =>
        intro m
        rw [foldl_cons, ih, addMinor]
        rcases hk' : servedMinor q instances k' with _ | minor
        · by_cases hk : k = k'
          · simp [hk, hk']
          · simp [hk]
        · by_cases hk : k = k'
          · simp [getMinor_setMinor, hk, hk']
          · simp [getMinor_setMinor, hk]
  rw [hloop]
  split_ifs with hk
  · rfl
  · have hnone : servedMinor q instances k = none := by
      refine servedMinor_eq_none.mpr fun entry hget => absurd ?_ hk
      rw [mem_versionKeys, hget]
      rfl
    rw [hnone, Option.none_or]

theorem isSome_findMinor : (findMinor q instances m).isSome ↔
    ∃ k entry, getEntry instances k = some entry ∧ q.Serves entry := by
  have hany : ((versionKeys instances).any fun k => (servedMinor q instances k).isSome) = true ↔
      ∃ k entry, getEntry instances k = some entry ∧ q.Serves entry := by
    simp only [any_eq_true, Option.isSome_iff_ne_none, Ne, servedMinor_eq_none, not_forall,
      not_not, mem_versionKeys]
    constructor
    · rintro ⟨k, -, entry, hget, hserves⟩
      exact ⟨k, entry, hget, hserves⟩
    · rintro ⟨k, entry, hget, hserves⟩
      exact ⟨k, by rw [hget]; simp, entry, hget, hserves⟩
  rw [← hany]
  unfold findMinor
  split_ifs with h <;> simp [h]

/-! ### What is collected -/

variable {a} {service inst : UInt16} {major : UInt8}

theorem hasServed_iff : HasServed a q service ↔
    ∃ k entry, getEntry (inner a service) k = some entry ∧ q.Serves entry := by
  constructor
  · rintro ⟨inst, major, h⟩
    exact ⟨(inst, major), h⟩
  · rintro ⟨⟨inst, major⟩, h⟩
    exact ⟨inst, major, h⟩

theorem lookup_findServices : (findServices a q ∅).lookup service = some m ↔
    (service ∈ a ∧ q.ForService service) ∧ m = ∅ := by
  have hloop : ∀ (ks : List UInt16) (out : AvailableVersions),
      (ks.foldl (fun out s => insertNew out s ∅) out).lookup service =
        (out.lookup service).or (if service ∈ ks then some ∅ else none) := by
    intro ks
    induction ks with
    | nil => simp
    | cons s ks ih =>
        intro out
        rw [foldl_cons, ih, lookup_insertNew, Option.or_assoc]
        by_cases hs : service = s
        · simp [hs]
        · simp [hs]
  rw [findServices, hloop, lookup_empty, Option.none_or]
  by_cases h : service ∈ a ∧ q.ForService service
  · rw [if_pos (mem_chosen.mpr h)]
    simp [h, eq_comm]
  · rw [if_neg fun hin => h (mem_chosen.mp hin)]
    simp [h]

/-- A service is in the result if it has a version that serves the query. -/
theorem lookup_collect (m : ServiceVersions) : (collect a q ∅).lookup service = some m ↔
    q.ForService service ∧ findMinor q (Table.inner a service) (findMajors q (Table.inner a service)
      (findInstances q (Table.inner a service) ∅)) = some m := by
  simp only [collect, lookup_filterMapKeys, Option.bind_assoc, Option.bind_some]
  rw [Option.bind_eq_some_iff]
  constructor
  · rintro ⟨m', hm', h⟩
    obtain ⟨⟨-, hfor⟩, rfl⟩ := lookup_findServices.mp hm'
    exact ⟨hfor, h⟩
  · rintro ⟨hfor, h⟩
    refine ⟨∅, lookup_findServices.mpr ⟨⟨?_, hfor⟩, rfl⟩, h⟩
    obtain ⟨k, entry, hget, -⟩ := isSome_findMinor.mp (Option.isSome_of_eq_some h)
    by_contra hnot
    simp [getEntry, Table.inner, lookup_eq_none.mpr hnot] at hget

theorem exists_lookup_collect : (∃ m, (collect a q ∅).lookup service = some m) ↔
    q.ForService service ∧ HasServed a q service := by
  simp only [lookup_collect, exists_and_left, ← Option.isSome_iff_exists, isSome_findMinor,
    hasServed_iff]

/-- **What is collected**: of a service with a version that serves the query, all such versions, and
a 0 for each other version of the major version. -/
theorem get₃_collect {minor : UInt32} : get₃ (collect a q ∅) (service, inst, major) = some minor ↔
      (q.ForService service ∧ HasServed a q service) ∧
        (get₃ a (service, inst, major) = some (minor, .available) ∧ q.Covers minor ∨
          (∃ entry, get₃ a (service, inst, major) = some entry ∧ ¬ q.Serves entry) ∧
            q.ForMajor major ∧ minor = 0) := by
  have hversions : ∀ m, (collect a q ∅).lookup service = some m →
      getMinor m (inst, major) = (servedMinor q (Table.inner a service) (inst, major)).or
        (if (inst, major) ∈ majorKeys q (Table.inner a service) then some 0 else none) := by
    intro m hm
    rw [getMinor_findMinor ((lookup_collect m).mp hm).2, getMinor_findMajors,
      getMinor_findInstances]
    rfl
  have hcases : ((servedMinor q (Table.inner a service) (inst, major)).or
      (if (inst, major) ∈ majorKeys q (Table.inner a service) then some 0 else none)) = some minor ↔
      get₃ a (service, inst, major) = some (minor, .available) ∧ q.Covers minor ∨
        (∃ entry, get₃ a (service, inst, major) = some entry ∧ ¬ q.Serves entry) ∧
          q.ForMajor major ∧ minor = 0 := by
    rw [Option.or_eq_some_iff, servedMinor_eq_some, servedMinor_eq_none]
    refine or_congr Iff.rfl ?_
    constructor
    · rintro ⟨hnone, hif⟩
      split_ifs at hif with hkey
      obtain ⟨hsome, hfor⟩ := mem_majorKeys.mp hkey
      obtain ⟨entry, hget⟩ := Option.isSome_iff_exists.mp hsome
      exact ⟨⟨entry, hget, hnone entry hget⟩, hfor, (Option.some.inj hif).symm⟩
    · rintro ⟨⟨entry, hget, hnot⟩, hfor, rfl⟩
      refine ⟨fun entry' hget' => ?_, if_pos (mem_majorKeys.mpr ⟨Option.isSome_of_eq_some hget, hfor⟩)⟩
      obtain rfl := Option.some.inj (hget.symm.trans hget')
      exact hnot
  rw [← exists_lookup_collect, ← hcases]
  constructor
  · intro h
    obtain ⟨m, hm, -⟩ := get₃_eq_some_iff.mp h
    refine ⟨⟨m, hm⟩, ?_⟩
    rw [← hversions m hm, ← h, get₃, Table.inner, Table.inner, hm]
    rfl
  · rintro ⟨⟨m, hm⟩, h⟩
    rw [← h, ← hversions m hm, get₃, Table.inner, Table.inner, hm]
    rfl

theorem areAvailable_fst : (areAvailable a q ∅).1 = true ↔
    ∃ s, q.ForService s ∧ HasServed a q s := by
  have hempty : (collect a q ∅).entries.isEmpty = false ↔
      ∃ s m, (collect a q ∅).lookup s = some m := by
    rw [Bool.eq_false_iff, Ne, List.isEmpty_iff]
    constructor
    · intro hne
      obtain ⟨e, es, hes⟩ := List.exists_cons_of_ne_nil hne
      exact ⟨e.1, e.2, mem_lookup_iff.mpr (hes ▸ List.mem_cons_self)⟩
    · rintro ⟨s, m, hm⟩ hnil
      have hin : (⟨s, m⟩ : Σ _ : UInt16, ServiceVersions) ∈ (collect a q ∅).entries :=
        mem_lookup_iff.mp hm
      rw [hnil] at hin
      cases hin
  simp only [← exists_lookup_collect, ← hempty, areAvailable, areAvailableUnlocked]
  by_cases h : (collect a q ∅).entries.isEmpty = true
  · simp [h]
  · simp [h]

theorem areAvailable_snd (h : (areAvailable a q ∅).1 = true) :
    (areAvailable a q ∅).2 = collect a q ∅ := by
  simp only [areAvailable, areAvailableUnlocked] at h ⊢
  split_ifs at h ⊢ with hempty
  · simp at h
  · rfl

/-- The result is what the query is for iff every service in it is transparent. -/
theorem collect_exact_iff :
    (∀ service inst major minor, get₃ (collect a q ∅) (service, inst, major) = some minor ↔
      get₃ a (service, inst, major) = some (minor, .available) ∧ q.ForService service ∧
        q.ForInstance inst ∧ q.ForMajor major ∧ q.Covers minor) ↔
      ∀ s, q.ForService s → HasServed a q s → Transparent a q s := by
  constructor
  · rintro h s hfor hserved inst major ⟨minor, state⟩ hget
    refine ⟨?_, fun hmajor => ?_⟩
    · rintro ⟨hcovers, rfl⟩
      obtain ⟨-, -, hinst, hmajor, -⟩ := (h s inst major minor).mp
        (get₃_collect.mpr ⟨⟨hfor, hserved⟩, .inl ⟨hget, hcovers⟩⟩)
      exact ⟨hinst, hmajor⟩
    · by_contra hnot
      obtain ⟨hget', -, -, -, hcovers⟩ := (h s inst major 0).mp
        (get₃_collect.mpr ⟨⟨hfor, hserved⟩, .inr ⟨⟨_, hget, hnot⟩, hmajor, rfl⟩⟩)
      cases hget.symm.trans hget'
      exact hnot ⟨hcovers, rfl⟩
  · intro h s inst major minor
    rw [get₃_collect]
    constructor
    · rintro ⟨⟨hfor, hserved⟩, ⟨hget, hcovers⟩ | ⟨⟨entry, hget, hnot⟩, hmajor, -⟩⟩
      · obtain ⟨hinst, hmajor⟩ := (h s hfor hserved inst major _ hget).1 ⟨hcovers, rfl⟩
        exact ⟨hget, hfor, hinst, hmajor, hcovers⟩
      · exact absurd ((h s hfor hserved inst major entry hget).2 hmajor) hnot
    · rintro ⟨hget, hfor, -, -, hcovers⟩
      exact ⟨⟨hfor, inst, major, _, hget, hcovers, rfl⟩, .inl ⟨hget, hcovers⟩⟩

end collected

/-! ### Where the search ends -/

section search

variable {a q}

theorem firstKnown_cons (s : AvailabilityState) (states : List AvailabilityState) :
    firstKnown (s :: states) = if s = .unknown then firstKnown states else s := by
  by_cases h : s = .unknown
  · simp [firstKnown, h]
  · simp [firstKnown, h]

theorem firstKnown_eq_unknown {states : List AvailabilityState} :
    firstKnown states = .unknown ↔ ∀ s ∈ states, s = .unknown := by
  induction states with
  | nil => simp [firstKnown]
  | cons s states ih =>
      rw [firstKnown_cons, forall_mem_cons, ← ih]
      split_ifs with h
      · exact (and_iff_right h).symm
      · simp [h]

/-- A search that meets no other state finds the available one. -/
theorem firstKnown_eq_available {states : List AvailabilityState}
    (h : ∀ s ∈ states, s = .unknown ∨ s = .available) (hin : .available ∈ states) :
    firstKnown states = .available := by
  induction states with
  | nil => cases hin
  | cons s states ih =>
      obtain ⟨hs, hstates⟩ := forall_mem_cons.mp h
      rw [firstKnown_cons]
      split_ifs with hunknown
      · rcases mem_cons.mp hin with heq | hin
        · rw [hunknown] at heq
          cases heq
        · exact ih hstates hin
      · exact hs.resolve_left hunknown

/-- The search ends at the first value with a state. -/
theorem firstKnown_map_eq_available {V : Type*} {f : V → AvailabilityState} {vs : List V} :
    firstKnown (vs.map f) = .available ↔ ∃ before v behind, vs = before ++ v :: behind ∧
      (∀ u ∈ before, f u = .unknown) ∧ f v = .available := by
  induction vs with
  | nil => simp [firstKnown]
  | cons u vs ih =>
      rw [map_cons, firstKnown_cons]
      split_ifs with hu
      · rw [ih]
        constructor
        · rintro ⟨before, v, behind, rfl, hbefore, hv⟩
          exact ⟨u :: before, v, behind, rfl, forall_mem_cons.mpr ⟨hu, hbefore⟩, hv⟩
        · rintro ⟨before, v, behind, heq, hbefore, hv⟩
          cases before with
          | nil =>
              obtain ⟨rfl, rfl⟩ := List.cons.inj heq
              rw [hu] at hv
              cases hv
          | cons u' before =>
              obtain ⟨rfl, rfl⟩ := List.cons.inj heq
              exact ⟨before, v, behind, rfl, (forall_mem_cons.mp hbefore).2, hv⟩
      · constructor
        · exact fun hv => ⟨[], u, vs, rfl, by simp, hv⟩
        · rintro ⟨before, v, behind, heq, hbefore, hv⟩
          cases before with
          | nil =>
              obtain ⟨rfl, rfl⟩ := List.cons.inj heq
              exact hv
          | cons u' before =>
              obtain ⟨rfl, rfl⟩ := List.cons.inj heq
              exact absurd (hbefore u mem_cons_self) hu

/-- What a search goes through is stored under the key, or anywhere for a wildcard. -/
theorem exists_of_mem_looked {V : Type*} {key wildcard : UInt16} {table : AList fun _ : UInt16 => V}
    {v : V} (h : v ∈ looked key wildcard table) :
    ∃ k, table.lookup k = some v ∧ (key = k ∨ key = wildcard) := by
  unfold looked at h
  rcases hkey : table.lookup key with _ | u
  · rw [hkey] at h
    split_ifs at h with hwild
    · obtain ⟨e, he, rfl⟩ := mem_map.mp h
      exact ⟨e.1, mem_lookup_iff.mpr (mem_ordered.mp he), .inr hwild⟩
    · cases h
  · rw [hkey, mem_singleton] at h
    subst h
    exact ⟨key, hkey, .inl rfl⟩

/-- Where `check_major_minor` finds an available version, it serves the query. -/
theorem exists_of_checkMajorMinor {majors : Majors} (h : checkMajorMinor q majors = .available) :
    ∃ major entry, majors.lookup major = some entry ∧ q.ForMajor major ∧ q.Serves entry := by
  unfold checkMajorMinor at h
  rcases hentry : majors.lookup q.major with _ | entry
  · simp only [hentry] at h
    split_ifs at h with hany
    rcases hfind : (ordered majors).find? fun e => q.Covers e.2.1 with _ | e
    · simp [hfind] at h
    · rw [hfind, Option.map_some, Option.getD_some] at h
      exact ⟨e.1, e.2, mem_lookup_iff.mpr (mem_ordered.mp (mem_of_find?_eq_some hfind)),
        .inr hany, by simpa using List.find?_some hfind, h⟩
  · simp only [hentry] at h
    split_ifs at h with hcovers
    exact ⟨q.major, entry, hentry, .inl rfl, hcovers, h⟩

/-- Where all versions of the major version serve the query, `check_major_minor` finds one of them,
if there is one, and no other state. -/
theorem checkMajorMinor_of_transparent {majors : Majors}
    (h : ∀ major entry, majors.lookup major = some entry → q.ForMajor major → q.Serves entry) :
    (checkMajorMinor q majors = .unknown ∨ checkMajorMinor q majors = .available) ∧
      ((∃ major entry, majors.lookup major = some entry ∧ q.ForMajor major) →
        checkMajorMinor q majors = .available) := by
  unfold checkMajorMinor
  rcases hentry : majors.lookup q.major with _ | entry
  · simp only
    split_ifs with hany
    · -- the first entry already covers the query
      rcases hentries : ordered majors with _ | ⟨e, es⟩
      · refine ⟨.inl rfl, ?_⟩
        rintro ⟨major, entry, hlookup, -⟩
        have hin : (⟨major, entry⟩ : Σ _ : UInt8, UInt32 × AvailabilityState) ∈ ordered majors :=
          mem_ordered.mpr (mem_lookup_iff.mp hlookup)
        rw [hentries] at hin
        cases hin
      · have hin : e ∈ majors.entries := mem_ordered.mp (hentries ▸ mem_cons_self)
        obtain ⟨hcovers, hstate⟩ := h e.1 e.2 (mem_lookup_iff.mpr hin) (.inr hany)
        have hfind : (e :: es).find? (fun e => q.Covers e.2.1) = some e :=
          List.find?_cons_of_pos (by simpa using hcovers)
        rw [hfind, Option.map_some, Option.getD_some]
        exact ⟨.inr hstate, fun _ => hstate⟩
    · refine ⟨.inl rfl, ?_⟩
      rintro ⟨major, entry, hlookup, rfl | hmajor⟩
      · rw [hentry] at hlookup
        cases hlookup
      · exact absurd hmajor hany
  · obtain ⟨hcovers, hstate⟩ := h q.major entry hentry (.inl rfl)
    simp only [if_pos hcovers]
    exact ⟨.inr hstate, fun _ => hstate⟩

/-- What the search finds is a version that serves the query. -/
theorem reached_of_isAvailable (h : isAvailable a q = true) :
    Reached a q ∧ ∃ s, q.ForService s ∧ HasServed a q s := by
  rw [isAvailable, decide_eq_true_iff, isAvailableUnlocked, firstKnown_map_eq_available] at h
  obtain ⟨before, instances, behind, hlooked, hbefore, hstate⟩ := h
  rw [instanceState, firstKnown_map_eq_available] at hstate
  obtain ⟨before', majors, behind', hlooked', -, hcheck⟩ := hstate
  have hmajors : majors ∈ looked q.inst anyInstance instances := by simp [hlooked']
  obtain ⟨major, entry, hentry, hmajor, hserves⟩ := exists_of_checkMajorMinor hcheck
  obtain ⟨s, hs, hfor⟩ := exists_of_mem_looked (v := instances) (by rw [hlooked]; simp)
  obtain ⟨i, hi, -⟩ := exists_of_mem_looked hmajors
  refine ⟨⟨before, instances, behind, hlooked, fun others ho majors hm => ?_,
    majors, hmajors, major, entry, hentry, hmajor, hserves⟩,
    s, hfor, i, major, entry, get₃_eq_some_iff.mpr ⟨_, hs, _, hi, hentry⟩, hserves⟩
  exact firstKnown_eq_unknown.mp (hbefore others ho) _ (mem_map_of_mem hm)

/-- Where the services that serve the query are transparent, the search ends at the first of them. -/
theorem isAvailable_of_reached (hreached : Reached a q)
    (h : ∀ s, q.ForService s → HasServed a q s → Transparent a q s) : isAvailable a q = true := by
  obtain ⟨before, instances, behind, hlooked, hbefore, majors, hmajors, major, entry, hentry,
    hmajor, hserves⟩ := hreached
  obtain ⟨s, hs, hfor⟩ := exists_of_mem_looked (v := instances) (by rw [hlooked]; simp)
  obtain ⟨i, hi, -⟩ := exists_of_mem_looked hmajors
  have hserved : HasServed a q s :=
    ⟨i, major, entry, get₃_eq_some_iff.mpr ⟨_, hs, _, hi, hentry⟩, hserves⟩
  have hcheck : ∀ ms ∈ looked q.inst anyInstance instances,
      ∀ major entry, ms.lookup major = some entry → q.ForMajor major → q.Serves entry := by
    intro ms hms major entry hlookup
    obtain ⟨j, hj, -⟩ := exists_of_mem_looked hms
    exact (h s hfor hserved j major entry (get₃_eq_some_iff.mpr ⟨_, hs, _, hj, hlookup⟩)).2
  have hstate : instanceState q instances = .available := by
    have hfound := (checkMajorMinor_of_transparent (hcheck majors hmajors)).2
      ⟨major, entry, hentry, hmajor⟩
    refine firstKnown_eq_available (fun state hstate => ?_)
      (mem_map.mpr ⟨majors, hmajors, hfound⟩)
    obtain ⟨ms, hms, rfl⟩ := mem_map.mp hstate
    exact (checkMajorMinor_of_transparent (hcheck ms hms)).1
  rw [isAvailable, decide_eq_true_iff, isAvailableUnlocked, firstKnown_map_eq_available]
  refine ⟨before, instances, behind, hlooked, fun others ho => ?_, hstate⟩
  rw [instanceState, firstKnown_eq_unknown]
  intro state hstate
  obtain ⟨ms, hms, rfl⟩ := mem_map.mp hstate
  exact hbefore others ho ms hms

end search

/-- The query is exact iff, where a service that it is for has a version that serves it, all these
services are transparent to it and the search reaches one of them. -/
theorem query_exact_iff (a : Available) (q : Version) : QueryExact a q (areAvailable a q ∅) ↔
      ((∃ s, q.ForService s ∧ HasServed a q s) →
        Reached a q ∧ ∀ s, q.ForService s → HasServed a q s → Transparent a q s) := by
  constructor
  · rintro ⟨hagree, hresult⟩ hserved
    have hare := areAvailable_fst.mpr hserved
    have hexact := hresult hare
    rw [areAvailable_snd hare] at hexact
    exact ⟨(reached_of_isAvailable (hagree.mp hare)).1, collect_exact_iff.mp hexact⟩
  · intro h
    refine ⟨⟨fun hare => ?_, fun his => ?_⟩, fun hare => ?_⟩
    · obtain ⟨hreached, htransparent⟩ := h (areAvailable_fst.mp hare)
      exact isAvailable_of_reached hreached htransparent
    · exact areAvailable_fst.mpr (reached_of_isAvailable his).2
    · rw [areAvailable_snd hare]
      exact collect_exact_iff.mpr (h (areAvailable_fst.mp hare)).2

/-- A service with two instances, both available: the query for instance 1 collects instance 2 as
well. -/
theorem other_instance_collected :
    let majors : Majors := AList.insert 1 (5, .available) ∅
    let a : Available := AList.insert 0x1234 (AList.insert 1 majors (AList.insert 2 majors ∅)) ∅
    ¬ QueryExact a ⟨0x1234, 1, 1, 0⟩ (areAvailable a ⟨0x1234, 1, 1, 0⟩ ∅) := by
  intro majors a h
  obtain ⟨-, -, hinst, -⟩ := (h.result (by decide) 0x1234 2 1 5).mp (by decide)
  revert hinst
  unfold Version.ForInstance
  decide

end SomeipTunnel.Application
