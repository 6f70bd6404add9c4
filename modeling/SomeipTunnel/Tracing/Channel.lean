import SomeipTunnel.Lib.OrderedMap
import SomeipTunnel.Lib.Run

/-!
# The filters of a trace channel

A trace channel forwards a message, or only its header, or drops it, as its filters say. A filter is
made from one match, from a list of matches or from a range; its id is the next value of a 32-bit
counter, and it is kept under its id in one of two tables.

A filter means what its matches say: a match agrees with a message in every component that is not
the wildcard, and a list accepts what one of its matches agrees with. Two of the functions do
something else: that of one match with a wildcard in the place of the instance only compares the
method with the instance, and that of an empty list accepts everything.

`channel_right_iff`: in a run of additions and removals every filter that is added means what its
matches say, the tables hold the filters that were added and not removed, and the verdict on every
message is the one of the meaning of these filters, whatever the order, iff each addition is
`Proper`.

Whether a message is forwarded as a whole or with its header only is not part of this: the first
filter that accepts it decides, so it depends on the order of the ids.

Source: vsomeip/implementation/tracing/src/channel_impl.cpp
-/

namespace SomeipTunnel.Tracing

open StepRun List

/-! ### The code -/

/-- A service, an instance and a method, of a message or of a filter.
Source: `trace.hpp`, `match_t` -/
structure Match where
  service : UInt16
  instance_ : UInt16
  method : UInt16
deriving DecidableEq, Repr

/-- `ANY_SERVICE`, `ANY_INSTANCE` and `ANY_METHOD`. -/
def any : UInt16 := 0xFFFF

/-- The component of an element of a list is the one of the message or the wildcard. -/
def fits (component value : UInt16) : Bool := component == value || component == any

/-- The function of a filter from one match.
Source: `channel_impl::add_filter(const match_t&, filter_type_e)` -/
def singleFunc (m t : Match) : Bool :=
  if m.service ≠ any then
    if m.instance_ ≠ any then
      if m.method ≠ any then
        m.service == t.service && m.instance_ == t.instance_ && m.method == t.method
      else m.service == t.service && m.instance_ == t.instance_
    else
      -- `std::get<1>` where the method is meant
      if m.method ≠ any then m.service == t.service && m.instance_ == t.method
      else m.service == t.service
  else
    if m.instance_ ≠ any then
      if m.method ≠ any then m.instance_ == t.instance_ && m.method == t.method
      else m.instance_ == t.instance_
    else
      if m.method ≠ any then m.method == t.method
      else true

/-- The function of a filter from a list of matches. The components that no match has are not
looked at.
Source: `channel_impl::add_filter(const std::vector<match_t>&, filter_type_e)` -/
def listFunc (matches_ : List Match) (t : Match) : Bool :=
  let hasService := matches_.any fun m => m.service ≠ any
  let hasInstance := matches_.any fun m => m.instance_ ≠ any
  let hasMethod := matches_.any fun m => m.method ≠ any
  if hasService then
    if hasInstance then
      if hasMethod then
        matches_.any fun m => fits m.service t.service && fits m.instance_ t.instance_ &&
          fits m.method t.method
      else matches_.any fun m => fits m.service t.service && fits m.instance_ t.instance_
    else
      if hasMethod then
        matches_.any fun m => fits m.service t.service && fits m.method t.method
      else matches_.any fun m => fits m.service t.service
  else
    if hasInstance then
      if hasMethod then
        matches_.any fun m => fits m.instance_ t.instance_ && fits m.method t.method
      else matches_.any fun m => fits m.instance_ t.instance_
    else
      if hasMethod then matches_.any fun m => fits m.method t.method
      else true

/-- The function of a filter from a range.
Source: `channel_impl::add_filter(const match_t&, const match_t&, filter_type_e)` -/
def rangeFunc (lower upper t : Match) : Bool :=
  lower.service ≤ t.service && t.service ≤ upper.service && lower.instance_ ≤ t.instance_ &&
    t.instance_ ≤ upper.instance_ && lower.method ≤ t.method && t.method ≤ upper.method

/-- What a filter is made from, which is what its function captures. -/
inductive Filter where
  | single (m : Match)
  | list (matches_ : List Match)
  | range (lower upper : Match)
deriving DecidableEq, Repr

def Filter.accepts : Filter → Match → Bool
  | .single m => singleFunc m
  | .list matches_ => listFunc matches_
  | .range lower upper => rangeFunc lower upper

/-- A match with a wildcard. -/
def Match.hasAny (m : Match) : Bool := m.service == any || m.instance_ == any || m.method == any

/-- A range with a wildcard is not added. -/
def Filter.isRefused : Filter → Bool
  | .range lower upper => lower.hasAny || upper.hasAny
  | _ => false

/-- Source: `enumeration_types.hpp`, `filter_type_e` -/
inductive FilterType where
  | negative
  | positive
  | headerOnly
deriving DecidableEq, Repr

/-- A 32-bit number, in its order. -/
abbrev FilterId := Fin (2 ^ 32)

/-- Source: `channel_impl.hpp`; a positive filter is stored with whether it forwards the whole
message -/
structure Channel where
  currentFilterId : FilterId
  positive : OrderedMap FilterId (Filter × Bool)
  negative : OrderedMap FilterId Filter

def Channel.new : Channel := ⟨1, .empty, .empty⟩

namespace Channel

variable (c : Channel)

/-- Source: `channel_impl::add_filter_intern` -/
def addFilterIntern (f : Filter) (type : FilterType) : FilterId × Channel :=
  let itsId := c.currentFilterId
  let next := { c with currentFilterId := c.currentFilterId + 1 }
  match type with
  | .negative => (itsId, { next with negative := c.negative.assign itsId f })
  | .headerOnly => (itsId, { next with positive := c.positive.assign itsId (f, false) })
  | .positive => (itsId, { next with positive := c.positive.assign itsId (f, true) })

/-- Source: `channel_impl::add_filter`; `FILTER_ID_ERROR` is 0 -/
def addFilter (f : Filter) (type : FilterType) : FilterId × Channel :=
  if f.isRefused then (0, c) else c.addFilterIntern f type

/-- Source: `channel_impl::remove_filter` -/
def removeFilter (id : FilterId) : Channel :=
  { c with positive := c.positive.erase id, negative := c.negative.erase id }

/-- The loop over the positive filters. -/
def verdict (t : Match) : Bool → List (FilterId × Filter × Bool) → Bool × Bool
  | hasPositive, [] => if !hasPositive then (true, true) else (false, false)
  | hasPositive, (_, f, whole) :: rest =>
      if f.accepts t then (true, whole) else verdict t (hasPositive || whole) rest

/-- Whether the message is forwarded, and whether as a whole.
Source: `channel_impl::matches` -/
def matches_ (t : Match) : Bool × Bool :=
  if c.negative.entries.any fun e => e.2.accepts t then (false, false)
  else verdict t false c.positive.entries

end Channel

/-! ### What filters mean -/

/-- The match is equal to the message in every component that is not the wildcard. -/
def Match.Agrees (m t : Match) : Prop :=
  (m.service = any ∨ m.service = t.service) ∧ (m.instance_ = any ∨ m.instance_ = t.instance_) ∧
    (m.method = any ∨ m.method = t.method)

def Filter.Means : Filter → Match → Prop
  | .single m, t => m.Agrees t
  | .list matches_, t => ∃ m ∈ matches_, m.Agrees t
  | .range lower upper, t => (lower.service ≤ t.service ∧ t.service ≤ upper.service) ∧
      (lower.instance_ ≤ t.instance_ ∧ t.instance_ ≤ upper.instance_) ∧
      (lower.method ≤ t.method ∧ t.method ≤ upper.method)

/-- The filter accepts what it means, and one match the same as the list of that match. -/
def Filter.Faithful (f : Filter) : Prop :=
  (∀ t, f.accepts t = true ↔ f.Means t) ∧
    ∀ m, f = .single m → ∀ t, f.accepts t = (Filter.list [m]).accepts t

/-- One match is not a service and a method with any instance, and a list is not empty. -/
def Filter.Regular : Filter → Prop
  | .single m => m.service = any ∨ m.instance_ ≠ any ∨ m.method = any
  | .list matches_ => matches_ ≠ []
  | .range _ _ => True

theorem fits_eq_true {component value : UInt16} :
    fits component value = true ↔ component = any ∨ component = value := by
  simp [fits, or_comm]

variable {matches_ : List Match} {t : Match}

/-- A component that is looked at if some match has it: where it is not looked at, it is the
wildcard of every match. -/
theorem looked_eq_true (component : Match → UInt16) {value : UInt16} {m : Match}
    (hm : m ∈ matches_) :
    (!(matches_.any fun m => component m ≠ any) || fits (component m) value) = true ↔
      component m = any ∨ component m = value := by
  rw [Bool.or_eq_true, fits_eq_true, Bool.not_eq_true', any_eq_false]
  refine or_iff_right_of_imp fun hnone => .inl ?_
  simpa using hnone m hm

/-- The function of a list that is not empty as one test of its matches. -/
theorem listFunc_of_ne_nil (hne : matches_ ≠ []) (t : Match) :
    listFunc matches_ t = matches_.any fun m =>
      (!(matches_.any fun m => m.service ≠ any) || fits m.service t.service) &&
        (!(matches_.any fun m => m.instance_ ≠ any) || fits m.instance_ t.instance_) &&
          (!(matches_.any fun m => m.method ≠ any) || fits m.method t.method) := by
  unfold listFunc
  generalize (matches_.any fun m => decide (m.service ≠ any)) = hasService
  generalize (matches_.any fun m => decide (m.instance_ ≠ any)) = hasInstance
  generalize (matches_.any fun m => decide (m.method ≠ any)) = hasMethod
  cases hasService <;> cases hasInstance <;> cases hasMethod <;>
    simp [exists_mem_of_ne_nil _ hne]

/-- A list accepts what one of its matches agrees with, and the empty one everything. -/
theorem listFunc_eq_true :
    listFunc matches_ t = true ↔ matches_ = [] ∨ ∃ m ∈ matches_, m.Agrees t := by
  by_cases hne : matches_ = []
  · rw [hne]
    simp [listFunc]
  · rw [listFunc_of_ne_nil hne, any_eq_true, or_iff_right hne]
    refine exists_congr fun m => and_congr_right fun hm => ?_
    rw [Bool.and_eq_true, Bool.and_eq_true, looked_eq_true Match.service hm,
      looked_eq_true Match.instance_ hm, looked_eq_true Match.method hm, Match.Agrees, and_assoc]

theorem singleFunc_eq_true {m : Match} (h : (Filter.single m).Regular) :
    singleFunc m t = true ↔ m.Agrees t := by
  unfold Filter.Regular at h
  unfold singleFunc Match.Agrees
  split_ifs with hs hi hm hm hi hm hm <;> simp_all [and_assoc]

/-- A filter accepts what it means iff it is not one of the two that do something else. -/
theorem Filter.faithful_iff_regular (f : Filter) : f.Faithful ↔ f.Regular := by
  cases f with
  | single m =>
      constructor
      · rintro ⟨hmeans, -⟩
        by_contra hregular
        unfold Filter.Regular at hregular
        push Not at hregular
        obtain ⟨hs, hi, hm⟩ := hregular
        -- a message of the service and the method, which is compared with the wildcard
        have haccepts := (hmeans ⟨m.service, 0, m.method⟩).mpr ⟨.inr rfl, .inl hi, .inr rfl⟩
        have hcompare : (m.service == m.service && any == m.method) = true := by
          simpa [Filter.accepts, singleFunc, hs, hi, hm] using haccepts
        simp only [Bool.and_eq_true, beq_iff_eq] at hcompare
        exact hm hcompare.2.symm
      · intro hregular
        refine ⟨fun t => singleFunc_eq_true hregular, ?_⟩
        rintro m' heq t
        cases heq
        rw [Bool.eq_iff_iff]
        have hlist : (Filter.list [m]).accepts t = true ↔ m.Agrees t := by
          rw [Filter.accepts, listFunc_eq_true]
          simp
        exact (singleFunc_eq_true hregular).trans hlist.symm
  | list matches_ =>
      constructor
      · rintro ⟨hmeans, -⟩ rfl
        obtain ⟨m, hm, -⟩ := (hmeans ⟨0, 0, 0⟩).mp rfl
        cases hm
      · intro hregular
        refine ⟨fun t => ?_, fun _ heq => nomatch heq⟩
        exact listFunc_eq_true.trans (or_iff_right hregular)
  | range lower upper =>
      refine iff_of_true ⟨fun t => ?_, fun _ heq => nomatch heq⟩ trivial
      simp only [Filter.accepts, rangeFunc, Filter.Means, Bool.and_eq_true, decide_eq_true_eq,
        and_assoc]

/-! ### Whole runs -/

/-- A filter that was added and not removed. -/
structure Live where
  id : FilterId
  filter : Filter
  type : FilterType
deriving DecidableEq, Repr

/-- The channel, and the filters that were added and not removed. -/
structure Observed where
  channel : Channel
  live : List Live

def Observed.new : Observed := ⟨.new, []⟩

inductive Operation where
  | add (f : Filter) (type : FilterType)
  | remove (id : FilterId)

def Observed.after (o : Observed) : Operation → Observed
  | .add f type =>
      let out := o.channel.addFilter f type
      ⟨out.2, if f.isRefused then o.live else ⟨out.1, f, type⟩ :: o.live⟩
  | .remove id => ⟨o.channel.removeFilter id, o.live.filter (·.id ≠ id)⟩

def Observed.step (o : Observed) (op : Operation) : Except Empty (Unit × Observed) :=
  .ok ((), o.after op)

/-- The type of a filter in the table of the positive ones. -/
def typeOf (whole : Bool) : FilterType := if whole then .positive else .headerOnly

/-- The filter that an entry of the negative ones stands for. -/
def liveNegative (e : FilterId × Filter) : Live := ⟨e.1, e.2, .negative⟩

/-- The filter that an entry of the positive ones stands for. -/
def livePositive (e : FilterId × Filter × Bool) : Live := ⟨e.1, e.2.1, typeOf e.2.2⟩

/-- The tables hold the filters that were added and not removed. -/
structure Held (o : Observed) : Prop where
  negative : ∀ e, e ∈ o.channel.negative.entries ↔ liveNegative e ∈ o.live
  positive : ∀ e, e ∈ o.channel.positive.entries ↔ livePositive e ∈ o.live

/-- No negative filter says that the message is dropped, and a positive or header-only one says that
it is forwarded, or there is no positive one. -/
def Observed.Forwards (o : Observed) (t : Match) : Prop :=
  (¬∃ l ∈ o.live, l.type = .negative ∧ l.filter.Means t) ∧
    ((∃ l ∈ o.live, l.type ≠ .negative ∧ l.filter.Means t) ∨ ¬∃ l ∈ o.live, l.type = .positive)

/-- The filter that is added means what its matches say, the tables hold the filters, and a message
is forwarded as they say. -/
structure Right (o : Observed) (op : Operation) : Prop where
  faithful : ∀ f type, op = .add f type → f.Faithful
  held : Held (o.after op)
  forwards : ∀ t, ((o.after op).channel.matches_ t).1 = true ↔ (o.after op).Forwards t

/-- The filter is regular, and a filter of the same table that has its id is the same one. -/
def Proper (o : Observed) : Operation → Prop
  | .add f type => f.Regular ∧
      (f.isRefused = false → ∀ l ∈ o.live, l.id = o.channel.currentFilterId →
        (l.type = .negative ↔ type = .negative) → l = ⟨o.channel.currentFilterId, f, type⟩)
  | .remove _ => True

/-- The loop over the positive filters forwards what one of them accepts, and without a positive one
everything. -/
theorem verdict_fst {hasPositive : Bool} {entries : List (FilterId × Filter × Bool)} :
    (Channel.verdict t hasPositive entries).1 = true ↔ (∃ e ∈ entries, e.2.1.accepts t = true) ∨
        hasPositive = false ∧ ∀ e ∈ entries, e.2.2 = false := by
  induction entries generalizing hasPositive with
  | nil =>
      cases hasPositive <;> simp [Channel.verdict]
  | cons e rest ih =>
      obtain ⟨id, f, whole⟩ := e
      rw [Channel.verdict]
      by_cases hf : f.accepts t = true
      · simp [hf]
      · rw [if_neg hf, ih]
        simp only [mem_cons, exists_eq_or_imp, forall_eq_or_imp, hf, false_or,
          Bool.or_eq_false_iff, Bool.false_eq_true, and_assoc]

variable {f : Filter}

section run

variable {o : Observed}

theorem typeOf_ne_negative (whole : Bool) : typeOf whole ≠ .negative := by
  cases whole <;> decide

theorem liveNegative_injective : Function.Injective liveNegative := by
  rintro ⟨id, f⟩ ⟨id', f'⟩ h
  cases h
  rfl

theorem livePositive_injective : Function.Injective livePositive := by
  rintro ⟨id, f, whole⟩ ⟨id', f', whole'⟩ h
  obtain ⟨rfl, rfl, htype⟩ := Live.mk.inj h
  cases whole <;> cases whole' <;> first | rfl | cases htype

theorem exists_typeOf {type : FilterType} (h : type ≠ .negative) :
    ∃ whole, type = typeOf whole := by
  cases type with
  | negative => exact absurd rfl h
  | positive => exact ⟨true, rfl⟩
  | headerOnly => exact ⟨false, rfl⟩

/-- A filter that is not negative is in the table of the positive ones. -/
theorem Held.exists_positive (h : Held o) {l : Live} (hl : l ∈ o.live)
    (htype : l.type ≠ .negative) :
    ∃ whole, typeOf whole = l.type ∧ (l.id, l.filter, whole) ∈ o.channel.positive.entries := by
  obtain ⟨whole, hwhole⟩ := exists_typeOf htype
  refine ⟨whole, hwhole.symm, (h.positive _).mpr ?_⟩
  rw [livePositive, ← hwhole]
  exact hl

/-- The verdict is that of the filters that the tables hold. -/
theorem Held.forwards_iff (h : Held o) (hfaithful : ∀ l ∈ o.live, l.filter.Faithful) (t : Match) :
    (o.channel.matches_ t).1 = true ↔ o.Forwards t := by
  have hnegative : (o.channel.negative.entries.any fun e => e.2.accepts t) = true ↔
      ∃ l ∈ o.live, l.type = .negative ∧ l.filter.Means t := by
    rw [any_eq_true]
    constructor
    · rintro ⟨e, he, haccepts⟩
      have hl := (h.negative e).mp he
      exact ⟨_, hl, rfl, ((hfaithful _ hl).1 t).mp haccepts⟩
    · rintro ⟨⟨id, f, type⟩, hl, rfl, hmeans⟩
      exact ⟨(id, f), (h.negative (id, f)).mpr hl, ((hfaithful _ hl).1 t).mpr hmeans⟩
  have hpositive : (∃ e ∈ o.channel.positive.entries, e.2.1.accepts t = true) ↔
      ∃ l ∈ o.live, l.type ≠ .negative ∧ l.filter.Means t := by
    constructor
    · rintro ⟨e, he, haccepts⟩
      have hl := (h.positive e).mp he
      exact ⟨_, hl, typeOf_ne_negative _, ((hfaithful _ hl).1 t).mp haccepts⟩
    · rintro ⟨l, hl, htype, hmeans⟩
      obtain ⟨whole, -, hmem⟩ := h.exists_positive hl htype
      exact ⟨_, hmem, ((hfaithful l hl).1 t).mpr hmeans⟩
  have hwhole : (∀ e ∈ o.channel.positive.entries, e.2.2 = false) ↔
      ¬∃ l ∈ o.live, l.type = .positive := by
    constructor
    · rintro hall ⟨l, hl, htype⟩
      obtain ⟨whole, htype', hmem⟩ := h.exists_positive hl (by rw [htype]; decide)
      have hfalse : whole = false := hall _ hmem
      rw [hfalse, htype] at htype'
      cases htype'
    · intro hnone e he
      by_contra hwhole
      rw [Bool.not_eq_false] at hwhole
      have hl := (h.positive e).mp he
      rw [livePositive, hwhole] at hl
      exact hnone ⟨_, hl, rfl⟩
  unfold Channel.matches_ Observed.Forwards
  split_ifs with hany
  · rw [hnegative] at hany
    simp [hany]
  · rw [hnegative] at hany
    rw [verdict_fst, hpositive, hwhole]
    simp [hany]

/-- An addition changes one of the tables, by an assignment. -/
theorem after_add_negative (hf : f.isRefused = false) :
    o.after (.add f .negative) =
      ⟨{ o.channel with
          currentFilterId := o.channel.currentFilterId + 1
          negative := o.channel.negative.assign o.channel.currentFilterId f },
        ⟨o.channel.currentFilterId, f, .negative⟩ :: o.live⟩ := by
  simp [Observed.after, Channel.addFilter, Channel.addFilterIntern, hf]

theorem after_add_typeOf (hf : f.isRefused = false) (whole : Bool) :
    o.after (.add f (typeOf whole)) =
      ⟨{ o.channel with
          currentFilterId := o.channel.currentFilterId + 1
          positive := o.channel.positive.assign o.channel.currentFilterId (f, whole) },
        ⟨o.channel.currentFilterId, f, typeOf whole⟩ :: o.live⟩ := by
  cases whole <;>
  simp [Observed.after, Channel.addFilter, Channel.addFilterIntern, hf, typeOf]

/-- A table holds an added filter beside the others iff no other one has its id. The entries of the
table stand for filters of one kind. -/
theorem holds_assign_iff {V : Type} {m : OrderedMap FilterId V} {live : List Live}
    {stands : FilterId × V → Live} (kind : Live → Prop) (hinj : Function.Injective stands)
    (hid : ∀ e, (stands e).id = e.1) (hkind : ∀ l, kind l ↔ ∃ e, stands e = l)
    (h : ∀ e, e ∈ m.entries ↔ stands e ∈ live) (k : FilterId) (v : V) :
    (∀ e, e ∈ (m.assign k v).entries ↔ stands e ∈ stands (k, v) :: live) ↔
      ∀ l ∈ live, l.id = k → kind l → l = stands (k, v) := by
  have hadds : (∀ e, e ∈ (m.assign k v).entries ↔ stands e ∈ stands (k, v) :: live) ↔
      ∀ w, (k, w) ∈ m.entries → w = v := by
    rw [← OrderedMap.assign_adds_iff]
    refine forall_congr' fun e => ?_
    rw [mem_cons, hinj.eq_iff, h]
  rw [hadds]
  constructor
  · intro hw l hl hk hl'
    obtain ⟨⟨k', w⟩, rfl⟩ := (hkind l).mp hl'
    obtain rfl : k' = k := (hid (k', w)).symm.trans hk
    rw [hw w ((h _).mpr hl)]
  · intro hl w hw
    have heq := hl _ ((h _).mp hw) (hid _) ((hkind _).mpr ⟨_, rfl⟩)
    exact (Prod.mk.inj (hinj heq)).2

/-- An added filter is held beside the others iff no other one has its place in the table. -/
theorem held_add_iff (h : Held o) (type : FilterType) (hf : f.isRefused = false) :
    Held (o.after (.add f type)) ↔ ∀ l ∈ o.live, l.id = o.channel.currentFilterId →
      (l.type = .negative ↔ type = .negative) → l = ⟨o.channel.currentFilterId, f, type⟩ := by
  by_cases htype : type = .negative
  · rw [htype, after_add_negative hf]
    refine Iff.trans ?_ (holds_assign_iff
      (fun l => l.type = .negative ↔ FilterType.negative = .negative)
      liveNegative_injective (fun _ => rfl) ?_ h.negative _ f)
    · refine ⟨fun hheld => hheld.negative, fun hassign => ⟨hassign, fun e => ?_⟩⟩
      rw [h.positive, mem_cons]
      exact (or_iff_right fun heq => typeOf_ne_negative _ (Live.mk.inj heq).2.2).symm
    · rintro ⟨id, f', type'⟩
      simp [liveNegative, eq_comm]
  · obtain ⟨whole, rfl⟩ := exists_typeOf htype
    rw [after_add_typeOf hf]
    refine Iff.trans ?_ (holds_assign_iff (fun l => l.type = .negative ↔ typeOf whole = .negative)
      livePositive_injective (fun _ => rfl) ?_ h.positive _ (f, whole))
    · refine ⟨fun hheld => hheld.positive, fun hassign => ⟨fun e => ?_, hassign⟩⟩
      rw [h.negative, mem_cons]
      exact (or_iff_right fun heq => typeOf_ne_negative _ (Live.mk.inj heq).2.2.symm).symm
    · rintro ⟨id, f', type'⟩
      simp only [typeOf_ne_negative, iff_false]
      constructor
      · intro hne
        obtain ⟨whole', rfl⟩ := exists_typeOf hne
        exact ⟨(id, f', whole'), rfl⟩
      · rintro ⟨e, heq⟩
        rw [← (Live.mk.inj heq).2.2]
        exact typeOf_ne_negative _

theorem held_remove (h : Held o) (id : FilterId) : Held (o.after (.remove id)) := by
  constructor
  · intro e
    change e ∈ (o.channel.negative.erase id).entries ↔ _ ∈ o.live.filter _
    rw [OrderedMap.mem_erase, h.negative, mem_filter, decide_eq_true_eq]
    exact Iff.rfl
  · intro e
    change e ∈ (o.channel.positive.erase id).entries ↔ _ ∈ o.live.filter _
    rw [OrderedMap.mem_erase, h.positive, mem_filter, decide_eq_true_eq]
    exact Iff.rfl

end run

/-- What holds before every operation. -/
def Sound (o : Observed) : Prop := Held o ∧ ∀ l ∈ o.live, l.filter.Faithful

theorem after_add_of_refused {o : Observed} (hf : f.isRefused = true)
    (type : FilterType) : o.after (.add f type) = o := by
  simp [Observed.after, Channel.addFilter, hf]

/-- A proper operation keeps what the tables hold, and the filters that are added are faithful. -/
theorem Sound.after {o : Observed} (h : Sound o) {op : Operation} (hproper : Proper o op) :
    Sound (o.after op) := by
  obtain ⟨hheld, hfaithful⟩ := h
  cases op with
  | add f type =>
      rcases hf : f.isRefused with _ | _
      · refine ⟨(held_add_iff hheld type hf).mpr (hproper.2 hf), ?_⟩
        intro l hl
        simp only [Observed.after, hf, Bool.false_eq_true, if_false, mem_cons] at hl
        rcases hl with rfl | hl
        · exact f.faithful_iff_regular.mpr hproper.1
        · exact hfaithful l hl
      · rw [after_add_of_refused hf]
        exact ⟨hheld, hfaithful⟩
  | remove id =>
      refine ⟨held_remove hheld id, fun l hl => hfaithful l ?_⟩
      exact (mem_filter.mp hl).1

/-- **The filters of a trace channel** mean what they say, and decide every message of a run, iff
each addition is proper. -/
theorem channel_right_iff (ops : List Operation) :
    AllSteps Observed.step Right .new ops ↔ AllSteps Observed.step Proper .new ops := by
  apply AllSteps.iff_of_invariant Sound
  · intro o op out o' hsound hproper hstep
    obtain rfl := congrArg Prod.snd (Except.ok.inj hstep)
    exact hsound.after hproper
  · intro o op hsound
    constructor
    · intro hright
      cases op with
      | add f type =>
          refine ⟨f.faithful_iff_regular.mp (hright.faithful f type rfl), fun hf => ?_⟩
          exact (held_add_iff hsound.1 type hf).mp hright.held
      | remove id => trivial
    · intro hproper
      obtain ⟨hheld, hfaithful⟩ := hsound.after hproper
      refine ⟨?_, hheld, hheld.forwards_iff hfaithful⟩
      rintro f type rfl
      exact f.faithful_iff_regular.mpr hproper.1
  · refine ⟨⟨fun e => ?_, fun e => ?_⟩, fun l hl => nomatch hl⟩ <;>
    exact iff_of_false not_mem_nil not_mem_nil

/-- The filter of service 1 and method 2 does not accept the message that the list of this match
accepts, and the filter of no match accepts it. -/
theorem channel_not_faithful : (Filter.single ⟨1, any, 2⟩).accepts ⟨1, 3, 2⟩ = false ∧
      (Filter.list [⟨1, any, 2⟩]).accepts ⟨1, 3, 2⟩ = true ∧
      (Filter.list []).accepts ⟨1, 3, 2⟩ = true ∧
      ((Observed.new.after (.add (.single ⟨1, any, 2⟩) .positive)).channel.matches_ ⟨1, 3, 2⟩).1 =
        false := by
  decide

end SomeipTunnel.Tracing
