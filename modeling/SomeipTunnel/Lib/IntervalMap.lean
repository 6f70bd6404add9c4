import SomeipTunnel.Lib.Loop
import Mathlib

/-!
# Interval containers

Maps from numbers to values that are constant on intervals, and sets of numbers. The containers are
a parameter: `Containers` has their operations and the laws that are assumed of them, and nothing
else is known.

* Values that contain nothing are dropped (`exists_mem_value`).
* Adding a value on an interval adds what it contains there (`holds_add`). How the intervals of a
  map are cut, whether segments that touch are joined, and how their bounds are written, is left
  open, but for one number added to an empty map (`segments_add_single`).
* Nothing is assumed of the comparison (`equal`).

`Pointwise` maps have one segment for each number and meet the laws.
-/

namespace Icl

open List

/-! ### Intervals -/

/-- An interval of numbers, with open or closed bounds. -/
structure Interval where
  lower : ℕ
  upper : ℕ
  lowerOpen : Bool
  upperOpen : Bool
deriving DecidableEq, Repr

variable {path : List ℕ} {a x : ℕ}

namespace Interval

/-- The closed interval. -/
def closed (lower upper : ℕ) : Interval := ⟨lower, upper, false, false⟩

/-- The first number of the interval. -/
def start (I : Interval) : ℕ := if I.lowerOpen then I.lower + 1 else I.lower

/-- The first number behind the interval. -/
def stop (I : Interval) : ℕ := if I.upperOpen then I.upper else I.upper + 1

/-- `x` lies in the interval. -/
abbrev Contains (I : Interval) (x : ℕ) : Prop := I.start ≤ x ∧ x < I.stop

variable (I : Interval)

/-- A closed interval starts with its lower bound. -/
@[simp] theorem start_closed (a b : ℕ) : (closed a b).start = a := rfl

/-- A closed interval ends with its upper bound. -/
@[simp] theorem stop_closed (a b : ℕ) : (closed a b).stop = b + 1 := rfl

/-- No number of an interval is below its lower bound. -/
theorem lower_le_start : I.lower ≤ I.start := by
  unfold start
  split_ifs <;> omega

/-- No number of an interval is above its upper bound. -/
theorem stop_le : I.stop ≤ I.upper + 1 := by
  unfold stop
  split_ifs <;> omega

/-- The closed interval between a number and itself. -/
theorem contains_single : (closed a a).Contains x ↔ x = a := by
  simp only [Contains, start_closed, stop_closed]
  omega

end Interval

variable {ν : Type} {w : ℕ}

/-- A proper segment: not empty, with bounds of `w` bits. -/
def Proper (w : ℕ) (I : Interval) : Prop := I.start < I.stop ∧ I.upper < 2 ^ w

instance (w : ℕ) (I : Interval) : Decidable (Proper w I) := inferInstanceAs (Decidable (_ ∧ _))

/-- An interval between a number and itself contains that number alone. -/
theorem Proper.contains_iff_of_bounds {I : Interval} (h : Proper w I) (hlower : I.lower = a)
    (hupper : I.upper = a) : I.Contains x ↔ x = a := by
  have hstart := I.lower_le_start
  have hstop := I.stop_le
  have hne := h.1
  omega

/-- The closed intervals that are proper segments. -/
@[simp] theorem proper_closed {b : ℕ} : Proper w (.closed a b) ↔ a ≤ b ∧ b < 2 ^ w :=
  and_congr_left fun _ => Nat.lt_succ_iff

/-- One number is a proper segment. -/
theorem proper_single (h : a < 2 ^ w) : Proper w (.closed a a) :=
  proper_closed.mpr ⟨le_rfl, h⟩

/-! ### Values -/

/-- The values of a map, with the comparison and the sum that the map uses. What a value contains is
given by paths: the numbers under which it is found. -/
class Codomain (ν : Type) extends BEq ν where
  /-- The value contains the path. -/
  Mem : ν → List ℕ → Prop
  /-- The sum of two values. -/
  plus : ν → ν → ν
  mem_plus (u v : ν) (path : List ℕ) : Mem (plus u v) path ↔ Mem u path ∨ Mem v path

/-- The value of the numbers of a set. -/
instance : Codomain Unit where
  Mem _ path := path = []
  plus _ _ := ()
  mem_plus _ _ _ := or_self_iff.symm

/-- The first number of the path lies in a segment whose value contains the rest. -/
def Holds [Codomain ν] (segments : List (Interval × ν)) : List ℕ → Prop
  | [] => False
  | x :: path => ∃ s ∈ segments, s.1.Contains x ∧ Codomain.Mem s.2 path

/-- Segments hold what one of them holds. -/
theorem holds_iff_exists [Codomain ν] {segments : List (Interval × ν)} :
    Holds segments path ↔ ∃ s ∈ segments, Holds [s] path := by
  cases path <;> simp [Holds]

/-! ### The parameter -/

/-- Interval maps, by what is assumed of them. -/
class Containers where
  /-- Maps from numbers of `w` bits. -/
  IntervalMap (w : ℕ) (ν : Type) [Codomain ν] : Type
  /-- The map without segments. -/
  empty {w : ℕ} {ν : Type} [Codomain ν] : IntervalMap w ν
  /-- The segments, in the order of an iteration. -/
  segments {w : ℕ} {ν : Type} [Codomain ν] : IntervalMap w ν → List (Interval × ν)
  /-- Add a value on an interval. -/
  add {w : ℕ} {ν : Type} [Codomain ν] : IntervalMap w ν → Interval → ν → IntervalMap w ν
  /-- The comparison of two maps. -/
  equal {w : ℕ} {ν : Type} [Codomain ν] : IntervalMap w ν → IntervalMap w ν → Bool
  /-- The empty map has no segments. -/
  segments_empty {w : ℕ} {ν : Type} [Codomain ν] : segments (empty : IntervalMap w ν) = []
  /-- A segment is not empty, and its bounds have the width of the keys. -/
  proper_of_mem {w : ℕ} {ν : Type} [Codomain ν] {m : IntervalMap w ν} {s : Interval × ν} :
    s ∈ segments m → Proper w s.1
  /-- Segments are in order, without overlaps. -/
  pairwise_segments {w : ℕ} {ν : Type} [Codomain ν] (m : IntervalMap w ν) :
    (segments m).Pairwise fun s t => s.1.stop ≤ t.1.start
  /-- Empty values are dropped: the value of a segment contains something. -/
  exists_mem_value {w : ℕ} {ν : Type} [Codomain ν] {m : IntervalMap w ν} {s : Interval × ν} :
    s ∈ segments m → ∃ path, Codomain.Mem s.2 path
  /-- A sum contains what the map and the new segment contain. -/
  holds_add {w : ℕ} {ν : Type} [Codomain ν] {I : Interval} (m : IntervalMap w ν) (v : ν)
    (path : List ℕ) : Proper w I →
      (Holds (segments (add m I v)) path ↔ Holds (segments m) path ∨ Holds [(I, v)] path)
  /-- One number added to an empty map is stored as it was given, with a value that is not empty. -/
  segments_add_single {w : ℕ} {ν : Type} [Codomain ν] {a : ℕ} {v : ν} {path : List ℕ} :
    a < 2 ^ w → Codomain.Mem v path →
      segments (add (empty : IntervalMap w ν) (.closed a a) v) = [(.closed a a, v)]

/-- Maps are values themselves: the sum of two maps adds the segments of the second to the first. -/
instance [Containers] [Codomain ν] : Codomain (Containers.IntervalMap w ν) where
  beq := Containers.equal
  Mem m := Holds (Containers.segments m)
  plus m n := (Containers.segments n).foldl (fun m s => Containers.add m s.1 s.2) m
  mem_plus m _ path :=
    (Loop.foldl_collects (P := fun m => Holds (Containers.segments m) path)
      (fun m s hs => Containers.holds_add m s.2 path (Containers.proper_of_mem hs)) m).trans
      (or_congr_right holds_iff_exists.symm)

/-- A list of segments without overlaps has one segment for a number at most. -/
theorem map_find?_eq_some_iff {segments : List (Interval × ν)} {v : ν}
    (h : segments.Pairwise fun s t => s.1.stop ≤ t.1.start) :
    (segments.find? fun s => s.1.Contains x).map Prod.snd = some v ↔
      ∃ I, (I, v) ∈ segments ∧ I.Contains x := by
  induction segments with
  | nil => simp
  | cons s rest ih =>
      obtain ⟨hrest, htail⟩ := pairwise_cons.mp h
      by_cases hs : s.1.Contains x
      · rw [List.find?_cons_of_pos (by simpa using hs), Option.map_some, Option.some.injEq]
        constructor
        · rintro rfl
          exact ⟨s.1, mem_cons_self, hs⟩
        · rintro ⟨I, hI, hc⟩
          rcases mem_cons.mp hI with rfl | hI
          · rfl
          · have : s.1.stop ≤ I.start := hrest _ hI
            omega
      · rw [List.find?_cons_of_neg (by simpa using hs), ih htail]
        constructor
        · rintro ⟨I, hI, hc⟩
          exact ⟨I, mem_cons_of_mem _ hI, hc⟩
        · rintro ⟨I, hI, hc⟩
          rcases mem_cons.mp hI with rfl | hI
          · exact absurd hc hs
          · exact ⟨I, hI, hc⟩

/-- A set of numbers that is a union of intervals. -/
abbrev IntervalSet [Containers] (w : ℕ) := Containers.IntervalMap w Unit

namespace Containers.IntervalMap

variable [Containers] [Codomain ν] {m : IntervalMap w ν} {I : Interval} {v : ν} {x y z : ℕ}

/-- The value at a number. -/
def find (m : IntervalMap w ν) (x : ℕ) : Option ν :=
  ((segments m).find? fun s => s.1.Contains x).map Prod.snd

/-- How many numbers have a value. -/
def size (m : IntervalMap w ν) : ℕ := ((segments m).map fun s => s.1.stop - s.1.start).sum

/-- `x` has a value. -/
def has (m : IntervalMap w ν) (x : ℕ) : Bool := (m.find x).isSome

variable {w₂ w₃ : ℕ}

/-- `y` has a value in the map at `x`. -/
def has₂ (m : IntervalMap w (IntervalMap w₂ ν)) (x y : ℕ) : Bool := (m.find x).any (·.has y)

/-- `z` has a value in the map at `y` in the map at `x`. -/
def has₃ (m : IntervalMap w (IntervalMap w₂ (IntervalMap w₃ ν))) (x y z : ℕ) : Bool :=
  (m.find x).any (·.has₂ y z)

/-! ### Iterating and looking up -/

/-- **Iterating and looking up agree**: the segment that contains a number has its value. -/
theorem find_eq_some_iff : m.find x = some v ↔ ∃ I, (I, v) ∈ segments m ∧ I.Contains x :=
  map_find?_eq_some_iff (pairwise_segments m)

/-- Nothing is found in an empty map. -/
@[simp] theorem find_empty : (empty : IntervalMap w ν).find x = none := by
  simp [find, segments_empty]

/-- An empty map has no numbers. -/
@[simp] theorem has_empty : (empty : IntervalMap w ν).has x = false := by simp [has]

/-- The same in a map to maps. -/
@[simp] theorem has₂_empty : (empty : IntervalMap w (IntervalMap w₂ ν)).has₂ x y = false := by
  simp [has₂]

/-- The same one level deeper. -/
@[simp] theorem has₃_empty :
    (empty : IntervalMap w (IntervalMap w₂ (IntervalMap w₃ ν))).has₃ x y z = false := by
  simp [has₃]

/-- A property of the value at a number, by iteration. -/
theorem any_find_iff {p : ν → Bool} :
    (m.find x).any p = true ↔ ∃ s ∈ segments m, s.1.Contains x ∧ p s.2 = true := by
  have hsome : (m.find x).any p = true ↔ ∃ v, m.find x = some v ∧ p v = true := by
    cases m.find x <;> simp
  rw [hsome]
  simp only [find_eq_some_iff]
  exact ⟨fun ⟨v, ⟨I, hI, hx⟩, hv⟩ => ⟨(I, v), hI, hx, hv⟩,
    fun ⟨s, hs, hx, hv⟩ => ⟨s.2, ⟨s.1, hs, hx⟩, hv⟩⟩

/-- The numbers that have a value, by iteration. -/
theorem has_iff : m.has x = true ↔ ∃ s ∈ segments m, s.1.Contains x := by
  have : m.has x = (m.find x).any fun _ => true := by
    unfold has
    cases m.find x <;> rfl
  rw [this, any_find_iff]
  simp

/-- The same in a map to maps. -/
theorem has₂_iff {m : IntervalMap w (IntervalMap w₂ ν)} :
    m.has₂ x y = true ↔ ∃ s ∈ segments m, s.1.Contains x ∧ s.2.has y = true := any_find_iff

/-- The same one level deeper. -/
theorem has₃_iff {m : IntervalMap w (IntervalMap w₂ (IntervalMap w₃ ν))} :
    m.has₃ x y z = true ↔ ∃ s ∈ segments m, s.1.Contains x ∧ s.2.has₂ y z = true := any_find_iff

/-- A map with a value for one number only has one segment. -/
theorem tail_eq_nil_of_size {s : Interval × ν} {rest : List (Interval × ν)} (h : m.size = 1)
    (hsegments : segments m = s :: rest) : rest = [] := by
  rcases rest with _ | ⟨t, rest⟩
  · rfl
  · have hs := (proper_of_mem (m := m) (s := s) (by simp [hsegments])).1
    have ht := (proper_of_mem (m := m) (s := t) (by simp [hsegments])).1
    simp only [size, hsegments, map_cons, sum_cons] at h
    omega

/-! ### What the containers hold -/

section holds

variable {s : IntervalSet w} {m : IntervalMap w (IntervalSet w₂)}
  {r : IntervalMap w (IntervalMap w₂ (IntervalSet w₃))}

/-- The paths of a set. -/
theorem mem_set : Codomain.Mem s path ↔ ∃ x, path = [x] ∧ s.has x = true := by
  rcases path with _ | ⟨x, path⟩
  · exact iff_of_false id (by simp)
  · simp only [Codomain.Mem, Holds, List.cons.injEq, has_iff]
    constructor
    · rintro ⟨t, ht, hx, hpath⟩
      exact ⟨x, ⟨rfl, hpath⟩, t, ht, hx⟩
    · rintro ⟨_, ⟨rfl, hpath⟩, t, ht, hx⟩
      exact ⟨t, ht, hx, hpath⟩

/-- The paths of a map to sets. -/
theorem mem_map : Codomain.Mem m path ↔ ∃ x y, path = [x, y] ∧ m.has₂ x y = true := by
  rcases path with _ | ⟨x, path⟩
  · exact iff_of_false id (by simp)
  · have hcons : Codomain.Mem m (x :: path) ↔
        ∃ t ∈ segments m, t.1.Contains x ∧ Codomain.Mem t.2 path := Iff.rfl
    simp only [hcons, mem_set, List.cons.injEq, has₂_iff]
    constructor
    · rintro ⟨t, ht, hx, y, hpath, hy⟩
      exact ⟨x, y, ⟨rfl, hpath⟩, t, ht, hx, hy⟩
    · rintro ⟨_, y, ⟨rfl, hpath⟩, t, ht, hx, hy⟩
      exact ⟨t, ht, hx, y, hpath, hy⟩

/-- The paths of a map to maps to sets. -/
theorem mem_map₂ : Codomain.Mem r [x, y, z] ↔ r.has₃ x y z = true := by
  rw [has₃_iff]
  refine exists_congr fun t => and_congr_right fun _ => and_congr_right fun _ => ?_
  rw [mem_map]
  simp

/-- What an interval adds to a set. -/
theorem has_add (h : Proper w I) : (add s I ()).has x = (s.has x || decide (I.Contains x)) := by
  have hadd := holds_add s () [x] h
  change Codomain.Mem (add s I ()) [x] ↔ Codomain.Mem s [x] ∨ _ at hadd
  rw [mem_set, mem_set] at hadd
  rw [Bool.eq_iff_iff, Bool.or_eq_true, decide_eq_true_iff]
  simpa [Holds, Codomain.Mem] using hadd

/-- What a set on an interval adds to a map. -/
theorem has₂_add {v : IntervalSet w₂} (h : Proper w I) :
    (add m I v).has₂ x y = (m.has₂ x y || (decide (I.Contains x) && v.has y)) := by
  have hadd := holds_add m v [x, y] h
  change Codomain.Mem (add m I v) [x, y] ↔ Codomain.Mem m [x, y] ∨ _ at hadd
  rw [mem_map, mem_map] at hadd
  rw [Bool.eq_iff_iff, Bool.or_eq_true, Bool.and_eq_true, decide_eq_true_iff]
  simpa [Holds, mem_set] using hadd

/-- What a map on an interval adds to a map. -/
theorem has₃_add {v : IntervalMap w₂ (IntervalSet w₃)} (h : Proper w I) :
    (add r I v).has₃ x y z = (r.has₃ x y z || (decide (I.Contains x) && v.has₂ y z)) := by
  have hadd := holds_add r v [x, y, z] h
  change Codomain.Mem (add r I v) [x, y, z] ↔ Codomain.Mem r [x, y, z] ∨ _ at hadd
  rw [mem_map₂, mem_map₂] at hadd
  rw [Bool.eq_iff_iff, Bool.or_eq_true, Bool.and_eq_true, decide_eq_true_iff]
  simpa [Holds, mem_map] using hadd

/-- A number has a set iff it has a number of one: no set is empty. -/
theorem has_iff_exists : m.has x = true ↔ ∃ y, m.has₂ x y = true := by
  simp only [has_iff (m := m), has₂_iff]
  constructor
  · rintro ⟨t, ht, hx⟩
    obtain ⟨path, hpath⟩ := exists_mem_value ht
    obtain ⟨y, -, hy⟩ := mem_set.mp hpath
    exact ⟨y, t, ht, hx, hy⟩
  · rintro ⟨y, t, ht, hx, -⟩
    exact ⟨t, ht, hx⟩

/-- The same one level deeper. -/
theorem has₂_iff_exists : r.has₂ x y = true ↔ ∃ z, r.has₃ x y z = true := by
  simp only [has₂_iff, has₃_iff, has_iff_exists]
  constructor
  · rintro ⟨t, ht, hx, z, hz⟩
    exact ⟨z, t, ht, hx, hz⟩
  · rintro ⟨z, t, ht, hx, hz⟩
    exact ⟨t, ht, hx, z, hz⟩

/-- A map has segments iff it contains something. -/
theorem segments_ne_nil_iff : segments r ≠ [] ↔ ∃ x y z, r.has₃ x y z = true := by
  simp only [has₃_iff]
  constructor
  · intro hne
    obtain ⟨t, ht⟩ := exists_mem_of_ne_nil _ hne
    obtain ⟨path, hpath⟩ := exists_mem_value ht
    obtain ⟨y, z, -, hyz⟩ := mem_map.mp hpath
    exact ⟨t.1.start, y, z, t, ht, ⟨le_rfl, (proper_of_mem ht).1⟩, hyz⟩
  · rintro ⟨x, y, z, t, ht, -⟩
    exact ne_nil_of_mem ht

end holds

end Containers.IntervalMap

/-! ### The laws can be met -/

/-- One number of a range. -/
theorem filterMap_range_single {α : Type*} {f : ℕ → Option α} {n : ℕ} {b : α} (ha : a < n)
    (hsome : f a = some b)
    (hnone : ∀ x, x ≠ a → f x = none) : (List.range n).filterMap f = [b] := by
  obtain ⟨k, rfl⟩ := Nat.exists_eq_add_of_lt ha
  rw [show a + k + 1 = a + (1 + k) by omega, range_add, range_add, filterMap_append,
    map_append, filterMap_append]
  have hbefore : (List.range a).filterMap f = [] :=
    filterMap_eq_nil_iff.mpr fun x hx => hnone x (mem_range.mp hx).ne
  have hbehind : ((((List.range k).map (1 + ·)).map (a + ·))).filterMap f = [] := by
    refine filterMap_eq_nil_iff.mpr fun x hx => hnone x ?_
    simp only [mem_map] at hx
    obtain ⟨_, ⟨i, -, rfl⟩, rfl⟩ := hx
    omega
  rw [hbefore, hbehind]
  simp [hsome]

/-- A map with one segment for each number: its values, none of them empty. -/
structure Pointwise (w : ℕ) (ν : Type) [Codomain ν] where
  value : ℕ → Option ν
  value_spec {x : ℕ} {v : ν} : value x = some v → x < 2 ^ w ∧ ∃ path, Codomain.Mem v path

namespace Pointwise

variable [Codomain ν]

/-- A segment for each number that has a value. -/
def segments (m : Pointwise w ν) : List (Interval × ν) :=
  (List.range (2 ^ w)).filterMap fun x => (m.value x).map fun v => (.closed x x, v)

open Classical in
/-- The value is added at each number of the interval, if it contains something. -/
noncomputable def add (m : Pointwise w ν) (I : Interval) (v : ν) : Pointwise w ν where
  value x :=
    if (x < 2 ^ w ∧ I.Contains x) ∧ ∃ path, Codomain.Mem v path then
      some ((m.value x).elim v (Codomain.plus · v))
    else m.value x
  value_spec {x u} h := by
    split_ifs at h with hx
    · obtain ⟨path, hpath⟩ := hx.2
      refine ⟨hx.1.1, path, ?_⟩
      obtain rfl := Option.some.inj h
      rcases m.value x with _ | u
      · exact hpath
      · exact (Codomain.mem_plus u v path).mpr (Or.inr hpath)
    · exact m.value_spec h

variable {m : Pointwise w ν}

/-- The segments are the values. -/
theorem mem_segments {s : Interval × ν} :
    s ∈ m.segments ↔ ∃ x, s.1 = .closed x x ∧ m.value x = some s.2 := by
  simp only [segments, mem_filterMap, mem_range, Option.map_eq_some_iff]
  constructor
  · rintro ⟨x, -, v, hv, rfl⟩
    exact ⟨x, rfl, hv⟩
  · rintro ⟨x, hx, hv⟩
    exact ⟨x, (m.value_spec hv).1, s.2, hv, by rw [← hx]⟩

/-- The paths of a map, by its values. -/
theorem holds_cons :
    Holds m.segments (x :: path) ↔ ∃ v, m.value x = some v ∧ Codomain.Mem v path := by
  simp only [Holds, mem_segments]
  constructor
  · rintro ⟨⟨_, v⟩, ⟨y, rfl, hv⟩, hx, hpath⟩
    obtain rfl := Interval.contains_single.mp hx
    exact ⟨v, hv, hpath⟩
  · rintro ⟨v, hv, hpath⟩
    exact ⟨(.closed x x, v), ⟨x, rfl, hv⟩, Interval.contains_single.mpr rfl, hpath⟩

/-- What a sum contains. -/
theorem holds_add {I : Interval} {v : ν} (h : Proper w I) :
    Holds (m.add I v).segments path ↔ Holds m.segments path ∨ Holds [(I, v)] path := by
  rcases path with _ | ⟨x, path⟩
  · simp [Holds]
  · have hone : Holds [(I, v)] (x :: path) ↔ I.Contains x ∧ Codomain.Mem v path := by simp [Holds]
    rw [holds_cons, holds_cons, hone]
    by_cases hx : (x < 2 ^ w ∧ I.Contains x) ∧ ∃ path, Codomain.Mem v path
    · have hvalue : (m.add I v).value x = some ((m.value x).elim v (Codomain.plus · v)) := if_pos hx
      rw [hvalue, and_iff_right hx.1.2]
      rcases m.value x with _ | u
      · simp
      · simp [Codomain.mem_plus]
    · have hvalue : (m.add I v).value x = m.value x := if_neg hx
      rw [hvalue, iff_self_or]
      rintro ⟨hc, hv⟩
      have := I.stop_le
      have := h.2
      exact absurd ⟨⟨by have := hc.2; omega, hc⟩, path, hv⟩ hx

/-- **The laws of the containers can be met.** -/
noncomputable scoped instance containers : Containers where
  IntervalMap w ν _ := Pointwise w ν
  empty := ⟨fun _ => none, fun h => nomatch h⟩
  segments := segments
  add := add
  equal m n := m.segments == n.segments
  segments_empty := by simp [segments]
  proper_of_mem h := by
    obtain ⟨x, hx, hv⟩ := mem_segments.mp h
    rw [hx]
    exact proper_single (value_spec _ hv).1
  pairwise_segments m := by
    refine pairwise_lt_range.filterMap _ fun x y hxy s hs t ht => ?_
    obtain ⟨_, -, rfl⟩ := Option.map_eq_some_iff.mp hs
    obtain ⟨_, -, rfl⟩ := Option.map_eq_some_iff.mp ht
    exact hxy
  exists_mem_value h := by
    obtain ⟨x, -, hv⟩ := mem_segments.mp h
    exact (value_spec _ hv).2
  holds_add _ _ _ h := holds_add h
  segments_add_single {w ν _ a v path} ha hv := by
    have hne : ∃ path, Codomain.Mem v path := ⟨path, hv⟩
    refine filterMap_range_single ha ?_ fun x hx => ?_
    · simp [add, ha, hne]
    · have hout : ¬ (Interval.closed a a).Contains x := mt Interval.contains_single.mp hx
      simp [add, hout]

end Pointwise

end Icl
