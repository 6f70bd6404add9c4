import SomeipTunnel.Lib.Run
import SomeipTunnel.Someip.Deserializer

/-!
# Runs of a deserializer

A `deserializer` object is used for one message after the other: its vector is set, appended to and
cleared, and `position_` and `remaining_` are moved by a dozen operations independently. `step` is
the model of one operation. It stops with a fault where a byte outside of `data_` is read or where
`position_` leaves the vector.

`deserializer_right_iff`: in a run of any operations nothing outside of `data_` is read and after
each operation `position_` is a position of `data_` with at least `remaining_` bytes behind it, iff
each operation is `Safe`. Three of them need not be:

* a look-ahead accepts one byte more than the remaining ones, so at the end of `data_` it reads
  behind it, and an index whose sum with the width wraps around is accepted as well;
* `drop_data` moves `position_` without counting down `remaining_`;
* `reset` takes `position_` from the cleared vector before it lets the vector release its storage.

Source: vsomeip/implementation/message/src/deserializer.cpp
-/

namespace SomeipTunnel.Someip

open Codec Cursor StepRun

/-! ### The code -/

/-- The cursor is `data_`, `position_` and `remaining_`. -/
structure Deserializer where
  cursor : Cursor
  /-- The capacity of `data_`. -/
  capacity : ℕ
  /-- `position_` points into storage that `data_` has released. -/
  released : Bool
  bufferShrinkThreshold : ℕ
  shrinkCount : ℕ

/-- Source: the constructor with data; the one without is the case of no data -/
def Deserializer.new (data : List UInt8) (bufferShrinkThreshold : ℕ) : Deserializer :=
  ⟨.start data, data.length, false, bufferShrinkThreshold, 0⟩

/-- What an operation gives back. -/
inductive Answer where
  | refused
  | number (value : ℕ)
  | bytes (value : List UInt8)
  | done
deriving DecidableEq, Repr

/-- Fill a string that has the given capacity.
Source: `deserializer::deserialize(std::string&, std::size_t)` -/
def deserializeString (length capacity : ℕ) : Parse (List UInt8) := fun c =>
  if length > c.remaining ∨ length > capacity then Parse.fail c else Parse.take length c

/-- The distance of a `std::size_t`, which is converted to a signed number. -/
def distance (n : UInt64) : ℤ := n.toBitVec.toInt

/-- A number of `width` bytes at an index behind the position. The sum of the check wraps around.
Source: `deserializer::look_ahead` of 16 and of 32 bits -/
def lookAheadWord (width : ℕ) (index : UInt64) : Parse ℕ := fun c =>
  let first : ℤ := c.position + distance index
  if (index.toNat + (width - 1)) % 2 ^ 64 > c.remaining then Parse.fail c
  else if 0 ≤ first ∧ first + width ≤ c.data.length then
    .ok (some (ofBytes ((c.data.drop first.toNat).take width)),
      { c with strayed := c.strayed ||
          decide (¬(0 ≤ distance index ∧ distance index + width ≤ c.remaining)) })
  else .error .outside

/-- Source: `deserializer::look_ahead(std::size_t, uint8_t&)` -/
def lookAhead8 (index : UInt64) : Parse UInt8 := Parse.lookAhead index.toNat

/-- Source: `deserializer::look_ahead(std::size_t, uint16_t&)` -/
def lookAhead16 (index : UInt64) : Parse ℕ := lookAheadWord 2 index

/-- Source: `deserializer::look_ahead(std::size_t, uint32_t&)` -/
def lookAhead32 (index : UInt64) : Parse ℕ := lookAheadWord 4 index

namespace Deserializer

variable (d : Deserializer)

/-- An operation that only reads. -/
def read {α : Type} (p : Parse α) (answer : α → Answer) : Except Fault (Answer × Deserializer) :=
  match p d.cursor with
  | .error e => .error e
  | .ok (none, c) => .ok (.refused, { d with cursor := c })
  | .ok (some a, c) => .ok (answer a, { d with cursor := c })

/-- The capacity after the vector had to hold a number of bytes; `chosen` is what the allocator
gives if the old one is not enough. -/
def grown (needed chosen : ℕ) : ℕ := if needed ≤ d.capacity then d.capacity else max needed chosen

/-- Source: `deserializer::set_remaining` -/
def setRemaining (remaining : ℕ) : Deserializer := { d with cursor := d.cursor.limit remaining }

/-- Source: both `deserializer::set_data`; no data is the null pointer -/
def setData (data : Option (List UInt8)) (chosen : ℕ) : Deserializer :=
  match data with
  | some data =>
      { d with
        cursor := ⟨data, 0, data.length, d.cursor.strayed⟩
        capacity := d.grown data.length chosen
        released := false }
  | none => { d with cursor := ⟨[], 0, 0, d.cursor.strayed⟩, released := false }

/-- Source: `deserializer::append_data` -/
def appendData (data : List UInt8) (chosen : ℕ) : Except Fault Deserializer :=
  if d.released then .error .outside
  else .ok { d with
    cursor := { d.cursor with
      data := d.cursor.data ++ data
      remaining := d.cursor.remaining + data.length }
    capacity := d.grown (d.cursor.data.length + data.length) chosen }

/-- Source: `deserializer::drop_data`; `remaining_` stays as it is -/
def dropData (length : UInt64) : Except Fault Deserializer :=
  let target : ℤ := d.cursor.position + distance length
  if d.released ∨ target < 0 then .error .outside
  else
    let position := if target < d.cursor.data.length then target.toNat else d.cursor.data.length
    .ok { d with cursor := { d.cursor with position := position } }

/-- The vector was less than half full, for more times in a row than the threshold. -/
def Shrinks : Prop :=
  d.bufferShrinkThreshold ≠ 0 ∧ d.cursor.data.length < d.capacity / 2 ∧
    (d.shrinkCount + 1) % 2 ^ 32 > d.bufferShrinkThreshold

instance : Decidable d.Shrinks := inferInstanceAs (Decidable (_ ∧ _))

/-- Source: `deserializer::reset` -/
def reset : Deserializer :=
  let itsCount :=
    if d.bufferShrinkThreshold = 0 then d.shrinkCount
    else if d.cursor.data.length < d.capacity / 2 then (d.shrinkCount + 1) % 2 ^ 32
    else 0
  let cleared : Deserializer :=
    { d with cursor := ⟨[], 0, 0, d.cursor.strayed⟩, released := false, shrinkCount := itsCount }
  if d.bufferShrinkThreshold ≠ 0 ∧ itsCount > d.bufferShrinkThreshold then
    -- `shrink_to_fit` behind `position_ = data_.begin()`
    { cleared with capacity := 0, released := true, shrinkCount := 0 }
  else cleared

end Deserializer

/-- The operations with their arguments. -/
inductive Operation where
  | deserialize8
  | deserialize16
  | deserialize32 (omitLastByte : Bool)
  | deserializeArray (length : ℕ)
  | deserializeString (length capacity : ℕ)
  | deserializeVector (capacity : ℕ)
  | lookAhead8 (index : UInt64)
  | lookAhead16 (index : UInt64)
  | lookAhead32 (index : UInt64)
  | setRemaining (remaining : ℕ)
  | setData (data : Option (List UInt8)) (chosen : ℕ)
  | appendData (data : List UInt8) (chosen : ℕ)
  | dropData (length : UInt64)
  | reset

namespace Deserializer

/-- One operation. -/
def step (d : Deserializer) : Operation → Except Fault (Answer × Deserializer)
  | .deserialize8 => d.read Someip.deserialize8 fun v => .number v.toNat
  | .deserialize16 => d.read Someip.deserialize16 fun v => .number v.toNat
  | .deserialize32 omitLastByte =>
      d.read (Someip.deserialize32 omitLastByte) fun v => .number v.toNat
  | .deserializeArray length => d.read (Parse.bytes length) .bytes
  | .deserializeString length capacity => d.read (Someip.deserializeString length capacity) .bytes
  | .deserializeVector capacity => d.read (Someip.deserializeVector capacity) .bytes
  | .lookAhead8 index => d.read (Someip.lookAhead8 index) fun v => .number v.toNat
  | .lookAhead16 index => d.read (Someip.lookAhead16 index) .number
  | .lookAhead32 index => d.read (Someip.lookAhead32 index) .number
  | .setRemaining remaining => .ok (.done, d.setRemaining remaining)
  | .setData data chosen => .ok (.done, d.setData data chosen)
  | .appendData data chosen => (d.appendData data chosen).map fun d' => (.done, d')
  | .dropData length => (d.dropData length).map fun d' => (.done, d')
  | .reset => .ok (.done, d.reset)

/-! ### What an operation needs -/

/-- `position_` is a position of `data_`, and `remaining_` bytes are behind it. -/
def Right (d : Deserializer) : Prop := d.released = false ∧ d.cursor.Sound

/-- Bytes at an index behind the position, if the look-ahead accepts them, lie inside of `data_`. -/
def Ahead (d : Deserializer) (width : ℕ) (index : UInt64) : Prop :=
  (index.toNat + (width - 1)) % 2 ^ 64 ≤ d.cursor.remaining →
    0 ≤ d.cursor.position + distance index ∧
      d.cursor.position + distance index + width ≤ d.cursor.data.length

/-- What an operation needs to keep the cursor right. -/
def Safe (d : Deserializer) : Operation → Prop
  | .lookAhead8 index => index.toNat ≤ d.cursor.remaining →
      d.cursor.position + index.toNat < d.cursor.data.length
  | .lookAhead16 index => d.Ahead 2 index
  | .lookAhead32 index => d.Ahead 4 index
  | .setRemaining remaining => d.cursor.position + remaining ≤ d.cursor.data.length
  | .dropData length => 0 ≤ d.cursor.position + distance length ∧
      (d.cursor.remaining = 0 ∨
        d.cursor.position + distance length + d.cursor.remaining ≤ d.cursor.data.length)
  | .reset => ¬d.Shrinks
  | _ => True

/-- The operation succeeds and leaves the cursor right. -/
def Keeps (d : Deserializer) (op : Operation) : Prop :=
  ∃ answer d', d.step op = .ok (answer, d') ∧ d'.Right

/-! ### One operation -/

section operation

variable {α : Type} {d : Deserializer} {answer : α → Answer}

/-- An operation that cannot fail. -/
theorem exists_ok_right_iff (d' : Deserializer) :
    (∃ a d'', (.ok (.done, d') : Except Fault (Answer × Deserializer)) = .ok (a, d'') ∧
      d''.Right) ↔ d'.Right := by
  simp

/-- An operation that gives nothing back. -/
theorem exists_map_right_iff (e : Except Fault Deserializer) :
    (∃ a d', (e.map fun d' => (Answer.done, d')) = .ok (a, d') ∧ d'.Right) ↔
      ∃ d', e = .ok d' ∧ d'.Right := by
  rcases e with e | d'
  · simp [Except.map]
  · simp [Except.map]

/-- An operation that reads succeeds and leaves a right cursor iff its parser does. -/
theorem exists_read_right_iff (h : d.Right) (p : Parse α) :
    (∃ a d', d.read p answer = .ok (a, d') ∧ d'.Right) ↔
      ∃ r c, p d.cursor = .ok (r, c) ∧ c.Sound := by
  unfold read
  rcases p d.cursor with e | ⟨_ | a, c⟩
  · simp
  · constructor
    · rintro ⟨_, _, ⟨⟩, hright⟩
      exact ⟨_, _, rfl, hright.2⟩
    · rintro ⟨_, _, ⟨⟩, hsound⟩
      exact ⟨_, _, rfl, h.1, hsound⟩
  · constructor
    · rintro ⟨_, _, ⟨⟩, hright⟩
      exact ⟨_, _, rfl, hright.2⟩
    · rintro ⟨_, _, ⟨⟩, hsound⟩
      exact ⟨_, _, rfl, h.1, hsound⟩

/-- A read that follows a decoder stays among the remaining bytes. -/
theorem read_right_of_follows (h : d.Right) {p : Parse α} {decoder : Decoder α}
    (hp : Parse.Follows p decoder) : ∃ a d', d.read p answer = .ok (a, d') ∧ d'.Right := by
  rw [exists_read_right_iff h]
  obtain ⟨n, hn, hrun, -⟩ := hp d.cursor h.2
  exact ⟨_, _, hrun, h.2.leaving hn⟩

/-- A string that is too small is refused; otherwise the bytes are read as those of a vector. -/
theorem read_string_right (h : d.Right) (length capacity : ℕ) :
    d.Keeps (.deserializeString length capacity) := by
  by_cases hcap : length > capacity
  · refine (exists_read_right_iff h _).mpr ⟨none, d.cursor, ?_, h.2⟩
    rw [Someip.deserializeString, if_pos (.inr hcap)]
    rfl
  · have heq : Someip.deserializeString length capacity = Parse.bytes length := by
      funext c
      simp only [Someip.deserializeString, Parse.bytes, hcap, or_false]
    unfold Keeps step
    dsimp only
    rw [heq]
    exact read_right_of_follows h (Parse.follows_bytes length)

theorem keeps_lookAhead8_iff (h : d.Right) (index : UInt64) :
    d.Keeps (.lookAhead8 index) ↔ d.Safe (.lookAhead8 index) := by
  refine (exists_read_right_iff h _).trans ?_
  unfold Someip.lookAhead8 Parse.lookAhead Safe
  split_ifs with hindex
  · refine iff_of_true ⟨none, d.cursor, rfl, h.2⟩ fun hle => ?_
    omega
  · rw [Parse.peek]
    rcases hget : d.cursor.data[d.cursor.position + index.toNat]? with _ | b
    · rw [List.getElem?_eq_none_iff] at hget
      simp only [reduceCtorEq, false_and, exists_false, false_iff]
      omega
    · obtain ⟨hlt, -⟩ := List.getElem?_eq_some_iff.mp hget
      exact iff_of_true ⟨_, _, rfl, h.2⟩ fun _ => hlt

theorem exists_lookAheadWord_iff (h : d.Right) (width : ℕ) (index : UInt64) :
    (∃ r c, lookAheadWord width index d.cursor = .ok (r, c) ∧ c.Sound) ↔ d.Ahead width index := by
  unfold lookAheadWord Ahead
  dsimp only
  split_ifs with hindex hinside
  · refine iff_of_true ⟨none, d.cursor, rfl, h.2⟩ fun hle => ?_
    omega
  · exact iff_of_true ⟨_, _, rfl, h.2⟩ fun _ => hinside
  · simp only [false_and, exists_false, false_iff]
    exact fun hahead => hinside (hahead (not_lt.mp hindex))

theorem setData_right (data : Option (List UInt8)) (chosen : ℕ) :
    (d.setData data chosen).Right := by
  rcases data with _ | data
  · exact ⟨rfl, Nat.le_refl 0⟩
  · exact ⟨rfl, (Nat.zero_add _).le⟩

theorem appendData_right (h : d.Right) (data : List UInt8) (chosen : ℕ) :
    ∃ d', d.appendData data chosen = .ok d' ∧ d'.Right := by
  obtain ⟨hreleased, hsound⟩ := h
  unfold appendData
  rw [if_neg (by simp [hreleased])]
  refine ⟨_, rfl, hreleased, ?_⟩
  unfold Cursor.Sound at hsound ⊢
  rw [List.length_append]
  dsimp only
  omega

theorem exists_dropData_right_iff (h : d.Right) (length : UInt64) :
    (∃ d', d.dropData length = .ok d' ∧ d'.Right) ↔ d.Safe (.dropData length) := by
  obtain ⟨hreleased, hsound⟩ := h
  unfold dropData Safe
  simp only [hreleased, Bool.false_eq_true, false_or]
  split_ifs with hout hinside
  · simp only [false_and, exists_false, false_iff]
    omega
  all_goals
    simp only [Except.ok.injEq, exists_eq_left', Right, true_and, Cursor.Sound]
    omega

theorem reset_right_iff : d.reset.Right ↔ ¬d.Shrinks := by
  unfold reset Shrinks Right
  dsimp only
  split_ifs <;> simp_all [Cursor.Sound]

/-- An operation on a right cursor succeeds and leaves a right one iff it is safe. -/
theorem keeps_iff_safe (h : d.Right) (op : Operation) : d.Keeps op ↔ d.Safe op := by
  cases op with
  | deserialize8 => exact iff_of_true (read_right_of_follows h follows_deserialize8) trivial
  | deserialize16 => exact iff_of_true (read_right_of_follows h follows_deserialize16) trivial
  | deserialize32 omitLastByte =>
      exact iff_of_true (read_right_of_follows h (follows_deserialize32 omitLastByte)) trivial
  | deserializeArray length =>
      exact iff_of_true (read_right_of_follows h (Parse.follows_bytes length)) trivial
  | deserializeString length capacity => exact iff_of_true (read_string_right h _ _) trivial
  | deserializeVector capacity =>
      exact iff_of_true (read_right_of_follows h (Parse.follows_bytes capacity)) trivial
  | lookAhead8 index => exact keeps_lookAhead8_iff h index
  | lookAhead16 index =>
      exact (exists_read_right_iff h _).trans (exists_lookAheadWord_iff h 2 index)
  | lookAhead32 index =>
      exact (exists_read_right_iff h _).trans (exists_lookAheadWord_iff h 4 index)
  | setRemaining remaining => exact (exists_ok_right_iff _).trans (and_iff_right h.1)
  | setData data chosen => exact iff_of_true ⟨_, _, rfl, setData_right data chosen⟩ trivial
  | appendData data chosen =>
      exact iff_of_true ((exists_map_right_iff _).mpr (appendData_right h data chosen)) trivial
  | dropData length => exact (exists_map_right_iff _).trans (exists_dropData_right_iff h length)
  | reset => exact (exists_ok_right_iff _).trans reset_right_iff

end operation

/-- **The cursor of a deserializer** is right along a run of any operations from any data iff each
operation is safe. -/
theorem deserializer_right_iff (data : List UInt8) (bufferShrinkThreshold : ℕ)
    (ops : List Operation) : AllSteps step Keeps (.new data bufferShrinkThreshold) ops ↔
      AllSteps step Safe (.new data bufferShrinkThreshold) ops := by
  apply AllSteps.iff_of_invariant Right
  · intro d op answer d' hright hsafe hstep
    obtain ⟨a, d₁, hstep', hright'⟩ := (keeps_iff_safe hright op).mpr hsafe
    obtain ⟨-, rfl⟩ := ok_unique hstep hstep'
    exact hright'
  · intro d op hright
    exact keeps_iff_safe hright op
  · exact ⟨rfl, sound_start data⟩

/-- A look-ahead to the first byte of no data reads outside, a byte that is dropped is still counted
as remaining, and a vector that is reset while it is hardly used leaves `position_` behind. -/
theorem deserializer_not_right : run step (.new [] 0) [.lookAhead8 0] = .error .outside ∧
      (∃ answers d, run step (.new [1, 2] 0) [.dropData 1] = .ok (answers, d) ∧
        d.cursor.position + d.cursor.remaining = 3 ∧ d.cursor.data.length = 2) ∧
      (∃ answers d, run step (.new [1, 2, 3, 4] 1)
          [.reset, .setData (some [1]) 0, .reset, .setData (some [1]) 0, .reset] =
            .ok (answers, d) ∧ d.released = true) := by
  refine ⟨rfl, ⟨_, _, rfl, rfl, rfl⟩, ⟨_, _, rfl, rfl⟩⟩

end Deserializer

end SomeipTunnel.Someip
