import SomeipTunnel.Lib.Run
import SomeipTunnel.E2e.Profile

/-!
# The counters of a stream of buffers

A receiver checks the buffers of one instance one after the other. It should accept the first one,
and a later one iff its counter is between `1` and `maxDeltaCounter` ahead of the counter of the last
buffer that it accepted (`Accepts`). `verify_counter` stores the counter of the first buffer and no
other, and measures one too little where the counter has wrapped (`delta_le_iff`). So the verdicts
are the expected ones exactly as long as each buffer meets `Tracked`, a condition on its counter, the
stored one and the last accepted one (`verdicts_expected_iff`).

`third_in_order_refused` is a stream of three buffers in order, without a loss, whose third is refused.
-/

namespace SomeipTunnel.E2e

open StepRun

/-! ### Streams -/

section Streams

variable {w : ℕ}

/-- A buffer with the expected check value, length and data id, and its counter. -/
structure ValidBuffer (checker : Checker w) (inst : UInt16) where
  buffer : List UInt8
  counter : BitVec w
  admitted : checker.admits inst buffer = true
  received : checker.received inst buffer = some ⟨true, true, counter⟩

/-- A checker in the middle of a stream, and the counter of the last buffer it reported `E2E_OK`
for. -/
structure Stream (w : ℕ) where
  counter : Counters w
  lastOk : Option (BitVec w)

/-- Check the next buffer; the error is an access outside it. -/
def Checker.receive (checker : Checker w) (inst : UInt16) (s : Stream w)
    (b : ValidBuffer checker inst) : Except Unit (CheckStatus × Stream w) :=
  match checker.check s.counter b.buffer inst with
  | none => .error ()
  | some (status, counter) =>
      .ok (status, ⟨counter, if status = .ok then some b.counter else s.lastOk⟩)

/-- How far `c` is ahead of `last`, modulo `2 ^ w`. -/
def ahead (last c : BitVec w) : ℕ := (c - last).toNat

/-- The buffers that should be accepted. -/
def Accepts (maxDelta : ℕ) (lastOk : Option (BitVec w)) (c : BitVec w) : Prop :=
  ∀ last ∈ lastOk, 1 ≤ ahead last c ∧ ahead last c ≤ maxDelta

instance (maxDelta : ℕ) (lastOk : Option (BitVec w)) (c : BitVec w) :
    Decidable (Accepts maxDelta lastOk c) :=
  match lastOk with
  | none => .isTrue nofun
  | some last =>
      decidable_of_iff (1 ≤ ahead last c ∧ ahead last c ≤ maxDelta)
        (by simp only [Accepts, Option.mem_some_iff, forall_eq'])

/-- The verdict about a buffer is the expected one. -/
def Checker.Expected (checker : Checker w) (inst : UInt16) (s : Stream w)
    (b : ValidBuffer checker inst) : Prop :=
  (checker.check s.counter b.buffer inst).map Prod.fst = some .ok ↔
    Accepts checker.maxDeltaCounter s.lastOk b.counter

instance (checker : Checker w) (inst : UInt16) (s : Stream w) (b : ValidBuffer checker inst) :
    Decidable (checker.Expected inst s b) := inferInstanceAs (Decidable (_ ↔ _))

/-- How far ahead of the stored counter `verify_counter` accepts a counter. -/
def reach (maxDelta : ℕ) (first c : BitVec w) : ℕ := if first < c then maxDelta else maxDelta + 1

/-- The counters for which measuring from the first buffer is as good as measuring from the last
accepted one. While the first buffer is the last accepted one, that is every counter but one that
has wrapped and is `maxDelta + 1` ahead. Later, a counter has to be ahead of the last accepted one
and still within reach of the first, or the first itself, or too far ahead of both. -/
def Near (maxDelta : ℕ) (first last c : BitVec w) : Prop :=
  if last = first then ¬ (c < first ∧ ahead first c = maxDelta + 1)
  else
    c = first ∨
      ahead first last < ahead first c ∧
        ahead first c ≤ reach maxDelta first c ∨
      ahead first last + maxDelta < ahead first c

/-- The condition on the next buffer of a stream; none on the first. -/
def Checker.Tracked (checker : Checker w) (inst : UInt16) (s : Stream w)
    (b : ValidBuffer checker inst) : Prop :=
  ∀ first ∈ s.counter.lookup inst, ∀ last ∈ s.lastOk,
    Near checker.maxDeltaCounter first last b.counter

/-! ### Distances -/

theorem ahead_eq (last c : BitVec w) : ahead last c =
    if last.toNat ≤ c.toNat then c.toNat - last.toNat else 2 ^ w + c.toNat - last.toNat := by
  rw [ahead, BitVec.toNat_sub]
  split_ifs with hle
  · rw [show 2 ^ w - last.toNat + c.toNat = c.toNat - last.toNat + 2 ^ w by omega,
      Nat.add_mod_right, Nat.mod_eq_of_lt (by omega)]
  · rw [Nat.mod_eq_of_lt (by omega)]
    omega

variable {last first : BitVec w} {maxDelta : ℕ}

theorem toNat_allOnes_sub_add {c : BitVec w} (h : c.toNat ≤ last.toNat) :
    (BitVec.allOnes w - last + c).toNat = 2 ^ w - 1 - last.toNat + c.toNat := by
  rw [BitVec.toNat_add, BitVec.toNat_sub, BitVec.toNat_allOnes,
    show 2 ^ w - last.toNat + (2 ^ w - 1) = 2 ^ w - 1 - last.toNat + 2 ^ w by omega,
    Nat.add_mod_right, Nat.mod_eq_of_lt (show 2 ^ w - 1 - last.toNat < 2 ^ w by omega),
    Nat.mod_eq_of_lt (by omega)]

/-- The two branches of the subtraction: the second measures one too little. -/
theorem toNat_delta (first c : BitVec w) :
    (if first < c then c - first else BitVec.allOnes w - first + c).toNat =
      if first < c then ahead first c else if c = first then 2 ^ w - 1 else ahead first c - 1 := by
  by_cases hlt : first < c
  · rw [if_pos hlt, if_pos hlt, ahead]
  · have hle : c.toNat ≤ first.toNat := Nat.le_of_not_lt hlt
    rw [if_neg hlt, if_neg hlt, toNat_allOnes_sub_add hle]
    by_cases heq : c = first
    · subst heq
      rw [if_pos rfl]
      omega
    · have hne : c.toNat ≠ first.toNat := fun h => heq (BitVec.eq_of_toNat_eq h)
      rw [if_neg heq, ahead_eq, if_neg (by omega)]
      omega

/-- **What `verify_counter` accepts**, measured from the stored counter: one step too many where the
counter has wrapped. -/
theorem delta_le_iff (hdelta : 2 * maxDelta < 2 ^ w) (hpos : 1 ≤ maxDelta) (first c : BitVec w) :
    (if first < c then c - first else BitVec.allOnes w - first + c).toNat ≤ maxDelta ↔
      c ≠ first ∧ ahead first c ≤ reach maxDelta first c := by
  rw [toNat_delta, reach]
  by_cases hlt : first < c
  · have hlt' : first.toNat < c.toNat := hlt
    have hne : c ≠ first := fun h => by rw [h] at hlt'; omega
    simp only [hlt, if_true, hne, ne_eq, not_false_eq_true, true_and]
  · have hle : c.toNat ≤ first.toNat := Nat.le_of_not_lt hlt
    by_cases heq : c = first
    · rw [if_neg hlt, if_pos heq]
      exact iff_of_false (by omega) fun h => h.1 heq
    · have hne : c.toNat ≠ first.toNat := fun h => heq (BitVec.eq_of_toNat_eq h)
      simp only [hlt, heq, if_false, ne_eq, not_false_eq_true, true_and]
      omega

/-- What should be accepted, measured from the first counter. -/
theorem ahead_between_iff (hdelta : 2 * maxDelta + 1 < 2 ^ w)
    (hlast : ahead first last ≤ maxDelta + 1) (c : BitVec w) :
    (1 ≤ ahead last c ∧ ahead last c ≤ maxDelta) ↔
      ahead first last < ahead first c ∧ ahead first c ≤ ahead first last + maxDelta := by
  rw [ahead_eq] at hlast
  rw [ahead_eq last c, ahead_eq first c, ahead_eq first last]
  split_ifs at hlast ⊢ <;> omega

theorem ahead_eq_zero_iff (last c : BitVec w) : ahead last c = 0 ↔ c = last := by
  rw [ahead_eq]
  constructor
  · intro h
    apply BitVec.eq_of_toNat_eq
    split_ifs at h <;> omega
  · rintro rfl
    rw [if_pos le_rfl, Nat.sub_self]

theorem ahead_injective (first : BitVec w) : Function.Injective (ahead first) := fun _ _ h =>
  (BitVec.sub_left_inj first).mp (BitVec.eq_of_toNat_eq h)

/-- Measuring from the first buffer agrees with measuring from the last accepted one exactly for
these counters. -/
theorem near_iff (hdelta : 2 * maxDelta < 2 ^ w) (hpos : 1 ≤ maxDelta)
    (hlast : ahead first last ≤ reach maxDelta first last) (c : BitVec w) :
    ((if first < c then c - first else BitVec.allOnes w - first + c).toNat ≤ maxDelta ↔
      1 ≤ ahead last c ∧ ahead last c ≤ maxDelta) ↔ Near maxDelta first last c := by
  -- `2 ^ w` is even, so that there is room for one step more
  have hroom : 2 * maxDelta + 1 < 2 ^ w := by
    obtain - | v := w
    · omega
    · rw [Nat.pow_succ] at hdelta ⊢
      omega
  have hle : ahead first last ≤ maxDelta + 1 := by
    rw [reach] at hlast
    split_ifs at hlast <;> omega
  rw [delta_le_iff hdelta hpos, ahead_between_iff hroom hle, Near, ne_eq,
    ← ahead_eq_zero_iff first c]
  have hwrapped : c < first ↔ reach maxDelta first c = maxDelta + 1 ∧ ahead first c ≠ 0 := by
    rw [ne_eq, ahead_eq_zero_iff, ← BitVec.toNat_inj, BitVec.lt_def, reach]
    split_ifs with hlt
    · have hlt' := BitVec.lt_def.mp hlt
      omega
    · have hle' := mt BitVec.lt_def.mpr hlt
      omega
  have hreach : reach maxDelta first c = maxDelta ∨ reach maxDelta first c = maxDelta + 1 :=
    ite_eq_or_eq ..
  by_cases hsame : last = first
  · rw [if_pos hsame, hwrapped, (ahead_eq_zero_iff first last).mpr hsame]
    omega
  · have hne := mt (ahead_eq_zero_iff first last).mp hsame
    rw [if_neg hsame]
    by_cases hc : c = last
    · subst hc
      omega
    · have hdiff : ahead first c ≠ ahead first last := fun h => hc (ahead_injective first h)
      omega

/-! ### One buffer -/

variable {checker : Checker w} {inst : UInt16} {s : Stream w}

/-- A valid buffer is judged by its counter alone. -/
theorem check_valid (counter : Counters w) (b : ValidBuffer checker inst) :
    checker.check counter b.buffer inst =
      some (if (verifyCounter checker.maxDeltaCounter counter inst b.counter).1 then .ok else .error,
        (verifyCounter checker.maxDeltaCounter counter inst b.counter).2) := by
  rw [Checker.check, if_pos b.admitted, b.received]
  rfl

theorem verifyCounter_of_none {counter : Counters w} (h : counter.lookup inst = none)
    (c : BitVec w) : verifyCounter maxDelta counter inst c = (true, counter.insert inst c) := by
  simp only [verifyCounter, h, Nat.zero_le, decide_true]

theorem verifyCounter_of_some {counter : Counters w} (h : counter.lookup inst = some first)
    (c : BitVec w) : verifyCounter maxDelta counter inst c =
      (decide ((if first < c then c - first else BitVec.allOnes w - first + c).toNat ≤ maxDelta),
        counter) := by
  simp only [verifyCounter, h]

theorem ite_ok_iff (b : Bool) : some (if b then CheckStatus.ok else .error) = some .ok ↔ b = true := by
  cases b <;> simp

/-- Either no buffer of the instance has been seen, or the counter of the first one is stored and the
last accepted one is not far ahead of it. -/
def Stream.Anchored (maxDelta : ℕ) (inst : UInt16) (s : Stream w) : Prop :=
  s.counter.lookup inst = none ∧ s.lastOk = none ∨
    ∃ first last, s.counter.lookup inst = some first ∧ s.lastOk = some last ∧
      ahead first last ≤ reach maxDelta first last

theorem expected_iff_tracked (hdelta : 2 * checker.maxDeltaCounter < 2 ^ w)
    (hpos : 1 ≤ checker.maxDeltaCounter) (h : s.Anchored checker.maxDeltaCounter inst)
    (b : ValidBuffer checker inst) : checker.Expected inst s b ↔ checker.Tracked inst s b := by
  rw [Checker.Expected, Checker.Tracked, check_valid, Option.map_some, ite_ok_iff]
  rcases h with ⟨hcounter, hlast⟩ | ⟨first, last, hcounter, hlast, hnear⟩
  · rw [verifyCounter_of_none hcounter, hlast, hcounter]
    exact iff_of_true (iff_of_true rfl nofun) nofun
  · rw [verifyCounter_of_some hcounter, hcounter, hlast, decide_eq_true_iff]
    simp only [Accepts, Option.mem_some_iff, forall_eq']
    exact near_iff hdelta hpos hnear b.counter

/-- Every buffer keeps the first counter, and moves the last accepted one only within its reach. -/
theorem Stream.Anchored.receive (hdelta : 2 * checker.maxDeltaCounter < 2 ^ w)
    (hpos : 1 ≤ checker.maxDeltaCounter) (h : s.Anchored checker.maxDeltaCounter inst)
    {b : ValidBuffer checker inst} {status : CheckStatus} {s' : Stream w}
    (hreceive : checker.receive inst s b = .ok (status, s')) :
    s'.Anchored checker.maxDeltaCounter inst := by
  rw [Checker.receive, check_valid] at hreceive
  obtain ⟨-, rfl⟩ := Prod.mk.inj (Except.ok.inj hreceive)
  right
  rcases h with ⟨hcounter, -⟩ | ⟨first, last, hcounter, hlast, hnear⟩
  · rw [verifyCounter_of_none hcounter]
    refine ⟨b.counter, b.counter, AList.lookup_insert _, rfl, ?_⟩
    rw [(ahead_eq_zero_iff _ _).mpr rfl]
    exact Nat.zero_le _
  · rw [verifyCounter_of_some hcounter]
    by_cases haccept : (if first < b.counter then b.counter - first
        else BitVec.allOnes w - first + b.counter).toNat ≤ checker.maxDeltaCounter
    · refine ⟨first, b.counter, hcounter, by simp [haccept], ?_⟩
      exact ((delta_le_iff hdelta hpos first b.counter).mp haccept).2
    · exact ⟨first, last, hcounter, by simp [haccept, hlast], hnear⟩

end Streams

/-- **The verdicts of a stream.** For every profile, every largest step below half the range of the
counter and every stream of valid buffers of an instance that the checker has not seen, the first
buffer is accepted and each later one exactly if its counter is `1` to `maxDeltaCounter` ahead of the
last accepted one, if and only if every buffer meets `Tracked`. -/
theorem verdicts_expected_iff (p : Profile) (config : p.Config) (inst : UInt16)
    (counter : Counters p.width) (buffers : List (ValidBuffer (p.checker config) inst))
    (hpos : 1 ≤ (p.checker config).maxDeltaCounter)
    (hdelta : 2 * (p.checker config).maxDeltaCounter < 2 ^ p.width)
    (hfresh : counter.lookup inst = none) :
    AllSteps ((p.checker config).receive inst) ((p.checker config).Expected inst) ⟨counter, none⟩
        buffers ↔
      AllSteps ((p.checker config).receive inst) ((p.checker config).Tracked inst) ⟨counter, none⟩
        buffers :=
  AllSteps.iff_of_invariant (Stream.Anchored (p.checker config).maxDeltaCounter inst)
    (fun _ _ _ _ h _ hreceive => h.receive hdelta hpos hreceive)
    (fun _ b h => expected_iff_tracked hdelta hpos h b) (.inl ⟨hfresh, rfl⟩)

/-- Profile 04 with a largest step of `1`. -/
def singleStep : Profile04.Config := ⟨0, 0, 0, 0xffff, 1⟩

/-- Three buffers of twelve bytes as the protector sends them one after the other. -/
def inOrder : List (ValidBuffer (Profile.p04.checker singleStep) 1) :=
  [⟨[0, 12, 0, 0, 1, 0, 0, 0, 21, 129, 71, 96], 0, rfl, by decide +kernel⟩,
    ⟨[0, 12, 0, 1, 1, 0, 0, 0, 112, 94, 8, 145], 1, rfl, by decide +kernel⟩,
    ⟨[0, 12, 0, 2, 1, 0, 0, 0, 222, 63, 216, 130], 2, rfl, by decide +kernel⟩]

/-- The stream of three buffers. -/
theorem verdicts_expected_iff_inOrder : AllSteps ((Profile.p04.checker singleStep).receive 1)
        ((Profile.p04.checker singleStep).Expected 1) ⟨∅, none⟩ inOrder ↔
      AllSteps ((Profile.p04.checker singleStep).receive 1)
        ((Profile.p04.checker singleStep).Tracked 1) ⟨∅, none⟩ inOrder :=
  verdicts_expected_iff .p04 singleStep 1 ∅ inOrder (by decide) (by decide) rfl

/-- The third buffer of a stream in order and without a loss is refused: it is one ahead of the
second, but two ahead of the first. -/
theorem third_in_order_refused : inOrder.map (fun b => b.counter) = [0, 1, 2] ∧
      (run ((Profile.p04.checker singleStep).receive 1) ⟨∅, none⟩ inOrder).map Prod.fst =
        .ok [.ok, .ok, .error] ∧ ¬ AllSteps ((Profile.p04.checker singleStep).receive 1)
        ((Profile.p04.checker singleStep).Expected 1) ⟨∅, none⟩ inOrder :=
  ⟨rfl, by decide +kernel, by decide +kernel⟩

end SomeipTunnel.E2e
