import SomeipTunnel.Lib.Run
import SomeipTunnel.Lib.Table

/-!
# The statistics of received events

The routing manager counts the received events in a table of limited size. A message that is not in
a full table takes the place of `message_to_discard_`, the cached candidate, if that one was counted
only once; otherwise it is ignored.

A call for the candidate itself scans the table for the least counter, but then assigns the
candidate to itself, so that the result of the scan is lost.

`event_statistics_right_iff`: after every call the table is within its maximum, each counter is the
number of calls since the message was inserted and the candidate is a tracked message with a least
counter, iff the maximum is not 0, no message is counted more than `2 ^ 32 - 1` times (the next call
divides by 0), and a call for the candidate comes only while its counter is the only least one.

Source: vsomeip/implementation/routing/src/routing_manager_impl.cpp, insert_event_statistics
-/

namespace SomeipTunnel.Routing.EventStatistics

open StepRun

/-! ### The code -/

/-- A service, an instance and a method. -/
abbrev Tuple := UInt16 × UInt16 × UInt16

/-- Two 32-bit numbers.
Source: `types.hpp`, `msg_statistic_t` -/
structure MsgStatistic where
  counter : ℕ
  avgLength : ℕ
deriving DecidableEq, Repr

/-- The messages that are tracked. -/
abbrev MessageStatistics := AList fun _ : Tuple => MsgStatistic

structure Statistics where
  messageStatistics : MessageStatistics
  messageToDiscard : Tuple
  ignoredStatisticsCounter : ℕ

/-- The statistics at the start, and after the timer has logged them. -/
def Statistics.cleared : Statistics := ⟨∅, (0, 0, 0), 0⟩

/-- The average is divided by a counter that has wrapped around. -/
inductive Fault where
  | divisionByZero
deriving DecidableEq, Repr

/-- The scan for the entry with the least counter. What it finds does not depend on the order of the
table, up to the choice among equal counters. -/
def leastCounter (table : MessageStatistics) : ℕ × Tuple :=
  table.entries.foldl
    (fun least s => if s.2.counter < least.1 then (s.2.counter, s.1) else least)
    (0xFFFFFFFF, (0xFFFF, 0xFFFF, 0xFFFF))

/-- A message that is tracked is counted: the moving average of its length and its counter. -/
def MsgStatistic.count (s : MsgStatistic) (length : ℕ) : Except Fault MsgStatistic :=
  let next := (s.counter + 1) % 2 ^ 32
  if next = 0 then .error .divisionByZero
  else .ok ⟨next, (s.avgLength * s.counter + length) % 2 ^ 32 / next⟩

/-- Source: `insert_event_statistics` -/
def insertEventStatistics (itsMaxMessages : ℕ) (s : Statistics) (itsTuple : Tuple) (length : ℕ) :
    Except Fault (Bool × Statistics) :=
  match s.messageStatistics.lookup itsTuple with
  | some itsMain =>
      match itsMain.count length with
      | .error e => .error e
      | .ok counted =>
          let table := s.messageStatistics.insert itsTuple counted
          let itsMinCount := (leastCounter table).1
          -- the tuple of the call is assigned, not the one that the scan has found
          let discard :=
            if itsTuple = s.messageToDiscard ∧ itsMinCount ≠ 0xFFFF ∧ itsMinCount < counted.counter
            then itsTuple else s.messageToDiscard
          .ok (true, { s with messageStatistics := table, messageToDiscard := discard })
  | none =>
      let ignored : Bool × Statistics :=
        (false, { s with ignoredStatisticsCounter := (s.ignoredStatisticsCounter + 1) % 2 ^ 32 })
      if s.messageStatistics.entries.length < itsMaxMessages then
        .ok (true, { s with
          messageStatistics := s.messageStatistics.insert itsTuple ⟨1, length⟩
          messageToDiscard := itsTuple })
      else
        match s.messageStatistics.lookup s.messageToDiscard with
        | some it =>
            if it.counter = 1 then
              .ok (true, { s with
                messageStatistics :=
                  (s.messageStatistics.erase s.messageToDiscard).insert itsTuple ⟨1, length⟩
                messageToDiscard := itsTuple })
            else .ok ignored
        | none => .ok ignored

/-! ### What a call does -/

section step

variable {maxMessages : ℕ} {s s' : Statistics} {t : Tuple} {length : ℕ} {answer : Bool}

theorem count_eq_ok {m m' : MsgStatistic} (hm : m.counter < 2 ^ 32) :
    m.count length = .ok m' → m.counter ≠ 2 ^ 32 - 1 ∧ m'.counter = m.counter + 1 := by
  intro h
  unfold MsgStatistic.count at h
  dsimp only at h
  split_ifs at h with hzero
  cases h
  dsimp only
  omega

theorem count_isOk_iff (length : ℕ) {m : MsgStatistic} (hm : m.counter < 2 ^ 32) :
    (∃ m', m.count length = .ok m') ↔ m.counter ≠ 2 ^ 32 - 1 := by
  unfold MsgStatistic.count
  dsimp only
  split_ifs with hzero
  · simp only [exists_false, false_iff, not_not]
    omega
  · simp only [Except.ok.injEq, exists_eq', true_iff]
    omega

/-- A call for a message that is tracked succeeds iff its statistic can be counted, and it leaves
the candidate as it is. -/
theorem insertEventStatistics_of_some {m : MsgStatistic}
    (hm : s.messageStatistics.lookup t = some m) :
    insertEventStatistics maxMessages s t length =
      (m.count length).map fun counted =>
        (true, { s with messageStatistics := s.messageStatistics.insert t counted }) := by
  unfold insertEventStatistics
  rw [hm]
  dsimp only
  rcases m.count length with e | counted
  · rfl
  · dsimp only [Except.map]
    congr 3
    split_ifs with h
    · exact h.1
    · rfl

/-- What a call does for a message that is not tracked: it inserts it, it replaces the candidate by
it, or it ignores it. -/
theorem insertEventStatistics_of_none (maxMessages length : ℕ)
    (hm : s.messageStatistics.lookup t = none) :
    ∃ answer s', insertEventStatistics maxMessages s t length = .ok (answer, s') ∧
      (s.messageStatistics.entries.length < maxMessages ∧
          s'.messageStatistics = s.messageStatistics.insert t ⟨1, length⟩ ∧
          s'.messageToDiscard = t ∨ s.messageToDiscard ∈ s.messageStatistics ∧
          s'.messageStatistics =
            (s.messageStatistics.erase s.messageToDiscard).insert t ⟨1, length⟩ ∧
          s'.messageToDiscard = t ∨ maxMessages ≤ s.messageStatistics.entries.length ∧
          s'.messageStatistics = s.messageStatistics ∧
          s'.messageToDiscard = s.messageToDiscard) := by
  unfold insertEventStatistics
  rw [hm]
  split_ifs with hsize
  · exact ⟨_, _, rfl, .inl ⟨hsize, rfl, rfl⟩⟩
  · rcases hd : s.messageStatistics.lookup s.messageToDiscard with _ | it
    · exact ⟨_, _, rfl, .inr (.inr ⟨not_lt.mp hsize, rfl, rfl⟩)⟩
    · dsimp only
      split_ifs with hone
      · exact ⟨_, _, rfl, .inr (.inl ⟨Table.mem_of_lookup_eq_some hd, rfl, rfl⟩)⟩
      · exact ⟨_, _, rfl, .inr (.inr ⟨not_lt.mp hsize, rfl, rfl⟩)⟩

end step

/-! ### The least counter -/

section table

variable {table : MessageStatistics} {t d : Tuple} {m : MsgStatistic}

/-- The message is tracked and no counter is less than its own. -/
def Least (table : MessageStatistics) (d : Tuple) : Prop :=
  ∃ m, table.lookup d = some m ∧ ∀ t m', table.lookup t = some m' → m.counter ≤ m'.counter

/-- An entry of a table that a message was put into. -/
theorem lookup_insert_cases {table' : MessageStatistics}
    (hsub : ∀ t' m', table.lookup t' = some m' → table'.lookup t' = some m') (t' : Tuple)
    (m' : MsgStatistic) (hm' : (table.insert t m).lookup t' = some m') :
    t' = t ∧ m' = m ∨ t' ≠ t ∧ table'.lookup t' = some m' := by
  by_cases ht : t' = t
  · rw [ht, AList.lookup_insert, Option.some.injEq] at hm'
    exact .inl ⟨ht, hm'.symm⟩
  · rw [AList.lookup_insert_ne ht] at hm'
    exact .inr ⟨ht, hsub t' m' hm'⟩

/-- The message that was put in has a least counter iff no other one has a lower one. -/
theorem least_insert_self : Least (table.insert t m) t ↔
      ∀ t' m', t' ≠ t → table.lookup t' = some m' → m.counter ≤ m'.counter := by
  constructor
  · rintro ⟨m₀, hm₀, hle⟩ t' m' hne hm'
    rw [AList.lookup_insert, Option.some.injEq] at hm₀
    rw [hm₀]
    apply hle t' m'
    rw [AList.lookup_insert_ne hne, hm']
  · intro h
    refine ⟨m, AList.lookup_insert _, ?_⟩
    intro t' m' hm'
    rcases lookup_insert_cases (fun _ _ => id) t' m' hm' with ⟨-, rfl⟩ | ⟨hne, hold⟩
    · exact le_rfl
    · exact h t' m' hne hold

/-- A counter that grows does not matter for another message. -/
theorem Least.insert_of_ne (h : Least table d) {m₀ : MsgStatistic} (hne : t ≠ d)
    (hm₀ : table.lookup t = some m₀) (hle : m₀.counter ≤ m.counter) :
    Least (table.insert t m) d := by
  obtain ⟨md, hd, hleast⟩ := h
  refine ⟨md, by rw [AList.lookup_insert_ne hne.symm, hd], ?_⟩
  intro t' m' hm'
  rcases lookup_insert_cases (fun _ _ => id) t' m' hm' with ⟨-, rfl⟩ | ⟨-, hold⟩
  · exact le_trans (hleast t m₀ hm₀) hle
  · exact hleast t' m' hold

end table

/-! ### Whole runs -/

/-- The statistics, and for each message the number of calls for it since it was inserted. -/
structure Observed where
  statistics : Statistics
  calls : Tuple → ℕ

abbrev Observed.table (o : Observed) : MessageStatistics := o.statistics.messageStatistics

abbrev Observed.discard (o : Observed) : Tuple := o.statistics.messageToDiscard

def Observed.initial : Observed := ⟨.cleared, fun _ => 0⟩

/-- The calls are counted on. For a message that is not tracked the count starts with this call. -/
def Observed.noted (o : Observed) (t : Tuple) (s' : Statistics) : Observed :=
  ⟨s', Function.update o.calls t (if t ∈ o.table then o.calls t + 1 else 1)⟩

def Observed.step (maxMessages : ℕ) (o : Observed) (call : Tuple × ℕ) :
    Except Fault (Bool × Observed) :=
  (insertEventStatistics maxMessages o.statistics call.1 call.2).map fun out =>
    (out.1, o.noted call.1 out.2)

/-- The table is within its maximum, the counters count the calls and the candidate has a least one.
-/
structure Right (maxMessages : ℕ) (o : Observed) : Prop where
  size : o.table.entries.length ≤ maxMessages
  counted : ∀ t m, o.table.lookup t = some m → m.counter = o.calls t
  least : Least o.table o.discard

/-- A message can be tracked, the counter of the message does not wrap around, and if the message is
the candidate, every other one has a greater counter. -/
def MayCount (maxMessages : ℕ) (o : Observed) (call : Tuple × ℕ) : Prop :=
  0 < maxMessages ∧
    ∀ m, o.table.lookup call.1 = some m →
      m.counter ≠ 2 ^ 32 - 1 ∧
        (call.1 = o.discard →
          ∀ t m', t ≠ call.1 → o.table.lookup t = some m' → m.counter < m'.counter)

/-- What every call keeps. -/
structure Sound (maxMessages : ℕ) (o : Observed) : Prop where
  size : o.table.entries.length ≤ maxMessages
  counted : ∀ t m, o.table.lookup t = some m → m.counter = o.calls t
  range : ∀ t m, o.table.lookup t = some m → 1 ≤ m.counter ∧ m.counter < 2 ^ 32

/-- The candidate has a least counter, unless the table is empty. -/
def Candidate (o : Observed) : Prop := o.table.entries = [] ∨ Least o.table o.discard

section run

variable {maxMessages : ℕ} {o o' : Observed} {call : Tuple × ℕ} {answer : Bool}

theorem Sound.initial (maxMessages : ℕ) : Sound maxMessages .initial := by
  refine ⟨Nat.zero_le _, ?_, ?_⟩ <;>
  · intro t m hm
    cases hm

/-- A table in which each entry is the new one of the message or one that was there. -/
theorem Sound.noted (h : Sound maxMessages o) {t : Tuple} {s' : Statistics} {m : MsgStatistic}
    (hcases : ∀ t' m', s'.messageStatistics.lookup t' = some m' →
      t' = t ∧ m' = m ∨ t' ≠ t ∧ o.table.lookup t' = some m')
    (hsize : s'.messageStatistics.entries.length ≤ maxMessages)
    (hcount : m.counter = if t ∈ o.table then o.calls t + 1 else 1)
    (hrange : 1 ≤ m.counter ∧ m.counter < 2 ^ 32) : Sound maxMessages (o.noted t s') := by
  refine ⟨hsize, ?_, ?_⟩
  · intro t' m' hm'
    unfold Observed.noted
    dsimp only
    rcases hcases t' m' hm' with ⟨rfl, rfl⟩ | ⟨hne, hm'⟩
    · rw [Function.update_self, hcount]
    · rw [Function.update_of_ne hne]
      exact h.counted t' m' hm'
  · intro t' m' hm'
    rcases hcases t' m' hm' with ⟨-, rfl⟩ | ⟨-, hm'⟩
    · exact hrange
    · exact h.range t' m' hm'

/-- A call for a tracked message whose counter has not reached its end counts it. -/
theorem Sound.step_of_some (h : Sound maxMessages o) {m : MsgStatistic}
    (hm : o.table.lookup call.1 = some m) (hstep : o.step maxMessages call = .ok (answer, o')) :
    Sound maxMessages o' ∧ m.counter ≠ 2 ^ 32 - 1 ∧ o'.discard = o.discard ∧
      ∃ m', m'.counter = m.counter + 1 ∧ o'.table = o.table.insert call.1 m' := by
  have hmem : call.1 ∈ o.table := Table.mem_of_lookup_eq_some hm
  have hrange := h.range call.1 m hm
  unfold Observed.step at hstep
  rw [insertEventStatistics_of_some hm] at hstep
  rcases hcount : m.count call.2 with e | m'
  · rw [hcount] at hstep
    cases hstep
  · obtain ⟨hmax, hcounter⟩ := count_eq_ok hrange.2 hcount
    rw [hcount] at hstep
    cases hstep
    refine ⟨?_, hmax, rfl, m', hcounter, rfl⟩
    apply h.noted (m := m') (lookup_insert_cases fun _ _ => id)
    · rw [Table.length_insert_of_mem hmem]
      exact h.size
    · rw [if_pos hmem, hcounter, h.counted call.1 m hm]
    · omega

/-- A call for a message that is not tracked makes it a candidate with a least counter, or it finds
a full table and changes neither the table nor the candidate. -/
theorem Sound.step_of_none (h : Sound maxMessages o) (hm : o.table.lookup call.1 = none) :
    ∃ answer o', o.step maxMessages call = .ok (answer, o') ∧ Sound maxMessages o' ∧
      (0 < maxMessages ∧ Least o'.table o'.discard ∨ maxMessages ≤ o.table.entries.length ∧
          o'.table = o.table ∧ o'.discard = o.discard) := by
  obtain ⟨t, length⟩ := call
  have hmem : t ∉ o.table := AList.lookup_eq_none.mp hm
  have hone : 1 ≤ 1 ∧ 1 < 2 ^ 32 := by omega
  -- a message that is put in is counted once, and no counter is less than 1
  have hleast : ∀ {table : MessageStatistics},
      (∀ t' m', table.lookup t' = some m' → o.table.lookup t' = some m') →
      Least (table.insert t ⟨1, length⟩) t := by
    intro table hsub
    rw [least_insert_self]
    intro t' m' _ hm'
    exact (h.range t' m' (hsub t' m' hm')).1
  obtain ⟨a, s', hs', hcase⟩ := insertEventStatistics_of_none maxMessages length hm
  refine ⟨a, o.noted t s', ?_, ?_⟩
  · unfold Observed.step
    rw [hs']
    rfl
  · rcases hcase with ⟨hsize, htable, hdiscard⟩ | ⟨hd, htable, hdiscard⟩ | ⟨hfull, htable, hdiscard⟩
    · refine ⟨h.noted (m := ⟨1, length⟩) ?_ ?_ (if_neg hmem).symm hone, .inl ⟨by omega, ?_⟩⟩
      · rw [htable]
        exact lookup_insert_cases fun _ _ => id
      · rw [htable, Table.length_insert_of_not_mem hmem]
        exact hsize
      · change Least s'.messageStatistics s'.messageToDiscard
        rw [htable, hdiscard]
        exact hleast fun _ _ => id
    · have hsub : ∀ t' m',
          (o.table.erase o.discard).lookup t' = some m' →
          o.table.lookup t' = some m' := by
        intro t' m' hm'
        by_cases ht' : t' = o.discard
        · rw [ht', AList.lookup_erase] at hm'
          cases hm'
        · rwa [AList.lookup_erase_ne ht'] at hm'
      have hlen : (o.table.erase o.discard).entries.length + 1 = o.table.entries.length :=
        Table.length_erase_of_mem hd
      have hsize := h.size
      refine ⟨h.noted (m := ⟨1, length⟩) ?_ ?_ (if_neg hmem).symm hone, .inl ⟨by omega, ?_⟩⟩
      · rw [htable]
        exact lookup_insert_cases hsub
      · rw [htable, Table.length_insert_of_not_mem fun hmem' => hmem (AList.mem_erase.mp hmem').2,
          hlen]
        exact h.size
      · change Least s'.messageStatistics s'.messageToDiscard
        rw [htable, hdiscard]
        exact hleast hsub
    · refine ⟨h.noted (m := ⟨1, length⟩) ?_ ?_ (if_neg hmem).symm hone,
        .inr ⟨hfull, htable, hdiscard⟩⟩
      · rw [htable]
        intro t' m' hm'
        refine .inr ⟨?_, hm'⟩
        rintro rfl
        rw [hm] at hm'
        cases hm'
      · rw [htable]
        exact h.size

/-- A call behind which the candidate has a least counter was one that may be counted. -/
theorem mayCount_of_least (h : Sound maxMessages o)
    (hstep : o.step maxMessages call = .ok (answer, o')) (hleast : Least o'.table o'.discard) :
    MayCount maxMessages o call := by
  have hpos : 0 < o'.table.entries.length := by
    obtain ⟨m, hm, -⟩ := hleast
    have := Table.length_erase_of_mem (Table.mem_of_lookup_eq_some hm)
    omega
  rcases hm : o.table.lookup call.1 with _ | m
  · obtain ⟨a, o₁, hstep', hsound, -⟩ := h.step_of_none hm
    obtain ⟨-, rfl⟩ := ok_unique hstep hstep'
    refine ⟨lt_of_lt_of_le hpos hsound.size, ?_⟩
    intro m hm'
    rw [hm] at hm'
    cases hm'
  · obtain ⟨hsound, hmax, hdiscard, m', hcounter, htable⟩ := h.step_of_some hm hstep
    refine ⟨lt_of_lt_of_le hpos hsound.size, ?_⟩
    intro m₁ hm₁
    rw [hm, Option.some.injEq] at hm₁
    subst hm₁
    refine ⟨hmax, ?_⟩
    intro hcand t m₂ hne hm₂
    -- the candidate was counted, and the other message was not
    rw [hdiscard, ← hcand, htable, least_insert_self] at hleast
    have := hleast t m₂ hne hm₂
    omega

/-- A call that may be counted succeeds, and behind it the candidate has a least counter. -/
theorem least_of_mayCount (h : Sound maxMessages o) (hcand : Candidate o)
    (hmay : MayCount maxMessages o call) :
    ∃ answer o', o.step maxMessages call = .ok (answer, o') ∧ Sound maxMessages o' ∧
      Least o'.table o'.discard := by
  obtain ⟨hpos, hmay⟩ := hmay
  rcases hm : o.table.lookup call.1 with _ | m
  · obtain ⟨a, o', hstep, hsound, ⟨-, hleast⟩ | ⟨hfull, htable, hdiscard⟩⟩ := h.step_of_none hm
    · exact ⟨a, o', hstep, hsound, hleast⟩
    · refine ⟨a, o', hstep, hsound, ?_⟩
      rcases hcand with hempty | hleast
      · rw [hempty, List.length_nil] at hfull
        omega
      · rw [htable, hdiscard]
        exact hleast
  · obtain ⟨hmax, hothers⟩ := hmay m hm
    obtain ⟨m', hcount⟩ := (count_isOk_iff call.2 (h.range call.1 m hm).2).mpr hmax
    have hstep : ∃ o', o.step maxMessages call = .ok (true, o') := by
      unfold Observed.step
      rw [insertEventStatistics_of_some hm, hcount]
      exact ⟨_, rfl⟩
    obtain ⟨o', hstep⟩ := hstep
    obtain ⟨hsound, -, hdiscard, m', hcounter, htable⟩ := h.step_of_some hm hstep
    refine ⟨true, o', hstep, hsound, ?_⟩
    rw [hdiscard, htable]
    by_cases hd : call.1 = o.discard
    · rw [← hd, least_insert_self]
      intro t m₂ hne hm₂
      have := hothers hd t m₂ hne hm₂
      omega
    · rcases hcand with hempty | hleast
      · have := Table.length_erase_of_mem (Table.mem_of_lookup_eq_some hm)
        rw [hempty, List.length_nil] at this
        omega
      · exact hleast.insert_of_ne hd hm (by omega)

end run

/-- **The statistics of received events** are right after every call of a run iff every call may be
counted. -/
theorem event_statistics_right_iff (maxMessages : ℕ) (calls : List (Tuple × ℕ)) :
    AllSteps (Observed.step maxMessages)
        (fun o call => ∃ answer o', o.step maxMessages call = .ok (answer, o') ∧
          Right maxMessages o') .initial calls ↔
      AllSteps (Observed.step maxMessages) (MayCount maxMessages) .initial calls := by
  apply AllSteps.iff_of_invariant fun o => Sound maxMessages o ∧ Candidate o
  · rintro o call answer o' ⟨hsound, hcand⟩ hmay hstep
    obtain ⟨a, o₁, hstep', hsound', hleast⟩ := least_of_mayCount hsound hcand hmay
    obtain ⟨-, rfl⟩ := ok_unique hstep hstep'
    exact ⟨hsound', .inr hleast⟩
  · rintro o call ⟨hsound, hcand⟩
    constructor
    · rintro ⟨a, o', hstep, hright⟩
      exact mayCount_of_least hsound hstep hright.least
    · intro hmay
      obtain ⟨a, o', hstep, hsound', hleast⟩ := least_of_mayCount hsound hcand hmay
      exact ⟨a, o', hstep, hsound'.size, hsound'.counted, hleast⟩
  · exact ⟨Sound.initial maxMessages, .inl rfl⟩

/-- Two messages and a second call for the later one, which is the candidate: it stays the candidate
with the counter 2, and the other one has the counter 1. -/
theorem event_statistics_candidate_not_least : ∃ answers o, run (Observed.step 2) .initial
        [((1, 1, 1), 8), ((2, 2, 2), 8), ((2, 2, 2), 8)] = .ok (answers, o) ∧
      o.statistics.messageToDiscard = (2, 2, 2) ∧
      (o.statistics.messageStatistics.lookup (2, 2, 2)).map MsgStatistic.counter = some 2 ∧
      (o.statistics.messageStatistics.lookup (1, 1, 1)).map MsgStatistic.counter = some 1 ∧
      ¬Right 2 o := by
  refine ⟨_, _, rfl, by decide, by decide, by decide, ?_⟩
  intro hright
  obtain ⟨m, hm, hle⟩ := hright.least
  have hm' : (⟨2, 8⟩ : MsgStatistic) = m := Option.some.inj hm
  have hle' : m.counter ≤ 1 := hle (1, 1, 1) ⟨1, 8⟩ rfl
  rw [← hm'] at hle'
  exact absurd hle' (by decide)

/-- **The table stays bounded and its counters right in every run**, whatever the candidate is. -/
theorem statistics_sound (maxMessages : ℕ) (calls : List (Tuple × ℕ)) :
    AllSteps (Observed.step maxMessages) (fun o _ => Sound maxMessages o) .initial calls := by
  refine AllSteps.of_forall (Sound maxMessages) ?_ (fun _ _ => id) (.initial _)
  intro o call answer o' h hstep
  rcases hm : o.table.lookup call.1 with _ | m
  · obtain ⟨a, o₁, hstep', hsound, -⟩ := h.step_of_none hm
    obtain ⟨-, rfl⟩ := ok_unique hstep hstep'
    exact hsound
  · exact (h.step_of_some hm hstep).1

end SomeipTunnel.Routing.EventStatistics
