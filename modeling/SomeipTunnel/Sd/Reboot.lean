import SomeipTunnel.Lib.Run
import SomeipTunnel.Sd.Session

/-!
# Restarts of a sender

A sender lives several times; after each start both channels are numbered anew. The messages of its
lives arrive in the order of their channels, so that a message of an earlier life may arrive behind
one of a later life on the other channel. A restart is detected if the receiver takes a message of the
new life for a sign of it.

A detected restart erases what was held of the sender, and the message that shows it is not kept. So
the next restart is missed if nothing has arrived on its channel in between (`missed_restart`), and a
message of the earlier life that is kept then makes the next one on its channel a second sign of the
same restart. Where neither happens, each restart is detected by its first message and only by it
(`detected_once`).
-/

namespace SomeipTunnel.Sd

open List

variable {A : Type} [DecidableEq A]

/-! ### Lives -/

/-- A message with the life it is from and its place in it. -/
structure Arrival where
  life : ℕ
  index : ℕ
  message : Stamp
deriving DecidableEq, Repr

/-- The first message behind a restart. -/
def Arrival.isFirst (a : Arrival) : Bool := decide (a.life ≠ 0 ∧ a.index = 0)

/-- The messages of a life. -/
def arrivals (unicast receiver : A) (p : List Send × ℕ) : List Arrival :=
  (life unicast receiver p.1).zipIdx.map fun q => ⟨p.2, q.2, q.1⟩

/-- The messages of all lives. -/
def sent (unicast receiver : A) (lives : List (List Send)) : List Arrival :=
  lives.zipIdx.flatMap (arrivals unicast receiver)

/-- The order of the messages: by their lives, and in a life by their places. -/
def Arrival.Before (a b : Arrival) : Prop :=
  a.life < b.life ∨ a.life = b.life ∧ a.index < b.index ∧
    (a.message.isMulticast = b.message.isMulticast → Sd.Before a.message b.message)

theorem pairwise_zipIdx {α : Type} (l : List α) : l.zipIdx.Pairwise fun p q => p.2 < q.2 := by
  have h : (l.zipIdx.map Prod.snd).Pairwise (· < ·) := by
    rw [zipIdx_map_snd]
    exact pairwise_lt_range'
  exact pairwise_map.mp h

variable {unicast receiver : A}

theorem pairwise_life (hne : unicast ≠ receiver) (sends : List Send) :
    (life unicast receiver sends).Pairwise
      fun s t => s.isMulticast = t.isMulticast → Before s t := by
  have hchannel := fun ch => pairwise_filter.mp (pairwise_filter_life hne sends ch)
  refine ((hchannel true).and (hchannel false)).imp fun {s t} hst heq => ?_
  cases hs : s.isMulticast with
  | true => exact hst.1 (decide_eq_true hs) (decide_eq_true (heq ▸ hs))
  | false => exact hst.2 (decide_eq_true hs) (decide_eq_true (heq ▸ hs))

theorem pairwise_sent (hne : unicast ≠ receiver)
    (lives : List (List Send)) : (sent unicast receiver lives).Pairwise Arrival.Before := by
  refine pairwise_flatMap.mpr ⟨fun p _ => ?_, (pairwise_zipIdx lives).imp fun hlt => ?_⟩
  · have hmessages : (life unicast receiver p.1).zipIdx.Pairwise
        fun q r => q.1.isMulticast = r.1.isMulticast → Before q.1 r.1 := by
      have h := pairwise_life hne p.1
      rw [← zipIdx_map_fst 0 (life unicast receiver p.1)] at h
      exact pairwise_map.mp h
    refine pairwise_map.mpr (((pairwise_zipIdx _).and hmessages).imp fun h => ?_)
    exact Or.inr ⟨rfl, h.1, h.2⟩
  · intro a ha b hb
    obtain ⟨q, -, rfl⟩ := mem_map.mp ha
    obtain ⟨r, -, rfl⟩ := mem_map.mp hb
    exact Or.inl hlt

/-- The first message of a life has the number zero on its channel. -/
theorem eq_stamp_zero_of_head (hne : unicast ≠ receiver) {sends : List Send} {s : Stamp}
    (h : (life unicast receiver sends)[0]? = some s) : s = stamp s.isMulticast 0 := by
  obtain ⟨n, hn⟩ := filter_life hne sends s.isMulticast
  rcases hlife : life unicast receiver sends with - | ⟨t, rest⟩
  · rw [hlife] at h
    cases h
  · rw [hlife] at h hn
    obtain rfl := Option.some.inj h
    rw [filter_cons, if_pos (decide_eq_true rfl)] at hn
    rcases n with - | n
    · cases hn
    · rw [range_succ_eq_map] at hn
      exact (List.cons.inj hn).1

variable {a : Arrival}

/-- What is known of a message of some life. -/
theorem mem_sent (hne : unicast ≠ receiver) {lives : List (List Send)}
    (h : a ∈ sent unicast receiver lives) :
    a.life < lives.length ∧ (∃ n, a.message = stamp a.message.isMulticast n) ∧
      (a.index = 0 → a.message = stamp a.message.isMulticast 0) := by
  obtain ⟨p, hp, ha⟩ := mem_flatMap.mp h
  obtain ⟨q, hq, rfl⟩ := mem_map.mp ha
  refine ⟨?_, exists_stamp_of_mem_life hne (fst_mem_of_mem_zipIdx hq), fun h0 => ?_⟩
  · exact snd_lt_of_mem_zipIdx hp
  · dsimp only at h0
    have hget := mk_mem_zipIdx_iff_getElem?.mp hq
    rw [h0] at hget
    exact eq_stamp_zero_of_head hne hget

/-! ### Watching a receiver -/

/-- A receiver, with the life of the message that it holds for each channel. -/
structure Watch (A : Type) where
  received : SessionsReceived A
  held : Bool → Option ℕ

/-- The receiver has nothing of the sender. -/
def Watch.start (received : SessionsReceived A) : Watch A := ⟨received, fun _ => none⟩

/-- A message arrives; the output is the verdict. -/
def Watch.step (sender : A) (w : Watch A) (a : Arrival) : Except Empty (Bool × Watch A) :=
  let verdict := isReboot w.received sender a.message
  .ok (verdict.1, ⟨verdict.2,
    if verdict.1 then fun _ => none
    else Function.update w.held a.message.isMulticast (some a.life)⟩)

/-- The first message behind a restart meets a message that is held for its channel, and any other
message meets none or one of its own life. -/
def Orderly (w : Watch A) (a : Arrival) : Prop :=
  if a.isFirst then w.held a.message.isMulticast ≠ none
  else w.held a.message.isMulticast = none ∨ w.held a.message.isMulticast = some a.life

instance (w : Watch A) (a : Arrival) : Decidable (Orderly w a) := by
  unfold Orderly
  infer_instance

/-- What is held goes before what is still to come of the same life on its channel. -/
structure Tracks (sender : A) (w : Watch A) (coming : List Arrival) : Prop where
  none : ∀ ch, w.held ch = none → slot (w.received.lookup sender) ch = (0, true)
  some : ∀ ch l, w.held ch = some l → ∃ n,
    slot (w.received.lookup sender) ch = sessionAt n ∧
      ∀ b ∈ coming, b.message.isMulticast = ch → b.life = l → Before (stamp ch n) b.message

/-- The first number of a life is a sign of a restart wherever a message is held. -/
theorem judge_stamp_zero (ch : Bool) (n : ℕ) : judge (sessionAt n) (stamp ch 0) = true := by
  have hsession : (stamp ch 0).session ≤ (sessionAt n).1 := by
    rw [UInt16.le_iff_toNat_le, toNat_sessionAt]
    change 1 ≤ _
    omega
  have hflag : (stamp ch 0).rebootFlag = true := rfl
  rw [judge, hflag, decide_eq_true hsession, Bool.or_true]
  rfl

/-- What is known of the messages that arrive. -/
structure Arrives (a : Arrival) : Prop where
  number : ∃ n, a.message = stamp a.message.isMulticast n
  first : a.index = 0 → a.message = stamp a.message.isMulticast 0

theorem Arrives.session_ne_zero (h : Arrives a) : a.message.session ≠ 0 := by
  obtain ⟨n, hn⟩ := h.number
  rw [hn]
  exact session_stamp_ne_zero _ n

section

variable {sender : A} {w : Watch A} {a : Arrival} {coming : List Arrival}

/-- **The verdict on a message** that meets what it should: it is the first behind a restart or
not. -/
theorem Tracks.isReboot_eq (h : Tracks sender w (a :: coming)) (ha : Arrives a)
    (horderly : Orderly w a) : (isReboot w.received sender a.message).1 = a.isFirst := by
  rw [(Sd.isReboot_eq w.received sender ha.session_ne_zero).1]
  unfold Orderly at horderly
  by_cases hfirst : a.isFirst = true
  · rw [if_pos hfirst] at horderly
    obtain ⟨l, hl⟩ := Option.ne_none_iff_exists'.mp horderly
    obtain ⟨n, hslot, -⟩ := h.some _ l hl
    have hstamp := ha.first (of_decide_eq_true hfirst).2
    rw [hslot, hfirst, hstamp]
    exact judge_stamp_zero _ n
  · rw [if_neg hfirst] at horderly
    rw [eq_false_of_ne_true hfirst]
    rcases horderly with hnone | hsome
    · rw [h.none _ hnone]
      exact judge_of_none ha.session_ne_zero
    · obtain ⟨n, hslot, hbefore⟩ := h.some _ _ hsome
      rw [hslot]
      exact judge_of_before (hbefore a mem_cons_self rfl rfl)

/-- The watch behind a message. -/
theorem Tracks.step (h : Tracks sender w (a :: coming)) (ha : Arrives a) (horderly : Orderly w a)
    (hbefore : ∀ b ∈ coming, b.message.isMulticast = a.message.isMulticast → a.Before b)
    {verdict : Bool} {w' : Watch A} (hstep : Watch.step sender w a = .ok (verdict, w')) :
    Tracks sender w' coming := by
  have hverdict := h.isReboot_eq ha horderly
  obtain ⟨hjudge, hslot⟩ := Sd.isReboot_eq w.received sender ha.session_ne_zero
  obtain ⟨-, rfl⟩ := Prod.mk.inj (Except.ok.inj hstep)
  rw [heldAfter, ← hjudge, hverdict] at hslot
  by_cases hfirst : a.isFirst = true
  · rw [if_pos hfirst] at hslot
    rw [hverdict, if_pos hfirst]
    refine ⟨fun ch _ => congrFun hslot ch, ?_⟩
    intro ch l hl
    cases hl
  rw [if_neg hfirst] at hslot
  rw [hverdict, if_neg hfirst]
  have hother : ∀ ch, ch ≠ a.message.isMulticast →
      slot ((isReboot w.received sender a.message).2.lookup sender) ch =
        slot (w.received.lookup sender) ch := fun ch hch => by
    rw [hslot, Function.update_of_ne hch]
  refine ⟨fun ch hnone => ?_, fun ch l hl => ?_⟩
  · dsimp only at hnone
    by_cases hch : ch = a.message.isMulticast
    · rw [hch, Function.update_self] at hnone
      cases hnone
    · rw [Function.update_of_ne hch] at hnone
      rw [hother ch hch]
      exact h.none ch hnone
  · dsimp only at hl
    by_cases hch : ch = a.message.isMulticast
    · rw [hch, Function.update_self] at hl
      obtain rfl := Option.some.inj hl
      obtain ⟨n, hn⟩ := ha.number
      refine ⟨n, ?_, fun b hb hb' hlife => ?_⟩
      · rw [hslot, hch, Function.update_self, hn]
        rfl
      · rcases hbefore b hb (hb'.trans hch) with hlt | ⟨-, -, hmessages⟩
        · exact absurd hlife (Nat.ne_of_gt hlt)
        · rw [hch, ← hn]
          exact hmessages (hch.symm.trans hb'.symm)
    · rw [Function.update_of_ne hch] at hl
      obtain ⟨n, hslot', hcoming⟩ := h.some ch l hl
      exact ⟨n, (hother ch hch).trans hslot', fun b hb => hcoming b (mem_cons_of_mem _ hb)⟩

end

/-- **Whole receptions**: if every message meets what it should, the verdicts are true for the first
messages behind restarts and for no others. -/
theorem run_watch {sender : A} (coming : List Arrival) : ∀ {w : Watch A},
    (∀ a ∈ coming, Arrives a) →
      (∀ ch, (coming.filter (·.message.isMulticast = ch)).Pairwise Arrival.Before) →
        Tracks sender w coming → StepRun.AllSteps (Watch.step sender) Orderly w coming →
          ∃ w', StepRun.run (Watch.step sender) w coming =
            .ok (coming.map Arrival.isFirst, w') := by
  induction coming with
  | nil => exact fun _ _ _ _ => ⟨_, rfl⟩
  | cons a coming ih =>
      intro w harrives horder htracks hsteps
      obtain ⟨ha, hcoming⟩ := forall_mem_cons.mp harrives
      obtain ⟨horderly, hrest⟩ := StepRun.allSteps_cons.mp hsteps
      have hchannel := horder a.message.isMulticast
      rw [filter_cons, if_pos (decide_eq_true rfl), pairwise_cons] at hchannel
      have hbefore : ∀ b ∈ coming, b.message.isMulticast = a.message.isMulticast → a.Before b :=
        fun b hb hch => hchannel.1 b (mem_filter.mpr ⟨hb, decide_eq_true hch⟩)
      have hstep : Watch.step sender w a = .ok ((isReboot w.received sender a.message).1, _) := rfl
      obtain ⟨w', hrun⟩ := ih hcoming
        (fun ch => (horder ch).sublist ((sublist_cons_self a coming).filter _))
        (htracks.step ha horderly hbefore hstep) (hrest _ _ hstep)
      refine ⟨w', StepRun.run_cons_eq_ok.mpr ⟨_, _, _, hstep, hrun, ?_⟩⟩
      rw [htracks.isReboot_eq ha horderly, map_cons]

/-! ### Restarts -/

/-- The messages of the lives of a sender arrive in the order of their channels, and the first
message behind each restart arrives, on a channel on which a message of an earlier life has
arrived. -/
structure Reception (unicast receiver : A) (lives : List (List Send)) (received : List Arrival) :
    Prop where
  inOrder : ∀ ch, (received.filter (·.message.isMulticast = ch)).Sublist
    ((sent unicast receiver lives).filter (·.message.isMulticast = ch))
  observable : ∀ k, k ≠ 0 → k < lives.length → ∃ before a behind,
    received = before ++ a :: behind ∧ a.life = k ∧ a.index = 0 ∧
      ∃ b ∈ before, b.message.isMulticast = a.message.isMulticast ∧ b.life < k

/-- Each restart is detected exactly once: by one message of the life that it starts. -/
def DetectedOnce (lives : List (List Send)) (received : List Arrival) (verdicts : List Bool) :
    Prop :=
  ∀ k, (received.zip verdicts).countP (fun p => p.2 && decide (p.1.life = k)) =
    if k ≠ 0 ∧ k < lives.length then 1 else 0

theorem Reception.mem_sent {lives : List (List Send)} {received : List Arrival}
    (h : Reception unicast receiver lives received)
    (ha : a ∈ received) : a ∈ sent unicast receiver lives :=
  mem_of_mem_filter ((h.inOrder a.message.isMulticast).subset
    (mem_filter.mpr ⟨ha, decide_eq_true rfl⟩))

theorem not_before_of_eq {b : Arrival} (hlife : a.life = b.life) (hindex : a.index = b.index) :
    ¬ a.Before b := by
  rintro (hlt | ⟨-, hlt, -⟩)
  · omega
  · omega

section

variable {unicast receiver : A} (hne : unicast ≠ receiver) {lives : List (List Send)}
  {received : List Arrival} (h : Reception unicast receiver lives received)
include hne h

theorem Reception.arrives (ha : a ∈ received) : Arrives a :=
  ⟨(Sd.mem_sent hne (h.mem_sent ha)).2.1, (Sd.mem_sent hne (h.mem_sent ha)).2.2⟩

theorem Reception.pairwise (ch : Bool) :
    (received.filter (·.message.isMulticast = ch)).Pairwise Arrival.Before :=
  ((pairwise_sent hne lives).filter _).sublist (h.inOrder ch)

/-- A message is known by its life and its place. -/
theorem Reception.eq_of_eq {b : Arrival} (ha : a ∈ received) (hb : b ∈ received)
    (hlife : a.life = b.life) (hindex : a.index = b.index) : a = b := by
  have hdistinct : (sent unicast receiver lives).Pairwise
      fun a b => ¬ (a.life = b.life ∧ a.index = b.index) := by
    refine (pairwise_sent hne lives).imp ?_
    rintro a b hab ⟨hlife, hindex⟩
    exact not_before_of_eq hlife hindex hab
  have : Std.Symm fun a b : Arrival => ¬ (a.life = b.life ∧ a.index = b.index) :=
    ⟨fun _ _ hxy hyx => hxy ⟨hyx.1.symm, hyx.2.symm⟩⟩
  by_contra hab
  exact hdistinct.forall (h.mem_sent ha) (h.mem_sent hb) hab ⟨hlife, hindex⟩

/-- No message arrives twice. -/
theorem Reception.count_eq_one (ha : a ∈ received) : received.count a = 1 := by
  have hmem : a ∈ received.filter (·.message.isMulticast = a.message.isMulticast) :=
    mem_filter.mpr ⟨ha, decide_eq_true rfl⟩
  have hnodup : (received.filter (·.message.isMulticast = a.message.isMulticast)).Nodup :=
    (h.pairwise hne _).imp fun {_ _} hbefore heq =>
      not_before_of_eq (congrArg _ heq) (congrArg _ heq) hbefore
  rw [← count_filter (p := (·.message.isMulticast = a.message.isMulticast))
    (decide_eq_true rfl)]
  exact count_eq_one_of_mem hnodup hmem

/-- The first messages behind restarts are as many as the restarts. -/
theorem Reception.detectedOnce : DetectedOnce lives received (received.map Arrival.isFirst) := by
  intro k
  rw [← map_prod_left_eq_zip, countP_map]
  split_ifs with hk
  · obtain ⟨before, a, behind, hsplit, hlife, hindex, -⟩ := h.observable k hk.1 hk.2
    have ha : a ∈ received := by
      rw [hsplit]
      exact mem_append_right _ mem_cons_self
    rw [← h.count_eq_one hne ha]
    refine countP_congr fun b hb => ?_
    simp only [Function.comp, Bool.and_eq_true, decide_eq_true_iff, Arrival.isFirst, beq_iff_eq]
    constructor
    · rintro ⟨⟨-, hindex'⟩, hlife'⟩
      exact h.eq_of_eq hne hb ha (hlife'.trans hlife.symm) (hindex'.trans hindex.symm)
    · rintro rfl
      exact ⟨⟨hlife ▸ hk.1, hindex⟩, hlife⟩
  · refine countP_eq_zero.mpr fun b hb hfirst => hk ?_
    simp only [Function.comp, Bool.and_eq_true, decide_eq_true_iff, Arrival.isFirst] at hfirst
    obtain ⟨⟨h0, -⟩, rfl⟩ := hfirst
    exact ⟨h0, (Sd.mem_sent hne (h.mem_sent hb)).1⟩

end

/-- **Each restart is detected once** in every reception in which the first message behind a restart
meets a message that is held for its channel, and every other message meets none or one of its own
life. -/
theorem detected_once {unicast receiver sender : A} (hne : unicast ≠ receiver)
    {lives : List (List Send)} {received : List Arrival}
    (hreception : Reception unicast receiver lives received) {m : SessionsReceived A}
    (hm : m.lookup sender = none)
    (horderly : StepRun.AllSteps (Watch.step sender) Orderly (Watch.start m) received) :
    ∃ verdicts w, StepRun.run (Watch.step sender) (Watch.start m) received = .ok (verdicts, w) ∧
      DetectedOnce lives received verdicts := by
  have htracks : Tracks sender (Watch.start m) received :=
    ⟨fun ch _ => by rw [Watch.start, hm]; rfl, fun ch l hl => nomatch hl⟩
  obtain ⟨w, hrun⟩ := run_watch received (fun a ha => hreception.arrives hne ha)
    (hreception.pairwise hne) htracks horderly
  exact ⟨_, w, hrun, hreception.detectedOnce hne⟩

/-- A sender that multicasts the given numbers of messages in its lives, all of which arrive. -/
def multicasts (numbers : List ℕ) : List (List Send) :=
  numbers.map fun n => List.replicate n ⟨true, true⟩

/-- Where a life has a message in front of it, its first message is observed. -/
theorem reception_multicasts_two : Reception (1 : ℕ) 2 (multicasts [2, 2])
    (sent (1 : ℕ) 2 (multicasts [2, 2])) where
  inOrder _ := List.Sublist.refl _
  observable k h0 hk := by
    obtain rfl : k = 1 := by
      change k < 2 at hk
      omega
    exact ⟨[⟨0, 0, stamp true 0⟩, ⟨0, 1, stamp true 1⟩], ⟨1, 0, stamp true 0⟩,
      [⟨1, 1, stamp true 1⟩], by decide, rfl, rfl, ⟨0, 0, stamp true 0⟩, by decide⟩

theorem detected_once_multicasts : ∃ verdicts w,
    StepRun.run (Watch.step (1 : ℕ)) (Watch.start ∅) (sent (1 : ℕ) 2 (multicasts [2, 2])) =
        .ok (verdicts, w) ∧
      DetectedOnce (multicasts [2, 2]) (sent (1 : ℕ) 2 (multicasts [2, 2])) verdicts :=
  detected_once (by decide) reception_multicasts_two rfl (by decide)

/-- **A restart is missed**: the second of two restarts, with one message each. The message that shows
the first restart is not kept, so that the next one has nothing to be compared with. -/
theorem missed_restart :
    Reception (1 : ℕ) 2 (multicasts [1, 1, 1]) (sent (1 : ℕ) 2 (multicasts [1, 1, 1])) ∧
      ∃ verdicts w,
        StepRun.run (Watch.step (1 : ℕ)) (Watch.start ∅) (sent (1 : ℕ) 2 (multicasts [1, 1, 1])) =
            .ok (verdicts, w) ∧
          ¬ DetectedOnce (multicasts [1, 1, 1]) (sent (1 : ℕ) 2 (multicasts [1, 1, 1]))
            verdicts := by
  refine ⟨⟨fun _ => List.Sublist.refl _, fun k h0 hk => ?_⟩, [false, true, false], _, rfl,
    fun h => ?_⟩
  · obtain rfl | rfl : k = 1 ∨ k = 2 := by
      change k < 3 at hk
      omega
    · exact ⟨[⟨0, 0, stamp true 0⟩], ⟨1, 0, stamp true 0⟩, [⟨2, 0, stamp true 0⟩], by decide, rfl,
        rfl, ⟨0, 0, stamp true 0⟩, by decide⟩
    · exact ⟨[⟨0, 0, stamp true 0⟩, ⟨1, 0, stamp true 0⟩], ⟨2, 0, stamp true 0⟩, [], by decide, rfl,
        rfl, ⟨0, 0, stamp true 0⟩, by decide⟩
  · exact absurd (h 2) (by decide)

end SomeipTunnel.Sd
