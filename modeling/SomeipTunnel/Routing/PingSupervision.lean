import SomeipTunnel.Lib.Run

/-!
# The supervision of pinged clients

The routing manager pings a client that seems to be gone and takes it for dead if there is no answer
within a configured time. One timer does this for all pinged clients. It is set to the shortest time
since one of them was pinged, where the time that is left for the one that was pinged first is meant.

* `dead_iff`: at an expiry, the clients that are declared dead are those whose time is over.
* `ping_supervision_iff`: along a run the timer is right at every step iff, whenever it is set for
  clients that were pinged before, the time since the last of their pings and the time since the first
  add up to the timeout.

Time is in nanoseconds, as that of the clock, and passes between the operations; timeouts are in
milliseconds.

Source: vsomeip/implementation/routing/src/routing_manager_stub.cpp
-/

namespace SomeipTunnel.Routing

open List StepRun

/-! ### The code -/

/-- A millisecond. -/
def ms : ℕ := 1000000

/-- The pinged clients with the times of their pings, and the timer: when it was set, and to which
timeout. -/
structure PingState where
  clock : ℕ
  pingedClients : List (UInt16 × ℕ)
  timer : Option (ℕ × ℕ)
deriving DecidableEq

inductive PingOperation
  /-- There is no endpoint of the client, or there is one that sends or fails. -/
  | sendPing (client : UInt16) (endpoint : Option Bool)
  | remove (client : UInt16)
  | expired (error : Bool)

namespace PingState

/-- The loop that all three functions have. -/
def nextTimeout (timeout now : ℕ) (pinged : List (UInt16 × ℕ)) : ℕ :=
  pinged.foldl (fun next tp => if next > (now - tp.2) / ms then (now - tp.2) / ms else next) timeout

variable (timeout : ℕ) (s : PingState)

/-- Source: `routing_manager_stub::send_ping`. -/
def sendPing (client : UInt16) : Option Bool → Bool × PingState
  | none => (false, s)
  | some sent =>
      if s.pingedClients.any fun tp => tp.1 = client then (true, s)
      else (sent, { s with
        pingedClients := s.pingedClients ++ [(client, s.clock)]
        timer := some (s.clock, nextTimeout timeout s.clock s.pingedClients) })

/-- The time of a client is over. -/
def isOver (tp : UInt16 × ℕ) : Bool := timeout * ms ≤ s.clock - tp.2

/-- Source: `routing_manager_stub::on_ping_timer_expired`. The clients are those that are reported by
`handle_client_error`. -/
def onPingTimerExpired (error : Bool) : List UInt16 × PingState :=
  if error then ([], s)
  else
    let timedOut := (s.pingedClients.filter (s.isOver timeout)).map Prod.fst
    let remaining := s.pingedClients.filter fun tp => !s.isOver timeout tp
    (timedOut.reverse, { s with
      pingedClients := remaining
      timer := if remaining ≠ [] then some (s.clock, nextTimeout timeout s.clock remaining)
        else s.timer })

/-- Source: `routing_manager_stub::remove_from_pinged_clients`. -/
def removeFromPingedClients (client : UInt16) : PingState :=
  if s.pingedClients = [] then s
  else
    let remaining := s.pingedClients.filter fun tp => tp.1 ≠ client
    { s with
      pingedClients := remaining
      timer := if remaining = [] then none
        else some (s.clock, nextTimeout timeout s.clock remaining) }

/-- Time passes. -/
def wait (elapsed : ℕ) : PingState := { s with clock := s.clock + elapsed }

/-- The clients that an operation declares dead, and the state behind it. -/
def perform : PingOperation → List UInt16 × PingState
  | .sendPing client endpoint => ([], (s.sendPing timeout client endpoint).2)
  | .remove client => ([], s.removeFromPingedClients timeout client)
  | .expired error => s.onPingTimerExpired timeout error

/-- An operation, with the time that passes before it. -/
def step (e : ℕ × PingOperation) : Except Empty (List UInt16 × PingState) :=
  .ok ((s.wait e.1).perform timeout e.2)

/-! ### Being right -/

/-- Equal, up to rounding to milliseconds. -/
def Near (a b : ℕ) : Prop := a < b + ms ∧ b < a + ms

/-- The timeout minus the time since a ping. -/
def timeLeft (now : ℕ) (tp : UInt16 × ℕ) : ℕ := timeout * ms - (now - tp.2)

/-- The timer was set to the shortest of the times that were left to the pinged clients. -/
def TimerRight : Prop :=
  s.pingedClients ≠ [] → ∃ start next left, s.timer = some (start, next) ∧
    IsLeast {t | ∃ tp ∈ s.pingedClients, timeLeft timeout start tp = t} left ∧ Near (next * ms) left

/-- A client is declared dead exactly at an expiry, if its timeout is over. -/
def DeadRight (op : PingOperation) (dead : List UInt16) : Prop :=
  ∀ client, client ∈ dead ↔ op = .expired false ∧
    ∃ time, (client, time) ∈ s.pingedClients ∧ timeout * ms ≤ s.clock - time

/-- **Supervision**: a step declares dead whom it should and leaves the timer right. -/
def Supervised (e : ℕ × PingOperation) : Prop :=
  let performed := (s.wait e.1).perform timeout e.2
  performed.2.TimerRight timeout ∧ (s.wait e.1).DeadRight timeout e.2 performed.1

/-- The time since the last ping, in full milliseconds and at most the timeout, and the time since the
first one add up to the timeout. -/
def Balanced (now : ℕ) (pinged : List (UInt16 × ℕ)) : Prop :=
  ∀ last ∈ pinged, ∀ first ∈ pinged, (∀ tp ∈ pinged, first.2 ≤ tp.2 ∧ tp.2 ≤ last.2) →
    Near (min timeout ((now - last.2) / ms) * ms) (timeout * ms - (now - first.2))

/-- The clients that were pinged before are balanced when the timer is set for them. -/
def BalancedFor : PingOperation → Prop
  | .sendPing client (some _) => (∀ tp ∈ s.pingedClients, tp.1 ≠ client) →
      Balanced timeout s.clock s.pingedClients
  | .sendPing _ none => True
  | .remove client => Balanced timeout s.clock (s.pingedClients.filter fun tp => tp.1 ≠ client)
  | .expired false => Balanced timeout s.clock
      (s.pingedClients.filter fun tp => s.clock - tp.2 < timeout * ms)
  | .expired true => True

/-! ### The timer -/

variable {timeout : ℕ} {s : PingState} {now : ℕ} {pinged : List (UInt16 × ℕ)}

theorem le_nextTimeout_iff {k : ℕ} : k ≤ nextTimeout timeout now pinged ↔
    k ≤ timeout ∧ ∀ tp ∈ pinged, k ≤ (now - tp.2) / ms := by
  induction pinged generalizing timeout with
  | nil => simp [nextTimeout]
  | cons tp pinged ih =>
      have hstep : nextTimeout timeout now (tp :: pinged) =
          nextTimeout (min timeout ((now - tp.2) / ms)) now pinged := by
        rw [nextTimeout, foldl_cons, nextTimeout]
        congr 1
        split_ifs <;> omega
      rw [hstep, ih, le_min_iff, forall_mem_cons, and_assoc]

/-- The loop looks for the ping that was last. -/
theorem nextTimeout_eq {last : UInt16 × ℕ} (hlast : last ∈ pinged)
    (hle : ∀ tp ∈ pinged, tp.2 ≤ last.2) :
    nextTimeout timeout now pinged = min timeout ((now - last.2) / ms) := by
  apply eq_of_forall_le_iff
  intro k
  rw [le_nextTimeout_iff, le_min_iff]
  refine and_congr_right fun _ => ⟨fun h => h last hlast, fun h tp htp => ?_⟩
  have := hle tp htp
  exact h.trans (Nat.div_le_div_right (by omega))

/-- There is a first and a last ping. -/
theorem exists_first_last (h : pinged ≠ []) :
    ∃ first ∈ pinged, ∃ last ∈ pinged, ∀ tp ∈ pinged, first.2 ≤ tp.2 ∧ tp.2 ≤ last.2 := by
  have hne : pinged.toFinset.Nonempty := toFinset_nonempty_iff pinged |>.mpr h
  obtain ⟨first, hfirst, hmin⟩ := pinged.toFinset.exists_min_image Prod.snd hne
  obtain ⟨last, hlast, hmax⟩ := pinged.toFinset.exists_max_image Prod.snd hne
  simp only [mem_toFinset] at hfirst hmin hlast hmax
  exact ⟨first, hfirst, last, hlast, fun tp htp => ⟨hmin tp htp, hmax tp htp⟩⟩

/-- The time that is left is shortest for the ping that was first. -/
theorem isLeast_timeLeft {first : UInt16 × ℕ} (hfirst : first ∈ pinged)
    (hle : ∀ tp ∈ pinged, first.2 ≤ tp.2) :
    IsLeast {t | ∃ tp ∈ pinged, timeLeft timeout now tp = t} (timeLeft timeout now first) := by
  refine ⟨⟨first, hfirst, rfl⟩, ?_⟩
  rintro _ ⟨tp, htp, rfl⟩
  have := hle tp htp
  unfold timeLeft
  omega

/-- A timer that is set by the loop over earlier pings, maybe together with a new ping, is right iff
these are balanced. -/
theorem timerRight_iff_balanced {new : List (UInt16 × ℕ)} (hne : pinged ≠ [])
    (hpast : ∀ tp ∈ pinged, tp.2 ≤ now) (hnew : ∀ tp ∈ new, tp.2 = now)
    (hpinged : s.pingedClients = pinged ++ new)
    (htimer : s.timer = some (now, nextTimeout timeout now pinged)) :
    s.TimerRight timeout ↔ Balanced timeout now pinged := by
  obtain ⟨first, hfirst, last, hlast, hle⟩ := exists_first_last hne
  have hleast : IsLeast {t | ∃ tp ∈ s.pingedClients, timeLeft timeout now tp = t}
      (timeLeft timeout now first) := by
    rw [hpinged]
    apply isLeast_timeLeft (mem_append_left new hfirst)
    intro tp htp
    rcases mem_append.mp htp with htp | htp
    · exact (hle tp htp).1
    · exact (hnew tp htp).symm ▸ hpast first hfirst
  have hnext : nextTimeout timeout now pinged = min timeout ((now - last.2) / ms) :=
    nextTimeout_eq hlast fun tp htp => (hle tp htp).2
  constructor
  · intro hright last' hlast' first' hfirst' hle'
    obtain ⟨start, next, left, hset, hleft, hnear⟩ :=
      hright (hpinged ▸ append_ne_nil_of_left_ne_nil hne new)
    obtain ⟨rfl, rfl⟩ := Prod.mk.inj (Option.some.inj (htimer.symm.trans hset))
    have hfirsts : first'.2 = first.2 := le_antisymm (hle' first hfirst).1 (hle first' hfirst').1
    have hlasts : last'.2 = last.2 := le_antisymm (hle last' hlast').2 (hle' last hlast).2
    rw [hnext, hleft.unique hleast] at hnear
    rwa [hfirsts, hlasts]
  · intro hbalanced _
    refine ⟨now, _, _, htimer, hleast, ?_⟩
    rw [hnext]
    exact hbalanced last hlast first hfirst hle

theorem timerRight_of_nil (h : s.pingedClients = []) : s.TimerRight timeout :=
  fun hne => absurd h hne

theorem balanced_nil : Balanced timeout now [] := fun _ hlast => absurd hlast not_mem_nil

/-! ### Steps and runs -/

/-- No ping is in the future, and the timer is right. -/
structure Kept (timeout : ℕ) (s : PingState) : Prop where
  past : ∀ tp ∈ s.pingedClients, tp.2 ≤ s.clock
  timer : s.TimerRight timeout

theorem Kept.wait (h : s.Kept timeout) (elapsed : ℕ) : (s.wait elapsed).Kept timeout :=
  ⟨fun tp htp => (h.past tp htp).trans (Nat.le_add_right _ _), h.timer⟩

/-- The first client that is pinged has all of its time. -/
theorem timerRight_first {client : UInt16} (hpinged : s.pingedClients = [(client, now)])
    (htimer : s.timer = some (now, timeout)) : s.TimerRight timeout := by
  intro _
  have hmem : (client, now) ∈ s.pingedClients := hpinged ▸ mem_cons_self
  refine ⟨now, timeout, timeLeft timeout now (client, now), htimer, isLeast_timeLeft hmem ?_, ?_⟩
  · intro tp htp
    rw [hpinged, mem_singleton] at htp
    rw [htp]
  · simp [Near, timeLeft, ms]

/-- Whether an operation leaves the timer right. -/
theorem Kept.timerRight_iff (h : s.Kept timeout) (op : PingOperation) :
    (s.perform timeout op).2.TimerRight timeout ↔ s.BalancedFor timeout op := by
  cases op with
  | sendPing client endpoint =>
      cases endpoint with
      | none => exact iff_of_true h.timer trivial
      | some sent =>
          by_cases hknown : s.pingedClients.any fun tp => tp.1 = client
          · -- the client waits already: nothing changes
            simp only [perform, sendPing, hknown, if_true]
            refine iff_of_true h.timer fun hall => ?_
            obtain ⟨tp, htp, heq⟩ := any_eq_true.mp hknown
            exact absurd (of_decide_eq_true heq) (hall tp htp)
          · simp only [perform, sendPing, hknown]
            have hall : ∀ tp ∈ s.pingedClients, tp.1 ≠ client :=
              fun tp htp heq => hknown (any_eq_true.mpr ⟨tp, htp, decide_eq_true heq⟩)
            rw [BalancedFor, forall_prop_of_true hall]
            by_cases hne : s.pingedClients = []
            · refine iff_of_true (timerRight_first (by rw [hne]; rfl) (by rw [hne]; rfl)) ?_
              rw [hne]
              exact balanced_nil
            · exact timerRight_iff_balanced hne h.past (by simp) rfl rfl
  | remove client =>
      have hpast : ∀ tp ∈ s.pingedClients.filter fun tp => tp.1 ≠ client, tp.2 ≤ s.clock :=
        fun tp htp => h.past tp (mem_of_mem_filter htp)
      simp only [perform, removeFromPingedClients, BalancedFor]
      split_ifs with hnil hrest
      · rw [hnil]
        exact iff_of_true h.timer balanced_nil
      · rw [hrest]
        exact iff_of_true (timerRight_of_nil rfl) balanced_nil
      · exact timerRight_iff_balanced hrest hpast (by simp) (append_nil _).symm rfl
  | expired error =>
      cases error with
      | true => exact iff_of_true h.timer trivial
      | false =>
          have hrest : (s.pingedClients.filter fun tp => !s.isOver timeout tp) =
              s.pingedClients.filter fun tp => s.clock - tp.2 < timeout * ms := by
            refine filter_congr fun tp _ => ?_
            rw [isOver, ← decide_not]
            exact decide_eq_decide.mpr not_le
          simp only [perform, onPingTimerExpired, BalancedFor, hrest]
          have hpast : ∀ tp ∈ s.pingedClients.filter fun tp => s.clock - tp.2 < timeout * ms,
              tp.2 ≤ s.clock := fun tp htp => h.past tp (mem_of_mem_filter htp)
          by_cases hnil : (s.pingedClients.filter fun tp => s.clock - tp.2 < timeout * ms) = []
          · rw [hnil]
            exact iff_of_true (timerRight_of_nil rfl) balanced_nil
          · exact timerRight_iff_balanced hnil hpast (by simp) (append_nil _).symm
              (by simp [hnil])

/-- The clients that are declared dead are those whose time is over. -/
theorem dead_iff (timeout : ℕ) (s : PingState) (op : PingOperation) :
    s.DeadRight timeout op (s.perform timeout op).1 := by
  intro client
  cases op with
  | sendPing => simp [perform]
  | remove => simp [perform]
  | expired error =>
      cases error
      · simp [perform, onPingTimerExpired, isOver]
      · simp [perform, onPingTimerExpired]

theorem past_perform (h : ∀ tp ∈ s.pingedClients, tp.2 ≤ s.clock) (op : PingOperation) :
    ∀ tp ∈ (s.perform timeout op).2.pingedClients, tp.2 ≤ (s.perform timeout op).2.clock := by
  cases op with
  | sendPing client endpoint =>
      cases endpoint with
      | none => exact h
      | some sent =>
          simp only [perform, sendPing]
          split_ifs
          · exact h
          · intro tp htp
            rcases mem_append.mp htp with htp | htp
            · exact h tp htp
            · rw [mem_singleton.mp htp]
  | remove client =>
      simp only [perform, removeFromPingedClients]
      split_ifs
      · exact h
      · exact fun tp htp => h tp (mem_of_mem_filter htp)
      · exact fun tp htp => h tp (mem_of_mem_filter htp)
  | expired error =>
      simp only [perform, onPingTimerExpired]
      split_ifs
      · exact h
      · exact fun tp htp => h tp (mem_of_mem_filter htp)
      · exact fun tp htp => h tp (mem_of_mem_filter htp)

/-- Nobody is pinged. -/
def start : PingState := ⟨0, [], none⟩

/-- **Ping supervision.** Along a run from the start the timer is always right, and exactly those
clients are declared dead whose time is over, iff the earlier pings are balanced whenever the timer is
set for them. -/
theorem ping_supervision_iff (timeout : ℕ) (events : List (ℕ × PingOperation)) :
    AllSteps (step timeout) (Supervised timeout) start events ↔
      AllSteps (step timeout) (fun s e => (s.wait e.1).BalancedFor timeout e.2) start events := by
  refine AllSteps.iff_of_invariant (Kept timeout) ?_ ?_ ⟨by simp [start], timerRight_of_nil rfl⟩
  · rintro s ⟨elapsed, op⟩ dead s' h hbalanced hstep
    obtain rfl := congrArg Prod.snd (Except.ok.inj hstep)
    exact ⟨past_perform (h.wait elapsed).past op,
      ((h.wait elapsed).timerRight_iff op).mpr hbalanced⟩
  · rintro s ⟨elapsed, op⟩ h
    exact (and_iff_left (dead_iff timeout _ op)).trans ((h.wait elapsed).timerRight_iff op)

/-- A second client is pinged one second after a first one: with a timeout of five seconds, four are
left to the first client, and the timer is set to one. -/
theorem second_ping_sets_elapsed_time :
    let events : List (ℕ × PingOperation) :=
      [(0, .sendPing 1 (some true)), (1000 * ms, .sendPing 2 (some true))]
    run (step 5000) start events =
      .ok ([[], []], ⟨1000 * ms, [(1, 0), (2, 1000 * ms)], some (1000 * ms, 1000)⟩) ∧
    ¬ AllSteps (step 5000) (Supervised 5000) start events := by
  refine ⟨rfl, fun hall => ?_⟩
  obtain ⟨_, hrest⟩ := hall
  obtain ⟨⟨hright, _⟩, _⟩ := hrest [] ⟨0, [(1, 0)], some (0, 5000)⟩ rfl
  obtain ⟨start, next, left, hset, ⟨⟨tp, htp, hleft⟩, _⟩, hnear⟩ := hright (by decide)
  obtain ⟨rfl, rfl⟩ := Prod.mk.inj (Option.some.inj hset)
  have hshort : left < 1001 * ms := lt_of_lt_of_eq hnear.2 (by decide)
  rcases mem_cons.mp htp with rfl | htp
  · exact absurd (hleft ▸ hshort) (by decide)
  · rw [mem_singleton.mp htp] at hleft
    exact absurd (hleft ▸ hshort) (by decide)

end PingState

end SomeipTunnel.Routing
