import SomeipTunnel.Lib.Loop
import SomeipTunnel.Lib.Run

/-!
# The queue of multicast options

Requests to join and to leave a multicast group are queued, and one thread takes them out and calls
`set_multicast_option`, with the queue unlocked during the call. A join that fails is put behind
whatever has arrived meanwhile, together with a leave in front of it; a leave that fails is dropped.

Membership follows the requests (`Follows`) if, once no call fails and no request arrives any more,
each endpoint is a member of a group iff the last request for it was a join, whenever the queue is
empty and no option is being applied. `settled` is the membership that the options of a state lead
to, and `follows_iff` says that it is all that matters.

`membership_follows_iff`: membership follows the requests after every step of a run, iff each step
is `Harmless`: a join fails only as long as no leave was requested after it, and a leave fails only
if the endpoint is no member or another option for the group is behind it in the queue.

Source: vsomeip/implementation/endpoints/src/endpoint_manager_impl.cpp, add_multicast_option,
process_multicast_options
-/

namespace SomeipTunnel.Endpoint.Multicast

open StepRun Loop List

/-! ### The code -/

variable {E A : Type}

/-- Source: `multicast_option_t` -/
structure MulticastOption (E A : Type) where
  endpoint : E
  isJoin : Bool
  address : A

/-- The endpoint and the address. -/
def MulticastOption.key (o : MulticastOption E A) : E × A := (o.endpoint, o.address)

/-- The options, and what they are about: who is a member of which group. Beside the state of the
code, which request came last for each endpoint and address; without a request it is no join. -/
structure Options (E A : Type) where
  optionsQueue : List (MulticastOption E A)
  /-- The option whose call is running. -/
  applying : Option (MulticastOption E A)
  member : E × A → Bool
  last : E × A → Bool

def Options.empty : Options E A := ⟨[], none, fun _ => false, fun _ => false⟩

/-- What happens: a request arrives, the thread takes an option out of the queue, or a call returns
with or without an error. -/
inductive Event (E A : Type) where
  | add (option : MulticastOption E A)
  | take
  | returned (error : Bool)

section queued

variable {isUdpServer : E → Bool}

/-- What the options of a queue assign, as far as they come to be applied. -/
def queued (isUdpServer : E → Bool) (queue : List (MulticastOption E A)) : List ((E × A) × Bool) :=
  (queue.filter fun o => isUdpServer o.endpoint).map fun o => (o.key, o.isJoin)

theorem queued_append (queue queue' : List (MulticastOption E A)) :
    queued isUdpServer (queue ++ queue') =
      queued isUdpServer queue ++ queued isUdpServer queue' := by
  simp [queued]

theorem queued_of_udp {o : MulticastOption E A} (h : isUdpServer o.endpoint = true)
    (queue : List (MulticastOption E A)) :
    queued isUdpServer (o :: queue) = (o.key, o.isJoin) :: queued isUdpServer queue := by
  simp [queued, h]

theorem queued_of_not_udp {o : MulticastOption E A} (h : isUdpServer o.endpoint = false)
    (queue : List (MulticastOption E A)) :
    queued isUdpServer (o :: queue) = queued isUdpServer queue := by
  simp [queued, h]

end queued

variable [DecidableEq E] [DecidableEq A]

/-- Source: `endpoint_manager_impl::add_multicast_option` -/
def Options.addMulticastOption (s : Options E A) (option : MulticastOption E A) : Options E A :=
  { s with
    optionsQueue := s.optionsQueue ++ [option]
    last := Function.update s.last option.key option.isJoin }

variable (isUdpServer : E → Bool)

/-- The front option goes to its endpoint, or is dropped if that is no UDP server endpoint.
Source: `endpoint_manager_impl::process_multicast_options`, up to the call -/
def Options.take (s : Options E A) : Options E A :=
  match s.applying, s.optionsQueue with
  | none, front :: rest =>
      { s with
        optionsQueue := rest
        applying := if isUdpServer front.endpoint then some front else none }
  | _, _ => s

/-- Source: `endpoint_manager_impl::process_multicast_options`, behind the call; a call that
succeeds has established what it was asked for -/
def Options.returned (s : Options E A) (error : Bool) : Options E A :=
  match s.applying with
  | none => s
  | some front =>
      if error then
        let requeued := if front.isJoin then [{ front with isJoin := false }, front] else []
        { s with applying := none, optionsQueue := s.optionsQueue ++ requeued }
      else
        { s with applying := none, member := Function.update s.member front.key front.isJoin }

def Options.after (s : Options E A) : Event E A → Options E A
  | .add option => s.addMulticastOption option
  | .take => s.take isUdpServer
  | .returned error => s.returned error

def Options.step (s : Options E A) (e : Event E A) : Except Empty (Unit × Options E A) :=
  .ok ((), s.after isUdpServer e)

/-! ### What is asked for -/

/-- The queue is empty and no option is being applied. -/
def Options.Quiet (s : Options E A) : Prop := s.optionsQueue = [] ∧ s.applying = none

/-- No request arrives and no call fails. -/
def Event.Calm : Event E A → Prop
  | .add _ => False
  | .take => True
  | .returned error => error = false

/-- As long as no request arrives and no call fails, the members are those whose last request was a
join whenever the queue is empty and no option is being applied; in particular now. -/
def Follows (s : Options E A) : Prop :=
  ∀ events, (∀ e ∈ events, e.Calm) → ∀ outs t,
    run (Options.step isUdpServer) s events = .ok (outs, t) → t.Quiet → ∀ k, t.member k = t.last k

/-- A step after which membership follows the requests. -/
def Harmless (s : Options E A) : Event E A → Prop
  | .add option => isUdpServer option.endpoint = true ∨ s.last option.key = option.isJoin
  | .take => True
  | .returned error => error = true → ∀ option ∈ s.applying,
      if option.isJoin then s.last option.key = true
      else s.member option.key = false ∨ ∃ later ∈ s.optionsQueue, later.key = option.key

/-! ### Where the options lead to -/

/-- The members when all options have been applied. -/
def Options.settled (s : Options E A) : E × A → Bool :=
  assignAll s.member (queued isUdpServer (s.applying.toList ++ s.optionsQueue))

/-- The option that is being applied is for a UDP server endpoint. -/
def Options.Served (s : Options E A) : Prop := ∀ o ∈ s.applying, isUdpServer o.endpoint = true

section settled

variable {isUdpServer} {s t : Options E A}

theorem settled_of_none (h : s.applying = none) :
    s.settled isUdpServer = assignAll s.member (queued isUdpServer s.optionsQueue) := by
  simp [Options.settled, h]

theorem settled_of_some (hserved : s.Served isUdpServer) {o : MulticastOption E A}
    (h : s.applying = some o) :
    s.settled isUdpServer = assignAll (Function.update s.member o.key o.isJoin)
      (queued isUdpServer s.optionsQueue) := by
  have hudp : isUdpServer o.endpoint = true := hserved o h
  rw [Options.settled, h, Option.toList_some, singleton_append, queued_of_udp hudp,
    assignAll_cons]

theorem served_after (hserved : s.Served isUdpServer) (e : Event E A) :
    (s.after isUdpServer e).Served isUdpServer := by
  obtain ⟨queue, applying, member, last⟩ := s
  cases e with
  | add option => exact hserved
  | take =>
      rcases applying with _ | option
      · rcases queue with _ | ⟨front, rest⟩
        · exact hserved
        · intro o ho
          simp only [Options.after, Options.take] at ho
          split_ifs at ho with hudp
          · cases ho
            exact hudp
          · cases ho
      · exact hserved
  | returned error =>
      rcases applying with _ | option
      · exact hserved
      · intro o ho
        cases error <;> cases ho

/-- An event that is calm leaves alone where the options lead to, and the requests. -/
theorem settled_after_of_calm {e : Event E A} (hserved : s.Served isUdpServer) (he : e.Calm) :
    (s.after isUdpServer e).settled isUdpServer = s.settled isUdpServer ∧
      (s.after isUdpServer e).last = s.last := by
  obtain ⟨queue, applying, member, last⟩ := s
  cases e with
  | add option => exact he.elim
  | take =>
      rcases applying with _ | option
      · rcases queue with _ | ⟨front, rest⟩
        · exact ⟨rfl, rfl⟩
        · refine ⟨?_, rfl⟩
          have hserved' := served_after hserved .take
          rw [settled_of_none (s := ⟨front :: rest, none, member, last⟩) rfl]
          rcases hudp : isUdpServer front.endpoint with _ | _
          · rw [queued_of_not_udp hudp,
              settled_of_none (by simp [Options.after, Options.take, hudp])]
            rfl
          · rw [queued_of_udp hudp, assignAll_cons,
              settled_of_some hserved' (o := front) (by simp [Options.after, Options.take, hudp])]
            rfl
      · exact ⟨rfl, rfl⟩
  | returned error =>
      obtain rfl : error = false := he
      rcases applying with _ | option
      · exact ⟨rfl, rfl⟩
      · refine ⟨?_, rfl⟩
        rw [settled_of_some hserved rfl, settled_of_none rfl]
        rfl

/-- What calm events leave alone. -/
theorem run_calm {events : List (Event E A)} (hcalm : ∀ e ∈ events, e.Calm)
    (hserved : s.Served isUdpServer) {outs : List Unit}
    (hrun : run (Options.step isUdpServer) s events = .ok (outs, t)) :
    t.settled isUdpServer = s.settled isUdpServer ∧ t.last = s.last := by
  induction events generalizing s outs with
  | nil =>
      cases hrun
      exact ⟨rfl, rfl⟩
  | cons e events ih =>
      obtain ⟨_, s', outs', hstep, hrest, -⟩ := run_cons_eq_ok.mp hrun
      obtain rfl := congrArg Prod.snd (Except.ok.inj hstep)
      obtain ⟨hsettled, hlast⟩ := settled_after_of_calm hserved (hcalm e mem_cons_self)
      obtain ⟨hsettled', hlast'⟩ := ih (fun e' he' => hcalm e' (mem_cons_of_mem _ he'))
        (served_after hserved e) hrest
      exact ⟨hsettled'.trans hsettled, hlast'.trans hlast⟩

/-- The thread gets through with the queue. -/
theorem exists_calm_run_of_none (h : s.applying = none) :
    ∃ events outs t, (∀ e ∈ events, Event.Calm e) ∧
      run (Options.step isUdpServer) s events = .ok (outs, t) ∧ t.Quiet := by
  generalize hqueue : s.optionsQueue = queue
  induction queue generalizing s with
  | nil => exact ⟨[], [], s, by simp, rfl, hqueue, h⟩
  | cons front rest ih =>
      -- the front option is taken out, and its call returns
      have htaken : (s.after isUdpServer .take).optionsQueue = rest := by
        simp [Options.after, Options.take, h, hqueue]
      have hreturned : ∀ u : Options E A,
          (u.after isUdpServer (.returned false)).optionsQueue = u.optionsQueue ∧
            (u.after isUdpServer (.returned false)).applying = none := by
        intro u
        rcases hu : u.applying with _ | option <;> simp [Options.after, Options.returned, hu]
      obtain ⟨hrest, hnone⟩ := hreturned (s.after isUdpServer .take)
      obtain ⟨events, outs, t, hcalm, hrun, hquiet⟩ := ih hnone (hrest.trans htaken)
      refine ⟨.take :: .returned false :: events, () :: () :: outs, t, ?_, ?_, hquiet⟩
      · simp only [forall_mem_cons]
        exact ⟨trivial, rfl, hcalm⟩
      · exact run_cons_eq_ok.mpr ⟨_, _, _, rfl, run_cons_eq_ok.mpr ⟨_, _, _, rfl, hrun, rfl⟩, rfl⟩

/-- Membership follows the requests iff the options lead to it. -/
theorem follows_iff (hserved : s.Served isUdpServer) :
    Follows isUdpServer s ↔ ∀ k, s.settled isUdpServer k = s.last k := by
  have hquiet_settled : ∀ t : Options E A, t.Quiet → t.settled isUdpServer = t.member := by
    rintro t ⟨hqueue, hnone⟩
    rw [settled_of_none hnone, hqueue]
    rfl
  constructor
  · intro hfollows k
    -- the call that is running returns, and then the thread gets through with the queue
    have hnone : (s.after isUdpServer (.returned false)).applying = none := by
      rcases hs : s.applying with _ | option <;> simp [Options.after, Options.returned, hs]
    obtain ⟨events, outs, t, hcalm, hrun, hquiet⟩ := exists_calm_run_of_none hnone
    have hcalm' : ∀ e ∈ Event.returned false :: events, Event.Calm e := by
      simp only [forall_mem_cons]
      exact ⟨rfl, hcalm⟩
    have hrun' : run (Options.step isUdpServer) s (.returned false :: events) =
        .ok (() :: outs, t) := run_cons_eq_ok.mpr ⟨_, _, _, rfl, hrun, rfl⟩
    obtain ⟨hsettled, hlast⟩ := run_calm hcalm' hserved hrun'
    rw [← hsettled, ← hlast, hquiet_settled t hquiet]
    exact hfollows _ hcalm' _ t hrun' hquiet k
  · intro hsettled events hcalm outs t hrun hquiet k
    obtain ⟨hsettled', hlast'⟩ := run_calm hcalm hserved hrun
    rw [← hquiet_settled t hquiet, hsettled', hlast']
    exact hsettled k

end settled

/-! ### Whole runs -/

section harmless

variable {isUdpServer} {s : Options E A}

/-- A request changes where the options lead to as it changes the last request, unless it is
dropped. -/
theorem add_follows_iff (hsettled : ∀ k, s.settled isUdpServer k = s.last k)
    (option : MulticastOption E A) :
    (∀ k, (s.after isUdpServer (.add option)).settled isUdpServer k =
        (s.after isUdpServer (.add option)).last k) ↔ Harmless isUdpServer s (.add option) := by
  have hsettled' : (s.after isUdpServer (.add option)).settled isUdpServer =
      assignAll s.last (queued isUdpServer [option]) := by
    rw [← funext hsettled]
    unfold Options.settled
    rw [← assignAll_append, ← queued_append, append_assoc]
    rfl
  have hlast : (s.after isUdpServer (.add option)).last =
      Function.update s.last option.key option.isJoin := rfl
  rw [hsettled', hlast]
  rcases hudp : isUdpServer option.endpoint with _ | _
  · rw [queued_of_not_udp hudp]
    refine Iff.trans ?_ (or_iff_right (by simp [hudp])).symm
    constructor
    · intro heq
      exact (heq option.key).trans (Function.update_self _ _ _)
    · intro hlast k
      rw [← hlast, Function.update_eq_self]
      rfl
  · rw [queued_of_udp hudp]
    exact iff_of_true (fun _ => rfl) (.inl hudp)

/-- A join that fails is requested again behind all others. -/
theorem failed_join_follows_iff (hserved : s.Served isUdpServer)
    (hsettled : ∀ k, s.settled isUdpServer k = s.last k) {option : MulticastOption E A}
    (h : s.applying = some option) (hjoin : option.isJoin = true) :
    (∀ k, (s.after isUdpServer (.returned true)).settled isUdpServer k =
        (s.after isUdpServer (.returned true)).last k) ↔ s.last option.key = true := by
  have hafter : s.after isUdpServer (.returned true) =
      { s with
        applying := none
        optionsQueue := s.optionsQueue ++ [{ option with isJoin := false }, option] } := by
    simp [Options.after, Options.returned, h, hjoin]
  have hudp : isUdpServer option.endpoint = true := hserved option h
  have hother : ∀ k, k ≠ option.key →
      assignAll s.member (queued isUdpServer s.optionsQueue) k = s.last k := by
    intro k hk
    rw [← hsettled k, settled_of_some hserved h]
    apply assignAll_congr
    rw [Function.update_of_ne hk]
  rw [hafter, settled_of_none rfl]
  rw [queued_append, queued_of_udp (by exact hudp), queued_of_udp hudp, assignAll_append,
    assignAll_cons, assignAll_cons]
  constructor
  · intro heq
    rw [← heq option.key, hjoin]
    exact Function.update_self _ _ _
  · intro hlast k
    by_cases hk : k = option.key
    · rw [hk, hlast, hjoin]
      exact Function.update_self _ _ _
    · rw [← hother k hk]
      exact (Function.update_of_ne hk _ _).trans (Function.update_of_ne hk _ _)

/-- A leave that fails is forgotten. -/
theorem failed_leave_follows_iff (hserved : s.Served isUdpServer)
    (hsettled : ∀ k, s.settled isUdpServer k = s.last k) {option : MulticastOption E A}
    (h : s.applying = some option) (hleave : option.isJoin = false) :
    (∀ k, (s.after isUdpServer (.returned true)).settled isUdpServer k =
        (s.after isUdpServer (.returned true)).last k) ↔
      s.member option.key = false ∨ ∃ later ∈ s.optionsQueue, later.key = option.key := by
  have hafter : s.after isUdpServer (.returned true) = { s with applying := none } := by
    simp [Options.after, Options.returned, h, hleave]
  have hudp : isUdpServer option.endpoint = true := hserved option h
  have hsettled' : ∀ k, assignAll (Function.update s.member option.key false)
      (queued isUdpServer s.optionsQueue) k = s.last k := by
    intro k
    rw [← hsettled k, settled_of_some hserved h, hleave]
  have hqueued : (∃ w ∈ queued isUdpServer s.optionsQueue, w.1 = option.key) ↔
      ∃ later ∈ s.optionsQueue, later.key = option.key := by
    constructor
    · rintro ⟨w, hw, hkey⟩
      obtain ⟨later, hlater, rfl⟩ := mem_map.mp hw
      exact ⟨later, (mem_filter.mp hlater).1, hkey⟩
    · rintro ⟨later, hlater, hkey⟩
      have hudp' : isUdpServer later.endpoint = true := by
        rw [(Prod.mk.inj hkey).1]
        exact hudp
      exact ⟨_, mem_map.mpr ⟨later, mem_filter.mpr ⟨hlater, hudp'⟩, rfl⟩, hkey⟩
  rw [hafter, settled_of_none rfl]
  rw [← hqueued]
  by_cases hmem : ∃ w ∈ queued isUdpServer s.optionsQueue, w.1 = option.key
  · refine iff_of_true (fun k => ?_) (.inr hmem)
    rw [← hsettled' k]
    by_cases hk : k = option.key
    · rw [hk]
      exact assignAll_eq_of_mem hmem
    · apply assignAll_congr
      rw [Function.update_of_ne hk]
  · have hnot : ∀ w ∈ queued isUdpServer s.optionsQueue, w.1 ≠ option.key :=
      fun w hw hkey => hmem ⟨w, hw, hkey⟩
    have hfalse : s.last option.key = false := by
      rw [← hsettled', assignAll_of_not_mem hnot, Function.update_self]
    rw [or_iff_left hmem]
    constructor
    · intro heq
      rw [← hfalse, ← heq option.key, assignAll_of_not_mem hnot]
    · intro hmember k
      rw [← hsettled' k, ← hmember, Function.update_eq_self]

/-- One step: the options lead to what was requested last iff the step is harmless. -/
theorem settled_after_iff (hserved : s.Served isUdpServer)
    (hsettled : ∀ k, s.settled isUdpServer k = s.last k) (e : Event E A) :
    (∀ k, (s.after isUdpServer e).settled isUdpServer k = (s.after isUdpServer e).last k) ↔
      Harmless isUdpServer s e := by
  have hcalm : e.Calm → ∀ k,
      (s.after isUdpServer e).settled isUdpServer k = (s.after isUdpServer e).last k := by
    intro he k
    obtain ⟨hsame, hlast⟩ := settled_after_of_calm hserved he
    rw [hsame, hlast, hsettled]
  cases e with
  | add option => exact add_follows_iff hsettled option
  | take => exact iff_of_true (hcalm trivial) trivial
  | returned error =>
      cases error with
      | false => exact iff_of_true (hcalm rfl) fun herror => nomatch herror
      | true =>
          rcases h : s.applying with _ | option
          · refine iff_of_true ?_ ?_
            · have hsame : s.after isUdpServer (.returned true) = s := by
                simp [Options.after, Options.returned, h]
              rw [hsame]
              exact hsettled
            · intro _ option hoption
              rw [h] at hoption
              cases hoption
          · unfold Harmless
            simp only [h, Option.mem_def, Option.some.injEq, forall_eq', forall_const]
            rcases hjoin : option.isJoin with _ | _
            · exact failed_leave_follows_iff hserved hsettled h hjoin
            · exact failed_join_follows_iff hserved hsettled h hjoin

end harmless

/-- **Multicast membership follows the last request.** After every step of a run membership follows
the requests, iff every step is harmless. -/
theorem membership_follows_iff (events : List (Event E A)) :
    AllSteps (Options.step isUdpServer) (fun s e => Follows isUdpServer (s.after isUdpServer e))
        .empty events ↔
      AllSteps (Options.step isUdpServer) (Harmless isUdpServer) .empty events := by
  apply AllSteps.iff_of_invariant fun s =>
    s.Served isUdpServer ∧ ∀ k, s.settled isUdpServer k = s.last k
  · rintro s e out s' ⟨hserved, hsettled⟩ hharmless hstep
    obtain rfl := congrArg Prod.snd (Except.ok.inj hstep)
    exact ⟨served_after hserved e, (settled_after_iff hserved hsettled e).mpr hharmless⟩
  · rintro s e ⟨hserved, hsettled⟩
    rw [follows_iff (served_after hserved e)]
    exact settled_after_iff hserved hsettled e
  · exact ⟨fun o ho => (nomatch ho), fun k => rfl⟩

/-- A leave that is requested while a join fails is overtaken by the join, and a leave that fails is
not tried again: the endpoint is a member, though the last request was a leave. -/
theorem membership_not_follows :
    (∃ outs t, run (Options.step fun _ : Unit => true) (.empty : Options Unit Unit)
        [.add ⟨(), true, ()⟩, .take, .add ⟨(), false, ()⟩, .returned true,
          .take, .returned false, .take, .returned false, .take, .returned false] = .ok (outs, t) ∧
        t.optionsQueue.isEmpty = true ∧ t.applying.isNone = true ∧ t.member ((), ()) = true ∧
          t.last ((), ()) = false) ∧
      (∃ outs t, run (Options.step fun _ : Unit => true) (.empty : Options Unit Unit)
        [.add ⟨(), true, ()⟩, .take, .returned false, .add ⟨(), false, ()⟩, .take,
          .returned true] = .ok (outs, t) ∧
        t.optionsQueue.isEmpty = true ∧ t.applying.isNone = true ∧ t.member ((), ()) = true ∧
          t.last ((), ()) = false) :=
  ⟨⟨_, _, rfl, rfl, rfl, rfl, rfl⟩, ⟨_, _, rfl, rfl, rfl, rfl, rfl⟩⟩

end SomeipTunnel.Endpoint.Multicast
