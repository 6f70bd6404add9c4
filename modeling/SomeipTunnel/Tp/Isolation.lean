import SomeipTunnel.Lib.Keyed
import SomeipTunnel.Tp.MessageSafety
import SomeipTunnel.Tp.Reassembler

/-!
# Streams do not interfere

A `Stream` is what the segments of one sender's message have in common: address, port and the five
header fields that are packed into the 64-bit id. The packing is injective on fields that have the
widths of the header (`Stream.key_injective`), so a stream has an entry of its own, and the
reassembler is a machine that serves one part per stream (`TpReassembler.isLocal`).

Isolation then is the rule of such machines, for runs that do not leave the defined behaviour. A
segment that does leave it takes all other streams with it; the condition excludes this.

* `TpReassembler.isLocal`: a segment touches the entry of its stream only, a sweep treats all entries
  alike.
* `TpReassembler.Sound.step`: admitted calls return and keep what later calls need.
* `streams_isolated`: the results of a stream are those of a reassembler that gets nothing else, and
  no inner map is empty.
-/

namespace SomeipTunnel.Tp

open StepRun Table Keyed

/-! ### Streams -/

/-- A stream of segments: sender and the header fields of the packed id. -/
structure Stream (Address : Type*) where
  address : Address
  port : UInt16
  service : ℕ
  method : ℕ
  client : ℕ
  interfaceVersion : UInt8
  /-- The message type without the TP flag. -/
  messageType : UInt8
  service_lt : service < 2 ^ 16
  method_lt : method < 2 ^ 16
  client_lt : client < 2 ^ 16
deriving DecidableEq

variable {Address : Type*}

/-- The stream of a datagram. -/
def streamOf (data : List UInt8) (address : Address) (port : UInt16) : Stream Address where
  address := address
  port := port
  service := readUint16Be data 0
  method := readUint16Be data 2
  client := readUint16Be data 8
  interfaceVersion := byteAt data 13
  messageType := tpFlagUnset (byteAt data 14)
  service_lt := readUint16Be_lt _ _
  method_lt := readUint16Be_lt _ _
  client_lt := readUint16Be_lt _ _

/-- Where the entry of a stream is in `tp_messages_`. -/
def Stream.key (k : Stream Address) : Address × UInt16 × ℕ :=
  (k.address, k.port,
    tpMessageId k.service k.method k.client k.interfaceVersion.toNat k.messageType.toNat)

/-- The packed id keeps the fields apart. -/
theorem Stream.key_injective : Function.Injective (@Stream.key Address) := by
  rintro ⟨a, p, s, m, c, i, t, hs, hm, hc⟩ ⟨a', p', s', m', c', i', t', hs', hm', hc'⟩ h
  simp only [Stream.key, Prod.mk.injEq] at h
  obtain ⟨rfl, rfl, hid⟩ := h
  obtain ⟨rfl, rfl, rfl, hi, ht⟩ := tpMessageId_inj hm hm' hc hc' i.toNat_lt i'.toNat_lt t.toNat_lt
    t'.toNat_lt hid
  rw [UInt8.toNat_inj.mp hi, UInt8.toNat_inj.mp ht]

theorem key_streamOf (data : List UInt8) (address : Address) (port : UInt16) :
    (streamOf data address port).key = keyOf data address port := rfl

/-- What a call is about. A datagram without a full header is about nothing. -/
def Event.scope : Event Address → Scope (Stream Address)
  | .segment data address port _ =>
      if data.length < 16 then .nothing else .one (streamOf data address port)
  | .sweep _ => .all

variable {e : Event Address}

theorem Event.scope_eq_one {k : Stream Address} (h : e.scope = .one k) :
    ∃ data address port now, e = .segment data address port now ∧ 16 ≤ data.length ∧
      k = streamOf data address port := by
  rcases e with ⟨data, address, port, now⟩ | now
  · simp only [Event.scope] at h
    split_ifs at h with hlen
    cases h
    exact ⟨data, address, port, now, rfl, by omega, rfl⟩
  · cases h

theorem Event.scope_eq_nothing (h : e.scope = .nothing) :
    ∃ data address port now, e = .segment data address port now ∧ data.length < 16 := by
  rcases e with ⟨data, address, port, now⟩ | now
  · simp only [Event.scope] at h
    split_ifs at h with hlen
    exact ⟨data, address, port, now, rfl, hlen⟩
  · cases h

theorem Event.scope_eq_all (h : e.scope = .all) : ∃ now, e = .sweep now := by
  rcases e with ⟨data, address, port, now⟩ | now
  · simp only [Event.scope] at h
    split_ifs at h
  · exact ⟨now, rfl⟩

variable [DecidableEq Address]

/-! ### The reassembler serves its streams -/

/-- What a reassembler knows about a stream. -/
def TpReassembler.view (r : TpReassembler Address) (k : Stream Address) : ℕ × Option Entry :=
  (r.maxMessageSize_, get₃ r.tpMessages_ k.key)

/-- What a segment does to its stream. -/
def Event.own : Event Address → ℕ × Option Entry → Except Fault (Answer × (ℕ × Option Entry))
  | .segment data _ _ now, (max, e) =>
      (entryStep max data now e).map fun out => (.result out.1.1 out.1.2, max, out.2)
  | .sweep _, v => .ok (.swept true, v)

/-- What a sweep does to a stream. -/
def Event.sweepView : Event Address → ℕ × Option Entry → ℕ × Option Entry
  | .segment _ _ _ _, v => v
  | .sweep now, (max, e) => (max, e.bind fun e => if expired now e.2 then none else some e)

namespace TpReassembler

/-- **A segment works on the entry of its stream, a sweep on all entries alike.**
Source: `tp_reassembler.cpp`, `process_tp_message` and `cleanup_unfinished_messages` -/
theorem isLocal : Local (@step Address _) Event.scope view Event.own Event.sweepView where
  one_own := by
    intro r e k o r' hscope hstep
    obtain ⟨data, address, port, now, rfl, hlen, rfl⟩ := Event.scope_eq_one hscope
    obtain ⟨out, hout, rfl, rfl⟩ := (step_segment_eq_ok hlen).mp hstep
    simp [Event.own, view, key_streamOf, hout, Except.map, get₃_set₃]
  one_ok := by
    intro r e k o v hscope hown
    obtain ⟨data, address, port, now, rfl, hlen, rfl⟩ := Event.scope_eq_one hscope
    simp only [Event.own, view, key_streamOf] at hown
    rcases hout : entryStep r.maxMessageSize_ data now
      (get₃ r.tpMessages_ (keyOf data address port)) with err | out
    · rw [hout] at hown
      cases hown
    · rw [hout] at hown
      obtain ⟨rfl, -⟩ := Prod.mk.inj (Except.ok.inj hown)
      exact ⟨_, (step_segment_eq_ok hlen).mpr ⟨out, hout, rfl, rfl⟩⟩
  one_other := by
    intro r e k k' o r' hscope hstep hne
    obtain ⟨data, address, port, now, rfl, hlen, rfl⟩ := Event.scope_eq_one hscope
    obtain ⟨out, -, -, rfl⟩ := (step_segment_eq_ok hlen).mp hstep
    have hkey : k'.key ≠ keyOf data address port := fun h => hne (Stream.key_injective h)
    simp [view, get₃_set₃, hkey]
  all_ok := by
    intro e r hscope
    obtain ⟨now, rfl⟩ := Event.scope_eq_all hscope
    obtain ⟨more, h⟩ := r.step_sweep now
    exact ⟨_, _, h⟩
  all_view := by
    intro r e o r' k hscope hstep
    obtain ⟨now, rfl⟩ := Event.scope_eq_all hscope
    obtain ⟨more, h⟩ := r.step_sweep now
    obtain ⟨-, rfl⟩ := ok_unique hstep h
    simp [view, Event.sweepView, get₃_filterMap₃]
  nothing_view := by
    intro r e o r' k hscope hstep
    obtain ⟨data, address, port, now, rfl, hlen⟩ := Event.scope_eq_nothing hscope
    rw [r.step_segment_short address port now hlen] at hstep
    cases hstep
    rfl

/-! ### Calls that return -/

/-- Every message that is being received has the layout that `add_segment` needs, and a header. -/
def Sound (r : TpReassembler Address) : Prop :=
  r.AllEntries fun _ e => e.2.Layout ∧ 16 ≤ e.2.message_.length

end TpReassembler

/-- An admitted segment returns and leaves a sound entry. -/
theorem entryStep_isOk {max : ℕ} {data : List UInt8} {now : ℤ} {e : Option Entry}
    (hsound : ∀ e' ∈ e, e'.2.Layout ∧ 16 ≤ e'.2.message_.length)
    (h : entryMeets TpMessage.Admits max data now e) : ∃ out, entryStep max data now e = .ok out ∧
      ∀ e' ∈ out.2, e'.2.Layout ∧ 16 ≤ e'.2.message_.length := by
  have hnew : 20 ≤ data.length ∧ (TpMessage.blank max now).Admits data →
      (TpMessage.new data max now).Layout ∧
        16 ≤ (TpMessage.new data max now).message_.length := fun h =>
    ⟨TpMessage.Layout.new h.2, TpMessage.length_message_new h.1 h.2⟩
  rcases e with _ | ⟨session, m⟩
  · exact ⟨_, rfl, by simpa using hnew h⟩
  · simp only [entryMeets] at h
    simp only [entryStep]
    split_ifs at h ⊢ with hsession
    · obtain ⟨hlayout, hlen⟩ := hsound _ rfl
      obtain ⟨ret, m', hadd, hlayout', hlen'⟩ := hlayout.addSegment_isOk hlen h
      refine ⟨_, by rw [hadd]; rfl, ?_⟩
      cases ret
      · simpa using ⟨hlayout', hlen'⟩
      · simp
    · exact ⟨_, rfl, by simpa using hnew h⟩

namespace TpReassembler

/-- **The step lemma**: an admitted call returns and keeps the reassembler sound. -/
theorem Sound.step {r : TpReassembler Address} (hr : r.Sound)
    (h : r.Meets TpMessage.Admits e) : ∃ o r', r.step e = .ok (o, r') ∧ r'.Sound := by
  rcases e with ⟨data, address, port, now⟩ | now
  · by_cases hlen : data.length < 16
    · exact ⟨_, r, r.step_segment_short address port now hlen, hr⟩
    · have hlen := Nat.le_of_not_lt hlen
      obtain ⟨out, hout, hsound⟩ := entryStep_isOk (fun e' he' => hr _ e' he') (h hlen)
      have hs := (step_segment_eq_ok hlen).mpr ⟨out, hout, rfl, rfl⟩
      refine ⟨_, _, hs, AllEntries.step hr hs ?_⟩
      rintro _ _ _ _ ⟨rfl, rfl, rfl, rfl⟩ - out' hout'
      obtain rfl := Except.ok.inj (hout'.symm.trans hout)
      exact hsound
  · obtain ⟨more, hs⟩ := r.step_sweep now
    exact ⟨_, _, hs, AllEntries.step hr hs fun _ _ _ _ he => nomatch he⟩

/-- No call leaves an empty inner map. -/
theorem pruned_step {r r' : TpReassembler Address} {o : Answer}
    (hr : Pruned₃ r.tpMessages_) (h : r.step e = .ok (o, r')) : Pruned₃ r'.tpMessages_ := by
  rcases e with ⟨data, address, port, now⟩ | now
  · by_cases hlen : data.length < 16
    · rw [r.step_segment_short address port now hlen] at h
      cases h
      exact hr
    · obtain ⟨out, -, -, rfl⟩ :=
        (step_segment_eq_ok (Nat.le_of_not_lt hlen)).mp h
      exact hr.set₃ _ _
  · obtain ⟨more, hstep⟩ := r.step_sweep now
    obtain ⟨-, rfl⟩ := ok_unique h hstep
    exact Pruned₃.filterMap₃ _ _

end TpReassembler

/-! ### Isolation -/

/-- **The streams of a run do not interfere**: the run answers, and the results of each stream are
those of a fresh reassembler that gets only the segments of the stream (and the sweeps). -/
def Isolated (max : ℕ) (events : List (Event Address)) : Prop :=
  ∃ answers r, run TpReassembler.step (TpReassembler.new max) events = .ok (answers, r) ∧
    ∀ k : Stream Address, ∃ answers' r',
      run TpReassembler.step (TpReassembler.new max)
        (events.filter fun e => e.scope.concerns k) = .ok (answers', r') ∧
      outputsFor Event.scope k (events.filter fun e => e.scope.concerns k) answers' =
        outputsFor Event.scope k events answers

/-- **Stream isolation**: in every run no inner map of `tp_messages_` is empty, and if every call
keeps the defined behaviour, the streams of the run do not interfere.
Source: `tp_reassembler.cpp`, `process_tp_message` and `cleanup_unfinished_messages` -/
theorem streams_isolated (max : ℕ) (events : List (Event Address)) :
    (∀ answers r, run TpReassembler.step (TpReassembler.new max) events = .ok (answers, r) →
      Pruned₃ r.tpMessages_) ∧
    (AllSteps TpReassembler.step (TpReassembler.Meets TpMessage.Admits) (TpReassembler.new max)
      events → Isolated max events) := by
  constructor
  · intro answers r hrun
    refine run_invariant (fun r => Pruned₃ r.tpMessages_)
      (fun r e o r' hr h => TpReassembler.pruned_step hr h) ⟨?_, ?_⟩ hrun
    · intro a u hu
      cases hu
    · intro a u hu
      cases hu
  · intro hadmits
    obtain ⟨answers, r, hrun, -⟩ := hadmits.run_ok TpReassembler.Sound
      (fun r e hr h => hr.step h) (TpReassembler.allEntries_new _ max)
    refine ⟨answers, r, hrun, fun k => ?_⟩
    obtain ⟨answers', r', hrun', hout, -⟩ := TpReassembler.isLocal.isolated rfl hrun
    exact ⟨answers', r', hrun', hout⟩

/-- Two senders with the same header whose segments arrive in turn, and a sweep between them. -/
theorem streams_isolated_two_senders :
    Isolated 5000 [Event.segment (requestSegment 0 false 16 1) 1 30509 0,
      .segment (requestSegment 16 true 5 2) 2 30509 10, .sweep 6000000000,
      .segment (requestSegment 16 true 5 3) 1 30509 6000000010,
      .segment (requestSegment 0 false 16 4) 2 30509 6000000020] :=
  (streams_isolated 5000 _).2 (by decide +kernel)

/-- A segment of sender 1 inside one it has sent before: its `memcpy` has a count of almost 4 GiB.
Sender 2 would have got its message. -/
theorem streams_nested_not_isolated : run TpReassembler.step (TpReassembler.new 5000)
        [Event.segment (requestSegment 0 false 48 1) 1 30509 0,
          .segment (requestSegment 16 false 16 2) 1 30509 10,
          .segment (requestSegment 0 false 16 3) 2 30509 20,
          .segment (requestSegment 16 true 1 4) 2 30509 30] =
      .error (.copy ⟨32, 20, 4294967280, -16, 64⟩) ∧
    (∃ r, run TpReassembler.step (TpReassembler.new 5000)
        [Event.segment (requestSegment 0 false 16 3) 2 30509 20,
          .segment (requestSegment 16 true 1 4) 2 30509 30] =
      .ok ([.result false [], .result true (requestHeader.take 7 ++ [25] ++ requestHeader.drop 8 ++
        List.replicate 16 3 ++ [4])], r)) ∧
    ¬ Isolated 5000 [Event.segment (requestSegment 0 false 48 1) 1 30509 0,
      .segment (requestSegment 16 false 16 2) 1 30509 10,
      .segment (requestSegment 0 false 16 3) 2 30509 20,
      .segment (requestSegment 16 true 1 4) 2 30509 30] := by
  have hfault : run TpReassembler.step (TpReassembler.new 5000)
      [Event.segment (requestSegment 0 false 48 1) 1 30509 0,
        .segment (requestSegment 16 false 16 2) 1 30509 10,
        .segment (requestSegment 0 false 16 3) 2 30509 20,
        .segment (requestSegment 16 true 1 4) 2 30509 30] =
      .error (.copy ⟨32, 20, 4294967280, -16, 64⟩) := by
    decide +kernel
  refine ⟨hfault, ⟨_, rfl⟩, ?_⟩
  rintro ⟨answers, r, hrun, -⟩
  rw [hfault] at hrun
  cases hrun

end SomeipTunnel.Tp
