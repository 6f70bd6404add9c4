import SomeipTunnel.Lib.Table

/-!
# Sessions and reboot detection

A sender numbers its messages on each channel, the multicast one and the unicast one to a receiver.
The first time around the numbers it sets the reboot flag. A receiver keeps the last number and flag
of each channel of a sender, and takes a flag that comes back or a number that does not grow under
the flag for a restart of the sender.

* `filter_life`: the messages of a channel are numbered from zero on, as `stamp` says.
* `isReboot_eq`: what a receiver decides depends on what it holds for the channel.
* `no_false_reboot`: a sender that does not restart is never taken to have done so.
-/

namespace SomeipTunnel.Sd

open List

/-! ### Sending -/

/-- What a receiver sees of a message: its channel and the two fields of its header. -/
structure Stamp where
  isMulticast : Bool
  session : UInt16
  rebootFlag : Bool
deriving DecidableEq, Repr

/-- Source: `service_discovery_impl.hpp`, `sessions_sent_` -/
abbrev SessionsSent (A : Type) := AList fun _ : A => UInt16 × Bool

variable {A : Type} [DecidableEq A]

/-- Source: `service_discovery_impl::get_session` -/
def getSession (sessionsSent : SessionsSent A) (address : A) :
    (UInt16 × Bool) × SessionsSent A :=
  match sessionsSent.lookup address with
  | none => ((1, true), sessionsSent.insert address (1, true))
  | some foundSession => (foundSession, sessionsSent)

/-- Source: `service_discovery_impl::increment_session` -/
def incrementSession (sessionsSent : SessionsSent A) (address : A) : SessionsSent A :=
  match sessionsSent.lookup address with
  | none => sessionsSent
  | some foundSession =>
      if foundSession.1 + 1 = 0 then sessionsSent.insert address (1, false)
      else sessionsSent.insert address (foundSession.1 + 1, foundSession.2)

/-- A message to be sent on one of the two channels, and whether the endpoint takes it. -/
structure Send where
  isMulticast : Bool
  accepted : Bool
deriving DecidableEq, Repr

/-- The multicast channel is counted under the sender's own address.
Source: `service_discovery_impl::send` and `service_discovery_impl::serialize_and_send`, the loops
-/
def sendMessage (unicast receiver : A) (sessionsSent : SessionsSent A) (s : Send) :
    Option Stamp × SessionsSent A :=
  let address := if s.isMulticast then unicast else receiver
  let (itsSession, sessionsSent) := getSession sessionsSent address
  if s.accepted then
    (some ⟨s.isMulticast, itsSession.1, itsSession.2⟩, incrementSession sessionsSent address)
  else (none, sessionsSent)

/-- The messages that a sender sends to a receiver, one after the other. -/
def sendAll (unicast receiver : A) : SessionsSent A → List Send → List Stamp
  | _, [] => []
  | sessionsSent, s :: ss =>
      (sendMessage unicast receiver sessionsSent s).1.toList ++
        sendAll unicast receiver (sendMessage unicast receiver sessionsSent s).2 ss

/-- The messages from a start to the next; `start` clears the sessions. -/
def life (unicast receiver : A) (sends : List Send) : List Stamp :=
  sendAll unicast receiver ∅ sends

/-! ### The numbers of the messages -/

/-- The session and the flag of the `n`-th message of a channel. -/
def sessionAt (n : ℕ) : UInt16 × Bool := (UInt16.ofNat (1 + n % 65535), n < 65535)

/-- The `n`-th message of a channel. -/
def stamp (isMulticast : Bool) (n : ℕ) : Stamp :=
  ⟨isMulticast, (sessionAt n).1, (sessionAt n).2⟩

theorem toNat_sessionAt (n : ℕ) : (sessionAt n).1.toNat = 1 + n % 65535 := by
  exact UInt16.toNat_ofNat_of_lt' (by change 1 + n % 65535 < 65536; omega)

/-- The sessions follow one another, and the flag is dropped where they start again. -/
theorem sessionAt_succ (n : ℕ) : sessionAt (n + 1) =
    if (sessionAt n).1 + 1 = 0 then (1, false) else ((sessionAt n).1 + 1, (sessionAt n).2) := by
  have hadd : ((sessionAt n).1 + 1).toNat = (1 + n % 65535 + 1) % 65536 := by
    rw [UInt16.toNat_add, toNat_sessionAt]
    rfl
  have hzero : (sessionAt n).1 + 1 = 0 ↔ n % 65535 = 65534 := by
    rw [← UInt16.toNat_inj, hadd]
    change _ = 0 ↔ _
    omega
  by_cases hwrap : n % 65535 = 65534
  · rw [if_pos (hzero.mpr hwrap)]
    refine Prod.ext (UInt16.toNat_inj.mp ?_) (decide_eq_false (by omega))
    rw [toNat_sessionAt]
    change _ = 1
    omega
  · rw [if_neg (fun h => hwrap (hzero.mp h))]
    refine Prod.ext (UInt16.toNat_inj.mp ?_) (decide_eq_decide.mpr (by omega))
    rw [toNat_sessionAt, hadd]
    omega

/-- The address under which a channel is counted. -/
def keyOf (unicast receiver : A) (isMulticast : Bool) : A := if isMulticast then unicast else receiver

/-- What is stored of the channels are their next numbers; nothing is stored in front of the
first. -/
def Counts (unicast receiver : A) (sessionsSent : SessionsSent A) (count : Bool → ℕ) : Prop :=
  ∀ ch, (sessionsSent.lookup (keyOf unicast receiver ch)).getD (1, true) = sessionAt (count ch)

theorem counts_empty (unicast receiver : A) : Counts unicast receiver ∅ fun _ => 0 := fun _ => rfl

theorem lookup_getSession (m : SessionsSent A) (a b : A) :
    (getSession m a).2.lookup b = if b = a then some ((m.lookup a).getD (1, true)) else
      m.lookup b := by
  unfold getSession
  rcases h : m.lookup a with - | found
  · split_ifs with hb
    · rw [hb, AList.lookup_insert]
      rfl
    · exact AList.lookup_insert_ne hb
  · split_ifs with hb
    · rw [hb, h]
      rfl
    · rfl

theorem fst_getSession (m : SessionsSent A) (a : A) :
    (getSession m a).1 = (m.lookup a).getD (1, true) := by
  unfold getSession
  rcases m.lookup a with - | found <;> rfl

theorem lookup_incrementSession {m : SessionsSent A} {a : A} {n : ℕ}
    (h : m.lookup a = some (sessionAt n)) (b : A) :
    (incrementSession m a).lookup b = if b = a then some (sessionAt (n + 1)) else m.lookup b := by
  have hinsert : incrementSession m a = m.insert a (sessionAt (n + 1)) := by
    unfold incrementSession
    rw [h, sessionAt_succ]
    exact (apply_ite (m.insert a) _ _ _).symm
  rw [hinsert]
  split_ifs with hb
  · rw [hb, AList.lookup_insert]
  · exact AList.lookup_insert_ne hb

variable {unicast receiver : A}

omit [DecidableEq A] in
theorem keyOf_eq_iff (hne : unicast ≠ receiver) {ch ch' : Bool} :
    keyOf unicast receiver ch' = keyOf unicast receiver ch ↔ ch' = ch := by
  unfold keyOf
  cases ch <;> cases ch' <;> simp [hne, hne.symm]

section

variable {unicast receiver : A} (hne : unicast ≠ receiver) {m : SessionsSent A} {count : Bool → ℕ}
  (h : Counts unicast receiver m count)
include hne h

/-- What is stored when the session of a channel has been got. -/
theorem counts_getSession (ch : Bool) :
    Counts unicast receiver (getSession m (keyOf unicast receiver ch)).2 count := by
  intro ch'
  rw [lookup_getSession]
  split_ifs with hkey
  · rw [(keyOf_eq_iff hne).mp hkey, Option.getD_some, h]
  · exact h ch'

/-- What is stored when the session of a channel has been got and incremented. -/
theorem counts_incrementSession (ch : Bool) : Counts unicast receiver
      (incrementSession (getSession m (keyOf unicast receiver ch)).2 (keyOf unicast receiver ch))
      (Function.update count ch (count ch + 1)) := by
  have hstored : (getSession m (keyOf unicast receiver ch)).2.lookup (keyOf unicast receiver ch) =
      some (sessionAt (count ch)) := by
    rw [lookup_getSession, if_pos rfl, h]
  intro ch'
  rw [lookup_incrementSession hstored]
  by_cases hch : ch' = ch
  · rw [if_pos (by rw [hch]), hch, Function.update_self, Option.getD_some]
  · rw [if_neg (fun hkey => hch ((keyOf_eq_iff hne).mp hkey)), Function.update_of_ne hch]
    exact counts_getSession hne h ch ch'

/-- A message has the next number of its channel, and the channel counts on if it was sent. -/
theorem sendMessage_spec (s : Send) : (sendMessage unicast receiver m s).1 =
      (if s.accepted then some (stamp s.isMulticast (count s.isMulticast)) else none) ∧
    Counts unicast receiver (sendMessage unicast receiver m s).2
      (if s.accepted then Function.update count s.isMulticast (count s.isMulticast + 1)
        else count) := by
  obtain ⟨ch, accepted⟩ := s
  have hsession : (getSession m (keyOf unicast receiver ch)).1 = sessionAt (count ch) :=
    (fst_getSession m _).trans (h ch)
  cases accepted with
  | false => exact ⟨rfl, counts_getSession hne h ch⟩
  | true =>
      refine ⟨?_, counts_incrementSession hne h ch⟩
      rw [if_pos rfl, stamp, ← hsession]
      rfl

end

/-- The messages of a channel have consecutive numbers. -/
theorem filter_sendAll (hne : unicast ≠ receiver) (ch : Bool)
    (sends : List Send) : ∀ {m : SessionsSent A} {count : Bool → ℕ},
      Counts unicast receiver m count → ∃ n,
        (sendAll unicast receiver m sends).filter (·.isMulticast = ch) =
          (List.range' (count ch) n).map (stamp ch) := by
  induction sends with
  | nil => exact fun _ => ⟨0, rfl⟩
  | cons s sends ih =>
      intro m count h
      obtain ⟨hsent, hcounts⟩ := sendMessage_spec hne h s
      obtain ⟨n, hn⟩ := ih hcounts
      rw [sendAll, filter_append, hn, hsent]
      cases hs : s.accepted with
      | false => exact ⟨n, rfl⟩
      | true =>
          simp only [if_true, Option.toList_some]
          by_cases hch : s.isMulticast = ch
          · rw [hch, Function.update_self]
            exact ⟨n + 1, by simp [stamp, List.range'_succ]⟩
          · rw [Function.update_of_ne (Ne.symm hch)]
            exact ⟨n, by simp [stamp, hch]⟩

/-- **The messages of a channel** are numbered from zero on. -/
theorem filter_life (hne : unicast ≠ receiver) (sends : List Send)
    (ch : Bool) : ∃ n, (life unicast receiver sends).filter (·.isMulticast = ch) =
      (List.range n).map (stamp ch) := by
  obtain ⟨n, hn⟩ := filter_sendAll hne ch sends (counts_empty unicast receiver)
  exact ⟨n, by rw [range_eq_range']; exact hn⟩

/-- Two messages of a channel, the first with the lower number. -/
def Before (s t : Stamp) : Prop :=
  ∃ ch k n, k < n ∧ s = stamp ch k ∧ t = stamp ch n

/-- The messages of a channel come in the order of their numbers. -/
theorem pairwise_filter_life (hne : unicast ≠ receiver) (sends : List Send) (ch : Bool) :
    ((life unicast receiver sends).filter (·.isMulticast = ch)).Pairwise Before := by
  obtain ⟨n, hn⟩ := filter_life hne sends ch
  rw [hn, pairwise_map]
  exact pairwise_lt_range.imp fun hlt => ⟨ch, _, _, hlt, rfl, rfl⟩

variable {s : Stamp}

/-- Every message has a number. -/
theorem exists_stamp_of_mem_life (hne : unicast ≠ receiver) {sends : List Send}
    (hs : s ∈ life unicast receiver sends) : ∃ n, s = stamp s.isMulticast n := by
  obtain ⟨n, hn⟩ := filter_life hne sends s.isMulticast
  have hmem : s ∈ (life unicast receiver sends).filter (·.isMulticast = s.isMulticast) :=
    mem_filter.mpr ⟨hs, decide_eq_true rfl⟩
  rw [hn] at hmem
  obtain ⟨k, -, hk⟩ := mem_map.mp hmem
  exact ⟨k, hk.symm⟩

/-! ### Receiving -/

/-- What is kept of a sender.
Source: `service_discovery_impl.hpp`, the tuples of `sessions_received_` -/
structure SessionRecord where
  multicastSession : UInt16
  unicastSession : UInt16
  multicastRebootFlag : Bool
  unicastRebootFlag : Bool
deriving DecidableEq, Repr

/-- Source: `service_discovery_impl.hpp`, `sessions_received_` -/
abbrev SessionsReceived (A : Type) := AList fun _ : A => SessionRecord

/-- Whether a message shows a restart, against the record of its sender.
Source: `service_discovery_impl::is_reboot`, the reboot detection -/
def detects (itsReceived : SessionRecord) (s : Stamp) : Bool :=
  if s.rebootFlag && (s.isMulticast && !itsReceived.multicastRebootFlag ||
      !s.isMulticast && !itsReceived.unicastRebootFlag) then true
  else
    let itsOldSession :=
      if s.isMulticast then itsReceived.multicastSession else itsReceived.unicastSession
    let itsOldRebootFlag :=
      if s.isMulticast then itsReceived.multicastRebootFlag else itsReceived.unicastRebootFlag
    itsOldRebootFlag && s.rebootFlag && decide (itsOldSession ≥ s.session)

/-- Source: `service_discovery_impl::is_reboot` -/
def isReboot (sessionsReceived : SessionsReceived A) (sender : A) (s : Stamp) :
    Bool × SessionsReceived A :=
  let itsMulticastSession := if s.isMulticast then s.session else 0
  let itsUnicastSession := if s.isMulticast then 0 else s.session
  let itsMulticastRebootFlag := if s.isMulticast then s.rebootFlag else true
  let itsUnicastRebootFlag := if s.isMulticast then true else s.rebootFlag
  match sessionsReceived.lookup sender with
  | none => (false, sessionsReceived.insert sender
      ⟨itsMulticastSession, itsUnicastSession, itsMulticastRebootFlag, itsUnicastRebootFlag⟩)
  | some itsReceived =>
      if detects itsReceived s = false then
        (false, sessionsReceived.insert sender
          (if s.isMulticast then
            { itsReceived with
              multicastSession := itsMulticastSession
              multicastRebootFlag := itsMulticastRebootFlag }
          else
            { itsReceived with
              unicastSession := itsUnicastSession
              unicastRebootFlag := itsUnicastRebootFlag }))
      else (true, sessionsReceived.erase sender)

/-- What is held of a channel: the session and the flag of the last message, or a session of zero
with the flag where there is none. -/
def slot (itsReceived : Option SessionRecord) (isMulticast : Bool) : UInt16 × Bool :=
  match itsReceived with
  | none => (0, true)
  | some r =>
      if isMulticast then (r.multicastSession, r.multicastRebootFlag)
      else (r.unicastSession, r.unicastRebootFlag)

/-- The verdict on a message, from what is held of its channel. -/
def judge (old : UInt16 × Bool) (s : Stamp) : Bool :=
  s.rebootFlag && (!old.2 || decide (s.session ≤ old.1))

/-- What is held of the channels behind a message. -/
def heldAfter (held : Bool → UInt16 × Bool) (s : Stamp) : Bool → UInt16 × Bool :=
  if judge (held s.isMulticast) s then fun _ => (0, true)
  else Function.update held s.isMulticast (s.session, s.rebootFlag)

theorem detects_eq (r : SessionRecord) (s : Stamp) :
    detects r s = judge (slot (some r) s.isMulticast) s := by
  obtain ⟨ch, session, flag⟩ := s
  unfold detects judge slot
  cases ch <;> cases flag <;> cases h : r.multicastRebootFlag <;>
    cases h' : r.unicastRebootFlag <;> simp [h, h']

/-- Where nothing is held, no message shows a restart. -/
theorem judge_of_none (h : s.session ≠ 0) : judge (0, true) s = false := by
  have hzero : ¬ s.session ≤ 0 := fun hle => h (UInt16.le_zero_iff.mp hle)
  simp [judge, hzero]

/-- **What a receiver decides** depends on what it holds for the channel of the message, and so does
what it holds behind it. -/
theorem isReboot_eq (m : SessionsReceived A) (sender : A) (h : s.session ≠ 0) :
    (isReboot m sender s).1 = judge (slot (m.lookup sender) s.isMulticast) s ∧
      slot ((isReboot m sender s).2.lookup sender) = heldAfter (slot (m.lookup sender)) s := by
  unfold isReboot heldAfter
  rcases hlookup : m.lookup sender with - | r
  · have hjudge : judge (slot none s.isMulticast) s = false := judge_of_none h
    rw [hjudge]
    refine ⟨rfl, ?_⟩
    rw [AList.lookup_insert, if_neg Bool.false_ne_true]
    funext ch
    cases hs : s.isMulticast <;> cases ch <;> rfl
  · dsimp only
    rw [← detects_eq]
    by_cases hdetects : detects r s = false
    · rw [if_pos hdetects, hdetects]
      refine ⟨rfl, ?_⟩
      rw [AList.lookup_insert, if_neg Bool.false_ne_true]
      funext ch
      cases hs : s.isMulticast <;> cases ch <;> rfl
    · have htrue : detects r s = true := eq_true_of_ne_false hdetects
      rw [if_neg hdetects, htrue]
      refine ⟨rfl, ?_⟩
      rw [AList.lookup_erase, if_pos rfl]
      rfl

/-- The verdicts on a sequence of messages from one sender. -/
def verdicts (sender : A) : SessionsReceived A → List Stamp → List Bool
  | _, [] => []
  | m, s :: received => (isReboot m sender s).1 :: verdicts sender (isReboot m sender s).2 received

/-! ### Messages of one life -/

theorem session_stamp_ne_zero (ch : Bool) (n : ℕ) : (stamp ch n).session ≠ 0 := by
  intro h
  have := toNat_sessionAt n
  rw [show (sessionAt n).1 = 0 from h] at this
  change 0 = _ at this
  omega

/-- The numbers of a life grow under the flag, and the flag does not come back. -/
theorem judge_of_before {t : Stamp}
    (h : Before s t) : judge (s.session, s.rebootFlag) t = false := by
  obtain ⟨ch, k, n, hkn, rfl, rfl⟩ := h
  by_cases hn : n < 65535
  · have hk : k < 65535 := Nat.lt_trans hkn hn
    have hsession : ¬ (stamp ch n).session ≤ (stamp ch k).session := by
      rw [UInt16.le_iff_toNat_le]
      change ¬ (sessionAt n).1.toNat ≤ (sessionAt k).1.toNat
      rw [toNat_sessionAt, toNat_sessionAt, Nat.mod_eq_of_lt hn, Nat.mod_eq_of_lt hk]
      omega
    have hflag : (stamp ch k).rebootFlag = true := decide_eq_true hk
    simp [judge, hsession, hflag]
  · have hflag : (stamp ch n).rebootFlag = false := decide_eq_false hn
    simp [judge, hflag]

/-- What is held of the channels goes before what is still to come on them. -/
def Precedes (held : Bool → UInt16 × Bool) (received : List Stamp) : Prop :=
  ∀ ch, held ch = (0, true) ∨ ∃ s : Stamp, held ch = (s.session, s.rebootFlag) ∧
    ∀ t ∈ received, t.isMulticast = ch → Before s t

theorem Precedes.judge_eq_false {held : Bool → UInt16 × Bool} {received : List Stamp}
    (h : Precedes held (s :: received)) (hs : s.session ≠ 0) :
    judge (held s.isMulticast) s = false := by
  rcases h s.isMulticast with hnone | ⟨t, ht, hbefore⟩
  · rw [hnone]
    exact judge_of_none hs
  · rw [ht]
    exact judge_of_before (hbefore s mem_cons_self rfl)

theorem Precedes.heldAfter {held : Bool → UInt16 × Bool} {received : List Stamp}
    (h : Precedes held (s :: received)) (hs : s.session ≠ 0)
    (hbefore : ∀ t ∈ received, t.isMulticast = s.isMulticast → Before s t) :
    Precedes (heldAfter held s) received := by
  intro ch
  rw [Sd.heldAfter, h.judge_eq_false hs, if_neg Bool.false_ne_true]
  by_cases hch : ch = s.isMulticast
  · rw [hch, Function.update_self]
    exact Or.inr ⟨s, rfl, hbefore⟩
  · rw [Function.update_of_ne hch]
    refine (h ch).imp_right fun ⟨t, ht, hrest⟩ => ⟨t, ht, fun u hu => ?_⟩
    exact hrest u (mem_cons_of_mem _ hu)

/-- Messages that come in the order of their channels are never taken for a restart. -/
theorem verdicts_eq_false {sender : A} (received : List Stamp) : ∀ {m : SessionsReceived A},
    (∀ s ∈ received, s.session ≠ 0) →
      (∀ ch, (received.filter (·.isMulticast = ch)).Pairwise Before) →
        Precedes (slot (m.lookup sender)) received →
          ∀ b ∈ verdicts sender m received, b = false := by
  induction received with
  | nil => exact fun _ _ _ b hb => nomatch hb
  | cons s received ih =>
      intro m hsession horder hheld
      obtain ⟨hs, hrest⟩ := forall_mem_cons.mp hsession
      obtain ⟨hverdict, hslot⟩ := isReboot_eq m sender hs
      have hchannel := horder s.isMulticast
      rw [filter_cons, if_pos (decide_eq_true rfl), pairwise_cons] at hchannel
      rw [verdicts, forall_mem_cons, hverdict]
      refine ⟨hheld.judge_eq_false hs, ih hrest (fun ch => ?_) ?_⟩
      · exact (horder ch).sublist ((sublist_cons_self s received).filter _)
      · rw [hslot]
        exact hheld.heldAfter hs fun t ht hch =>
          hchannel.1 t (mem_filter.mpr ⟨ht, decide_eq_true hch⟩)

/-- **No false detection**: of the messages that a sender sends without a restart, any that arrive
in the order of their channels leave a receiver that held nothing of the sender without a detected
restart. -/
theorem no_false_reboot {unicast receiver sender : A} (hne : unicast ≠ receiver)
    (sends : List Send) {received : List Stamp}
    (horder : ∀ ch, (received.filter (·.isMulticast = ch)).Sublist
      ((life unicast receiver sends).filter (·.isMulticast = ch)))
    {m : SessionsReceived A} (hm : m.lookup sender = none) :
    ∀ b ∈ verdicts sender m received, b = false := by
  refine verdicts_eq_false received (fun s hs => ?_) (fun ch => ?_) ?_
  · have hmem : s ∈ received.filter (·.isMulticast = s.isMulticast) :=
      mem_filter.mpr ⟨hs, decide_eq_true rfl⟩
    have hsent := mem_of_mem_filter ((horder _).subset hmem)
    obtain ⟨n, hn⟩ := exists_stamp_of_mem_life hne hsent
    rw [hn]
    exact session_stamp_ne_zero _ n
  · exact (pairwise_filter_life hne sends ch).sublist (horder ch)
  · rw [hm]
    exact fun _ => Or.inl rfl

/-- Two multicast messages, the first of which is lost, and a unicast one between them that arrives
behind them. -/
theorem no_false_reboot_three : life (1 : ℕ) 2 [⟨true, true⟩, ⟨false, true⟩, ⟨true, true⟩] =
        [stamp true 0, stamp false 0, stamp true 1] ∧
      ∀ b ∈ verdicts (1 : ℕ) ∅ [stamp true 1, stamp false 0], b = false :=
  ⟨by decide, no_false_reboot (show (1 : ℕ) ≠ 2 by decide)
    [⟨true, true⟩, ⟨false, true⟩, ⟨true, true⟩] (by decide) rfl⟩

end SomeipTunnel.Sd
