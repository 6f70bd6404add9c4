import SomeipTunnel.Sd.MessageSize

/-!
# Entries over several messages

`service_discovery_impl::add_entry_data` tries the last message, and a new one if the entry is
refused. What an entry costs depends on the options in the message it goes to; a refused entry goes
to an empty message, so one that fits an empty message is always added, and to one message only.
-/

namespace SomeipTunnel.Sd

open List Someip

/-- The messages of a vector, which is never empty, the last one apart. -/
structure Messages where
  earlier : List Builder
  current : Builder

namespace Messages

variable {heap : ℕ → SdOption} {ms : Messages} {data : Builder.Call}

/-- The vector. -/
def all (ms : Messages) : List Builder := ms.earlier ++ [ms.current]

/-- One empty message.
Source: `remote_subscription_ack::remote_subscription_ack`; the other callers begin alike -/
def start : Messages := ⟨[], .empty⟩

/-- Source: `service_discovery_impl::add_entry_data` -/
def addEntryData (heap : ℕ → SdOption) (ms : Messages) (data : Builder.Call) : Messages :=
  let added := ms.current.add heap data
  if added.1 then { ms with current := added.2 }
  else ⟨ms.earlier ++ [added.2], (Builder.empty.add heap data).2⟩

/-- Source: `remote_subscription_ack::add_message` -/
def addMessage (ms : Messages) : Messages := ⟨ms.all, .empty⟩

/-- Source: `service_discovery_impl::add_entry_data_to_remote_subscription_ack_msg` -/
def addEntryDataToRemoteSubscriptionAckMsg (heap : ℕ → SdOption) (ms : Messages)
    (data : Builder.Call) : Messages :=
  let added := ms.current.add heap data
  if added.1 then { ms with current := added.2 }
  else
    let ms := addMessage { ms with current := added.2 }
    { ms with current := (ms.current.add heap data).2 }

theorem addEntryDataToRemoteSubscriptionAckMsg_eq :
    addEntryDataToRemoteSubscriptionAckMsg heap = addEntryData heap := rfl

/-- The entries of the messages are the given ones, in order and apart from their runs, and no
message is longer than its count, which is within the limit. -/
structure Holds (heap : ℕ → SdOption) (entries : List Entry) (ms : Messages) : Prop where
  entries : (ms.all.flatMap Builder.entries).map Entry.bare = entries.map Entry.bare
  sized : ∀ b ∈ ms.all, b.Sized heap

theorem Holds.start : Holds heap [] start where
  entries := rfl
  sized := by
    rintro b hb
    rw [mem_singleton.mp hb]
    exact Builder.Sized.empty heap

/-- **One entry** that fits an empty message. -/
theorem Holds.add {entries : List Entry} (h : Holds heap entries ms)
    (hfits : (Builder.empty.add heap data).1 = true) :
    Holds heap (entries ++ data.entries) (addEntryData heap ms data) := by
  have hentries := h.entries
  have hearlier : ∀ b ∈ ms.earlier, b.Sized heap := fun b hb =>
    h.sized b (mem_append_left _ hb)
  have hcurrent : ms.current.Sized heap := h.sized _ (mem_append_right _ mem_cons_self)
  rw [all, flatMap_append, map_append, flatMap_singleton] at hentries
  unfold addEntryData
  by_cases hroom : ms.current.currentMessageSize + ms.current.cost heap data ≤ maxUdpSdPayload
  · obtain ⟨es, hes, hadd⟩ := Builder.add_of_fits hroom
    have hsized := hcurrent.add data
    rw [hadd] at hsized ⊢
    refine ⟨?_, fun b hb => ?_⟩
    · simp only [if_true, all, flatMap_append, flatMap_singleton, map_append, hes,
        ← append_assoc, hentries]
    · rcases mem_append.mp hb with hb | hb
      · exact hearlier b hb
      · rw [mem_singleton.mp hb]
        exact hsized
  · rw [Builder.add_of_not_fits (Nat.lt_of_not_le hroom)]
    have hempty : Builder.empty.currentMessageSize + Builder.empty.cost heap data ≤
        maxUdpSdPayload := by
      refine Nat.le_of_not_lt fun hfull => ?_
      rw [Builder.add_of_not_fits hfull] at hfits
      cases hfits
    obtain ⟨es, hes, hadd⟩ := Builder.add_of_fits hempty
    have hsized := (Builder.Sized.empty heap).add data
    rw [hadd] at hsized ⊢
    refine ⟨?_, fun b hb => ?_⟩
    · simp only [Bool.false_eq_true, if_false, all, flatMap_append, flatMap_singleton,
        map_append, hentries, Builder.empty, nil_append, hes]
    · rcases mem_append.mp hb with hb | hb
      · exact h.sized b hb
      · rw [mem_singleton.mp hb]
        exact hsized

/-- Any number of entries. -/
theorem Holds.foldl {entries : List Entry} (h : Holds heap entries ms) (calls : List Builder.Call)
    (hfits : ∀ data ∈ calls, (Builder.empty.add heap data).1 = true) :
    Holds heap (entries ++ calls.flatMap Builder.Call.entries)
      (calls.foldl (addEntryData heap) ms) := by
  induction calls generalizing entries ms with
  | nil => rwa [flatMap_nil, append_nil]
  | cons data calls ih =>
      obtain ⟨hdata, hcalls⟩ := forall_mem_cons.mp hfits
      have := ih (h.add hdata) hcalls
      rwa [append_assoc, ← flatMap_cons] at this

/-- What is asked of the messages for a sequence of entries: each is in one of them, in order, and
none is longer than the limit. -/
def Splits (heap : ℕ → SdOption) (calls : List Builder.Call) (ms : Messages) : Prop :=
  (ms.all.flatMap Builder.entries).map Entry.bare =
      (calls.flatMap Builder.Call.entries).map Entry.bare ∧
    ∀ b ∈ ms.all, ∀ header flags, (b.message heap header flags).serialize.length ≤ maxUdpSdPayload

theorem Holds.splits {calls : List Builder.Call} (hheap : ∀ a, (heap a).WellFormed)
    (h : Holds heap (calls.flatMap Builder.Call.entries) ms) : Splits heap calls ms := by
  refine ⟨h.entries, fun b hb header flags => ?_⟩
  rw [Builder.length_serialize_of_wellFormed fun a _ => hheap a]
  exact (h.sized b hb).bulk_le.trans (h.sized b hb).limit

end Messages

/-- **Entries are split** over messages, whichever of the two functions adds them. -/
theorem entries_split {heap : ℕ → SdOption} (hheap : ∀ a, (heap a).WellFormed)
    (calls : List Builder.Call) (hfits : ∀ data ∈ calls, (Builder.empty.add heap data).1 = true) :
    Messages.Splits heap calls (calls.foldl (Messages.addEntryData heap) .start) ∧
      Messages.Splits heap calls
        (calls.foldl (Messages.addEntryDataToRemoteSubscriptionAckMsg heap) .start) := by
  rw [Messages.addEntryDataToRemoteSubscriptionAckMsg_eq]
  have hholds := Messages.Holds.start.foldl calls hfits
  rw [nil_append] at hholds
  exact ⟨hholds.splits hheap, hholds.splits hheap⟩

/-- A hundred acknowledgements take two messages. -/
theorem entries_split_acks :
    ((List.replicate 100 ackCall).foldl (Messages.addEntryData selectiveHeap) .start).all.length = 2 ∧
      Messages.Splits selectiveHeap (List.replicate 100 ackCall)
        ((List.replicate 100 ackCall).foldl (Messages.addEntryData selectiveHeap) .start) := by
  refine ⟨by decide +kernel, (entries_split wellFormed_selectiveHeap _ fun data hdata => ?_).1⟩
  rw [eq_of_mem_replicate hdata]
  decide

end SomeipTunnel.Sd
