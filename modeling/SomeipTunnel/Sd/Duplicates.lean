import Mathlib.Data.Finset.Dedup
import SomeipTunnel.Sd.Entry

/-!
# Duplicate entries of a message

A SubscribeEventgroup entry is skipped if a later entry of the message matches it. `matches` takes
two entries with the same indices for the same. Otherwise it asks for the same number of options and
looks for each endpoint of the first entry among those of the second, but not the other way round,
and not at the clients of selective options; and `counter_`, which it compares, is not what the
entry has on the wire. `skipping_sound_iff`: what is skipped has a later entry like it iff each match
also agrees in what is not compared, and then skipping changes nothing.
-/

namespace SomeipTunnel.Sd

/-- A received eventgroup entry. The runs count on from their first indices, by numbers of four bits.
Source: `entry_impl.hpp`, `entry_impl`; `eventgroupentry_impl.hpp`, `eventgroupentry_impl` -/
structure EventgroupEntry where
  type : EntryType
  service : UInt16
  inst : UInt16
  eventgroup : UInt16
  majorVersion : UInt8
  ttl : UInt32
  reserved : UInt16
  index1 : UInt8
  index2 : UInt8
  numOptions1 : Fin 16
  numOptions2 : Fin 16
deriving DecidableEq, Repr

namespace EventgroupEntry

variable (e other : EventgroupEntry) (options : List SdOption)

/-- Source: `eventgroupentry_impl.cpp`, `counter_` of the constructor; `deserialize` does not set
it -/
def counter (_ : EventgroupEntry) : UInt8 := 0

/-- The counter on the wire, the last four bits in front of the eventgroup. -/
def wireCounter : ℕ := e.reserved.toNat % 16

/-- The options of both runs, as far as there are any.
Source: `entry_impl::deserialize`, `options_` -/
def referenced : List SdOption :=
  (indices e.index1.toNat e.numOptions1 ++ indices e.index2.toNat e.numOptions2).filterMap
    (options[·]?)

/-- Source: `eventgroupentry_impl::matches`, `its_options_current` -/
def itsOptions : List SdOption :=
  (e.referenced options).filter fun o =>
    o.body.type = .ip4Endpoint ∨ o.body.type = .ip6Endpoint

/-- Source: `eventgroupentry_impl::matches`, the comparison of the indices -/
def sameIndices : Bool :=
  e.index1 = other.index1 ∧ e.index2 = other.index2 ∧ e.numOptions1 = other.numOptions1 ∧
    e.numOptions2 = other.numOptions2

/-- Source: `eventgroupentry_impl::matches`; `equals` of endpoints is the equality of the options -/
def matchesOther : Bool :=
  if e.service = other.service ∧ e.inst = other.inst ∧ e.eventgroup = other.eventgroup ∧
      e.majorVersion = other.majorVersion ∧ e.counter = other.counter then
    if e.sameIndices other then true
    else if e.numOptions1.val + e.numOptions2.val ≠ other.numOptions1.val + other.numOptions2.val ∨
        e.numOptions1.val + e.numOptions2.val = 0 then false
    else if (e.itsOptions options).isEmpty || (other.itsOptions options).isEmpty then false
    else (e.itsOptions options).all fun c => (other.itsOptions options).any fun o => c = o
  else false

end EventgroupEntry

open EventgroupEntry

/-- The later entry that the entry is skipped for.
Source: `service_discovery_impl::has_same`, the loop -/
def findSame (options : List SdOption) (e : EventgroupEntry) (later : List EventgroupEntry) :
    Option EventgroupEntry :=
  later.find? fun other =>
    e.type = other.type ∧ e.ttl = other.ttl ∧ e.matchesOther other options

/-- The entries that are processed.
Source: `service_discovery_impl::on_message`, the loop over the entries, `must_process` -/
def processed (options : List SdOption) : List EventgroupEntry → List EventgroupEntry
  | [] => []
  | e :: later =>
      if e.type = .subscribeEventgroup ∧ (findSame options e later).isSome then
        processed options later
      else e :: processed options later

/-! ### What is asked of it -/

/-- What an entry subscribes to: an eventgroup, by its counter, for a set of endpoints and for the
clients of its selective option. -/
structure SubscriptionKey where
  service : UInt16
  inst : UInt16
  eventgroup : UInt16
  majorVersion : UInt8
  counter : ℕ
  endpoints : Finset SdOption
  clients : Option (Finset UInt16)
deriving DecidableEq

/-- The clients of an option, if it is selective. -/
def SdOption.clients? (o : SdOption) : Option (Finset UInt16) :=
  match o.body with
  | .selective clients => some clients.toFinset
  | _ => none

/-- The clients of the last selective option count. -/
def EventgroupEntry.clients (e : EventgroupEntry) (options : List SdOption) :
    Option (Finset UInt16) :=
  ((e.referenced options).filterMap SdOption.clients?).getLast?

def EventgroupEntry.key (e : EventgroupEntry) (options : List SdOption) : SubscriptionKey :=
  ⟨e.service, e.inst, e.eventgroup, e.majorVersion, e.wireCounter,
    (e.itsOptions options).toFinset, e.clients options⟩

/-- The subscriptions in force behind an entry, each with its TTL. -/
def subscribe (options : List SdOption) (inForce : SubscriptionKey → Option UInt32)
    (e : EventgroupEntry) : SubscriptionKey → Option UInt32 :=
  if e.type = .subscribeEventgroup then
    Function.update inForce (e.key options) (if e.ttl = 0 then none else some e.ttl)
  else inForce

/-- At every entry that is skipped, with the later entry that it is skipped for. -/
def AtSkipped (options : List SdOption) (P : EventgroupEntry → EventgroupEntry → Prop) :
    List EventgroupEntry → Prop
  | [] => True
  | e :: later =>
      (e.type = .subscribeEventgroup → ∀ other, findSame options e later = some other → P e other) ∧
        AtSkipped options P later

/-- An entry is skipped only for one that subscribes to the same for the same time, and skipping
does not change the subscriptions in force. -/
def SkipsSoundly (options : List SdOption) (entries : List EventgroupEntry) : Prop :=
  AtSkipped options (fun e other => e.key options = other.key options ∧ e.ttl = other.ttl) entries ∧
    ∀ inForce, (processed options entries).foldl (subscribe options) inForce =
      entries.foldl (subscribe options) inForce

/-- What `matches` does not compare agrees. -/
def Agrees (options : List SdOption) (e other : EventgroupEntry) : Prop :=
  e.wireCounter = other.wireCounter ∧ (e.sameIndices other = true ∨
    other.itsOptions options ⊆ e.itsOptions options ∧ e.clients options = other.clients options)

/-! ### A match -/

variable {options : List SdOption} {e other : EventgroupEntry}

theorem referenced_of_sameIndices (h : e.sameIndices other = true) :
    e.referenced options = other.referenced options := by
  obtain ⟨h₁, h₂, h₃, h₄⟩ := of_decide_eq_true h
  rw [referenced, referenced, h₁, h₂, h₃, h₄]

/-- What a match says. -/
theorem of_matchesOther (h : e.matchesOther other options = true) :
    (e.service = other.service ∧ e.inst = other.inst ∧ e.eventgroup = other.eventgroup ∧
      e.majorVersion = other.majorVersion) ∧
    (e.sameIndices other = true ∨ e.itsOptions options ⊆ other.itsOptions options) := by
  unfold matchesOther at h
  split_ifs at h with hsame hindices hnumber hnone
  · exact ⟨⟨hsame.1, hsame.2.1, hsame.2.2.1, hsame.2.2.2.1⟩, .inl hindices⟩
  · refine ⟨⟨hsame.1, hsame.2.1, hsame.2.2.1, hsame.2.2.2.1⟩, .inr fun c hc => ?_⟩
    obtain ⟨o, ho, hco⟩ := List.any_eq_true.mp (List.all_eq_true.mp h c hc)
    rw [of_decide_eq_true hco]
    exact ho

/-- **A match is of the same subscription** iff what is not compared agrees. -/
theorem key_eq_iff (h : e.matchesOther other options = true) :
    e.key options = other.key options ↔ Agrees options e other := by
  obtain ⟨⟨hservice, hinst, heventgroup, hmajor⟩, hor⟩ := of_matchesOther h
  simp only [key, SubscriptionKey.mk.injEq, hservice, hinst, heventgroup, hmajor, true_and, Agrees]
  refine and_congr_right fun _ => ?_
  by_cases hindices : e.sameIndices other = true
  · have hreferenced := @referenced_of_sameIndices options e other hindices
    refine iff_of_true ⟨?_, ?_⟩ (.inl hindices)
    · rw [itsOptions, itsOptions, hreferenced]
    · rw [clients, clients, hreferenced]
  · have hsubset := hor.resolve_left hindices
    simp only [hindices, Bool.false_eq_true, false_or]
    refine and_congr_left fun _ => ?_
    rw [Finset.ext_iff]
    simp only [List.mem_toFinset]
    exact ⟨fun heq o ho => (heq o).mpr ho, fun hback o => ⟨fun ho => hsubset ho, fun ho => hback ho⟩⟩

theorem of_findSame {later : List EventgroupEntry} (h : findSame options e later = some other) :
    other ∈ later ∧ e.type = other.type ∧ e.ttl = other.ttl ∧
      e.matchesOther other options = true := by
  have hsame := List.find?_some h
  exact ⟨List.mem_of_find?_eq_some h, of_decide_eq_true hsame⟩

/-! ### A message -/

/-- What is in force for a subscription before plays no role if an entry is for it. -/
theorem foldl_subscribe_congr {entries : List EventgroupEntry} {key : SubscriptionKey}
    (hkey : ∃ e ∈ entries, e.type = .subscribeEventgroup ∧ e.key options = key)
    {inForce inForce' : SubscriptionKey → Option UInt32}
    (h : ∀ k, k ≠ key → inForce k = inForce' k) :
    entries.foldl (subscribe options) inForce = entries.foldl (subscribe options) inForce' := by
  induction entries generalizing inForce inForce' with
  | nil =>
      obtain ⟨e, he, -⟩ := hkey
      cases he
  | cons e entries ih =>
      rw [List.foldl_cons, List.foldl_cons]
      -- Off the subscription the entry does the same to both.
      have hoff : ∀ k, k ≠ key →
          subscribe options inForce e k = subscribe options inForce' e k := fun k hk => by
        rw [subscribe, subscribe]
        by_cases htype : e.type = .subscribeEventgroup
        · rw [if_pos htype, if_pos htype, Function.update_apply, Function.update_apply, h k hk]
        · rw [if_neg htype, if_neg htype, h k hk]
      by_cases hhere : e.type = .subscribeEventgroup ∧ e.key options = key
      · refine congrArg (entries.foldl (subscribe options)) (funext fun k => ?_)
        by_cases hk : k = key
        · rw [subscribe, subscribe, if_pos hhere.1, if_pos hhere.1, hk, hhere.2,
            Function.update_self, Function.update_self]
        · exact hoff k hk
      · obtain ⟨e', he', hkey'⟩ := hkey
        rcases List.mem_cons.mp he' with rfl | he'
        · exact absurd hkey' hhere
        · exact ih ⟨e', he', hkey'⟩ hoff

/-- Skipping entries that come again changes nothing. -/
theorem foldl_processed {entries : List EventgroupEntry}
    (h : AtSkipped options (fun e other => e.key options = other.key options) entries)
    (inForce : SubscriptionKey → Option UInt32) :
    (processed options entries).foldl (subscribe options) inForce =
      entries.foldl (subscribe options) inForce := by
  induction entries generalizing inForce with
  | nil => rfl
  | cons e later ih =>
      obtain ⟨hhere, hlater⟩ := h
      rw [processed]
      split_ifs with hskip
      · obtain ⟨other, hfind⟩ := Option.isSome_iff_exists.mp hskip.2
        obtain ⟨hmem, htype, -⟩ := of_findSame hfind
        rw [ih hlater, List.foldl_cons]
        refine foldl_subscribe_congr ⟨other, hmem, htype ▸ hskip.1,
          (hhere hskip.1 other hfind).symm⟩ fun k hk => ?_
        rw [subscribe, if_pos hskip.1, Function.update_of_ne hk]
      · exact ih hlater _

theorem atSkipped_congr {P Q : EventgroupEntry → EventgroupEntry → Prop}
    {entries : List EventgroupEntry}
    (h : ∀ e other later, findSame options e later = some other → (P e other ↔ Q e other)) :
    AtSkipped options P entries ↔ AtSkipped options Q entries := by
  induction entries with
  | nil => exact Iff.rfl
  | cons e later ih =>
      exact and_congr (imp_congr_right fun _ => forall_congr' fun other =>
        imp_congr_right fun hfind => h e other later hfind) ih

/-- **Skipping is sound** iff at every entry that is skipped what is not compared agrees. -/
theorem skipping_sound_iff (options : List SdOption) (entries : List EventgroupEntry) :
    SkipsSoundly options entries ↔ AtSkipped options (Agrees options) entries := by
  have hsame : AtSkipped options (fun e other => e.key options = other.key options ∧
      e.ttl = other.ttl) entries ↔ AtSkipped options (Agrees options) entries := by
    refine atSkipped_congr fun e other later hfind => ?_
    obtain ⟨-, -, httl, hmatches⟩ := of_findSame hfind
    rw [key_eq_iff hmatches]
    exact and_iff_left httl
  refine ⟨fun h => hsame.mp h.1, fun h => ⟨hsame.mpr h, foldl_processed ?_⟩⟩
  refine (atSkipped_congr fun e other later hfind => ?_).mpr h
  exact key_eq_iff (of_findSame hfind).2.2.2

/-- An endpoint and two selective options. -/
def selectiveOptions : List SdOption :=
  [⟨9, .ip .v4 false [10, 0, 0, 1] .udp 30490⟩, ⟨3, .selective [5]⟩, ⟨3, .selective [6]⟩]

/-- Subscriptions of two clients of one endpoint: indices 0 and 1, and indices 0 and 2. -/
def twoClients : List EventgroupEntry :=
  [⟨.subscribeEventgroup, 0x1111, 1, 0x20, 1, 3, 0, 0, 0, 2, 0⟩,
    ⟨.subscribeEventgroup, 0x1111, 1, 0x20, 1, 3, 0, 0, 2, 1, 1⟩]

/-- **The first of two clients** is not subscribed: its entry is skipped for that of the second. -/
theorem first_client_skipped : processed selectiveOptions twoClients = twoClients.drop 1 ∧
      ¬ SkipsSoundly selectiveOptions twoClients := by
  refine ⟨by decide, fun hsound => ?_⟩
  obtain ⟨⟨hfirst, -⟩, -⟩ := hsound
  have hkey := (hfirst rfl _ rfl).1
  exact absurd (congrArg SubscriptionKey.clients hkey) (by decide)

end SomeipTunnel.Sd
