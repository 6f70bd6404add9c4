import SomeipTunnel.Lib.Run
import SomeipTunnel.Sd.OptionCodec

/-!
# Configuration options

`add_item` sets the value of a key and adds the size of the item to the length of the option,
`remove_item` takes the size of the item off. An item that is replaced is not taken off, so the
length is right as long as no key is added that the option has (`configuration_option_iff`). What
the option writes and reads does not depend on its length.
-/

namespace SomeipTunnel.Sd

open Cursor List StepRun

/-- Source: `configuration_option_impl.hpp`, `length_` and `configuration_` -/
structure ConfigurationOption where
  length : UInt16
  configuration : List Item
deriving DecidableEq, Repr

/-- Source: `configuration_option_impl.hpp`, the calls that change it -/
inductive ItemCall
  | addItem (key value : List UInt8)
  | removeItem (key : List UInt8)
deriving DecidableEq, Repr

/-- What an item takes. -/
def Item.size (i : Item) : ℕ := i.1.length + i.2.length + 2

namespace ConfigurationOption

/-- Source: `configuration_option_impl::configuration_option_impl` -/
def start : ConfigurationOption := ⟨2, []⟩

/-- The item at its place, instead of the one with its key.
Source: `configuration_option_impl.cpp`, `configuration_[_key] = _value` -/
def assign (configuration : List Item) (i : Item) : List Item :=
  OrderedSet.insert keyLt (configuration.filter fun j => j.1 ≠ i.1) i

/-- Source: `configuration_option_impl::add_item` -/
def addItem (o : ConfigurationOption) (key value : List UInt8) : ConfigurationOption :=
  ⟨UInt16.ofNat (o.length.toNat + key.length + value.length + 2), assign o.configuration (key, value)⟩

/-- Source: `configuration_option_impl::remove_item` -/
def removeItem (o : ConfigurationOption) (key : List UInt8) : ConfigurationOption :=
  match o.configuration.find? fun j => j.1 = key with
  | some it => ⟨o.length - UInt16.ofNat it.size, o.configuration.filter fun j => j.1 ≠ key⟩
  | none => o

def step (o : ConfigurationOption) : ItemCall → Except Empty (Unit × ConfigurationOption)
  | .addItem key value => .ok ((), o.addItem key value)
  | .removeItem key => .ok ((), o.removeItem key)

/-- The option as it is written. -/
def option (o : ConfigurationOption) : SdOption := ⟨o.length, .configuration o.configuration⟩

/-- The length counts the reserved byte and what is written behind it. -/
def Right (o : ConfigurationOption) : Prop := o.length.toNat = 1 + o.option.body.serialize.length

/-- The call leads to such an option. -/
def Leads (P : ConfigurationOption → Prop) (o : ConfigurationOption) (call : ItemCall) : Prop :=
  ∀ u o', o.step call = .ok (u, o') → P o'

/-- The size of the option has sixteen bits. -/
def Small (o : ConfigurationOption) : Prop := 1 + o.option.body.serialize.length < 2 ^ 16

/-- A key that is added is new. -/
def AddsNew (o : ConfigurationOption) : ItemCall → Prop
  | .addItem key _ => ∀ i ∈ o.configuration, i.1 ≠ key
  | .removeItem _ => True

/-! ### One call -/

/-- What the items take. -/
def bulk (items : List Item) : ℕ := (items.map Item.size).sum

theorem length_serialize_body (o : ConfigurationOption) :
    o.option.body.serialize.length = bulk o.configuration + 1 := by
  simp only [option, Body.serialize, length_append, length_flatMap, length_serializeItem,
    length_singleton]
  rfl

theorem keyLt_or_of_ne {i j : Item} (h : j.1 ≠ i.1) : keyLt i j = true ∨ keyLt j i = true := by
  simp only [keyLt, decide_eq_true_iff]
  by_contra hnone
  obtain ⟨hij, hji⟩ := not_or.mp hnone
  exact h (List.le_antisymm hij hji)

theorem keyLt_trans (i j k : Item) (hij : keyLt i j = true) (hjk : keyLt j k = true) :
    keyLt i k = true := by
  simp only [keyLt, decide_eq_true_iff] at *
  exact List.lt_trans hij hjk

/-- The items are ordered by their keys. -/
def Sorted (o : ConfigurationOption) : Prop := o.configuration.Pairwise fun i j => keyLt i j = true

theorem keyLt_or_filter {items : List Item} {i : Item} :
    ∀ j ∈ items.filter (fun j => j.1 ≠ i.1), keyLt i j = true ∨ keyLt j i = true := by
  intro j hj
  exact keyLt_or_of_ne (of_decide_eq_true (mem_filter.mp hj).2)

theorem bulk_assign (items : List Item) (i : Item) :
    bulk (assign items i) = bulk (items.filter fun j => j.1 ≠ i.1) + i.size := by
  obtain ⟨pre, post, hgap, heq⟩ := OrderedSet.exists_gap (@keyLt_or_filter items i)
  rw [assign, heq, hgap.split]
  simp only [bulk, map_append, map_cons, sum_append, sum_cons]
  omega

/-- The items without those of a key: in an ordered list there is at most one. -/
theorem bulk_filter_ne {items : List Item} (h : items.Pairwise fun i j => keyLt i j = true)
    {it : Item} (hmem : it ∈ items) :
    bulk (items.filter fun j => j.1 ≠ it.1) + it.size = bulk items := by
  induction items with
  | nil => cases hmem
  | cons i items ih =>
      obtain ⟨hi, hitems⟩ := List.pairwise_cons.mp h
      rcases List.mem_cons.mp hmem with rfl | hmem
      · have hrest : (items.filter fun j => j.1 ≠ it.1) = items := by
          rw [List.filter_eq_self]
          intro j hj
          refine decide_eq_true fun heq => ?_
          have hlt := hi j hj
          rw [keyLt, heq, decide_eq_true_iff] at hlt
          exact List.lt_irrefl _ hlt
        rw [List.filter_cons_of_neg (by simp), hrest]
        simp only [bulk, List.map_cons, List.sum_cons]
        omega
      · have hne : i.1 ≠ it.1 := by
          intro heq
          have hlt := hi it hmem
          rw [keyLt, heq, decide_eq_true_iff] at hlt
          exact List.lt_irrefl _ hlt
        have hrest := ih hitems hmem
        rw [List.filter_cons_of_pos (by simpa using hne)]
        simp only [bulk, List.map_cons, List.sum_cons] at hrest ⊢
        omega

theorem Sorted.step {o o' : ConfigurationOption} {call : ItemCall} {u : Unit} (h : o.Sorted)
    (hstep : o.step call = .ok (u, o')) : o'.Sorted := by
  cases call with
  | addItem key value =>
      cases hstep
      exact OrderedSet.pairwise_insert keyLt_trans (h.filter _) keyLt_or_filter
  | removeItem key =>
      cases hstep
      unfold removeItem
      split
      · exact h.filter _
      · exact h

/-- **One call** keeps the length right iff it adds no key that is there. -/
theorem right_iff {o o' : ConfigurationOption} {call : ItemCall} {u : Unit} (hsorted : o.Sorted)
    (hright : o.Right) (hstep : o.step call = .ok (u, o')) (hsmall : o'.Small) :
    o'.Right ↔ o.AddsNew call := by
  unfold Right Small at *
  rw [length_serialize_body] at *
  have hlength := o.length.toNat_lt
  cases call with
  | addItem key value =>
      cases hstep
      have hbulk := bulk_assign o.configuration (key, value)
      have hadded : (o.addItem key value).configuration = assign o.configuration (key, value) := rfl
      have hfield : (o.addItem key value).length.toNat =
          (o.length.toNat + key.length + value.length + 2) % 2 ^ 16 := rfl
      rw [hadded, hbulk] at hsmall ⊢
      rw [hfield]
      simp only [Item.size] at hsmall ⊢
      by_cases hnew : ∀ i ∈ o.configuration, i.1 ≠ key
      · have hsame : (o.configuration.filter fun j => j.1 ≠ key) = o.configuration :=
          filter_eq_self.mpr fun i hi => decide_eq_true (hnew i hi)
        rw [hsame] at hsmall ⊢
        refine iff_of_true ?_ hnew
        rw [Nat.mod_eq_of_lt (by omega)]
        omega
      · refine iff_of_false ?_ hnew
        -- the item that is replaced is counted on
        push Not at hnew
        obtain ⟨it, hit, rfl⟩ := hnew
        have hold := bulk_filter_ne hsorted hit
        simp only [Item.size] at hold
        omega
  | removeItem key =>
      cases hstep
      refine iff_of_true ?_ trivial
      unfold removeItem at hsmall ⊢
      split
      case h_1 it hfind =>
        rw [hfind] at hsmall
        have hkey := List.find?_some hfind
        obtain rfl : it.1 = key := of_decide_eq_true hkey
        have hold := bulk_filter_ne hsorted (mem_of_find?_eq_some hfind)
        have hfits : it.size < 2 ^ 16 := by omega
        have hsub : (o.length - UInt16.ofNat it.size).toNat = o.length.toNat - it.size := by
          rw [UInt16.toNat_sub_of_le]
          · rw [UInt16.toNat_ofNat_of_lt' hfits]
          · rw [UInt16.le_iff_toNat_le, UInt16.toNat_ofNat_of_lt' hfits]
            omega
        simp only [hsub]
        omega
      case h_2 => exact hright

/-- **Calls one after the other**, from an option whose length is right. -/
theorem leads_right_iff {o : ConfigurationOption} {calls : List ItemCall} (hsorted : o.Sorted)
    (hright : o.Right) (hsmall : AllSteps step (Leads Small) o calls) :
    AllSteps step (Leads Right) o calls ↔ AllSteps step AddsNew o calls := by
  induction calls generalizing o with
  | nil => exact Iff.rfl
  | cons call calls ih =>
      obtain ⟨hsmall, hrest⟩ := hsmall
      obtain ⟨o', hstep⟩ : ∃ o', o.step call = .ok ((), o') := by
        cases call <;> exact ⟨_, rfl⟩
      have hiff := right_iff hsorted hright hstep (hsmall _ _ hstep)
      have hleads : Leads Right o call ↔ o.AddsNew call := by
        rw [← hiff]
        refine ⟨fun h => h _ _ hstep, fun h u o'' hstep' => ?_⟩
        rw [hstep] at hstep'
        cases hstep'
        exact h
      rw [allSteps_cons, allSteps_cons, hleads]
      refine and_congr_right fun hnew => forall_congr' fun u => forall_congr' fun o'' =>
        imp_congr_right fun hstep' => ?_
      exact ih (hsorted.step hstep') ((right_iff hsorted hright hstep' (hsmall _ _ hstep')).mpr hnew)
        (hrest _ _ hstep')

end ConfigurationOption

open ConfigurationOption

/-- **Configuration options.** For calls that keep the size within sixteen bits, the length is right
behind every call iff none adds a key that the option has; and items whose keys are not empty and
have no separator, with at most 255 bytes each, are read back. -/
theorem configuration_option_iff (calls : List ItemCall) (o : ConfigurationOption) :
    (AllSteps step (Leads Small) .start calls →
      (AllSteps step (Leads Right) .start calls ↔ AllSteps step AddsNew .start calls)) ∧ (o.Sorted →
      (∀ i ∈ o.configuration, i.1 ≠ [] ∧ equalSign ∉ i.1 ∧ i.1.length + 1 + i.2.length ≤ 255) →
        ∃ c, deserializeConfiguration (Cursor.start o.option.serialize) = .ok (some o.option, c)) := by
  refine ⟨leads_right_iff List.Pairwise.nil rfl, fun hsorted hitems => ?_⟩
  · have hfits : (Body.configuration o.configuration).Fits :=
      ⟨fun i hi => ⟨by have := (hitems i hi).2.2; omega, (hitems i hi).2.1⟩, hsorted⟩
    have hrun := reads_configuration o.length hfits []
    rw [append_nil] at hrun
    obtain ⟨hok, -⟩ := (follows_deserializeConfiguration _ (sound_start _)).eq_ok (sound_start _)
      (by rw [view_start]; exact hrun)
    exact ⟨_, hok⟩

/-- The option with the item `a=b`. -/
def abOption : ConfigurationOption := ⟨6, [([0x61], [0x62])]⟩

theorem configuration_option_iff_ab :
    AllSteps step (Leads Right) .start [.addItem [0x61] [0x62], .removeItem [0x61]] ∧
      ∃ c, deserializeConfiguration (Cursor.start abOption.option.serialize) =
        .ok (some abOption.option, c) := by
  have hsmall : AllSteps step (Leads Small) .start [.addItem [0x61] [0x62], .removeItem [0x61]] := by
    refine ⟨?_, ?_⟩
    · rintro u o' ⟨⟩
      exact (by decide : 1 + abOption.option.body.serialize.length < 2 ^ 16)
    · rintro u o' ⟨⟩
      refine ⟨?_, fun _ _ _ => trivial⟩
      rintro u o' ⟨⟩
      exact (by decide : 1 + start.option.body.serialize.length < 2 ^ 16)
  have hnew : AllSteps step AddsNew .start [.addItem [0x61] [0x62], .removeItem [0x61]] :=
    ⟨fun _ hi => absurd hi not_mem_nil, fun _ _ _ => ⟨trivial, fun _ _ _ => trivial⟩⟩
  obtain ⟨hright, hread⟩ := configuration_option_iff _ abOption
  exact ⟨(hright hsmall).mpr hnew, hread (pairwise_singleton _ _) (by decide)⟩

/-- **An item that is added twice** is counted twice. -/
theorem item_counted_twice :
    ¬ AllSteps step (Leads Right) .start [.addItem [0x61] [0x62], .addItem [0x61] [0x62]] := by
  rintro ⟨-, hrest⟩
  have hright : (10 : UInt16).toNat = 6 := (hrest _ _ rfl).1 _ _ rfl
  exact absurd hright (by decide)

end SomeipTunnel.Sd
