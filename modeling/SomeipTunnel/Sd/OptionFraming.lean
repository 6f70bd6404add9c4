import SomeipTunnel.Sd.ConfigurationOption
import SomeipTunnel.Sd.Parsing

/-!
# Where options end

The length field of an option says how many bytes follow its type. The classes do not agree with it
for every contents: load balancing and protection take as many bytes as they have fields, a
selective option takes pairs of bytes and so one too many for an even length, and a configuration
ends at the item of length zero. The classes for addresses and for unknown types refuse what they
do not take exactly, and an unknown option also at the end of the array. An option that is refused
does not make the message fail: it is dropped, and all behind it.

`options_framed_iff`: a message is refused or has each option of its array decoded from its own bytes
iff each of them is in step with its length.
-/

namespace SomeipTunnel.Sd

open Codec List Someip OptionType

/-- An option as the sender places it: a length, a type, and as many bytes as the length says. -/
structure Frame where
  type : UInt8
  body : List UInt8
  fits : body.length < 2 ^ 16

namespace Frame

/-- The bytes of the option. -/
def bytes (f : Frame) : List UInt8 :=
  serialize16 (UInt16.ofNat f.body.length) ++ (serialize8 f.type ++ f.body)

/-- Items of a configuration, each behind its length. -/
def items (items : List (List UInt8)) : List UInt8 :=
  items.flatMap fun i => UInt8.ofNat i.length :: i

/-- Items that can be written, with keys that are not in use. -/
structure Distinct (used : List Item) (is : List (List UInt8)) : Prop where
  fits : ∀ i ∈ is, i ≠ [] ∧ i.length < 256
  keys : (is.map fun i => (splitItem i).1).Nodup
  fresh : ∀ i ∈ is, ∀ j ∈ used, j.1 ≠ (splitItem i).1

/-- The class of the option takes the bytes that its length says. Load balancing, protection and
addresses have a length; a selective option has pairs of bytes behind the reserved one; and a
configuration has items with different keys up to the one of length zero, which is the last byte, and
may be missing at the end of the array. An option of another type is taken unless it is the last. -/
def InStep (f : Frame) (rest : List UInt8) : Prop :=
  match ofByte f.type with
  | .loadBalancing => f.body.length = 5
  | .protection => f.body.length = 9
  | .selective => f.body.length % 2 = 1
  | .configuration => f.body ≠ [] ∧ ∃ is, Distinct [] is ∧
      (f.body.drop 1 = items is ++ [0] ∨ f.body.drop 1 = items is ∧ is ≠ [] ∧ rest = [])
  | .ip4Endpoint | .ip4Multicast => f.body.length = 9
  | .ip6Endpoint | .ip6Multicast => f.body.length = 21
  | .unknown => f.body ≠ [] ∧ rest ≠ []

/-- Each option is in step. -/
def InOrder : List Frame → Prop
  | [] => True
  | f :: fs => f.InStep (fs.flatMap bytes) ∧ InOrder fs

end Frame

/-- The options of an array, each with the bytes that it was decoded from. The number bounds the
options.
Source: `message_impl::deserialize`, the loop over the options -/
def decoded : ℕ → List UInt8 → List (SdOption × List UInt8)
  | 0, _ => []
  | fuel + 1, data =>
      if data = [] then []
      else
        match option.run data with
        | none => []
        | some (o, rest) => (o, data.take (data.length - rest.length)) :: decoded fuel rest

/-- The message is refused, or each option of its array has been decoded from its own bytes. -/
def FailsOrDecodesEach (data : List UInt8) (frames : List Frame) : Prop :=
  let array := frames.flatMap Frame.bytes
  (∃ c, deserialize (Cursor.start data) = .ok (none, c)) ∨
    ∃ m c, deserialize (Cursor.start data) = .ok (some m, c) ∧
      m.options = (decoded (array.length + 1) array).map Prod.fst ∧
      (decoded (array.length + 1) array).map Prod.snd = frames.map Frame.bytes

/-- They are the options that are read. -/
theorem map_fst_decoded (fuel : ℕ) (data : List UInt8) :
    (decoded fuel data).map Prod.fst = gather option fuel data := by
  induction fuel generalizing data with
  | zero => rfl
  | succ fuel ih =>
      unfold decoded gather
      split_ifs
      · rfl
      · rcases option.run data with - | ⟨o, rest⟩
        · rfl
        · exact congrArg (o :: ·) (ih rest)

/-! ### One option -/

namespace Frame

variable {f : Frame} {rest tail : List UInt8} {o : SdOption}

/-- A length of two bytes and a type stand in front of the body. -/
theorem length_bytes (f : Frame) : f.bytes.length = f.body.length + 3 := by
  simp only [bytes, length_append, serialize16, serialize8, length_toBytes]
  omega

/-- The length field holds the length. -/
theorem toNat_length (f : Frame) : (UInt16.ofNat f.body.length).toNat = f.body.length :=
  UInt16.toNat_ofNat_of_lt' f.fits

/-- The first byte of the body is the reserved one of the header. -/
theorem run_optionHeader (h : f.body ≠ []) (rest : List UInt8) :
    optionHeader.run (f.bytes ++ rest) =
      some ((UInt16.ofNat f.body.length, ofByte f.type), f.body.drop 1 ++ rest) := by
  obtain ⟨r, body, hbody⟩ := exists_cons_of_ne_nil h
  have hreads : Reads optionHeader
      (serialize16 (UInt16.ofNat f.body.length) ++ (serialize8 f.type ++ serialize8 r))
      (UInt16.ofNat f.body.length, ofByte f.type) :=
    (reads_short _).bind ((reads_byte _).bind ((reads_byte _).check (reads_pure _)))
  have hbytes : f.bytes = (serialize16 (UInt16.ofNat f.body.length) ++
      (serialize8 f.type ++ serialize8 r)) ++ f.body.drop 1 := by
    simp [bytes, hbody, serialize8_eq]
  rw [hbytes, append_assoc, hreads]

/-- **An option is taken exactly** iff its class takes what is behind the header exactly. -/
theorem run_option_iff : (∃ o, option.run (f.bytes ++ rest) = some (o, rest)) ↔
    f.body ≠ [] ∧ ∃ o, (optionAs (ofByte f.type)).run (f.bytes ++ rest) =
      some (o, rest) := by
  have htype : (f.bytes ++ rest)[2]? = some f.type := by
    rw [bytes, serialize8_eq, serialize16]
    rfl
  have hrun : option.run (f.bytes ++ rest) =
      (optionAs (ofByte f.type)).run (f.bytes ++ rest) := by
    rw [option, StateT.run_bind, run_ahead, htype]
    rfl
  rw [hrun]
  refine (and_iff_right_of_imp ?_).symm
  rintro ⟨o, ho⟩ hnil
  have := atLeast_optionAs _ _ _ _ ho
  rw [length_append, length_bytes, hnil, length_nil] at this
  omega

/-- A class that takes `n` bytes takes these exactly. -/
theorem run_takes_iff {d : Decoder SdOption} {n : ℕ} (h : Takes n d) (hn : AtLeast n d) :
    (∃ o, d.run (tail ++ rest) = some (o, rest)) ↔ tail.length = n := by
  constructor
  · rintro ⟨o, ho⟩
    obtain ⟨hle, hrest⟩ := h.rest_eq hn ho
    have := congrArg List.length hrest
    rw [length_append] at hle
    rw [length_drop, length_append] at this
    omega
  · rintro rfl
    obtain ⟨o, ho⟩ := h (tail ++ rest) (by simp)
    rw [drop_left] at ho
    exact ⟨o, ho⟩

/-- The class behind the header. -/
theorem run_header_bind (h : f.body ≠ []) (d : UInt16 × OptionType → Decoder SdOption) :
    (optionHeader >>= d).run (f.bytes ++ rest) =
      (d (UInt16.ofNat f.body.length, ofByte f.type)).run (f.body.drop 1 ++ rest) := by
  rw [StateT.run_bind, run_optionHeader h]
  rfl

/-- The clients of a selective option are pairs of bytes. -/
theorem takes_clients (n : ℕ) (acc : List UInt16) :
    Takes (2 * n) (clients n acc) ∧ AtLeast (2 * n) (clients n acc) := by
  induction n generalizing acc with
  | zero => exact ⟨takes_pure _, atLeast_pure _⟩
  | succ n ih =>
      rw [Nat.mul_succ, Nat.add_comm]
      exact ⟨takes_short.bind fun _ => (ih _).1, atLeast_short.bind fun _ => (ih _).2⟩

/-- An address option is taken iff it has the length of one. -/
theorem run_ip_iff (version : IpVersion) (h : f.body ≠ []) :
    (∃ o, (ip version).run (f.bytes ++ rest) = some (o, rest)) ↔
      f.body.length = version.addressSize + 5 := by
  have hlength : UInt16.ofNat f.body.length = version.optionLength ↔
      f.body.length = version.addressSize + 5 := by
    rw [← UInt16.toNat_inj, toNat_length]
    cases version <;> rfl
  rw [ip, run_header_bind h]
  by_cases hguard : UInt16.ofNat f.body.length = version.optionLength
  · refine iff_of_true ?_ (hlength.mp hguard)
    have hsize := hlength.mp hguard
    simp only [hguard, if_true]
    obtain ⟨o, ho⟩ := ((takes_bytes version.addressSize).attempt.bind fun address =>
      takes_byte.attempt.bind fun itsReserved => takes_byte.attempt.bind fun protocol =>
        takes_short.attempt.bind fun port =>
          takes_pure (ipOption version (version.optionLength, ofByte f.type) address
            itsReserved protocol port)) (f.body.drop 1 ++ rest)
      (by rw [length_append, length_drop]; omega)
    refine ⟨o, ho.trans ?_⟩
    rw [drop_left' (by rw [length_drop]; omega)]
  · refine iff_of_false ?_ (mt hlength.mpr hguard)
    simp only [hguard, if_false]
    rintro ⟨o, hrun⟩
    obtain ⟨_, _, -, hrun⟩ := run_bind_eq_some.mp hrun
    obtain ⟨_, _, -, hrun⟩ := run_bind_eq_some.mp hrun
    obtain ⟨_, _, -, hrun⟩ := run_bind_eq_some.mp hrun
    obtain ⟨_, _, -, hrun⟩ := run_bind_eq_some.mp hrun
    cases hrun

/-- An unknown option is taken unless it is the last: what remains behind the header is compared with
a length that counts a byte of the header.
Source: `unknown_option_impl::deserialize` -/
theorem run_unknown_iff (h : f.body ≠ []) :
    (∃ o, unknown.run (f.bytes ++ rest) = some (o, rest)) ↔ rest ≠ [] := by
  have hpos := length_pos_iff.mpr h
  have hzero : UInt16.ofNat f.body.length ≠ 0 := by
    intro h0
    have := congrArg UInt16.toNat h0
    rw [toNat_length] at this
    exact hpos.ne' this
  have hroom : (f.body.drop 1 ++ rest).length < f.body.length ↔ rest = [] := by
    rw [length_append, length_drop, ← length_eq_zero_iff]
    omega
  have hrun : unknown.run (f.bytes ++ rest) = (if UInt16.ofNat f.body.length = 0 ∨
      (f.body.drop 1 ++ rest).length < (UInt16.ofNat f.body.length).toNat then failure
      else Codec.bytes ((UInt16.ofNat f.body.length).toNat - 1) >>= fun payload =>
        pure ⟨UInt16.ofNat f.body.length, .unknown payload⟩ : Decoder SdOption).run
          (f.body.drop 1 ++ rest) := by
    rw [unknown, run_header_bind h]
    rfl
  rw [hrun, toNat_length]
  by_cases hrest : rest = []
  · rw [if_pos (.inr (hroom.mpr hrest))]
    exact iff_of_false (fun ⟨_, ho⟩ => nomatch ho) (not_not.mpr hrest)
  · rw [if_neg (not_or.mpr ⟨hzero, mt hroom.mp hrest⟩)]
    refine iff_of_true ((run_takes_iff ((takes_bytes _).bind fun _ => takes_pure _)
      ((atLeast_bytes _).bind fun _ => atLeast_pure _)).mpr ?_) hrest
    rw [length_drop, Nat.add_zero]

variable {used : List Item} {data : List UInt8} {fuel : ℕ}

/-- One item more is read. -/
theorem distinct_cons {i : List UInt8} {is : List (List UInt8)}
    (hdup : ∀ j ∈ used, j.1 ≠ (splitItem i).1) :
    Distinct used (i :: is) ↔ (i ≠ [] ∧ i.length < 256) ∧
      Distinct (OrderedSet.insert keyLt used (splitItem i)) is := by
  have hne : ∀ j ∈ used, keyLt (splitItem i) j = true ∨ keyLt j (splitItem i) = true :=
    fun j hj => ConfigurationOption.keyLt_or_of_ne (hdup j hj)
  have hmem : ∀ j, j ∈ OrderedSet.insert keyLt used (splitItem i) ↔
      j = splitItem i ∨ j ∈ used := by
    intro j
    obtain ⟨pre, post, hgap, heq⟩ := OrderedSet.exists_gap hne
    rw [heq, hgap.split]
    simp only [mem_append, mem_cons]
    tauto
  constructor
  · rintro ⟨hfits, hkeys, hfresh⟩
    obtain ⟨hi, hfits⟩ := forall_mem_cons.mp hfits
    rw [map_cons, nodup_cons] at hkeys
    refine ⟨hi, hfits, hkeys.2, fun i' hi' j hj => ?_⟩
    rcases (hmem j).mp hj with rfl | hj
    · exact fun heq => hkeys.1 (mem_map.mpr ⟨i', hi', heq.symm⟩)
    · exact hfresh i' (mem_cons_of_mem _ hi') j hj
  · rintro ⟨hi, hfits, hkeys, hfresh⟩
    refine ⟨forall_mem_cons.mpr ⟨hi, hfits⟩, ?_, ?_⟩
    · rw [map_cons, nodup_cons]
      refine ⟨fun hin => ?_, hkeys⟩
      obtain ⟨i', hi', heq⟩ := mem_map.mp hin
      exact hfresh i' hi' _ ((hmem _).mpr (.inl rfl)) heq.symm
    · refine forall_mem_cons.mpr ⟨hdup, fun i' hi' j hj => ?_⟩
      exact hfresh i' hi' j ((hmem j).mpr (.inr hj))

/-- No items. -/
theorem distinct_nil (used : List Item) : Distinct used [] :=
  ⟨fun _ h => absurd h not_mem_nil, nodup_nil, fun _ h => absurd h not_mem_nil⟩

/-- Reading one item: a key in use is refused, and behind the last byte there is nothing to read. -/
theorem run_items_cons {i behind : List UInt8} (hi : i ≠ [] ∧ i.length < 256) :
    (Sd.items (fuel + 1) used).run (UInt8.ofNat i.length :: (i ++ behind)) =
      if ∃ j ∈ used, j.1 = (splitItem i).1 then none
      else if behind = [] then some (OrderedSet.insert keyLt used (splitItem i), [])
      else (Sd.items fuel (OrderedSet.insert keyLt used (splitItem i))).run behind := by
  have hto : (UInt8.ofNat i.length).toNat = i.length := UInt8.toNat_ofNat_of_lt' hi.2
  have hzero : UInt8.ofNat i.length ≠ 0 := by
    intro h0
    rw [h0] at hto
    exact hi.1 (length_eq_zero_iff.mp hto.symm)
  have hbyte : byte.run (UInt8.ofNat i.length :: (i ++ behind)) =
      some (UInt8.ofNat i.length, i ++ behind) := by
    have := reads_byte (UInt8.ofNat i.length) (i ++ behind)
    rwa [serialize8_eq] at this
  have hitem : (Codec.bytes (UInt8.ofNat i.length).toNat).run (i ++ behind) = some (i, behind) := by
    rw [hto]
    exact reads_bytes i behind
  rw [Sd.items, StateT.run_bind, hbyte]
  dsimp only [Option.bind_eq_bind, Option.bind_some]
  rw [if_neg hzero, StateT.run_bind, hitem]
  simp only [Option.bind_eq_bind, Option.bind_some, any_eq_true, decide_eq_true_eq]
  split_ifs with hdup hend
  · rfl
  · rw [hend]
    rfl
  · have hsize : ¬ behind.length = 0 := mt length_eq_zero_iff.mp hend
    have hread : size.run behind = some (behind.length, behind) := rfl
    rw [StateT.run_bind, hread]
    dsimp only [Option.bind_eq_bind, Option.bind_some]
    rw [if_neg hsize]

/-- What is read begins with the item of length zero, or with another. -/
theorem items_shape {is' : List Item}
    (hrun : (Sd.items (fuel + 1) used).run data = some (is', rest)) : data = 0 :: rest ∨
      ∃ i behind, (i ≠ [] ∧ i.length < 256) ∧ data = UInt8.ofNat i.length :: (i ++ behind) := by
  obtain ⟨b, mid, hb, hrun⟩ := run_bind_eq_some.mp hrun
  have hdata := exact_byte _ _ _ hb
  rw [serialize8_eq] at hdata
  by_cases h0 : b = 0
  · rw [if_pos h0] at hrun
    obtain ⟨-, rfl⟩ := Prod.mk.inj (Option.some.inj hrun)
    rw [hdata, h0]
    exact .inl rfl
  rw [if_neg h0] at hrun
  obtain ⟨item, behind, hitem, -⟩ := run_bind_eq_some.mp hrun
  rw [run_bytes] at hitem
  split_ifs at hitem with hle
  obtain ⟨rfl, rfl⟩ := Prod.mk.inj (Option.some.inj hitem)
  have hsize : (mid.take b.toNat).length = b.toNat := length_take_of_le hle
  refine .inr ⟨mid.take b.toNat, mid.drop b.toNat, ⟨fun hnil => h0 (UInt8.toNat_inj.mp ?_),
    hsize.trans_lt b.toNat_lt⟩, ?_⟩
  · rw [hnil] at hsize
    exact hsize.symm
  · rw [hdata, hsize, UInt8.ofNat_toNat, take_append_drop]
    rfl

/-- **What `items` takes**: items with different keys up to the one of length zero, or up to the
end. -/
theorem run_items_iff (hfuel : data.length < fuel) :
    (∃ is', (Sd.items fuel used).run data = some (is', rest)) ↔
      ∃ is, Distinct used is ∧ (data = items is ++ 0 :: rest ∨ data = items is ∧ is ≠ [] ∧
        rest = []) := by
  induction fuel generalizing used data with
  | zero => exact absurd hfuel (Nat.not_lt_zero _)
  | succ fuel ih =>
      constructor
      · rintro ⟨is', hrun⟩
        rcases items_shape hrun with rfl | ⟨i, behind, hi, rfl⟩
        · exact ⟨[], distinct_nil used, .inl rfl⟩
        rw [run_items_cons hi] at hrun
        split_ifs at hrun with hdup hend
        · obtain ⟨-, rfl⟩ := Prod.mk.inj (Option.some.inj hrun)
          refine ⟨[i], (distinct_cons fun j hj heq => hdup ⟨j, hj, heq⟩).mpr ⟨hi, distinct_nil _⟩, .inr ?_⟩
          simp [items, hend]
        · have hshort : behind.length < fuel := by
            rw [length_cons, length_append] at hfuel
            omega
          obtain ⟨is, his, hor⟩ := (ih hshort).mp ⟨is', hrun⟩
          refine ⟨i :: is, (distinct_cons fun j hj heq => hdup ⟨j, hj, heq⟩).mpr ⟨hi, his⟩, ?_⟩
          rcases hor with rfl | ⟨rfl, -, hnil⟩
          · exact .inl (by simp [items])
          · exact .inr ⟨by simp [items], cons_ne_nil _ _, hnil⟩
      · rintro ⟨- | ⟨i, is⟩, his, hor⟩
        · obtain rfl : data = 0 :: rest := by simpa [items] using hor
          exact ⟨used, rfl⟩
        have hdup := his.fresh i mem_cons_self
        obtain ⟨hi, his⟩ := (distinct_cons hdup).mp his
        obtain ⟨behind, rfl, hbehind⟩ : ∃ behind, data = UInt8.ofNat i.length :: (i ++ behind) ∧
            (behind = items is ++ 0 :: rest ∨ behind = items is ∧ rest = []) := by
          rcases hor with rfl | ⟨rfl, -, hnil⟩
          · exact ⟨_, by simp [items], .inl rfl⟩
          · exact ⟨_, by simp [items], .inr ⟨rfl, hnil⟩⟩
        rw [run_items_cons hi, if_neg fun ⟨j, hj, heq⟩ => hdup j hj heq]
        by_cases hend : behind = []
        · rcases hbehind with rfl | ⟨-, hnil⟩
          · exact absurd hend (by simp)
          · rw [if_pos hend, hnil]
            exact ⟨_, rfl⟩
        · have hshort : behind.length < fuel := by
            rw [length_cons, length_append] at hfuel
            omega
          rw [if_neg hend]
          refine (ih hshort).mpr ⟨is, his, hbehind.imp_right fun ⟨hitems, hnil⟩ =>
            ⟨hitems, ?_, hnil⟩⟩
          rintro rfl
          exact hend hitems

/-- **A configuration** is taken exactly iff its last byte is the item of length zero.
Source: `configuration_option_impl::deserialize` -/
theorem run_configuration_iff (h : f.body ≠ []) :
    (∃ o, configuration.run (f.bytes ++ rest) = some (o, rest)) ↔ ∃ is, Distinct [] is ∧
      (f.body.drop 1 = items is ++ [0] ∨ f.body.drop 1 = items is ∧ is ≠ [] ∧ rest = []) := by
  have hrun : configuration.run (f.bytes ++ rest) =
      (Sd.items ((f.body.drop 1 ++ rest).length + 1) [] >>= fun is =>
        pure (⟨UInt16.ofNat f.body.length, .configuration is⟩ : SdOption) :
          Decoder SdOption).run (f.body.drop 1 ++ rest) := by
    rw [configuration, run_header_bind h]
    rfl
  have hitems : (∃ o, configuration.run (f.bytes ++ rest) = some (o, rest)) ↔
      ∃ is', (Sd.items ((f.body.drop 1 ++ rest).length + 1) []).run (f.body.drop 1 ++ rest) =
        some (is', rest) := by
    rw [hrun]
    constructor
    · rintro ⟨o, ho⟩
      obtain ⟨is', mid, his', ho⟩ := run_bind_eq_some.mp ho
      obtain ⟨-, rfl⟩ := Prod.mk.inj (Option.some.inj ho)
      exact ⟨is', his'⟩
    · rintro ⟨is', his'⟩
      exact ⟨_, run_bind_eq_some.mpr ⟨is', rest, his', rfl⟩⟩
  rw [hitems, run_items_iff (Nat.lt_succ_self _)]
  refine exists_congr fun is => and_congr_right fun _ => or_congr ?_ ?_
  · refine Iff.trans ?_ (append_left_inj rest)
    rw [append_assoc]
    rfl
  · constructor
    · rintro ⟨heq, hne, rfl⟩
      exact ⟨by rwa [append_nil] at heq, hne, rfl⟩
    · rintro ⟨heq, hne, rfl⟩
      exact ⟨by rwa [append_nil], hne, rfl⟩

/-- A class that takes `n` bytes behind the header takes options of one length. -/
theorem run_fixed_iff {d : UInt16 × OptionType → Decoder SdOption} {n : ℕ}
    (hd : Takes n (d (UInt16.ofNat f.body.length, ofByte f.type)))
    (hn : AtLeast n (d (UInt16.ofNat f.body.length, ofByte f.type))) (h : f.body ≠ []) :
    (∃ o, (optionHeader >>= d).run (f.bytes ++ rest) = some (o, rest)) ↔ f.body.length = n + 1 := by
  have hpos := length_pos_iff.mpr h
  rw [run_header_bind h, run_takes_iff hd hn, length_drop]
  omega

/-- **One option** is decoded from its own bytes iff it is in step. -/
theorem run_iff_inStep : (∃ o, option.run (f.bytes ++ rest) = some (o, rest)) ↔ f.InStep rest := by
  rw [run_option_iff]
  unfold InStep
  -- an option of some length has a body
  have hbody : ∀ {n : ℕ}, f.body.length = n + 1 → f.body ≠ [] := fun h => by
    rw [← length_pos_iff]
    omega
  cases ofByte f.type <;> dsimp only [optionAs]
  case configuration => exact and_congr_right run_configuration_iff
  case loadBalancing =>
    refine (and_congr_right (run_fixed_iff (n := 4) ?_ ?_)).trans (and_iff_right_of_imp hbody)
    · exact takes_short.bind fun _ => takes_short.bind fun _ => takes_pure _
    · exact atLeast_short.bind fun _ => atLeast_short.bind fun _ => atLeast_pure _
  case protection =>
    refine (and_congr_right (run_fixed_iff (n := 8) ?_ ?_)).trans (and_iff_right_of_imp hbody)
    · exact takes_long.bind fun _ => takes_long.bind fun _ => takes_pure _
    · exact atLeast_long.bind fun _ => atLeast_long.bind fun _ => atLeast_pure _
  case selective =>
    refine (and_congr_right (run_fixed_iff (n := 2 * (f.body.length / 2)) ?_ ?_)).trans ?_
    · dsimp only
      rw [toNat_length]
      exact (takes_clients _ _).1.bind fun _ => takes_pure _
    · dsimp only
      rw [toNat_length]
      exact (takes_clients _ _).2.bind fun _ => atLeast_pure _
    · rw [and_iff_right_of_imp hbody]
      omega
  case unknown => exact and_congr_right run_unknown_iff
  all_goals exact (and_congr_right (run_ip_iff _)).trans (and_iff_right_of_imp hbody)

/-! ### The array -/

/-- An option has bytes. -/
theorem bytes_ne_nil (f : Frame) (rest : List UInt8) : f.bytes ++ rest ≠ [] := by
  intro hnil
  have := congrArg List.length hnil
  rw [length_append, length_bytes, length_nil] at this
  omega

/-- What an option leaves is the end of what it is decoded from. -/
theorem eq_drop_of_run {rest' : List UInt8} (hrun : option.run data = some (o, rest')) :
    rest' = data.drop (data.length - rest'.length) := by
  have hlength := atLeast_option _ _ _ hrun
  have h2 : (Cursor.start data).remaining ≠ 2 := by
    rw [Cursor.start]
    dsimp only
    omega
  obtain ⟨-, -, hview⟩ := (followsAt_deserializeOption (Cursor.sound_start data) h2).eq_ok
    (Cursor.sound_start data) (by rw [Cursor.view_start]; exact hrun)
  simp only [Cursor.view, Cursor.leaving, Cursor.start, Nat.zero_add] at hview
  rw [take_of_length_le (by rw [length_drop]; omega)] at hview
  exact hview.symm

/-- The bytes that an option was decoded from, by what it leaves. -/
theorem take_eq_bytes_iff {rest' : List UInt8} (hrun : option.run (f.bytes ++ rest) = some (o, rest')) :
    (f.bytes ++ rest).take ((f.bytes ++ rest).length - rest'.length) = f.bytes ↔ rest' = rest := by
  constructor
  · intro heq
    have happend := take_append_drop ((f.bytes ++ rest).length - rest'.length)
      (f.bytes ++ rest)
    rw [heq, ← eq_drop_of_run hrun] at happend
    exact append_cancel_left happend
  · rintro rfl
    rw [length_append, Nat.add_sub_cancel, take_left]

/-- **All options** of an array are decoded from their own bytes iff each is in step. -/
theorem decoded_eq_iff (fs : List Frame) (hfuel : (fs.flatMap bytes).length < fuel) :
    (decoded fuel (fs.flatMap bytes)).map Prod.snd = fs.map bytes ↔ InOrder fs := by
  induction fs generalizing fuel with
  | nil =>
      cases fuel with
      | zero => cases hfuel
      | succ fuel => exact iff_of_true rfl trivial
  | cons f fs ih =>
      cases fuel with
      | zero => cases hfuel
      | succ fuel =>
          rw [flatMap_cons] at hfuel ⊢
          have hshort : (fs.flatMap bytes).length < fuel := by
            rw [length_append, length_bytes] at hfuel
            omega
          rw [decoded, if_neg (f.bytes_ne_nil _), InOrder, ← run_iff_inStep]
          rcases hrun : option.run (f.bytes ++ fs.flatMap bytes) with - | ⟨o, rest'⟩
          · exact iff_of_false (fun h => nomatch h) fun ⟨⟨_, ho⟩, _⟩ => nomatch ho
          · simp only [map_cons, List.cons.injEq, take_eq_bytes_iff hrun, Option.some.injEq,
              Prod.mk.injEq, exists_and_right, exists_eq', true_and]
            exact and_congr_right fun hrest => hrest ▸ ih hshort

/-- Options in step start with three bytes at least, so that none is looked for behind the array. -/
theorem InOrder.length_ne_two {fs : List Frame} (h : InOrder fs) (fuel : ℕ) :
    ∀ rest ∈ starts option fuel (fs.flatMap bytes), rest.length ≠ 2 := by
  induction fs generalizing fuel with
  | nil =>
      cases fuel <;> exact fun rest hrest => absurd hrest not_mem_nil
  | cons f fs ih =>
      cases fuel with
      | zero => exact fun rest hrest => absurd hrest not_mem_nil
      | succ fuel =>
          obtain ⟨o, ho⟩ := run_iff_inStep.mpr h.1
          rw [flatMap_cons, starts, if_neg (f.bytes_ne_nil _), ho]
          refine forall_mem_cons.mpr ⟨?_, ih h.2 fuel⟩
          rw [length_append, length_bytes]
          omega

end Frame

/-- **A message is refused or each option is decoded from its own bytes** iff every option of the
array is in step with its length. -/
theorem options_framed_iff (data : List UInt8) (p : Parts) (frames : List Frame)
    (hparts : parts data = some p) (harray : p.optionsArray = frames.flatMap Frame.bytes) :
    FailsOrDecodesEach data frames ↔ Frame.InOrder frames := by
  have hfuel := Nat.lt_succ_self (frames.flatMap Frame.bytes).length
  constructor
  · rintro (⟨c, hnone⟩ | ⟨m, c, -, -, hbytes⟩)
    · exact absurd hnone (deserialize_ne_none hparts c)
    · exact (Frame.decoded_eq_iff frames hfuel).mp hbytes
  · intro horder
    obtain ⟨c, hrun, -⟩ := deserialize_eq hparts (by
      rw [harray]
      exact horder.length_ne_two _)
    refine .inr ⟨_, c, hrun, ?_, (Frame.decoded_eq_iff frames hfuel).mpr horder⟩
    rw [map_fst_decoded, Parts.message, optionsOf, harray]

/-- A message without entries. -/
def bare (frames : List Frame) : List UInt8 :=
  let array := frames.flatMap Frame.bytes
  (⟨0xFFFF, 0x8100, UInt32.ofNat (array.length + 20), 0, 1, 1, 1, 2, 0⟩ : Header).serialize
      (UInt32.ofNat (array.length + 20)) ++
    ([0xC0, 0, 0, 0, 0, 0, 0, 0] ++ (serialize32 (UInt32.ofNat array.length) false ++ array))

/-- An endpoint. -/
def endpoint : Frame := ⟨0x04, [0, 10, 0, 0, 1, 0, 0x11, 0x77, 0x1A], by decide⟩

/-- A load balancing option, and an endpoint. -/
theorem options_framed_endpoint :
    FailsOrDecodesEach (bare [⟨0x02, [0, 0, 1, 0, 1], by decide⟩, endpoint])
      [⟨0x02, [0, 0, 1, 0, 1], by decide⟩, endpoint] :=
  (options_framed_iff _ ⟨⟨0xFFFF, 0x8100, 40, 0, 1, 1, 1, 2, 0⟩, 0xC0, [], _⟩ _
    (by decide +kernel) rfl).mpr ⟨rfl, rfl, trivial⟩

/-- A load balancing option with a byte more than its fields, and an endpoint. -/
def longLoadBalancing : List Frame := [⟨0x02, [0, 0, 1, 0, 1, 0], by decide⟩, endpoint]

/-- **The endpoint is lost** behind the load balancing option: it is read from one byte too early, as
an option of length 0 and type 9, and the message is accepted without it. -/
theorem endpoint_out_of_step :
    (∃ m c, deserialize (Cursor.start (bare longLoadBalancing)) = .ok (some m, c) ∧
      m.options = [⟨6, .loadBalancing 1 1⟩]) ∧
    ¬ FailsOrDecodesEach (bare longLoadBalancing) longLoadBalancing := by
  have hrun : ∃ c, deserialize (Cursor.start (bare longLoadBalancing)) =
      .ok (some ⟨⟨0xFFFF, 0x8100, 41, 0, 1, 1, 1, 2, 0⟩, 0xC0, [], [⟨6, .loadBalancing 1 1⟩]⟩, c) :=
    ⟨⟨bare longLoadBalancing, 40, 9, false⟩, by decide +kernel⟩
  obtain ⟨c, hrun⟩ := hrun
  refine ⟨⟨_, c, hrun, rfl⟩, ?_⟩
  rintro (⟨c', hnone⟩ | ⟨-, -, -, -, hbytes⟩)
  · rw [hrun] at hnone
    cases hnone
  · revert hbytes
    decide +kernel

end SomeipTunnel.Sd
