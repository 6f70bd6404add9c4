import SomeipTunnel.Sd.Option

/-!
# Reading options back

The decoders that the reads of options follow, byte string by byte string.

* `followsAt_deserializeOption`: reading an option follows the decoder `option`, unless exactly two
  bytes remain. Then `deserialize_option` looks at the byte behind them.
* `atLeast_optionAs`: every option has the four bytes of its header.
* `reads_option`: an option that fits the format and its length field is read back from its bytes.
-/

namespace SomeipTunnel.Sd

open Codec Cursor Cursor.Parse List Someip

/-! ### Decoders -/

/-- The header of an option. -/
def optionHeader : Decoder (UInt16 × OptionType) := do
  let length ← short
  let itsType ← byte
  let _reserved ← byte
  return (length, OptionType.ofByte itsType)

/-- How many bytes there are. -/
def size : Decoder ℕ := do return (← get).length

/-- The items of a configuration. -/
def items : ℕ → List Item → Decoder (List Item)
  | 0, _ => failure
  | fuel + 1, configuration => do
      let itemLength ← byte
      if itemLength = 0 then return configuration
      else
        let item ← Codec.bytes itemLength.toNat
        if configuration.any fun i => i.1 = (splitItem item).1 then failure
        else
          let configuration := OrderedSet.insert keyLt configuration (splitItem item)
          if (← size) = 0 then return configuration
          else items fuel configuration

def configuration : Decoder SdOption := do
  let header ← optionHeader
  let items ← items ((← size) + 1) []
  return ⟨header.1, .configuration items⟩

def loadBalancing : Decoder SdOption := do
  let header ← optionHeader
  let priority ← short
  let weight ← short
  return ⟨header.1, .loadBalancing priority weight⟩

def protection : Decoder SdOption := do
  let header ← optionHeader
  let counter ← long false
  let crc ← long false
  return ⟨header.1, .protection counter crc⟩

def ip (version : IpVersion) : Decoder SdOption := do
  let header ← optionHeader
  let address ← Codec.attempt (Codec.bytes version.addressSize)
  let itsReserved ← Codec.attempt byte
  let protocol ← Codec.attempt byte
  let port ← Codec.attempt short
  if header.1 = version.optionLength then
    return ipOption version header address itsReserved protocol port
  else failure

/-- The clients of a selective option. -/
def clients : ℕ → List UInt16 → Decoder (List UInt16)
  | 0, clients => return clients
  | n + 1, clients => do
      let itsClient ← short
      Sd.clients n (OrderedSet.insert clientLt clients itsClient)

def selective : Decoder SdOption := do
  let header ← optionHeader
  let clients ← clients (header.1.toNat / 2) []
  return ⟨header.1, .selective clients⟩

def unknown : Decoder SdOption := do
  let header ← optionHeader
  if header.1 = 0 ∨ (← size) < header.1.toNat then failure
  else
    let payload ← Codec.bytes (header.1.toNat - 1)
    return ⟨header.1, .unknown payload⟩

/-- The decoder of a class. -/
def optionAs : OptionType → Decoder SdOption
  | .configuration => configuration
  | .loadBalancing => loadBalancing
  | .protection => protection
  | .ip4Endpoint | .ip4Multicast => ip .v4
  | .ip6Endpoint | .ip6Multicast => ip .v6
  | .selective => selective
  | .unknown => unknown

/-- The option at the front of a byte string. -/
def option : Decoder SdOption := do
  let tmpOptionType ← ahead 2
  optionAs (OptionType.ofByte tmpOptionType)

/-! ### The reads follow the decoders -/

theorem follows_deserializeOptionHeader : Follows deserializeOptionHeader optionHeader :=
  follows_deserialize16.bind fun _ => follows_deserialize8.bind fun _ =>
    follows_deserialize8.bind fun _ => follows_pure _

theorem follows_size : Follows remaining size := follows_remaining

/-- The loop over the items ends, since each takes a byte at least. -/
theorem followsAt_deserializeItems : ∀ (fuel : ℕ) (configuration : List Item) (c : Cursor),
    c.Sound → c.remaining < fuel →
      FollowsAt (deserializeItems fuel configuration) (items fuel configuration) c := by
  intro fuel
  induction fuel with
  | zero => exact fun _ c _ h => absurd h (Nat.not_lt_zero _)
  | succ fuel ih =>
      intro configuration c hc hfuel
      refine (follows_deserialize8 c hc).bind hc fun itemLength rest hbyte => ?_
      have hlt := atLeast_byte _ _ _ hbyte
      rw [hc.length_view] at hlt
      have hc' := hc.leaving (show rest.length ≤ c.remaining by omega)
      by_cases h0 : itemLength = 0
      · rw [if_pos h0, if_pos h0]
        exact follows_pure _ _ hc'
      · rw [if_neg h0, if_neg h0]
        refine (follows_bytes _ _ hc').bind hc' fun item rest' hitem => ?_
        have hle := atLeast_bytes _ _ _ _ hitem
        rw [hc'.length_view, remaining_leaving] at hle
        have hc'' := hc'.leaving (show rest'.length ≤ rest.length by omega)
        by_cases hdup : configuration.any fun i => i.1 = (splitItem item).1
        · rw [if_pos hdup, if_pos hdup]
          exact follows_fail _ hc''
        · rw [if_neg hdup, if_neg hdup]
          refine (follows_size _ hc'').bind hc'' fun n rest'' hsize => ?_
          obtain ⟨rfl, rfl⟩ := Prod.mk.inj (Option.some.inj hsize)
          rw [hc''.length_view, leaving_remaining]
          by_cases hend : (((c.leaving rest.length).leaving rest'.length).remaining) = 0
          · rw [if_pos hend, if_pos hend]
            exact follows_pure _ _ hc''
          · rw [if_neg hend, if_neg hend]
            refine ih _ _ hc'' ?_
            rw [remaining_leaving]
            omega

theorem follows_deserializeConfiguration : Follows deserializeConfiguration configuration := by
  refine follows_deserializeOptionHeader.bind fun header => ?_
  intro c hc
  refine (follows_size c hc).bind hc fun n rest hsize => ?_
  obtain ⟨rfl, rfl⟩ := Prod.mk.inj (Option.some.inj hsize)
  rw [hc.length_view, leaving_remaining]
  exact (followsAt_deserializeItems _ _ c hc (Nat.lt_succ_self _)).bind_follows hc
    fun _ => follows_pure _

theorem follows_deserializeLoadBalancing : Follows deserializeLoadBalancing loadBalancing :=
  follows_deserializeOptionHeader.bind fun _ => follows_deserialize16.bind fun _ =>
    follows_deserialize16.bind fun _ => follows_pure _

theorem follows_deserializeProtection : Follows deserializeProtection protection :=
  follows_deserializeOptionHeader.bind fun _ => (follows_deserialize32 false).bind fun _ =>
    (follows_deserialize32 false).bind fun _ => follows_pure _

/-- Behind a header that cannot be read the reads go on, and the option fails. -/
theorem follows_deserializeIp (version : IpVersion) : Follows (deserializeIp version) (ip version) := by
  have haddress := (follows_bytes version.addressSize).attempt fun _ _ => bytes_restores
  have hbyte := follows_deserialize8.attempt fun _ _ => scalar_restores
  have hport := follows_deserialize16.attempt fun _ _ => scalar_restores
  refine follows_deserializeOptionHeader.recover (fun header => ?_) ?_
  · refine haddress.bind fun address => hbyte.bind fun itsReserved => hbyte.bind fun protocol =>
      hport.bind fun port => ?_
    exact follows_guard (follows_pure _)
  · refine Fails.attempt (follows_bytes _) fun address => ?_
    refine Fails.attempt follows_deserialize8 fun itsReserved => ?_
    refine Fails.attempt follows_deserialize8 fun protocol => ?_
    exact Fails.attempt follows_deserialize16 fun port => fails_fail

theorem follows_deserializeClients : ∀ (n : ℕ) (cs : List UInt16),
    Follows (deserializeClients n cs) (clients n cs)
  | 0, _ => follows_pure _
  | n + 1, _ => follows_deserialize16.bind fun _ => follows_deserializeClients n _

theorem follows_deserializeSelective : Follows deserializeSelective selective :=
  follows_deserializeOptionHeader.bind fun _ => (follows_deserializeClients _ _).bind fun _ =>
    follows_pure _

theorem follows_deserializeUnknown : Follows deserializeUnknown unknown := by
  refine follows_deserializeOptionHeader.bind fun header => follows_size.bind fun n => ?_
  by_cases h : header.1 = 0 ∨ n < header.1.toNat
  · rw [if_pos h, if_pos h]
    exact follows_fail
  · rw [if_neg h, if_neg h]
    exact (follows_bytes _).bind fun _ => follows_pure _

theorem follows_deserializeAs : ∀ type, Follows (deserializeAs type) (optionAs type)
  | .configuration => follows_deserializeConfiguration
  | .loadBalancing => follows_deserializeLoadBalancing
  | .protection => follows_deserializeProtection
  | .ip4Endpoint | .ip4Multicast => follows_deserializeIp .v4
  | .ip6Endpoint | .ip6Multicast => follows_deserializeIp .v6
  | .selective => follows_deserializeSelective
  | .unknown => follows_deserializeUnknown

/-- **Reading an option follows the decoder**, unless exactly two bytes remain. -/
theorem followsAt_deserializeOption {c : Cursor} (hc : c.Sound) (h2 : c.remaining ≠ 2) :
    FollowsAt deserializeOption option c :=
  (followsAt_lookAhead hc h2).bind_follows hc fun _ => follows_deserializeAs _

/-! ### Every option has a header -/

theorem atLeast_optionHeader : AtLeast 4 optionHeader :=
  atLeast_short.bind fun _ => atLeast_byte.bind fun _ => atLeast_byte.bind fun _ => atLeast_pure _

theorem atLeast_size : AtLeast 0 size := by
  rintro data _ rest ⟨⟩
  exact Nat.le_refl _

theorem atLeast_items (fuel : ℕ) (acc : List Item) : AtLeast 0 (items fuel acc) := by
  induction fuel generalizing acc with
  | zero => exact atLeast_failure 0
  | succ fuel ih =>
      refine atLeast_byte.bind_zero fun itemLength => ?_
      by_cases h0 : itemLength = 0
      · rw [if_pos h0]
        exact atLeast_pure _
      · rw [if_neg h0]
        refine (atLeast_bytes _).bind_zero fun item => ?_
        split_ifs
        · exact atLeast_failure 0
        · refine atLeast_size.bind_zero fun n => ?_
          split_ifs
          · exact atLeast_pure _
          · exact ih _

theorem atLeast_clients (n : ℕ) (acc : List UInt16) : AtLeast 0 (clients n acc) := by
  induction n generalizing acc with
  | zero => exact atLeast_pure _
  | succ n ih => exact atLeast_short.bind_zero fun _ => ih _

/-- **Every option takes the four bytes of its header.** -/
theorem atLeast_optionAs (type : OptionType) : AtLeast 4 (optionAs type) := by
  have hbody : ∀ {f : UInt16 × OptionType → Decoder SdOption}, (∀ h, AtLeast 0 (f h)) →
      AtLeast 4 (optionHeader >>= f) := fun hf => atLeast_optionHeader.bind hf
  have hip : ∀ version, AtLeast 4 (ip version) := by
    intro version
    refine hbody fun header => ?_
    refine (atLeast_bytes _).attempt.bind_zero fun address => ?_
    refine atLeast_byte.attempt.bind_zero fun itsReserved => ?_
    refine atLeast_byte.attempt.bind_zero fun protocol => ?_
    refine atLeast_short.attempt.bind_zero fun port => ?_
    split_ifs
    · exact atLeast_pure _
    · exact atLeast_failure 0
  cases type with
  | configuration =>
      exact hbody fun _ => atLeast_size.bind_zero fun _ => (atLeast_items _ _).bind_zero fun _ =>
        atLeast_pure _
  | loadBalancing =>
      exact hbody fun _ => atLeast_short.bind_zero fun _ => atLeast_short.bind_zero fun _ =>
        atLeast_pure _
  | protection =>
      exact hbody fun _ => atLeast_long.bind_zero fun _ => atLeast_long.bind_zero fun _ =>
        atLeast_pure _
  | ip4Endpoint => exact hip .v4
  | ip4Multicast => exact hip .v4
  | ip6Endpoint => exact hip .v6
  | ip6Multicast => exact hip .v6
  | selective => exact hbody fun _ => (atLeast_clients _ _).bind_zero fun _ => atLeast_pure _
  | unknown =>
      refine hbody fun header => atLeast_size.bind_zero fun n => ?_
      split_ifs
      · exact atLeast_failure 0
      · exact (atLeast_bytes _).bind_zero fun _ => atLeast_pure _

theorem atLeast_option : AtLeast 4 option := by
  intro data o rest hrun
  obtain ⟨b, mid, hahead, hoption⟩ := run_bind_eq_some.mp hrun
  rw [run_ahead] at hahead
  rcases hb : data[2]? with - | b'
  · rw [hb] at hahead
    cases hahead
  · rw [hb] at hahead
    obtain ⟨rfl, rfl⟩ := Prod.mk.inj (Option.some.inj hahead)
    exact atLeast_optionAs _ _ _ _ hoption

/-! ### Options are read back -/

theorem ofByte_toByte (type : OptionType) : OptionType.ofByte type.toByte = type := by
  cases type <;> rfl

theorem protocol_ofByte_toByte (protocol : Protocol) :
    Protocol.ofByte protocol.toByte = protocol := by
  cases protocol <;> rfl

theorem reads_optionHeader (o : SdOption) :
    Reads optionHeader o.serializeHeader (o.length, o.body.type) := by
  refine (reads_short _).bind ((reads_byte _).bind ((reads_byte _).check ?_))
  rw [ofByte_toByte]
  exact reads_pure _

/-- An item whose key has no separator is split where it was joined. -/
theorem splitItem_join {i : Item} (h : equalSign ∉ i.1) :
    splitItem (i.1 ++ equalSign :: i.2) = i := by
  have hkey : ∀ b ∈ i.1, decide (b ≠ equalSign) = true :=
    fun b hb => decide_eq_true fun heq => h (heq ▸ hb)
  unfold splitItem
  rw [takeWhile_append_of_pos hkey, dropWhile_append_of_pos hkey]
  simp

/-- What is behind all elements of an ordered set goes to its end. -/
theorem insert_eq_append {α : Type} {lt : α → α → Bool} {S : List α} {x : α}
    (h : ∀ y ∈ S, lt y x = true ∧ lt x y = false) : OrderedSet.insert lt S x = S ++ [x] :=
  OrderedSet.insert_of_gap ⟨(append_nil S).symm, fun y hy => (h y hy).2,
    fun _ hn => (nomatch hn), fun p hp => (h p (mem_of_getLast? hp)).1⟩

theorem keyLt_asymm {i j : Item} (h : keyLt i j = true) : keyLt j i = false := by
  unfold keyLt at *
  rw [decide_eq_true_iff] at h
  exact decide_eq_false (List.lt_asymm h)

theorem clientLt_asymm {c d : UInt16} (h : clientLt c d = true) : clientLt d c = false := by
  unfold clientLt at *
  rw [decide_eq_true_iff] at h
  exact decide_eq_false (UInt16.lt_asymm h)

/-- A choice between two decoders by whether bytes are left. -/
theorem reads_size_ne_zero {α : Type} {d d' : Decoder α} {bs : List UInt8} {a : α} (hne : bs ≠ [])
    (h : Reads d bs a) : Reads (do if (← size) = 0 then d' else d) bs a := by
  intro rest
  have hlength : (bs ++ rest).length ≠ 0 := by
    rw [length_append]
    have := length_pos_iff.mpr hne
    omega
  have hrun : (do if (← size) = 0 then d' else d : Decoder α).run (bs ++ rest) =
      (if (bs ++ rest).length = 0 then d' else d).run (bs ++ rest) := rfl
  rw [hrun, if_neg hlength, h]

/-- Items in the order of their keys are read into the map that they were written from. -/
theorem reads_items (is : List Item) : ∀ {acc : List Item} {fuel : ℕ},
    (∀ i ∈ is, 1 + i.1.length + i.2.length < 256 ∧ equalSign ∉ i.1) →
      (acc ++ is).Pairwise (fun i j => keyLt i j = true) → is.length < fuel →
        Reads (items fuel acc) (is.flatMap serializeItem ++ [0]) (acc ++ is) := by
  induction is with
  | nil =>
      rintro acc (- | fuel) - - hfuel
      · cases hfuel
      · rw [List.append_nil]
        exact (reads_byte 0).check (reads_pure _)
  | cons i is ih =>
      rintro acc (- | fuel) hfits hsorted hfuel
      · cases hfuel
      obtain ⟨hlength, hkey⟩ := hfits i List.mem_cons_self
      have hlt : ∀ j ∈ acc, keyLt j i = true := fun j hj =>
        (List.pairwise_append.mp hsorted).2.2 j hj i List.mem_cons_self
      have hbyte : (UInt8.ofNat (1 + i.1.length + i.2.length)).toNat =
          (i.1 ++ equalSign :: i.2).length := by
        rw [UInt8.toNat_ofNat_of_lt' hlength, List.length_append, List.length_cons]
        omega
      have hne : UInt8.ofNat (1 + i.1.length + i.2.length) ≠ 0 := by
        intro h0
        rw [h0, List.length_append, List.length_cons] at hbyte
        exact absurd hbyte (by simp)
      have hdup : ¬ (acc.any fun j => j.1 = (splitItem (i.1 ++ equalSign :: i.2)).1) = true := by
        rw [splitItem_join hkey, List.any_eq_true]
        rintro ⟨j, hj, heq⟩
        have hji := hlt j hj
        rw [keyLt, of_decide_eq_true heq, decide_eq_true_iff] at hji
        exact List.lt_irrefl _ hji
      have hinsert : OrderedSet.insert keyLt acc (splitItem (i.1 ++ equalSign :: i.2)) =
          acc ++ [i] := by
        rw [splitItem_join hkey]
        exact insert_eq_append fun j hj => ⟨hlt j hj, keyLt_asymm (hlt j hj)⟩
      have hrest : Reads (items fuel (acc ++ [i])) (is.flatMap serializeItem ++ [0])
          (acc ++ i :: is) := by
        have := @ih (acc ++ [i]) fuel (fun j hj => hfits j (List.mem_cons_of_mem _ hj))
          (by rwa [List.append_assoc]) (Nat.lt_of_succ_lt_succ hfuel)
        rwa [List.append_assoc] at this
      have hbytes : (i :: is).flatMap serializeItem ++ [0] =
          serialize8 (UInt8.ofNat (1 + i.1.length + i.2.length)) ++
            ((i.1 ++ equalSign :: i.2) ++ (is.flatMap serializeItem ++ [0])) := by
        rw [serialize8_eq, List.flatMap_cons, serializeItem, List.append_assoc]
        rfl
      rw [hbytes]
      refine (reads_byte _).bind ?_
      rw [if_neg hne, hbyte]
      refine (reads_bytes _).bind ?_
      rw [if_neg hdup, hinsert]
      exact reads_size_ne_zero (by simp) hrest

theorem reads_clients (cs : List UInt16) : ∀ {acc : List UInt16},
    (acc ++ cs).Pairwise (fun c d => clientLt c d = true) →
      Reads (clients cs.length acc) (cs.flatMap serialize16) (acc ++ cs) := by
  induction cs with
  | nil =>
      intro acc _
      rw [append_nil]
      exact reads_pure _
  | cons c cs ih =>
      intro acc hsorted
      have hlt : ∀ d ∈ acc, clientLt d c = true := fun d hd =>
        (pairwise_append.mp hsorted).2.2 d hd c mem_cons_self
      have hinsert : OrderedSet.insert clientLt acc c = acc ++ [c] :=
        insert_eq_append fun d hd => ⟨hlt d hd, clientLt_asymm (hlt d hd)⟩
      rw [flatMap_cons]
      refine (reads_short c).bind ?_
      rw [hinsert]
      have := @ih (acc ++ [c]) (by rwa [append_assoc])
      rwa [append_assoc] at this

/-- The bytes of an address option are read back. -/
theorem reads_ip {length : UInt16} {version : IpVersion} {multicast : Bool} {address : List UInt8}
    {protocol : Protocol} {port : UInt16}
    (h : SdOption.WellFormed ⟨length, .ip version multicast address protocol port⟩) :
    Reads (ip version) (SdOption.serialize ⟨length, .ip version multicast address protocol port⟩)
      ⟨length, .ip version multicast address protocol port⟩ := by
  obtain ⟨hlength, haddress⟩ := h
  refine (reads_optionHeader _).bind ?_
  have hbytes := (reads_bytes address).attempt
  rw [show address.length = version.addressSize from haddress] at hbytes
  refine hbytes.bind ((reads_byte _).attempt.bind ((reads_byte _).attempt.bind
    ((reads_short _).attempt.check ?_)))
  rw [if_pos (UInt16.toNat_inj.mp hlength)]
  have hmulticast : decide ((Body.ip version multicast address protocol port).type = .ip4Multicast ∨
      (Body.ip version multicast address protocol port).type = .ip6Multicast) = multicast := by
    cases version <;> cases multicast <;> rfl
  simp only [ipOption, hmulticast, Option.getD_some, protocol_ofByte_toByte]
  exact reads_pure _

/-- The items of a configuration are read back, whatever its length field is. -/
theorem reads_configuration (length : UInt16) {is : List Item} (h : (Body.configuration is).Fits) :
    Reads configuration (SdOption.serialize ⟨length, .configuration is⟩)
      ⟨length, .configuration is⟩ := by
  obtain ⟨hfits, hsorted⟩ := h
  refine (reads_optionHeader _).bind fun rest => ?_
  have hfuel : is.length < (is.flatMap serializeItem ++ [0] ++ rest).length + 1 := by
    have hle : is.length ≤ (is.flatMap serializeItem).length :=
      length_le_flatMap fun _ _ => cons_ne_nil _ _
    simp only [length_append]
    omega
  have hitems : Reads (do
      let items ← items ((is.flatMap serializeItem ++ [0] ++ rest).length + 1) []
      return (⟨length, .configuration items⟩ : SdOption))
      (is.flatMap serializeItem ++ [0]) ⟨length, .configuration is⟩ :=
    (@reads_items is [] _ hfits hsorted hfuel).check (reads_pure _)
  exact hitems rest

/-- The class of an option reads its bytes back. -/
theorem reads_optionAs {o : SdOption} (h : o.WellFormed) :
    Reads (optionAs o.body.type) o.serialize o := by
  obtain ⟨length, body⟩ := o
  cases body with
  | configuration is => exact reads_configuration length h.2
  | loadBalancing priority weight =>
      exact (reads_optionHeader _).bind ((reads_short _).bind ((reads_short _).check (reads_pure _)))
  | protection counter crc =>
      exact (reads_optionHeader _).bind ((reads_long _).bind ((reads_long _).check (reads_pure _)))
  | ip version multicast address protocol port =>
      have hip := reads_ip h
      cases version <;> cases multicast <;> exact hip
  | selective cs =>
      obtain ⟨hlength, hsorted⟩ := h
      refine (reads_optionHeader _).bind ?_
      have hcount : length.toNat / 2 = cs.length := by
        have : length.toNat = 1 + 2 * cs.length := hlength
        omega
      have hclients := @reads_clients cs [] hsorted
      rw [← hcount] at hclients
      exact hclients.check (reads_pure _)
  | unknown payload => exact absurd h.2 id

theorem length_serializeHeader (o : SdOption) : o.serializeHeader.length = 4 := by
  simp [SdOption.serializeHeader, serialize8, serialize16]

theorem length_serializeItem (i : Item) :
    (serializeItem i).length = i.1.length + i.2.length + 2 := by
  simp only [serializeItem, length_cons, length_append]
  omega

/-- The length of an option counts the reserved byte and what follows. -/
theorem length_serialize_option {o : SdOption} (h : o.WellFormed) :
    o.serialize.length = o.length.toNat + 3 := by
  obtain ⟨hlength, hfits⟩ := h
  rw [hlength, SdOption.serialize, length_append, length_serializeHeader]
  cases hbody : o.body with
  | configuration items =>
      simp only [Body.serialize, Body.length, length_append, length_flatMap,
        length_serializeItem, length_singleton]
      omega
  | loadBalancing => simp [Body.serialize, Body.length, serialize16]
  | protection => simp [Body.serialize, Body.length, serialize32]
  | ip version =>
      rw [hbody] at hfits
      cases version <;> simp_all [Body.serialize, Body.length, serialize8, serialize16, Body.Fits,
        IpVersion.addressSize, IpVersion.optionLength]
  | selective clients =>
      have hclients : (clients.flatMap serialize16).length = 2 * clients.length := by
        simp [length_flatMap, serialize16, Nat.mul_comm]
      rw [Body.serialize, Body.length, hclients]
      omega
  | unknown =>
      rw [hbody] at hfits
      exact absurd hfits id

/-- **Options are read back** from their bytes. -/
theorem reads_option {o : SdOption} (h : o.WellFormed) : Reads option o.serialize o := by
  intro rest
  have htype : (o.serialize ++ rest)[2]? = some o.body.type.toByte := by
    rw [SdOption.serialize, SdOption.serializeHeader, serialize8_eq]
    rfl
  have hahead : (ahead 2).run (o.serialize ++ rest) =
      some (o.body.type.toByte, o.serialize ++ rest) := by
    rw [run_ahead, htype]
    rfl
  refine run_bind_eq_some.mpr ⟨_, _, hahead, ?_⟩
  rw [ofByte_toByte]
  exact reads_optionAs h rest

end SomeipTunnel.Sd
