import Mathlib.Tactic.Ring
import Mathlib.Control.Monad.Basic

/-!
# Decoders of byte strings

A decoder takes a value from the front of a byte string and leaves the rest, or fails. `Reads d bytes
a` says that `d` reads `a` from `bytes` whatever stands behind them; it composes along the monad
(`Reads.bind`), so that a round trip is proved part by part.

* `word n`: a big-endian number of `n` bytes, `reads_word` with its encoder `toBytes`.
* `array n item`: items behind the number of their bytes, read by a loop that subtracts from the
  number what each item took; `reads_array` with its encoder `framed`.

`Parses bound d enc dec` is the other direction: what `d` takes of a byte string shorter than `bound`
is the encoding of something. `parses_array` has it for arrays, although the subtraction wraps.
-/

namespace Codec

open List

variable {α β : Type}

/-- A decoder takes a value from the front of a byte string. -/
abbrev Decoder := StateT (List UInt8) Option

/-- `d` reads `a` from `bytes`, whatever stands behind them. -/
def Reads (d : Decoder α) (bytes : List UInt8) (a : α) : Prop :=
  ∀ rest, d.run (bytes ++ rest) = some (a, rest)

theorem reads_pure (a : α) : Reads (pure a) [] a := fun _ => rfl

variable {d item : Decoder α} {f : α → Decoder β}

theorem Reads.bind {bytes bytes' : List UInt8} {a : α} {b : β} (h : Reads d bytes a)
    (h' : Reads (f a) bytes' b) : Reads (d >>= f) (bytes ++ bytes') b := by
  intro rest
  rw [StateT.run_bind, append_assoc, h]
  exact h' rest

/-- A last step that reads nothing. -/
theorem Reads.check {bytes : List UInt8} {a : α} {b : β} (h : Reads d bytes a)
    (h' : Reads (f a) [] b) : Reads (d >>= f) bytes b := by
  have := h.bind h'
  rwa [append_nil] at this

theorem Reads.map {bytes : List UInt8} {a : α} (h : Reads d bytes a) (f : α → β) :
    Reads (f <$> d) bytes (f a) := by
  intro rest
  rw [StateT.run_map, h]
  rfl

/-- What the decoder takes is the encoding of what it gives. -/
def Exact (d : Decoder α) (enc : α → List UInt8) : Prop :=
  ∀ data a rest, d.run data = some (a, rest) → data = enc a ++ rest

/-- Two decoders one behind the other give a value iff both do. -/
theorem run_bind_eq_some {data rest : List UInt8} {b : β} : (d >>= f).run data = some (b, rest) ↔
      ∃ a mid, d.run data = some (a, mid) ∧ (f a).run mid = some (b, rest) := by
  rw [StateT.run_bind]
  rcases d.run data with - | ⟨a, mid⟩
  · simp
  · simp

/-- The decoder takes `n` bytes, if there are as many. -/
def Takes (n : ℕ) (d : Decoder α) : Prop :=
  ∀ data, n ≤ data.length → ∃ a, d.run data = some (a, data.drop n)

theorem takes_pure (a : α) : Takes 0 (pure a : Decoder α) := fun _ _ => ⟨a, rfl⟩

variable {enc : β → List UInt8} {dec : β → α} {n : ℕ}

theorem Takes.bind {m : ℕ} (h : Takes n d) (hf : ∀ a, Takes m (f a)) : Takes (n + m) (d >>= f) := by
  intro data hlength
  obtain ⟨a, ha⟩ := h data (by omega)
  obtain ⟨b, hb⟩ := hf a (data.drop n) (by rw [length_drop]; omega)
  rw [drop_drop] at hb
  exact ⟨b, run_bind_eq_some.mpr ⟨a, _, ha, hb⟩⟩

/-- The decoder takes `n` bytes or more. -/
def AtLeast (n : ℕ) (d : Decoder α) : Prop :=
  ∀ data a rest, d.run data = some (a, rest) → rest.length + n ≤ data.length

theorem atLeast_pure (a : α) : AtLeast 0 (pure a : Decoder α) := by
  rintro data _ rest ⟨⟩
  exact Nat.le_refl _

theorem atLeast_get : AtLeast 0 (get : Decoder (List UInt8)) := by
  rintro data _ rest ⟨⟩
  exact Nat.le_refl _

theorem atLeast_failure (n : ℕ) : AtLeast n (failure : Decoder α) := fun _ _ _ h => nomatch h

theorem AtLeast.bind {m : ℕ} (h : AtLeast n d)
    (hf : ∀ a, AtLeast m (f a)) : AtLeast (n + m) (d >>= f) := by
  intro data b rest hrun
  obtain ⟨a, mid, ha, hb⟩ := run_bind_eq_some.mp hrun
  have h₁ := h data a mid ha
  have h₂ := hf a mid b rest hb
  omega

/-- What a decoder leaves that takes `n` bytes. -/
theorem Takes.rest_eq (h : Takes n d) (hn : AtLeast n d) {data rest : List UInt8} {a : α}
    (hrun : d.run data = some (a, rest)) : n ≤ data.length ∧ rest = data.drop n := by
  have hle : n ≤ data.length := (Nat.le_add_left _ _).trans (hn data a rest hrun)
  obtain ⟨a', ha'⟩ := h data hle
  rw [ha'] at hrun
  exact ⟨hle, (Prod.mk.inj (Option.some.inj hrun)).2.symm⟩

theorem AtLeast.mono {m : ℕ} (h : AtLeast n d) (hm : m ≤ n) : AtLeast m d :=
  fun data a rest hrun => (Nat.add_le_add_left hm _).trans (h data a rest hrun)

/-- Decoders one behind the other add nothing to the bytes. -/
theorem AtLeast.bind_zero (h : AtLeast n d) (hf : ∀ a, AtLeast 0 (f a)) : AtLeast 0 (d >>= f) :=
  (h.bind hf).mono (Nat.zero_le _)

theorem AtLeast.guard {q : Prop} [Decidable q] (h : AtLeast n d) :
    AtLeast n (if q then d else failure) := by
  split_ifs
  · exact h
  · exact atLeast_failure n

/-- Go on whether there is a value or not. -/
def attempt (d : Decoder α) : Decoder (Option α) := fun data =>
  match d.run data with
  | some (a, rest) => some (some a, rest)
  | none => some (none, data)

theorem run_attempt (d : Decoder α) (data : List UInt8) : (attempt d).run data =
    match d.run data with
    | some (a, rest) => some (some a, rest)
    | none => some (none, data) := rfl

theorem Reads.attempt {bytes : List UInt8} {a : α} (h : Reads d bytes a) :
    Reads (Codec.attempt d) bytes (some a) := fun rest => by rw [run_attempt, h]

theorem Takes.attempt (h : Takes n d) : Takes n (Codec.attempt d) := by
  intro data hn
  obtain ⟨a, ha⟩ := h data hn
  exact ⟨some a, by rw [run_attempt, ha]⟩

theorem AtLeast.attempt (h : AtLeast n d) : AtLeast 0 (Codec.attempt d) := by
  intro data a rest hrun
  rw [run_attempt] at hrun
  rcases hd : d.run data with - | ⟨b, rest'⟩
  · rw [hd] at hrun
    obtain ⟨-, rfl⟩ := Prod.mk.inj (Option.some.inj hrun)
    exact Nat.le_refl _
  · rw [hd] at hrun
    obtain ⟨-, rfl⟩ := Prod.mk.inj (Option.some.inj hrun)
    exact h.mono (Nat.zero_le n) data b rest' hd

/-- The byte at an index, without taking it. -/
def ahead (index : ℕ) : Decoder UInt8 := fun data => data[index]?.map (·, data)

theorem run_ahead (index : ℕ) (data : List UInt8) :
    (ahead index).run data = data[index]?.map (·, data) := rfl

/-! ### Words -/

/-- The lowest `n` bytes of a number, the highest first. -/
def toBytes : ℕ → ℕ → List UInt8
  | 0, _ => []
  | n + 1, v => UInt8.ofNat (v / 256 ^ n) :: toBytes n v

/-- The number whose bytes are given, the highest first. -/
def ofBytes : List UInt8 → ℕ
  | [] => 0
  | b :: bs => b.toNat * 256 ^ bs.length + ofBytes bs

@[simp] theorem length_toBytes (n v : ℕ) : (toBytes n v).length = n := by
  induction n with
  | zero => rfl
  | succ n ih => rw [toBytes, length_cons, ih]

theorem ofBytes_toBytes (n v : ℕ) : ofBytes (toBytes n v) = v % 256 ^ n := by
  induction n with
  | zero => rw [toBytes, ofBytes, pow_zero, Nat.mod_one]
  | succ n ih =>
      have hbyte : (UInt8.ofNat (v / 256 ^ n)).toNat = v / 256 ^ n % 256 := UInt8.toNat_ofNat'
      rw [toBytes, ofBytes, length_toBytes, ih, hbyte, pow_succ, Nat.mod_mul, mul_comm, add_comm]

theorem ofBytes_lt (bs : List UInt8) : ofBytes bs < 256 ^ bs.length := by
  induction bs with
  | nil => exact Nat.zero_lt_one
  | cons b bs ih =>
      have hb : b.toNat + 1 ≤ 256 := b.toNat_lt
      calc b.toNat * 256 ^ bs.length + ofBytes bs < (b.toNat + 1) * 256 ^ bs.length := by
            rw [Nat.succ_mul]
            exact Nat.add_lt_add_left ih _
        _ ≤ 256 * 256 ^ bs.length := Nat.mul_le_mul_right _ hb
        _ = 256 ^ (b :: bs).length := (Nat.pow_succ' ..).symm

theorem pow_256_pos (n : ℕ) : 0 < 256 ^ n := Nat.pow_pos (by decide)

/-- What lies above the lowest `n` bytes does not matter. -/
theorem toBytes_mul_add (n a v : ℕ) : toBytes n (a * 256 ^ n + v) = toBytes n v := by
  induction n generalizing a with
  | zero => rfl
  | succ n ih =>
      have hpow : a * 256 ^ (n + 1) = a * 256 * 256 ^ n := by
        rw [Nat.pow_succ', Nat.mul_assoc]
      have hdiv : (a * 256 * 256 ^ n + v) / 256 ^ n = a * 256 + v / 256 ^ n := by
        rw [Nat.add_comm, Nat.add_mul_div_right _ _ (pow_256_pos n), Nat.add_comm]
      have hbyte : UInt8.ofNat (a * 256 + v / 256 ^ n) = UInt8.ofNat (v / 256 ^ n) := by
        apply UInt8.toNat_inj.mp
        rw [UInt8.toNat_ofNat', UInt8.toNat_ofNat']
        exact Nat.mul_add_mod_self_right _ _ _
      rw [toBytes, toBytes, hpow, hdiv, hbyte, ih]

theorem toBytes_ofBytes (bs : List UInt8) : toBytes bs.length (ofBytes bs) = bs := by
  induction bs with
  | nil => rfl
  | cons b bs ih =>
      have hhead : (b.toNat * 256 ^ bs.length + ofBytes bs) / 256 ^ bs.length = b.toNat := by
        rw [Nat.add_comm, Nat.add_mul_div_right _ _ (pow_256_pos _),
          Nat.div_eq_of_lt (ofBytes_lt bs), Nat.zero_add]
      rw [length_cons, ofBytes, toBytes, hhead, toBytes_mul_add, ih, UInt8.ofNat_toNat]

/-- The next bytes. -/
def bytes (n : ℕ) : Decoder (List UInt8) := fun data =>
  if n ≤ data.length then some (data.take n, data.drop n) else none

/-- A big-endian number of `n` bytes. -/
def word (n : ℕ) : Decoder ℕ := ofBytes <$> bytes n

theorem run_bytes (n : ℕ) (data : List UInt8) : (bytes n).run data =
    if n ≤ data.length then some (data.take n, data.drop n) else none := rfl

theorem reads_bytes (bs : List UInt8) : Reads (bytes bs.length) bs bs := by
  intro rest
  rw [run_bytes, if_pos (by rw [length_append]; exact Nat.le_add_right _ _), take_left,
    drop_left]

theorem reads_word {v : ℕ} (h : v < 256 ^ n) : Reads (word n) (toBytes n v) v := by
  have hreads := (reads_bytes (toBytes n v)).map ofBytes
  rwa [ofBytes_toBytes, Nat.mod_eq_of_lt h, length_toBytes] at hreads

/-- What a number is read from, and what is left. -/
theorem run_word (n : ℕ) (data : List UInt8) : (word n).run data =
    if n ≤ data.length then some (ofBytes (data.take n), data.drop n) else none := by
  rw [word, StateT.run_map, run_bytes]
  split_ifs <;> rfl

theorem exact_word (n : ℕ) : Exact (word n) (toBytes n) := by
  intro data v rest h
  rw [run_word] at h
  split_ifs at h with hn
  obtain ⟨rfl, rfl⟩ := Prod.mk.inj (Option.some.inj h)
  have hbytes := toBytes_ofBytes (data.take n)
  rw [length_take_of_le hn] at hbytes
  rw [hbytes, take_append_drop]

theorem atLeast_bytes (n : ℕ) : AtLeast n (bytes n) := by
  intro data a rest h
  rw [run_bytes] at h
  split_ifs at h with hn
  obtain ⟨-, rfl⟩ := Prod.mk.inj (Option.some.inj h)
  rw [length_drop]
  omega

theorem atLeast_word (n : ℕ) : AtLeast n (word n) := by
  have h := (atLeast_bytes n).bind fun bs => atLeast_pure (ofBytes bs)
  have heq : (bytes n >>= fun bs => pure (ofBytes bs)) = word n := bind_pure_comp ofBytes (bytes n)
  rwa [heq] at h

theorem takes_bytes (n : ℕ) : Takes n (bytes n) := fun data h => ⟨_, by rw [run_bytes, if_pos h]⟩

theorem takes_word (n : ℕ) : Takes n (word n) := fun data h => ⟨_, by rw [run_word, if_pos h]⟩

theorem lt_of_run_word {v : ℕ} {data rest : List UInt8} (h : (word n).run data = some (v, rest)) :
    v < 256 ^ n := by
  rw [run_word] at h
  split_ifs at h with hn
  obtain ⟨rfl, -⟩ := Prod.mk.inj (Option.some.inj h)
  have hlt := ofBytes_lt (data.take n)
  rwa [length_take_of_le hn] at hlt

/-- A number type of `n` bytes, by its conversion from `ℕ`. -/
def scalar (n : ℕ) (f : ℕ → α) : Decoder α := do return f (← word n)

section scalar

variable {n : ℕ} {f : ℕ → α} {g : α → ℕ}

theorem reads_scalar {x : α} (hlt : g x < 256 ^ n) (hfg : f (g x) = x) :
    Reads (scalar n f) (toBytes n (g x)) x := by
  refine (reads_word hlt).check ?_
  rw [hfg]
  exact reads_pure x

theorem atLeast_scalar : AtLeast n (scalar n f) := (atLeast_word n).bind fun _ => atLeast_pure _

theorem takes_scalar : Takes n (scalar n f) := (takes_word n).bind fun _ => takes_pure _

theorem exact_scalar (hgf : ∀ v < 256 ^ n, g (f v) = v) :
    Exact (scalar n f) fun x => toBytes n (g x) := by
  intro data x rest h
  obtain ⟨v, mid, hv, hpure⟩ := run_bind_eq_some.mp h
  obtain ⟨rfl, rfl⟩ := Prod.mk.inj (Option.some.inj hpure)
  dsimp only
  rw [hgf v (lt_of_run_word hv)]
  exact exact_word n data v mid hv

end scalar

/-! ### Items up to the end -/

/-- Items as long as there are bytes. The number bounds the items. -/
def many (item : Decoder α) : ℕ → Decoder (List α)
  | 0 => failure
  | fuel + 1 => do
      if (← (do return (← get).length : Decoder ℕ)) = 0 then return []
      else
        let a ← item
        let as ← many item fuel
        return a :: as

/-- Items are read one by one, up to the end. -/
theorem run_many (bs : List β) :
    ∀ {fuel : ℕ}, (∀ b ∈ bs, Reads item (enc b) (dec b) ∧ enc b ≠ []) → bs.length < fuel →
      (many item fuel).run (bs.flatMap enc) = some (bs.map dec, []) := by
  induction bs with
  | nil =>
      rintro (_ | fuel) - hfuel
      · cases hfuel
      · rfl
  | cons b bs ih =>
      rintro (_ | fuel) hitems hfuel
      · cases hfuel
      obtain ⟨hitem, hne⟩ := hitems b mem_cons_self
      have hrest := @ih fuel (fun c hc => hitems c (mem_cons_of_mem _ hc))
        (Nat.lt_of_succ_lt_succ hfuel)
      have hlength : ((b :: bs).flatMap enc).length ≠ 0 := by
        have hpos := length_pos_iff.mpr hne
        rw [flatMap_cons, length_append]
        omega
      refine run_bind_eq_some.mpr ⟨_, _, rfl, ?_⟩
      rw [if_neg hlength, flatMap_cons]
      exact run_bind_eq_some.mpr ⟨_, _, hitem _, run_bind_eq_some.mpr ⟨_, _, hrest, rfl⟩⟩

/-- Items up to the end leave nothing. -/
theorem rest_of_run_many {fuel : ℕ} : ∀ {data rest : List UInt8} {as : List α},
    (many item fuel).run data = some (as, rest) → rest = [] := by
  induction fuel with
  | zero => exact fun h => nomatch h
  | succ fuel ih =>
      intro data rest as h
      obtain ⟨n, mid, hsize, h⟩ := run_bind_eq_some.mp h
      obtain ⟨rfl, rfl⟩ := Prod.mk.inj (Option.some.inj hsize)
      split_ifs at h with h0
      · obtain ⟨-, rfl⟩ := Prod.mk.inj (Option.some.inj h)
        exact eq_nil_of_length_eq_zero h0
      · obtain ⟨a, mid', -, h⟩ := run_bind_eq_some.mp h
        obtain ⟨as', mid'', hmany, h⟩ := run_bind_eq_some.mp h
        obtain ⟨-, rfl⟩ := Prod.mk.inj (Option.some.inj h)
        exact ih hmany

/-- Where the items of a byte string start, the last of them maybe one that is not read. The number
bounds the items. -/
def starts (item : Decoder α) : ℕ → List UInt8 → List (List UInt8)
  | 0, _ => []
  | fuel + 1, data =>
      if data = [] then []
      else
        data :: match item.run data with
          | none => []
          | some (_, rest) => starts item fuel rest

/-- The items of a byte string in front of the first that is not read. The number bounds the
items. -/
def gather (item : Decoder α) : ℕ → List UInt8 → List α
  | 0, _ => []
  | fuel + 1, data =>
      if data = [] then []
      else
        match item.run data with
        | none => []
        | some (a, rest) => a :: gather item fuel rest

/-- Items that are all read are gathered, and start in front of one another. -/
theorem gather_flatMap (bs : List β) :
    ∀ {fuel : ℕ}, (∀ b ∈ bs, Reads item (enc b) (dec b) ∧ enc b ≠ []) → bs.length < fuel →
      gather item fuel (bs.flatMap enc) = bs.map dec ∧
        ∀ rest ∈ starts item fuel (bs.flatMap enc), ∃ b ∈ bs, (enc b).length ≤ rest.length := by
  induction bs with
  | nil =>
      rintro (_ | fuel) - hfuel
      · cases hfuel
      · exact ⟨rfl, fun _ h => nomatch h⟩
  | cons b bs ih =>
      rintro (_ | fuel) hitems hfuel
      · cases hfuel
      obtain ⟨hitem, hne⟩ := hitems b mem_cons_self
      obtain ⟨hgather, hstarts⟩ := @ih fuel (fun c hc => hitems c (mem_cons_of_mem _ hc))
        (Nat.lt_of_succ_lt_succ hfuel)
      have hnil : ¬ (enc b ++ bs.flatMap enc = []) := fun h => hne (append_eq_nil_iff.mp h).1
      rw [flatMap_cons, gather, starts, if_neg hnil, if_neg hnil, hitem, map_cons]
      refine ⟨congrArg _ hgather, forall_mem_cons.mpr ⟨⟨b, mem_cons_self, ?_⟩, ?_⟩⟩
      · rw [length_append]
        exact Nat.le_add_right _ _
      · intro rest hrest
        obtain ⟨c, hc, hle⟩ := hstarts rest hrest
        exact ⟨c, mem_cons_of_mem _ hc, hle⟩

/-! ### Arrays -/

/-- Read items until the length is used up; the length is a number below `bound` that wraps. The
first argument bounds the number of items. -/
def loop (bound : ℕ) (item : Decoder α) : ℕ → ℕ → Decoder (List α)
  | 0, _ => fun _ => none
  | _ + 1, 0 => pure []
  | fuel + 1, length + 1 => do
      let before ← get
      let a ← item
      let rest ← get
      let as ← loop bound item fuel ((length + 1 + bound - (before.length - rest.length)) % bound)
      return a :: as

/-- Items behind the number of their bytes, which has `n` bytes itself. An item takes a byte at
least, so that there are no more items than bytes. -/
def array (n : ℕ) (item : Decoder α) : Decoder (List α) := do
  let length ← word n
  let data ← get
  loop (256 ^ n) item (data.length + 1) length

theorem atLeast_loop {bound : ℕ} (h : AtLeast 0 item) :
    ∀ fuel length : ℕ, AtLeast 0 (loop bound item fuel length) := by
  intro fuel
  induction fuel with
  | zero => exact fun _ => atLeast_failure 0
  | succ fuel ih =>
      rintro (_ | length)
      · exact atLeast_pure []
      · exact atLeast_get.bind_zero fun _ => h.bind_zero fun a => atLeast_get.bind_zero fun _ =>
          (ih _).bind_zero fun as => atLeast_pure (a :: as)

/-- An array has its length at least. -/
theorem atLeast_array (n : ℕ) (h : AtLeast 0 item) : AtLeast n (array n item) := by
  exact (atLeast_word n).bind fun length => atLeast_get.bind_zero fun _ => atLeast_loop h _ length

/-- What is left of the length behind an item of `k` bytes. -/
theorem length_left {bound k : ℕ} (h : k + n < bound) : (k + n + bound - k) % bound = n := by
  have : k + n + bound - k = n + bound := by omega
  rw [this, Nat.add_mod_right, Nat.mod_eq_of_lt (by omega)]

theorem reads_loop {bound : ℕ}
    (bs : List β) : ∀ {fuel : ℕ}, (∀ b ∈ bs, Reads item (enc b) (dec b) ∧ enc b ≠ []) →
      (bs.flatMap enc).length < bound → bs.length < fuel →
        Reads (loop bound item fuel (bs.flatMap enc).length) (bs.flatMap enc) (bs.map dec) := by
  induction bs with
  | nil =>
      rintro (_ | fuel) - - hfuel
      · cases hfuel
      · exact reads_pure []
  | cons b bs ih =>
      rintro (_ | fuel) hitems hbound hfuel
      · cases hfuel
      obtain ⟨hitem, hne⟩ := hitems b mem_cons_self
      have hpos : 0 < (enc b).length := length_pos_iff.mpr hne
      rw [flatMap_cons, length_append] at hbound ⊢
      have hrest := @ih fuel (fun c hc => hitems c (mem_cons_of_mem _ hc)) (by omega)
        (Nat.lt_of_succ_lt_succ hfuel)
      obtain ⟨length, hlength⟩ : ∃ length, (enc b).length + (bs.flatMap enc).length = length + 1 :=
        ⟨_, (Nat.succ_pred_eq_of_pos (by omega)).symm⟩
      have hleft := length_left hbound
      intro rest
      rw [hlength] at hleft ⊢
      -- the length that is left is that of the other items
      have htook : (enc b ++ (bs.flatMap enc ++ rest)).length - (bs.flatMap enc ++ rest).length =
          (enc b).length := by
        rw [length_append, Nat.add_sub_cancel]
      simp only [loop, append_assoc, StateT.run_bind, StateT.run_get, Option.pure_def,
        Option.bind_eq_bind, Option.bind_some, hitem _, htook, hleft, hrest _, StateT.run_pure]
      rfl

theorem length_le_flatMap {bs : List β} (h : ∀ b ∈ bs, enc b ≠ []) :
    bs.length ≤ (bs.flatMap enc).length := by
  induction bs with
  | nil => exact Nat.zero_le _
  | cons b bs ih =>
      have hpos := length_pos_iff.mpr (h b mem_cons_self)
      have hbs := ih fun c hc => h c (mem_cons_of_mem _ hc)
      rw [flatMap_cons, length_append, length_cons]
      omega

theorem length_le_of_mem_flatMap (enc : β → List UInt8) {bs : List β} {b : β} (h : b ∈ bs) :
    (enc b).length ≤ (bs.flatMap enc).length := by
  rw [flatMap_def]
  exact (sublist_flatten_of_mem (mem_map_of_mem h)).length_le

/-- Bytes behind their number, which has `n` bytes itself. -/
def framed (n : ℕ) (data : List UInt8) : List UInt8 := toBytes n data.length ++ data

@[simp] theorem length_framed (n : ℕ) (data : List UInt8) :
    (framed n data).length = n + data.length := by
  rw [framed, length_append, length_toBytes]

/-- **An array is read item by item**, if its length fits the number in front of it. -/
theorem reads_array {bs : List β} (hitems : ∀ b ∈ bs, Reads item (enc b) (dec b) ∧ enc b ≠ [])
    (hbound : (bs.flatMap enc).length < 256 ^ n) :
    Reads (array n item) (framed n (bs.flatMap enc)) (bs.map dec) := by
  refine (reads_word hbound).bind fun rest => ?_
  have hfuel : bs.length < (bs.flatMap enc ++ rest).length + 1 := by
    have := length_le_flatMap fun b hb => (hitems b hb).2
    rw [length_append]
    omega
  exact reads_loop bs hitems hbound hfuel rest

/-- What the decoder takes of a byte string shorter than `bound` is an encoding, and it gives its
meaning. -/
def Parses (bound : ℕ) (d : Decoder α) (enc : β → List UInt8) (dec : β → α) : Prop :=
  ∀ data, data.length < bound → ∀ a rest, d.run data = some (a, rest) →
    ∃ b, data = enc b ++ rest ∧ a = dec b

/-- What the loop takes are whole items, and their bytes are as many as the length says: a length
that has wrapped is larger than all the bytes that are left. -/
theorem parses_loop {bound : ℕ}
    (hitem : Parses bound item enc dec) : ∀ {fuel length : ℕ} {data rest : List UInt8} {as : List α},
      data.length < bound → length < bound → (loop bound item fuel length).run data = some (as, rest) →
        ∃ bs : List β, data = bs.flatMap enc ++ rest ∧ (bs.flatMap enc).length = length ∧
          as = bs.map dec := by
  intro fuel
  induction fuel with
  | zero => exact fun _ _ h => nomatch h
  | succ fuel ih =>
      rintro (_ | length) data rest as hdata hlength h
      · obtain ⟨rfl, rfl⟩ := Prod.mk.inj (Option.some.inj h)
        exact ⟨[], rfl, rfl, rfl⟩
      · obtain ⟨before, data', hbefore, h⟩ := run_bind_eq_some.mp h
        obtain ⟨rfl, rfl⟩ := Prod.mk.inj (Option.some.inj hbefore)
        obtain ⟨a, mid, ha, h⟩ := run_bind_eq_some.mp h
        obtain ⟨after, mid', hafter, h⟩ := run_bind_eq_some.mp h
        obtain ⟨rfl, rfl⟩ := Prod.mk.inj (Option.some.inj hafter)
        obtain ⟨as', rest', has, h⟩ := run_bind_eq_some.mp h
        obtain ⟨rfl, rfl⟩ := Prod.mk.inj (Option.some.inj h)
        obtain ⟨b, rfl, rfl⟩ := hitem _ hdata a _ ha
        rw [length_append] at hdata
        obtain ⟨bs, rfl, hbs, rfl⟩ := ih (by omega) (Nat.mod_lt _ (by omega)) has
        refine ⟨b :: bs, by rw [flatMap_cons, append_assoc], ?_, rfl⟩
        rw [length_append] at hdata
        rw [length_append, Nat.add_sub_cancel] at hbs
        rw [flatMap_cons, length_append, hbs]
        by_cases hfits : (enc b).length ≤ length + 1
        · obtain ⟨left, hleft⟩ := Nat.exists_eq_add_of_le hfits
          rw [hleft, length_left (by omega)]
        · -- the length has wrapped, and is more than there is
          rw [Nat.mod_eq_of_lt (by omega)] at hbs
          omega

/-- **What an array takes is the number of the bytes of whole items, and these.** -/
theorem parses_array (hitem : Parses (256 ^ n) item enc dec) :
    Parses (256 ^ n) (array n item) (fun bs : List β => framed n (bs.flatMap enc))
      (fun bs => bs.map dec) := by
  intro data hdata as rest h
  obtain ⟨length, mid, hlength, hrest⟩ := run_bind_eq_some.mp h
  obtain ⟨data', mid', hget, hloop⟩ := run_bind_eq_some.mp hrest
  obtain ⟨rfl, rfl⟩ := Prod.mk.inj (Option.some.inj hget)
  obtain rfl := exact_word n data length _ hlength
  rw [length_append] at hdata
  obtain ⟨bs, rfl, hbs, rfl⟩ := parses_loop hitem (by omega) (lt_of_run_word hlength) hloop
  refine ⟨bs, ?_, rfl⟩
  dsimp only
  rw [framed, hbs, append_assoc]

end Codec
