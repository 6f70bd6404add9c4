import SomeipTunnel.Lib.Buffer
import SomeipTunnel.Lib.Codec

/-!
# Reading and writing a buffer at a running index

The way a message is copied between variables and a buffer with `memcpy(&buffer[index], …)`: the
index moves behind what was copied, and nothing but the code's own checks keeps it in the buffer. An
access outside is the failure `outside`; an error the code reports is another one.

`Writes w bs` says that `w` puts `bs` over as many bytes at the index, wherever they stand, and
`Reads p bs a` that `p` reads `a` from `bs`, wherever they stand. Both compose along the monad
(`Writes.then`, `Reads.bind`), so that sizes and round trips are proved part by part.
-/

namespace Indexed

open List

variable {ε α β : Type}

/-- Why reading or writing ends: an error of the code, an access outside the buffer, or a loop that
does not get on. -/
inductive Failure (ε : Type) where
  | error (e : ε)
  | outside
  | endless
deriving DecidableEq

/-- The bytes of a number in memory, the lowest first. -/
def little (n v : ℕ) : List UInt8 := (Codec.toBytes n v).reverse

/-- The number that bytes in memory are. -/
def ofLittle (bs : List UInt8) : ℕ := Codec.ofBytes bs.reverse

@[simp] theorem length_little (n v : ℕ) : (little n v).length = n := by
  rw [little, length_reverse, Codec.length_toBytes]

variable {buffer bs bs' : List UInt8} {P : α → ℕ → Prop} {enc : α → List UInt8} {l : List α}
  {c : Prop} {n index : ℕ} {a : α} {b : β}

theorem ofLittle_little {v : ℕ} (h : v < 256 ^ n) : ofLittle (little n v) = v := by
  rw [ofLittle, little, reverse_reverse, Codec.ofBytes_toBytes, Nat.mod_eq_of_lt h]

/-! ### Writing -/

/-- A step that writes into the buffer and moves the index. -/
abbrev Writer (ε : Type) := StateT (List UInt8 × ℕ) (Except (Failure ε))

/-- Copy bytes into the buffer. -/
def put (bs : List UInt8) : Writer ε Unit := fun (buffer, index) =>
  if index + bs.length ≤ buffer.length then
    .ok ((), Buffer.overwrite buffer index bs, index + bs.length)
  else .error .outside

/-- End with an error if the condition holds. -/
def failIf {m : Type → Type} [Monad m] [MonadExceptOf (Failure ε) m] (c : Prop) [Decidable c]
    (e : ε) : m Unit := if c then throw (.error e) else pure ()

/-- `w` puts `bs` over as many bytes at the index, whatever stands around them. -/
def Writes (w : Writer ε Unit) (bs : List UInt8) : Prop :=
  ∀ before old after, old.length = bs.length →
    w.run (before ++ (old ++ after), before.length) =
      .ok ((), before ++ (bs ++ after), before.length + bs.length)

theorem writes_pure : Writes (pure () : Writer ε Unit) [] := by
  intro before old after h
  rw [length_eq_zero_iff.mp h]
  rfl

theorem writes_put (bs : List UInt8) : Writes (put bs : Writer ε Unit) bs := by
  intro before old after h
  have hroom : before.length + bs.length ≤ (before ++ (old ++ after)).length := by
    rw [length_append, length_append]
    omega
  have hover : Buffer.overwrite (before ++ (old ++ after)) before.length bs =
      before ++ (bs ++ after) := by
    rw [Buffer.overwrite, take_left, ← h, ← length_append, ← append_assoc before old,
      drop_left, append_assoc]
  rw [StateT.run, put, if_pos hroom, hover]

variable {w : Writer ε Unit}

theorem Writes.then {w' : Writer ε Unit} (h : Writes w bs)
    (h' : Writes w' bs') : Writes (w >>= fun _ => w') (bs ++ bs') := by
  intro before old after hlength
  rw [length_append] at hlength
  have h₁ := h before (old.take bs.length) (old.drop bs.length ++ after)
    (length_take_of_le (by omega))
  have h₂ := h' (before ++ bs) (old.drop bs.length) after (by rw [length_drop]; omega)
  rw [← append_assoc (old.take _), take_append_drop] at h₁
  rw [length_append, append_assoc before, append_assoc before] at h₂
  rw [StateT.run_bind, h₁, append_assoc bs, length_append, ← Nat.add_assoc]
  exact h₂

theorem writes_failIf [Decidable c] (e : ε) (h : ¬ c) : Writes (failIf c e : Writer ε Unit) [] := by
  rw [failIf, if_neg h]
  exact writes_pure

theorem writes_forM {f : α → Writer ε Unit}
    (h : ∀ a ∈ l, Writes (f a) (enc a)) : Writes (l.forM f) (l.flatMap enc) := by
  induction l with
  | nil => exact writes_pure
  | cons a l ih =>
      rw [flatMap_cons]
      have htail := ih fun x hx => h x (mem_cons_of_mem _ hx)
      exact (h a mem_cons_self).then htail

/-- Writing fills a new buffer of the right size. -/
theorem Writes.run_fill (h : Writes w bs) (hlength : buffer.length = bs.length) :
    w.run (buffer, 0) = .ok ((), bs, bs.length) := by
  have hrun := h [] buffer [] hlength
  rwa [append_nil, append_nil, nil_append, nil_append, length_nil,
    Nat.zero_add] at hrun

/-- The bytes are put at any place that has room for them. -/
theorem Writes.run_of_le (h : Writes w bs) (hroom : index + bs.length ≤ buffer.length) :
    w.run (buffer, index) = .ok ((), Buffer.overwrite buffer index bs, index + bs.length) := by
  have hbefore : (buffer.take index).length = index := length_take_of_le (by omega)
  have hold : ((buffer.drop index).take bs.length).length = bs.length := by
    rw [length_take_of_le]
    rw [length_drop]
    omega
  have hrun := h (buffer.take index) ((buffer.drop index).take bs.length)
    ((buffer.drop index).drop bs.length) hold
  rw [take_append_drop, take_append_drop, hbefore, drop_drop] at hrun
  rw [hrun, Buffer.overwrite, append_assoc]

theorem Writes.run_bind (h : Writes w bs) (f : Unit → Writer ε Unit)
    (hroom : index + bs.length ≤ buffer.length) : (w >>= f).run (buffer, index) =
      (f ()).run (Buffer.overwrite buffer index bs, index + bs.length) := by
  rw [StateT.run_bind, h.run_of_le hroom]
  rfl

/-! ### Reading -/

/-- A step that reads from the buffer and moves the index. -/
abbrev Reader (ε : Type) := ReaderT (List UInt8) (StateT ℕ (Except (Failure ε)))

/-- Copy bytes out of the buffer. -/
def get (n : ℕ) : Reader ε (List UInt8) := fun buffer index =>
  if index + n ≤ buffer.length then .ok (Buffer.slice buffer index n, index + n)
  else .error .outside

/-- End with an error if there are no `n` bytes left. -/
def need (n : ℕ) (e : ε) : Reader ε Unit := fun buffer index =>
  if buffer.length < index + n then .error (.error e) else .ok ((), index)

/-- A number type of `n` bytes, by its conversion from `ℕ`. -/
def scalar (n : ℕ) (f : ℕ → α) : Reader ε α := do return f (ofLittle (← get n))

/-- Read a number of items. -/
def times (item : Reader ε α) : ℕ → Reader ε (List α)
  | 0 => pure []
  | n + 1 => do
      let a ← item
      return a :: (← times item n)

/-- Read items up to the end of the buffer, `fuel` at most. -/
def untilEnd (item : Reader ε α) : ℕ → Reader ε (List α)
  | 0 => throw .endless
  | fuel + 1 => fun buffer index =>
      if index < buffer.length then
        (item >>= fun a => List.cons a <$> untilEnd item fuel : Reader ε (List α)) buffer index
      else .ok ([], index)

/-- `p` reads `a` from `bs`, whatever stands around them. -/
def Reads (p : Reader ε α) (bs : List UInt8) (a : α) : Prop :=
  ∀ before after, (p.run (before ++ (bs ++ after))).run before.length =
    .ok (a, before.length + bs.length)

theorem reads_pure (a : α) : Reads (pure a : Reader ε α) [] a := fun _ _ => rfl

variable {p item : Reader ε α} {f : α → Reader ε β}

theorem run_bind_of_ok {i : ℕ} (h : (p.run buffer).run index = .ok (a, i)) (f : α → Reader ε β) :
    ((p >>= f).run buffer).run index = ((f a).run buffer).run i := by
  rw [ReaderT.run_bind, StateT.run_bind, h]
  rfl

theorem run_bind_of_error {e : Failure ε} (h : (p.run buffer).run index = .error e)
    (f : α → Reader ε β) : ((p >>= f).run buffer).run index = .error e := by
  rw [ReaderT.run_bind, StateT.run_bind, h]
  rfl

/-- What comes after `p` starts behind its bytes. -/
theorem Reads.run_bind (h : Reads p bs a) (f : α → Reader ε β) (before after : List UInt8) :
    ((p >>= f).run (before ++ (bs ++ after))).run before.length =
      ((f a).run (before ++ (bs ++ after))).run (before.length + bs.length) :=
  run_bind_of_ok (h before after) f

theorem Reads.run_next (h : Reads p bs a) (f : α → Reader ε β) (before after : List UInt8) :
    ((p >>= f).run (before ++ (bs ++ after))).run before.length =
      ((f a).run ((before ++ bs) ++ after)).run (before ++ bs).length := by
  rw [h.run_bind, append_assoc, length_append]

theorem Reads.bind (h : Reads p bs a) (h' : Reads (f a) bs' b) : Reads (p >>= f) (bs ++ bs') b := by
  intro before after
  have h₂ := h' (before ++ bs) after
  rw [length_append, append_assoc before] at h₂
  rw [append_assoc, h.run_bind, h₂, length_append, Nat.add_assoc]

/-- A last step that reads nothing. -/
theorem Reads.check (h : Reads p bs a) (h' : Reads (f a) [] b) : Reads (p >>= f) bs b := by
  have hbind := h.bind h'
  rwa [append_nil] at hbind

/-- `p` reads `a` from `bs`, which is the rest of the buffer. -/
def ReadsRest (p : Reader ε α) (bs : List UInt8) (a : α) : Prop :=
  ∀ before, (p.run (before ++ bs)).run before.length = .ok (a, before.length + bs.length)

theorem Reads.rest (h : Reads p bs a) : ReadsRest p bs a := by
  intro before
  have hrun := h before []
  rwa [append_nil] at hrun

theorem Reads.bindRest (h : Reads p bs a)
    (h' : ReadsRest (f a) bs' b) : ReadsRest (p >>= f) (bs ++ bs') b := by
  intro before
  have h₂ := h' (before ++ bs)
  rw [length_append, append_assoc] at h₂
  rw [h.run_bind, h₂, length_append, Nat.add_assoc]

/-- A last step that reads nothing. -/
theorem ReadsRest.check (h : ReadsRest p bs a)
    (h' : Reads (f a) [] b) : ReadsRest (p >>= f) bs b := by
  intro before
  have h₂ := h'.rest (before ++ bs)
  rw [append_nil, length_append, length_nil, Nat.add_zero] at h₂
  rw [ReaderT.run_bind, StateT.run_bind, h before]
  exact h₂

theorem reads_get (bs : List UInt8) : Reads (get bs.length : Reader ε _) bs bs := by
  intro before after
  have hroom : before.length + bs.length ≤ (before ++ (bs ++ after)).length := by
    rw [length_append, length_append]
    omega
  have hslice : Buffer.slice (before ++ (bs ++ after)) before.length bs.length = bs := by
    rw [Buffer.slice, drop_left, take_left]
  rw [ReaderT.run, StateT.run, get, if_pos hroom, hslice]

theorem reads_scalar_little {v : ℕ} (h : v < 256 ^ n) (f : ℕ → α) :
    Reads (scalar n f : Reader ε α) (little n v) (f v) := by
  have hget := reads_get (ε := ε) (little n v)
  rw [length_little] at hget
  refine hget.check ?_
  rw [ofLittle_little h]
  exact reads_pure _

theorem reads_scalar {f : ℕ → α} {g : α → ℕ} {x : α} (hlt : g x < 256 ^ n)
    (hfg : f (g x) = x) : Reads (scalar n f : Reader ε α) (little n (g x)) x := by
  have hreads := reads_scalar_little (ε := ε) hlt f
  rwa [hfg] at hreads

theorem reads_uint8 (x : UInt8) : Reads (scalar 1 UInt8.ofNat : Reader ε _)
    (little 1 x.toNat) x := reads_scalar x.toNat_lt UInt8.ofNat_toNat

theorem reads_uint16 (x : UInt16) : Reads (scalar 2 UInt16.ofNat : Reader ε _)
    (little 2 x.toNat) x := reads_scalar x.toNat_lt UInt16.ofNat_toNat

theorem reads_uint32 (x : UInt32) : Reads (scalar 4 UInt32.ofNat : Reader ε _)
    (little 4 x.toNat) x := reads_scalar x.toNat_lt UInt32.ofNat_toNat

/-- A size that fits is read back. -/
theorem reads_size (h : n < 2 ^ 32) : Reads (scalar 4 UInt32.ofNat : Reader ε _)
    (little 4 n) (UInt32.ofNat n) := reads_scalar_little h UInt32.ofNat

theorem reads_failIf [Decidable c] (e : ε) (h : ¬ c) :
    Reads (failIf c e : Reader ε Unit) [] () := by
  rw [failIf, if_neg h]
  exact reads_pure ()

theorem run_need_bind (h : index + n ≤ buffer.length) (e : ε) (f : Unit → Reader ε α) :
    ((need n e >>= f).run buffer).run index = ((f ()).run buffer).run index := by
  have hneed : ((need n e : Reader ε Unit).run buffer).run index = .ok ((), index) :=
    if_neg (Nat.not_lt.mpr h)
  rw [ReaderT.run_bind, StateT.run_bind, hneed]
  rfl

/-- A check for bytes that are read next. -/
theorem Reads.need (h : Reads p bs a) (e : ε)
    (hn : n ≤ bs.length) : Reads (Indexed.need n e >>= fun _ => p) bs a := by
  intro before after
  have hroom : before.length + n ≤ (before ++ (bs ++ after)).length := by
    rw [length_append, length_append]
    omega
  rw [run_need_bind hroom, h]

theorem reads_times_map {γ : Type*} {enc : γ → List UInt8} {f : γ → α} {l : List γ}
    (h : ∀ x ∈ l, Reads item (enc x) (f x)) :
    Reads (times item l.length) (l.flatMap enc) (l.map f) := by
  induction l with
  | nil => exact reads_pure []
  | cons a l ih =>
      rw [flatMap_cons]
      have htail := ih fun x hx => h x (mem_cons_of_mem _ hx)
      exact (h a mem_cons_self).bind (htail.check (reads_pure _))

theorem reads_times
    (h : ∀ a ∈ l, Reads item (enc a) a) : Reads (times item l.length) (l.flatMap enc) l := by
  have hmap := reads_times_map (f := id) h
  rwa [map_id] at hmap

theorem run_untilEnd_of_end (item : Reader ε α) (fuel : ℕ) (buffer : List UInt8) :
    ((untilEnd item (fuel + 1)).run buffer).run buffer.length = .ok ([], buffer.length) :=
  if_neg (Nat.lt_irrefl _)

theorem run_untilEnd_of_lt (item : Reader ε α) (fuel : ℕ)
    (h : index < buffer.length) : ((untilEnd item (fuel + 1)).run buffer).run index =
      ((item >>= fun a => List.cons a <$> untilEnd item fuel).run buffer).run index :=
  if_pos h

/-- The items up to the end of the buffer are read, if none of them is empty. -/
theorem run_untilEnd (h : ∀ a ∈ l, Reads item (enc a) a) (hpos : ∀ a ∈ l, 0 < (enc a).length)
    {fuel : ℕ} (hfuel : (l.flatMap enc).length < fuel) (before : List UInt8) :
    ((untilEnd item fuel).run (before ++ l.flatMap enc)).run before.length =
      .ok (l, before.length + (l.flatMap enc).length) := by
  obtain ⟨fuel, rfl⟩ := Nat.exists_eq_add_one_of_ne_zero (Nat.ne_zero_of_lt hfuel)
  induction l generalizing fuel before with
  | nil =>
      rw [flatMap_nil, append_nil]
      exact run_untilEnd_of_end item fuel before
  | cons a l ih =>
      have hlength := hpos a mem_cons_self
      rw [flatMap_cons, length_append] at hfuel
      have hmore : before.length < (before ++ (enc a ++ l.flatMap enc)).length := by
        rw [length_append, length_append]
        omega
      obtain ⟨fuel, rfl⟩ := Nat.exists_eq_add_one_of_ne_zero (n := fuel) (by omega)
      have hrest := ih (fun x hx => h x (mem_cons_of_mem _ hx))
        (fun x hx => hpos x (mem_cons_of_mem _ hx)) (before ++ enc a) fuel (by omega)
      rw [length_append, append_assoc] at hrest
      rw [flatMap_cons, run_untilEnd_of_lt _ _ hmore, (h a mem_cons_self).run_bind,
        ReaderT.run_map, StateT.run_map, hrest, length_append, ← Nat.add_assoc]
      rfl

/-! ### Any bytes -/

theorem little_ofLittle (bs : List UInt8) : little bs.length (ofLittle bs) = bs := by
  have h := Codec.toBytes_ofBytes bs.reverse
  rw [length_reverse] at h
  rw [little, ofLittle, h, reverse_reverse]

theorem little_one (x : UInt8) : little 1 x.toNat = [x] := by
  have h := little_ofLittle [x]
  rwa [show ofLittle [x] = x.toNat by simp [ofLittle, Codec.ofBytes]] at h

/-- As many bytes as a number has are the image of a number. -/
theorem exists_little_append (h : n ≤ bs.length) :
    ∃ v < 256 ^ n, ∃ rest, bs = little n v ++ rest := by
  have hlength : (bs.take n).length = n := length_take_of_le h
  have hlt := Codec.ofBytes_lt (bs.take n).reverse
  rw [length_reverse, hlength] at hlt
  have hlittle := little_ofLittle (bs.take n)
  rw [hlength] at hlittle
  exact ⟨ofLittle (bs.take n), hlt, bs.drop n, by rw [hlittle, take_append_drop]⟩

/-- A run that has stayed in the buffer and has come to an end: an error, or a value and an index
for which `P` holds. -/
def Stays (P : α → ℕ → Prop) : Except (Failure ε) (α × ℕ) → Prop
  | .ok (a, index) => P a index
  | .error (.error _) => True
  | .error _ => False

theorem Stays.mono {Q : α → ℕ → Prop} {out : Except (Failure ε) (α × ℕ)} (h : Stays P out)
    (hPQ : ∀ a i, P a i → Q a i) : Stays Q out := by
  rcases out with (e | _ | _) | ⟨a, i⟩
  · trivial
  · exact h
  · exact h
  · exact hPQ a i h

theorem Stays.bind {Q : β → ℕ → Prop} (h : Stays P ((p.run buffer).run index))
    (h' : ∀ a i, P a i → Stays Q (((f a).run buffer).run i)) :
    Stays Q (((p >>= f).run buffer).run index) := by
  rw [ReaderT.run_bind, StateT.run_bind]
  rcases hrun : (p.run buffer).run index with (e | _ | _) | ⟨a, i⟩ <;> rw [hrun] at h
  · trivial
  · exact h
  · exact h
  · exact h' a i h

/-- The same for a result without the index. -/
def Ends (P : α → Prop) : Except (Failure ε) α → Prop
  | .ok a => P a
  | .error (.error _) => True
  | .error _ => False

theorem Stays.ends {P : α → Prop} {out : Except (Failure ε) (α × ℕ)}
    (h : Stays (fun a _ => P a) out) : Ends P (Except.map Prod.fst out) := by
  rcases out with (e | _ | _) | ⟨a, i⟩ <;> exact h

theorem run_failIf_bind [Decidable c] (e : ε) (f : Unit → Reader ε α) (buffer : List UInt8)
    (index : ℕ) : ((failIf c e >>= f).run buffer).run index =
      if c then .error (.error e) else ((f ()).run buffer).run index := by
  unfold failIf
  split_ifs <;> rfl

/-- A first byte that is not the one that is expected. -/
theorem run_head_mismatch {x : UInt8} (hpos : 0 < buffer.length) (h : buffer.head? ≠ some x) (e : ε)
    (f : UInt8 → Unit → Reader ε α) :
    ((scalar 1 UInt8.ofNat >>= fun y => failIf (y ≠ x) e >>= f y).run buffer).run 0 =
      .error (.error e) := by
  obtain ⟨y, rest, rfl⟩ := exists_cons_of_length_pos hpos
  have hread := (reads_scalar_little (ε := ε) (n := 1) y.toNat_lt UInt8.ofNat).run_bind
    (fun y => failIf (y ≠ x) e >>= f y) [] rest
  rw [little_one, UInt8.ofNat_toNat, run_failIf_bind, if_pos (by simpa using h)] at hread
  exact hread

/-- `p` stays in the buffer, whatever stands there, and takes `n` bytes at least. -/
def Safe (n : ℕ) (p : Reader ε α) : Prop :=
  ∀ buffer index, index ≤ buffer.length →
    Stays (fun _ i => index + n ≤ i ∧ i ≤ buffer.length) ((p.run buffer).run index)

/-- `p` reads the `n` bytes that are there, without an error. -/
def Takes (n : ℕ) (p : Reader ε α) : Prop :=
  ∀ buffer index, index + n ≤ buffer.length → ∃ a, (p.run buffer).run index = .ok (a, index + n)

theorem takes_pure (a : α) : Takes 0 (pure a : Reader ε α) := fun _ _ _ => ⟨a, rfl⟩

theorem takes_scalar (n : ℕ) (f : ℕ → α) : Takes n (scalar n f : Reader ε α) := by
  intro buffer index h
  have hget : ((get n : Reader ε _).run buffer).run index =
      .ok (Buffer.slice buffer index n, index + n) := if_pos h
  refine ⟨f (ofLittle (Buffer.slice buffer index n)), ?_⟩
  rw [scalar, ReaderT.run_bind, StateT.run_bind, hget]
  rfl

theorem Takes.bind {m : ℕ} (h : Takes n p) (h' : ∀ a, Takes m (f a)) : Takes (n + m) (p >>= f) := by
  intro buffer index hroom
  obtain ⟨a, ha⟩ := h buffer index (by omega)
  obtain ⟨b, hb⟩ := h' a buffer (index + n) (by omega)
  refine ⟨b, ?_⟩
  rw [ReaderT.run_bind, StateT.run_bind, ha, ← Nat.add_assoc]
  exact hb

theorem Takes.times (h : Takes n item) (k : ℕ) : Takes (k * n) (times item k) := by
  induction k with
  | zero =>
      rw [Nat.zero_mul]
      exact takes_pure []
  | succ k ih =>
      rw [Nat.succ_mul, Nat.add_comm]
      exact h.bind fun a => ih.bind fun l => takes_pure (a :: l)

/-- A number of items that stay in the buffer. -/
theorem Safe.times (h : Safe n item) (k : ℕ) (hindex : index ≤ buffer.length) :
    Stays (fun _ _ => True) (((times item k).run buffer).run index) := by
  induction k generalizing index with
  | zero => trivial
  | succ k ih =>
      refine (h buffer index hindex).bind fun a i hi => ?_
      exact (ih hi.2).bind fun l i' _ => trivial

theorem Takes.stays_bind (h : Takes n p) {P : β → ℕ → Prop} (hroom : index + n ≤ buffer.length)
    (hf : ∀ a, Stays P (((f a).run buffer).run (index + n))) :
    Stays P (((p >>= f).run buffer).run index) := by
  obtain ⟨a, ha⟩ := h buffer index hroom
  rw [run_bind_of_ok ha]
  exact hf a

theorem stays_need_bind {e : ε} {f : Unit → Reader ε α}
    (hf : index + n ≤ buffer.length → Stays P (((f ()).run buffer).run index)) :
    Stays P (((need n e >>= f).run buffer).run index) := by
  by_cases hroom : index + n ≤ buffer.length
  · rw [run_need_bind hroom]
    exact hf hroom
  · have hneed : ((need n e : Reader ε Unit).run buffer).run index = .error (.error e) :=
      if_pos (Nat.not_le.mp hroom)
    rw [run_bind_of_error hneed]
    trivial

theorem stays_failIf_bind [Decidable c] {e : ε} {f : Unit → Reader ε α}
    (hf : ¬ c → Stays P (((f ()).run buffer).run index)) :
    Stays P (((failIf c e >>= f).run buffer).run index) := by
  rw [run_failIf_bind]
  split_ifs with hc
  · trivial
  · exact hf hc

/-- A loop to the end of the buffer ends there, if every round moves on. -/
theorem Safe.untilEnd (h : Safe n item) (hn : 0 < n) {fuel : ℕ}
    (hfuel : buffer.length - index < fuel) (hindex : index ≤ buffer.length) :
    Stays (fun _ i => i = buffer.length) (((untilEnd item fuel).run buffer).run index) := by
  induction fuel generalizing index with
  | zero => exact absurd hfuel (Nat.not_lt_zero _)
  | succ fuel ih =>
      rcases Nat.eq_or_lt_of_le hindex with rfl | hlt
      · rw [run_untilEnd_of_end]
        rfl
      · rw [run_untilEnd_of_lt item fuel hlt]
        refine (h buffer index hindex).bind fun a i hi => ?_
        have hless : buffer.length - i < fuel := by
          omega
        rw [← bind_pure_comp]
        exact (ih hless hi.2).bind fun l i' hi' => hi'

end Indexed
