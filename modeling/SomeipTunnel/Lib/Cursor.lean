import SomeipTunnel.Lib.Codec

/-!
# Cursors over byte strings

A cursor reads a byte string in place: it has a position and counts the bytes that remain in front of
the end of the part at hand, which need not be the end of the string. A parser moves a cursor and
gives a value, gives none, or has a fault: it reads outside the string, or does not end.

`Follows p d` says that the parser `p` does on a cursor what the decoder `d` does on the bytes that
remain: it gives the same value and leaves the bytes that `d` leaves, without a fault and without a
read behind the remaining bytes (`strayed`). It composes along the monad (`Follows.bind`), and with
`attempt` where a failure is not the end (`Follows.recover`). A statement about cursors is then
proved about byte strings.
-/

open Codec

/-- A byte string, a position in it, and how many bytes remain in the part at hand. -/
structure Cursor where
  data : List UInt8
  position : ℕ
  remaining : ℕ
  /-- A byte that does not remain was read. -/
  strayed : Bool
deriving DecidableEq, Repr

namespace Cursor

open List

variable {α β : Type}

/-- Faults of a parser. -/
inductive Fault
  | outside
  | endless
deriving DecidableEq, Repr

/-- The cursor at the start of a byte string. -/
def start (data : List UInt8) : Cursor := ⟨data, 0, data.length, false⟩

/-- The bytes that remain. -/
def view (c : Cursor) : List UInt8 := (c.data.drop c.position).take c.remaining

/-- The bytes that remain are there. -/
def Sound (c : Cursor) : Prop := c.position + c.remaining ≤ c.data.length

/-- The cursor in front of the last `n` of the bytes that remain. -/
def leaving (c : Cursor) (n : ℕ) : Cursor :=
  { c with position := c.position + (c.remaining - n), remaining := n }

variable {c : Cursor} {n m : ℕ}

theorem sound_start (data : List UInt8) : (start data).Sound := Nat.le_of_eq (Nat.zero_add _)

@[simp] theorem view_start (data : List UInt8) : (start data).view = data := take_length

theorem Sound.length_view (h : c.Sound) : c.view.length = c.remaining := by
  rw [view, length_take, length_drop]
  exact Nat.min_eq_left (Nat.le_sub_of_add_le' h)

theorem Sound.leaving (h : c.Sound) (hn : n ≤ c.remaining) : (c.leaving n).Sound := by
  have hend : c.position + (c.remaining - n) + n = c.position + c.remaining := by omega
  exact hend.trans_le h

@[simp] theorem remaining_leaving : (c.leaving n).remaining = n := rfl

@[simp] theorem leaving_remaining : c.leaving c.remaining = c := by
  rw [leaving, Nat.sub_self, Nat.add_zero]

theorem leaving_leaving (hm : m ≤ n) (hn : n ≤ c.remaining) :
    (c.leaving n).leaving m = c.leaving m := by
  simp only [leaving, mk.injEq, true_and, and_true]
  omega

theorem view_leaving (hn : n ≤ c.remaining) : (c.leaving n).view = c.view.drop (c.remaining - n) := by
  have hkeep : c.remaining - (c.remaining - n) = n := Nat.sub_sub_self hn
  rw [view, view, drop_take, drop_drop, hkeep]
  rfl

/-- The cursor with another number of bytes that remain. -/
def limit (c : Cursor) (n : ℕ) : Cursor := { c with remaining := n }

@[simp] theorem remaining_limit : (c.limit n).remaining = n := rfl

@[simp] theorem strayed_limit : (c.limit n).strayed = c.strayed := rfl

@[simp] theorem strayed_leaving : (c.leaving n).strayed = c.strayed := rfl

@[simp] theorem limit_limit : (c.limit n).limit m = c.limit m := rfl

theorem Sound.limit (h : c.Sound) (hn : n ≤ c.remaining) : (c.limit n).Sound :=
  (Nat.add_le_add_left hn c.position).trans h

theorem view_limit (hn : n ≤ c.remaining) : (c.limit n).view = c.view.take n := by
  rw [view, view, take_take, Nat.min_eq_left hn]
  rfl

/-- Behind the end of a part. -/
theorem limit_leaving_zero (hn : n ≤ c.remaining) :
    ((c.limit n).leaving 0).limit m = (c.leaving (c.remaining - n)).limit m := by
  simp only [leaving, Cursor.limit, Nat.sub_zero, Nat.sub_sub_self hn]

/-! ### Parsers -/

/-- A parser moves a cursor and gives a value or none, or has a fault. -/
def Parse (α : Type) := Cursor → Except Fault (Option α × Cursor)

namespace Parse

instance : Monad Parse where
  pure a := fun c => .ok (some a, c)
  bind p f := fun c =>
    match p c with
    | .error e => .error e
    | .ok (none, c') => .ok (none, c')
    | .ok (some a, c') => f a c'

/-- No value. -/
def fail : Parse α := fun c => .ok (none, c)

/-- How many bytes remain. -/
def remaining : Parse ℕ := fun c => .ok (some c.remaining, c)

/-- Go on whether there is a value or not. -/
def attempt (p : Parse α) : Parse (Option α) := fun c =>
  match p c with
  | .error e => .error e
  | .ok (a, c') => .ok (some a, c')

/-- The byte `index` places behind the position, whether it remains or not. -/
def peek (index : ℕ) : Parse UInt8 := fun c =>
  match c.data[c.position + index]? with
  | none => .error .outside
  | some b => .ok (some b, { c with strayed := c.strayed || decide (c.remaining ≤ index) })

/-- The byte `index` places behind the position, if at least `index` bytes remain; one more is not
asked for. -/
def lookAhead (index : ℕ) : Parse UInt8 := fun c =>
  if index > c.remaining then fail c else peek index c

/-- Take the next bytes, whether they remain or not. -/
def take (n : ℕ) : Parse (List UInt8) := fun c =>
  if c.position + n ≤ c.data.length then
    .ok (some ((c.data.drop c.position).take n),
      { c with
        position := c.position + n, remaining := c.remaining - n,
        strayed := c.strayed || decide (c.remaining < n) })
  else .error .outside

/-- Take the next bytes, if as many remain. -/
def bytes (n : ℕ) : Parse (List UInt8) := fun c => if n > c.remaining then fail c else take n c

/-- A big-endian number of `n` bytes. -/
def word (n : ℕ) : Parse ℕ := do return ofBytes (← bytes n)

/-- A number type of `n` bytes, by its conversion from `ℕ`. -/
def scalar (n : ℕ) (f : ℕ → α) : Parse α := do return f (← word n)

/-- Parse items as long as bytes remain. The number bounds the items. -/
def many (item : Parse α) : ℕ → Parse (List α)
  | 0 => fun _ => .error .endless
  | fuel + 1 => do
      if (← remaining) = 0 then return []
      else
        let a ← item
        let as ← many item fuel
        return a :: as

/-- Parse items as long as bytes remain and there is one. The number bounds the items. -/
def collect (item : Parse α) : ℕ → Parse (List α)
  | 0 => fun _ => .error .endless
  | fuel + 1 => do
      if (← remaining) = 0 then return []
      else
        match ← attempt item with
        | none => return []
        | some a => do
            let as ← collect item fuel
            return a :: as

/-- Parse items until the length is used up; the length is a number below `bound` that wraps. The
first number bounds the items. -/
def countdown (bound : ℕ) (item : Parse α) : ℕ → ℕ → Parse (List α)
  | 0, _ => fun _ => .error .endless
  | _ + 1, 0 => pure []
  | fuel + 1, length + 1 => do
      let before ← remaining
      let a ← item
      let rest ← remaining
      let as ← countdown bound item fuel ((length + 1 + bound - (before - rest)) % bound)
      return a :: as

/-- Items behind the number of their bytes, which has `n` bytes itself. -/
def counted (n : ℕ) (item : Parse α) : Parse (List α) := do
  let length ← word n
  let size ← remaining
  countdown (256 ^ n) item (size + 1) length

/-- Set how many bytes remain. -/
def setRemaining (n : ℕ) : Parse Unit := fun c => .ok (some (), c.limit n)

/-! ### Parsers that follow decoders -/

/-- On the bytes that remain for the cursor the parser does what the decoder does. -/
def FollowsAt (p : Parse α) (d : Decoder α) (c : Cursor) : Prop :=
  ∃ n ≤ c.remaining, p c = .ok ((d.run c.view).map Prod.fst, c.leaving n) ∧
    ∀ a rest, d.run c.view = some (a, rest) → rest = (c.leaving n).view

/-- The parser does what the decoder does, for every cursor whose bytes are there. -/
def Follows (p : Parse α) (d : Decoder α) : Prop := ∀ c : Cursor, c.Sound → FollowsAt p d c

/-- The parser gives no value and has no fault. -/
def Fails (p : Parse α) : Prop :=
  ∀ c : Cursor, c.Sound → ∃ n ≤ c.remaining, p c = .ok (none, c.leaving n)

variable {d : Decoder α} {p item : Parse α} {f : α → Parse β} {g : α → Decoder β} {c c' : Cursor}

theorem bind_of_some {a : α} (h : p c = .ok (some a, c')) : (p >>= f) c = f a c' := by
  simp only [Bind.bind, h]

theorem bind_of_none (h : p c = .ok (none, c')) : (p >>= f) c = .ok (none, c') := by
  simp only [Bind.bind, h]

/-- A step behind a parser that only changes the value. -/
theorem exists_of_bind_pure {f : α → β} {r : Option β}
    (h : (p >>= fun a => pure (f a)) c = .ok (r, c')) : ∃ r', p c = .ok (r', c') ∧ r = r'.map f := by
  rcases hp : p c with e | ⟨- | a, c''⟩
  · simp only [Bind.bind, hp] at h
    cases h
  · rw [bind_of_none hp] at h
    cases h
    exact ⟨none, rfl, rfl⟩
  · rw [bind_of_some hp] at h
    cases h
    exact ⟨some a, rfl, rfl⟩

theorem attempt_of_ok {r : Option α} (h : p c = .ok (r, c')) : attempt p c = .ok (some r, c') := by
  rw [attempt, h]

theorem follows_pure (a : α) : Follows (pure a) (pure a) := fun c _ =>
  ⟨c.remaining, Nat.le_refl _, by rw [leaving_remaining]; rfl, by
    rintro _ _ ⟨⟩
    rw [leaving_remaining]⟩

theorem follows_fail : Follows (fail : Parse α) failure := fun c _ =>
  ⟨c.remaining, Nat.le_refl _, by rw [leaving_remaining]; rfl, fun _ _ h => nomatch h⟩

/-- The cursor that a parser leaves is determined by the bytes that the decoder leaves. -/
theorem FollowsAt.eq_ok {a : α} {rest : List UInt8} (h : FollowsAt p d c) (hc : c.Sound)
    (hd : d.run c.view = some (a, rest)) :
    p c = .ok (some a, c.leaving rest.length) ∧ rest.length ≤ c.remaining ∧
      (c.leaving rest.length).view = rest := by
  obtain ⟨n, hn, hrun, hrest⟩ := h
  have hview := hrest a rest hd
  have hlength : rest.length = n := by
    rw [hview, (hc.leaving hn).length_view, remaining_leaving]
  rw [hd] at hrun
  rw [hlength]
  exact ⟨hrun, hn, hview.symm⟩

/-- Without a value from the decoder there is none from the parser. -/
theorem FollowsAt.eq_none (h : FollowsAt p d c)
    (hd : d.run c.view = none) : ∃ n ≤ c.remaining, p c = .ok (none, c.leaving n) := by
  obtain ⟨n, hn, hrun, -⟩ := h
  rw [hd] at hrun
  exact ⟨n, hn, hrun⟩

/-- Two parsers one behind the other, the second from the bytes that the first leaves. -/
theorem FollowsAt.bind (hp : FollowsAt p d c) (hc : c.Sound)
    (hf : ∀ a rest, d.run c.view = some (a, rest) → FollowsAt (f a) (g a) (c.leaving rest.length)) :
    FollowsAt (p >>= f) (d >>= g) c := by
  rcases hd : d.run c.view with - | ⟨a, rest⟩
  · obtain ⟨n, hn, hrun⟩ := hp.eq_none hd
    refine ⟨n, hn, ?_, fun b rest h => ?_⟩
    · rw [bind_of_none hrun, StateT.run_bind, hd]
      rfl
    · rw [StateT.run_bind, hd] at h
      cases h
  · obtain ⟨hrun, hle, hview⟩ := hp.eq_ok hc hd
    obtain ⟨m, hm, hrun', hrest'⟩ := hf a rest hd
    rw [remaining_leaving] at hm
    rw [leaving_leaving hm hle, hview] at hrun' hrest'
    have hbind : (d >>= g).run c.view = (g a).run rest := by
      rw [StateT.run_bind, hd]
      rfl
    refine ⟨m, hm.trans hle, ?_, fun b rest' h => ?_⟩
    · rw [bind_of_some hrun, hbind]
      exact hrun'
    · rw [hbind] at h
      exact hrest' b rest' h

theorem FollowsAt.bind_follows (hp : FollowsAt p d c) (hc : c.Sound)
    (hf : ∀ a, Follows (f a) (g a)) : FollowsAt (p >>= f) (d >>= g) c :=
  hp.bind hc fun a _ hd => hf a _ (hc.leaving (hp.eq_ok hc hd).2.1)

theorem Follows.bind (hp : Follows p d)
    (hf : ∀ a, Follows (f a) (g a)) : Follows (p >>= f) (d >>= g) :=
  fun c hc => (hp c hc).bind_follows hc hf

theorem follows_bytes (n : ℕ) : Follows (bytes n) (Codec.bytes n) := by
  intro c hc
  have hlength := hc.length_view
  have hrun := run_bytes n c.view
  by_cases hn : n ≤ c.remaining
  · have htake : take n c = .ok (some (c.view.take n), c.leaving (c.remaining - n)) := by
      have hinside : c.position + n ≤ c.data.length := (Nat.add_le_add_left hn _).trans hc
      rw [take, if_pos hinside, view, take_take, Nat.min_eq_left hn, leaving,
        Nat.sub_sub_self hn, decide_eq_false (by omega), Bool.or_false]
    refine ⟨c.remaining - n, Nat.sub_le _ _, ?_, fun a rest h => ?_⟩
    · rw [bytes, if_neg (by omega), htake, hrun, if_pos (by omega)]
      rfl
    · rw [hrun, if_pos (by omega)] at h
      obtain ⟨-, rfl⟩ := Prod.mk.inj (Option.some.inj h)
      rw [view_leaving (Nat.sub_le _ _), Nat.sub_sub_self hn]
  · refine ⟨c.remaining, Nat.le_refl _, ?_, fun a rest h => ?_⟩
    · rw [bytes, if_pos (by omega), hrun, if_neg (by omega), leaving_remaining]
      rfl
    · rw [hrun, if_neg (by omega)] at h
      cases h

theorem follows_word (n : ℕ) : Follows (word n) (Codec.word n) := by
  have h := (follows_bytes n).bind fun bs => follows_pure (ofBytes bs)
  have heq : (Codec.bytes n >>= fun bs => pure (ofBytes bs)) = Codec.word n :=
    bind_pure_comp ofBytes (Codec.bytes n)
  rwa [heq] at h

theorem follows_scalar (n : ℕ) (f : ℕ → α) : Follows (scalar n f) (Codec.scalar n f) :=
  (follows_word n).bind fun v => follows_pure (f v)

/-- A parser that tests a value and goes on or fails. -/
theorem follows_guard {q : Prop} [Decidable q] (h : Follows p d) :
    Follows (if q then p else fail) (if q then d else failure) := by
  split_ifs
  · exact h
  · exact follows_fail

/-- Where a failure is not the end, the parser follows if it fails anyway. -/
theorem Follows.recover {f : Option α → Parse β} (hp : Follows p d)
    (hf : ∀ a, Follows (f (some a)) (g a))
    (hnone : Fails (f none)) : Follows (attempt p >>= f) (d >>= g) := by
  intro c hc
  obtain ⟨n, hn, hrun, hrest⟩ := hp c hc
  rcases hd : d.run c.view with - | ⟨a, rest⟩
  · rw [hd] at hrun
    obtain ⟨m, hm, hrun'⟩ := hnone _ (hc.leaving hn)
    rw [remaining_leaving] at hm
    rw [leaving_leaving hm hn] at hrun'
    refine ⟨m, hm.trans hn, ?_, fun b rest h => ?_⟩
    · rw [bind_of_some (attempt_of_ok hrun), StateT.run_bind, hd]
      exact hrun'
    · rw [StateT.run_bind, hd] at h
      cases h
  · have hbind : (p >>= fun a => f (some a)) c = (attempt p >>= f) c := by
      rw [hd] at hrun
      rw [bind_of_some hrun, bind_of_some (attempt_of_ok hrun)]
      rfl
    unfold FollowsAt
    rw [← hbind]
    exact (hp.bind hf) c hc

theorem fails_fail : Fails (fail : Parse α) := fun c _ =>
  ⟨c.remaining, Nat.le_refl _, by rw [leaving_remaining]; rfl⟩

/-- A parser that goes on after a failure and fails anyway. -/
theorem Fails.attempt {f : Option α → Parse β} (hp : Follows p d)
    (hf : ∀ a, Fails (f a)) : Fails (attempt p >>= f) := by
  intro c hc
  obtain ⟨n, hn, hrun, -⟩ := hp c hc
  obtain ⟨m, hm, hrun'⟩ := hf ((d.run c.view).map Prod.fst) _ (hc.leaving hn)
  rw [remaining_leaving] at hm
  rw [leaving_leaving hm hn] at hrun'
  exact ⟨m, hm.trans hn, by rw [bind_of_some (attempt_of_ok hrun)]; exact hrun'⟩

/-- Looking ahead follows, unless exactly `index` bytes remain. -/
theorem followsAt_lookAhead {index : ℕ} (hc : c.Sound) (hne : c.remaining ≠ index) :
    FollowsAt (lookAhead index) (ahead index) c := by
  have hlength := hc.length_view
  by_cases hlt : index < c.remaining
  · have hget : c.data[c.position + index]? = c.view[index]? := by
      rw [view, List.getElem?_take_of_lt hlt, List.getElem?_drop]
    have hview : c.view[index]? = some (c.view[index]) := List.getElem?_eq_getElem (by omega)
    refine ⟨c.remaining, Nat.le_refl _, ?_, fun a rest h => ?_⟩
    · rw [lookAhead, if_neg (by omega), peek, hget, run_ahead, hview, leaving_remaining]
      simp only [decide_eq_false (Nat.not_le_of_lt hlt), Bool.or_false]
      rfl
    · rw [run_ahead, hview] at h
      obtain ⟨-, rfl⟩ := Prod.mk.inj (Option.some.inj h)
      rw [leaving_remaining]
  · have hview : c.view[index]? = none := List.getElem?_eq_none (by omega)
    refine ⟨c.remaining, Nat.le_refl _, ?_, fun a rest h => ?_⟩
    · rw [lookAhead, if_pos (by omega), run_ahead, hview, leaving_remaining]
      rfl
    · rw [run_ahead, hview] at h
      cases h

/-- A failure that leaves the cursor where it was can be gone on from. -/
theorem Follows.attempt (hp : Follows p d) (hrestore : ∀ c c', p c = .ok (none, c') → c' = c) :
    Follows (Parse.attempt p) (Codec.attempt d) := by
  intro c hc
  obtain ⟨n, hn, hrun, hrest⟩ := hp c hc
  rcases hd : d.run c.view with - | ⟨a, rest⟩
  · rw [hd] at hrun
    have hc' : c.leaving n = c := hrestore c _ hrun
    refine ⟨n, hn, ?_, fun b rest h => ?_⟩
    · rw [attempt_of_ok hrun, run_attempt, hd]
      rfl
    · rw [run_attempt, hd] at h
      obtain ⟨-, rfl⟩ := Prod.mk.inj (Option.some.inj h)
      rw [hc']
  · rw [hd] at hrun
    refine ⟨n, hn, ?_, fun b rest' h => ?_⟩
    · rw [attempt_of_ok hrun, run_attempt, hd]
      rfl
    · rw [run_attempt, hd] at h
      obtain ⟨-, rfl⟩ := Prod.mk.inj (Option.some.inj h)
      exact hrest a rest hd

theorem bytes_restores {n : ℕ} (h : bytes n c = .ok (none, c')) : c' = c := by
  unfold bytes take at h
  split_ifs at h
  · cases h
    rfl
  · cases h

theorem scalar_restores {n : ℕ} {f : ℕ → α} (h : scalar n f c = .ok (none, c')) : c' = c := by
  rcases hbytes : bytes n c with e | ⟨- | bs, c''⟩
  · have : scalar n f c = .error e := by
      simp only [scalar, word, Bind.bind, hbytes]
    rw [this] at h
    cases h
  · have hword : word n c = .ok (none, c'') := bind_of_none hbytes
    have : scalar n f c = .ok (none, c'') := bind_of_none hword
    rw [this] at h
    cases h
    exact bytes_restores hbytes
  · have hword : word n c = .ok (some (ofBytes bs), c'') := bind_of_some hbytes
    have : scalar n f c = .ok (some (f (ofBytes bs)), c'') := bind_of_some hword
    rw [this] at h
    cases h

theorem follows_remaining : Follows remaining (do return (← get).length) := fun c hc =>
  ⟨c.remaining, Nat.le_refl _, by
    rw [leaving_remaining]
    exact congrArg (fun n => Except.ok (some n, c)) hc.length_view.symm, by
    rintro _ _ ⟨⟩
    rw [leaving_remaining]⟩

/-- **A loop over items follows**, if the item does wherever bytes remain and takes one at least. -/
theorem followsAt_many (hitem : ∀ c : Cursor, c.Sound → c.remaining ≠ 0 → FollowsAt item d c)
    (htakes : ∀ data a rest, d.run data = some (a, rest) → rest.length < data.length) :
    ∀ (fuel : ℕ) (c : Cursor), c.Sound → c.remaining < fuel →
      FollowsAt (many item fuel) (Codec.many d fuel) c := by
  intro fuel
  induction fuel with
  | zero => exact fun c _ h => absurd h (Nat.not_lt_zero _)
  | succ fuel ih =>
      intro c hc hfuel
      refine (follows_remaining c hc).bind hc fun n rest hn => ?_
      obtain ⟨rfl, rfl⟩ := Prod.mk.inj (Option.some.inj hn)
      rw [hc.length_view, leaving_remaining]
      by_cases h0 : c.remaining = 0
      · rw [if_pos h0, if_pos h0]
        exact follows_pure _ c hc
      · rw [if_neg h0, if_neg h0]
        refine (hitem c hc h0).bind hc fun a rest ha => ?_
        have hlt := htakes _ _ _ ha
        rw [hc.length_view] at hlt
        have hc' := hc.leaving (Nat.le_of_lt hlt)
        have hrest := ih _ hc' (by rw [remaining_leaving]; omega)
        exact hrest.bind_follows hc' fun as => follows_pure (a :: as)

/-- Asking how many bytes remain is asking for the bytes. -/
theorem FollowsAt.of_get {f : ℕ → Parse α} {g : List UInt8 → Decoder α}
    (h : FollowsAt (f c.remaining) (g c.view) c) : FollowsAt (remaining >>= f) (get >>= g) c := h

/-- A loop over items with a length follows, if the item does and takes a byte at least. -/
theorem followsAt_countdown {bound : ℕ} (hitem : Follows item d)
    (htakes : AtLeast 1 d) : ∀ (fuel length : ℕ) (c : Cursor), c.Sound → c.remaining < fuel →
      FollowsAt (countdown bound item fuel length) (Codec.loop bound d fuel length) c := by
  intro fuel
  induction fuel with
  | zero => exact fun _ c _ h => absurd h (Nat.not_lt_zero _)
  | succ fuel ih =>
      rintro (_ | length) c hc hfuel
      · exact follows_pure [] c hc
      · refine FollowsAt.of_get ((hitem c hc).bind hc fun a rest ha => ?_)
        have hlt := htakes _ _ _ ha
        rw [hc.length_view] at hlt
        have hc' := hc.leaving (n := rest.length) (by omega)
        refine FollowsAt.of_get ?_
        rw [hc.length_view, hc'.length_view]
        have hrest := ih ((length + 1 + bound - (c.remaining - (c.leaving rest.length).remaining)) %
          bound) _ hc' (by rw [remaining_leaving]; omega)
        exact hrest.bind_follows hc' fun as => follows_pure (a :: as)

/-- **An array follows**, if its item does and takes a byte at least. -/
theorem follows_counted (n : ℕ) (hitem : Follows item d)
    (htakes : AtLeast 1 d) : Follows (counted n item) (Codec.array n d) := by
  refine (follows_word n).bind fun length c hc => FollowsAt.of_get ?_
  rw [hc.length_view]
  exact followsAt_countdown hitem htakes _ length c hc (Nat.lt_succ_self _)

/-- What a loop does that ends at the first failure. -/
theorem collect_succ (item : Parse α) (fuel : ℕ) (c : Cursor) : collect item (fuel + 1) c =
    if c.remaining = 0 then .ok (some [], c)
    else
      match item c with
      | .error e => .error e
      | .ok (none, c') => .ok (some [], c')
      | .ok (some a, c') => (collect item fuel >>= fun as => pure (a :: as)) c' := by
  rw [collect, bind_of_some (a := c.remaining) rfl]
  split_ifs
  · rfl
  · rcases h : item c with e | ⟨- | a, c'⟩
    · simp only [Bind.bind, attempt, h]
    · rw [bind_of_some (attempt_of_ok h)]
      rfl
    · rw [bind_of_some (attempt_of_ok h)]

/-- A loop that ends at the first failure does not fail. -/
theorem collect_ne_none (item : Parse α) (fuel : ℕ) (c c' : Cursor) :
    collect item fuel c ≠ .ok (none, c') := by
  induction fuel generalizing c with
  | zero => exact fun h => nomatch h
  | succ fuel ih =>
      rw [collect_succ]
      split_ifs
      · exact fun h => nomatch h
      · rcases item c with e | ⟨- | a, c''⟩
        · exact fun h => nomatch h
        · exact fun h => nomatch h
        · intro h
          obtain ⟨- | as, hcollect, hmap⟩ := exists_of_bind_pure h
          · exact ih c'' hcollect
          · cases hmap

section collect

variable {item : Parse α} {d : Decoder α} {k : ℕ}
  (hitem : ∀ c : Cursor, c.Sound → c.remaining ≠ k → FollowsAt item d c)
  (htakes : ∀ data a rest, d.run data = some (a, rest) → rest.length < data.length)
include hitem htakes

/-- **A loop that ends at the first failure gathers** what the decoder does, if the item follows the
decoder wherever it starts. -/
theorem collect_eq : ∀ (fuel : ℕ) (c : Cursor), c.Sound → c.remaining < fuel →
    (∀ rest ∈ starts d fuel c.view, rest.length ≠ k) →
      ∃ n ≤ c.remaining, collect item fuel c = .ok (some (gather d fuel c.view), c.leaving n) := by
  intro fuel
  induction fuel with
  | zero => exact fun c _ h => absurd h (Nat.not_lt_zero _)
  | succ fuel ih =>
      intro c hc hfuel hstarts
      have hlength := hc.length_view
      rw [collect_succ]
      by_cases h0 : c.remaining = 0
      · have hnil : c.view = [] := eq_nil_of_length_eq_zero (hlength.trans h0)
        exact ⟨c.remaining, Nat.le_refl _, by rw [if_pos h0, gather, if_pos hnil, leaving_remaining]⟩
      have hnil : ¬ c.view = [] := fun h => h0 (by rw [← hlength, h]; rfl)
      rw [starts, if_neg hnil] at hstarts
      have hfollows := hitem c hc (hlength ▸ hstarts _ mem_cons_self)
      rw [if_neg h0, gather, if_neg hnil]
      rcases hd : d.run c.view with - | ⟨a, rest⟩
      · obtain ⟨n, hn, hrun⟩ := hfollows.eq_none hd
        exact ⟨n, hn, by rw [hrun]⟩
      · obtain ⟨hrun, hle, hview⟩ := hfollows.eq_ok hc hd
        have hlt := htakes _ _ _ hd
        rw [hd] at hstarts
        obtain ⟨n, hn, hrest⟩ := ih _ (hc.leaving hle) (by rw [remaining_leaving]; omega)
          (by rw [hview]; exact fun rest h => hstarts rest (mem_cons_of_mem _ h))
        rw [remaining_leaving] at hn
        rw [leaving_leaving hn hle, hview] at hrest
        exact ⟨n, hn.trans hle, by rw [hrun]; exact bind_of_some hrest⟩

/-- Where an item starts that strays, the loop has a fault or strays. -/
theorem collect_strays (hstrays : ∀ c : Cursor, c.Sound → c.remaining = k →
      ∀ a c', item c = .ok (a, c') → a = none ∧ c'.strayed = true) :
    ∀ (fuel : ℕ) (c : Cursor), c.Sound → c.remaining < fuel →
      (∃ rest ∈ starts d fuel c.view, rest.length = k) →
        ∀ as c', collect item fuel c = .ok (as, c') → c'.strayed = true := by
  intro fuel
  induction fuel with
  | zero => exact fun c _ h => absurd h (Nat.not_lt_zero _)
  | succ fuel ih =>
      rintro c hc hfuel ⟨rest, hrest, hk⟩ as c' hrun
      have hlength := hc.length_view
      have hnil : ¬ c.view = [] := by
        intro h
        rw [starts, if_pos h] at hrest
        cases hrest
      have h0 : c.remaining ≠ 0 := fun h => hnil (eq_nil_of_length_eq_zero (hlength.trans h))
      rw [collect_succ, if_neg h0] at hrun
      by_cases hat : c.remaining = k
      · rcases hitem' : item c with e | ⟨a, c''⟩
        · rw [hitem'] at hrun
          cases hrun
        · obtain ⟨rfl, hstrayed⟩ := hstrays c hc hat a c'' hitem'
          rw [hitem'] at hrun
          cases hrun
          exact hstrayed
      -- the item that strays starts behind this one
      rw [starts, if_neg hnil] at hrest
      have hbehind := (mem_cons.mp hrest).resolve_left fun h => hat (by rw [← hlength, ← h, hk])
      rcases hd : d.run c.view with - | ⟨a, mid⟩
      · rw [hd] at hbehind
        cases hbehind
      · obtain ⟨hok, hle, hview⟩ := (hitem c hc hat).eq_ok hc hd
        have hlt := htakes _ _ _ hd
        rw [hd] at hbehind
        rw [hok] at hrun
        obtain ⟨as', hcollect, -⟩ := exists_of_bind_pure hrun
        exact ih _ (hc.leaving hle) (by rw [remaining_leaving]; omega)
          ⟨rest, by rw [hview]; exact hbehind, hk⟩ _ _ hcollect

end collect

/-- What a parser gives that follows a decoder, from the start of a byte string. -/
theorem Follows.start (h : Follows p d) (data : List UInt8) :
    ∃ c, p (Cursor.start data) = .ok ((d.run data).map Prod.fst, c) ∧
      ∀ a rest, d.run data = some (a, rest) → c.remaining = rest.length ∧ c.view = rest := by
  obtain ⟨n, hn, hrun, hrest⟩ := h _ (sound_start data)
  rw [view_start] at hrun hrest
  refine ⟨_, hrun, fun a rest hd => ?_⟩
  have hview := hrest a rest hd
  rw [hview, ((sound_start data).leaving hn).length_view]
  exact ⟨rfl, rfl⟩

end Parse

end Cursor
