import SomeipTunnel.Protocol.Command

/-!
# Reading a routing info command from any bytes

An entry has up to three sizes: of itself, of the part with the client, and of its services. The
reader checks once that there are seven bytes, and then only in front of the services. The size of
the entry is read and never used, the size of the client part only decides whether there is an
address, and the size of the services is divided by the size of one.

`Verdict` is what the bytes of an entry, from their position on, make of it: the reader leaves the
buffer, refuses the entry, or takes it with sizes that are right or wrong. `walk` goes through the
entries of a command. `routing_info_parsed_iff`: reading is as it should be if and only if no entry
leads out of the buffer, and one is refused or the sizes of all are right.

Source: vsomeip/implementation/protocol/src/routing_info_entry.cpp, routing_info_command.cpp
-/

namespace SomeipTunnel.Protocol

open Indexed List Buffer

/-! ### The sizes in an entry -/

namespace EntryBytes

variable (b : List UInt8)

/-- The 32-bit number at a position. -/
def number (i : ℕ) : ℕ := ofLittle (slice b i 4)

/-- The entry has services, by its type. -/
def wide : Bool := (EntryType.ofByte (b.headD 0)).hasServices

/-- Where the client stands. -/
def clientAt : ℕ := if wide b then 9 else 5

/-- The size of the client part, which for a client entry is the size of the entry. -/
def clientSize : ℕ := number b (if wide b then 5 else 1)

/-- Where the client part ends: the client, and address and port if the size has room for more. -/
def clientEnd : ℕ := clientAt b + if 2 < clientSize b then clientSize b else 2

/-- The size of the services. -/
def servicesSize : ℕ := number b (clientEnd b)

/-- Where the entry ends. -/
def entryEnd : ℕ :=
  if wide b then clientEnd b + 4 + servicesSize b / Service.size * Service.size else clientEnd b

/-- The three sizes are those of the `n` bytes that an entry takes. -/
def Sized (n : ℕ) : Prop :=
  number b 1 + 5 = n ∧ clientSize b = clientEnd b - clientAt b ∧
    (wide b → servicesSize b = n - (clientEnd b + 4))

instance (n : ℕ) : Decidable (Sized b n) := inferInstanceAs (Decidable (_ ∧ _ ∧ (_ → _)))

/-- The entry is refused with an error. -/
def Refused : Prop :=
  b.length < 7 ∨ EntryType.ofByte (b.headD 0) = .unknown ∨
    clientAt b + 2 ≤ b.length ∧ 2 < clientSize b ∧ clientSize b ≠ 8 ∧ clientSize b ≠ 20 ∨
      wide b = true ∧ clientEnd b ≤ b.length ∧ b.length < clientEnd b + 4 + servicesSize b

instance : Decidable (Refused b) := inferInstanceAs (Decidable (_ ∨ _ ∨ _ ∨ _))

end EntryBytes

open EntryBytes

/-- What becomes of an entry. -/
inductive Verdict where
  | overrun
  | refused
  | taken (sized : Bool)
deriving DecidableEq

def judge (b : List UInt8) : Verdict :=
  if Refused b then .refused
  else if b.length < clientEnd b then .overrun
  else .taken (Sized b (entryEnd b))

/-- The verdicts on the entries, up to one that ends the loop. An entry takes seven bytes at least,
so that as many rounds as there are bytes are enough. -/
def walk : ℕ → List UInt8 → List Verdict
  | 0, _ => []
  | rounds + 1, b =>
      if b = [] then []
      else match judge b with
        | .taken sized => .taken sized :: walk rounds (b.drop (entryEnd b))
        | verdict => [verdict]

/-! ### Reading an entry -/

section entry

variable {before b : List UInt8}

theorem slice_append (before b : List UInt8) (k n : ℕ) :
    slice (before ++ b) (before.length + k) n = slice b k n := by
  rw [slice, slice, drop_append, drop_eq_nil_of_le (by omega),
    nil_append, Nat.add_sub_cancel_left]

theorem run_get_outside {n k : ℕ} (f : List UInt8 → Reader Error β) (h : b.length < k + n) :
    ((get n >>= f).run (before ++ b)).run (before.length + k) = .error .outside := by
  have hget : ((get n : Reader Error _).run (before ++ b)).run (before.length + k) =
      .error .outside := if_neg (by rw [length_append]; omega)
  exact run_bind_of_error hget f

theorem run_get_at {n k : ℕ} (f : List UInt8 → Reader Error β) (h : k + n ≤ b.length) :
    ((get n >>= f).run (before ++ b)).run (before.length + k) =
      ((f (slice b k n)).run (before ++ b)).run (before.length + (k + n)) := by
  have hget : ((get n : Reader Error _).run (before ++ b)).run (before.length + k) =
      .ok (slice b k n, before.length + (k + n)) := by
    rw [← slice_append before b k n, ← Nat.add_assoc]
    exact if_pos (by rw [length_append]; omega)
  exact run_bind_of_ok hget f

theorem run_scalar_outside {n k : ℕ} (f : ℕ → α) (g : α → Reader Error β) (h : b.length < k + n) :
    ((scalar n f >>= g).run (before ++ b)).run (before.length + k) = .error .outside := by
  rw [scalar, bind_assoc]
  exact run_get_outside _ h

theorem run_scalar_at {n k : ℕ} (f : ℕ → α) (g : α → Reader Error β) (h : k + n ≤ b.length) :
    ((scalar n f >>= g).run (before ++ b)).run (before.length + k) =
      ((g (f (ofLittle (slice b k n)))).run (before ++ b)).run
        (before.length + (k + n)) := by
  rw [scalar, bind_assoc, run_get_at _ h]
  rfl

theorem number_lt (b : List UInt8) (i : ℕ) : number b i < 2 ^ 32 := by
  have hlt := Codec.ofBytes_lt (slice b i 4).reverse
  have hlength : (slice b i 4).length ≤ 4 := length_slice_le
  rw [length_reverse] at hlt
  calc number b i < 256 ^ (slice b i 4).length := hlt
    _ ≤ 256 ^ 4 := Nat.pow_le_pow_right (by decide) hlength
    _ = 2 ^ 32 := by decide

/-- The size of the client part and the client. -/
theorem run_client (hseven : 7 ≤ b.length) (g : UInt32 → UInt16 → Reader Error β) :
    ((RoutingInfoEntry.deserializeClientSize (EntryType.ofByte (b.headD 0))
        (UInt32.ofNat (number b 1)) >>= fun size => scalar 2 UInt16.ofNat >>= g size).run
          (before ++ b)).run (before.length + 5) = if clientAt b + 2 ≤ b.length then
        ((g (UInt32.ofNat (clientSize b)) (UInt16.ofNat (ofLittle (slice b (clientAt b)
          2)))).run (before ++ b)).run (before.length + (clientAt b + 2)) else .error .outside := by
  unfold RoutingInfoEntry.deserializeClientSize clientAt clientSize
  rw [← wide]
  cases wide b with
  | false =>
      simp only [Bool.false_eq_true, if_false, pure_bind]
      rw [if_pos hseven, run_scalar_at _ _ hseven]
  | true =>
      simp only [if_true]
      by_cases hnine : 5 + 4 ≤ b.length
      · rw [run_scalar_at _ _ hnine]
        split_ifs with heleven
        · exact run_scalar_at _ _ heleven
        · exact run_scalar_outside _ _ (by omega)
      · rw [if_neg (by omega)]
        exact run_scalar_outside _ _ (by omega)

/-- An address of `n` bytes and the port behind it. -/
theorem run_addressPort (before b : List UInt8) (n k : ℕ) (f : List UInt8 → Address)
    (g : Address × UInt16 → Reader Error β) :
    let out := ((get n >>= fun bs => scalar 2 UInt16.ofNat >>= fun port => g (f bs, port)).run
      (before ++ b)).run (before.length + k)
    (k + (n + 2) ≤ b.length →
      ∃ x, out = ((g x).run (before ++ b)).run (before.length + (k + (n + 2)))) ∧
    (b.length < k + (n + 2) → out = .error .outside) := by
  by_cases hn : k + n ≤ b.length
  · rw [run_get_at _ hn, ← Nat.add_assoc k]
    exact ⟨fun hport => ⟨_, run_scalar_at _ _ hport⟩, fun hport => run_scalar_outside _ _ hport⟩
  · exact ⟨fun h => by omega, fun _ => run_get_outside _ (by omega)⟩

/-- The address and the port. -/
theorem run_address (before b : List UInt8) (g : Address × UInt16 → Reader Error β) :
    let out := ((RoutingInfoEntry.deserializeAddress (UInt32.ofNat (clientSize b)) >>= g).run
      (before ++ b)).run (before.length + (clientAt b + 2))
    (2 < clientSize b ∧ clientSize b ≠ 8 ∧ clientSize b ≠ 20 →
      out = .error (.error .malformed)) ∧
    (¬ (2 < clientSize b ∧ clientSize b ≠ 8 ∧ clientSize b ≠ 20) → clientAt b + 2 ≤ b.length →
      (clientEnd b ≤ b.length →
        ∃ x, out = ((g x).run (before ++ b)).run (before.length + clientEnd b)) ∧
      (b.length < clientEnd b → out = .error .outside)) := by
  have hlt : clientSize b < 2 ^ 32 := number_lt b _
  have hnat : (UInt32.ofNat (clientSize b)).toNat = clientSize b := UInt32.toNat_ofNat_of_lt' hlt
  have htwo : 2 < UInt32.ofNat (clientSize b) ↔ 2 < clientSize b := by
    rw [UInt32.lt_iff_toNat_lt, hnat]
    rfl
  have heq : ∀ n : ℕ, n < 2 ^ 31 → (UInt32.ofNat (clientSize b) - 4 = UInt32.ofNat n ↔
      clientSize b = n + 4) := by
    intro n hn
    rw [UInt32.sub_eq_iff_eq_add, ← UInt32.toNat_inj, hnat, UInt32.toNat_add,
      UInt32.toNat_ofNat_of_lt' (show n < 2 ^ 32 by omega)]
    change _ = (n + 4) % 2 ^ 32 ↔ _
    rw [Nat.mod_eq_of_lt (by omega)]
  have hfour : UInt32.ofNat (clientSize b) - 4 = 4 ↔ clientSize b = 8 := heq 4 (by decide)
  have hsixteen : UInt32.ofNat (clientSize b) - 4 = 16 ↔ clientSize b = 20 := heq 16 (by decide)
  unfold RoutingInfoEntry.deserializeAddress clientEnd
  by_cases hsize : 2 < clientSize b
  swap
  · rw [if_neg hsize, if_neg fun h => hsize (htwo.mp h), pure_bind]
    exact ⟨fun h => absurd h.1 hsize, fun _ hroom => ⟨fun _ => ⟨_, rfl⟩, fun h => by omega⟩⟩
  rw [if_pos hsize, if_pos (htwo.mpr hsize)]
  unfold RoutingInfoEntry.readAddress
  by_cases h8 : clientSize b = 8
  · have hport := run_addressPort before b 4 (clientAt b + 2)
      (fun bs => .v4 (BitVec.ofNat 32 (Codec.ofBytes bs))) g
    rw [if_pos (hfour.mpr h8), h8]
    simp only [bind_assoc, pure_bind, Nat.add_assoc] at hport ⊢
    exact ⟨fun h => absurd rfl h.2.1, fun _ _ => hport⟩
  by_cases h20 : clientSize b = 20
  · have hport := run_addressPort before b 16 (clientAt b + 2)
      (fun bs => .v6 (BitVec.ofNat 128 (Codec.ofBytes bs))) g
    rw [if_neg (fun h => h8 (hfour.mp h)), if_pos (hsixteen.mpr h20), h20]
    simp only [bind_assoc, pure_bind, Nat.add_assoc] at hport ⊢
    exact ⟨fun h => absurd rfl h.2.2, fun _ _ => hport⟩
  · rw [if_neg (fun h => h8 (hfour.mp h)), if_neg (fun h => h20 (hsixteen.mp h))]
    exact ⟨fun _ => rfl, fun h => absurd ⟨hsize, h8, h20⟩ h⟩

theorem takes_service : Takes Service.size Service.deserialize := by
  change Takes (2 + (2 + (1 + (4 + 0)))) Service.deserialize
  refine (takes_scalar 2 _).bind fun _ => (takes_scalar 2 _).bind fun _ => ?_
  exact (takes_scalar 1 _).bind fun _ => (takes_scalar 4 _).bind fun _ => takes_pure _

theorem run_need_error {n k : ℕ} (f : Unit → Reader Error β) (h : b.length < k + n) :
    ((need n .notEnoughBytes >>= f).run (before ++ b)).run (before.length + k) =
      .error (.error .notEnoughBytes) := by
  have hneed : ((need n .notEnoughBytes : Reader Error Unit).run (before ++ b)).run
      (before.length + k) = .error (.error .notEnoughBytes) :=
    if_pos (by rw [length_append]; omega)
  exact run_bind_of_error hneed f

theorem run_need_at {n k : ℕ} (f : Unit → Reader Error β) (h : k + n ≤ b.length) :
    ((need n .notEnoughBytes >>= f).run (before ++ b)).run (before.length + k) =
      ((f ()).run (before ++ b)).run (before.length + k) :=
  run_need_bind (by rw [length_append]; omega) _ _

/-- As many services as the size at a position has room for. -/
theorem run_counted (before b : List UInt8) (k : ℕ) (g : List Service → Reader Error β) :
    let out := ((need 4 .notEnoughBytes >>= fun _ => scalar 4 UInt32.ofNat >>= fun size =>
      need size.toNat .notEnoughBytes >>= fun _ =>
        times Service.deserialize (size.toNat / Service.size) >>= g).run (before ++ b)).run
          (before.length + k)
    (b.length < k + 4 + number b k → out = .error (.error .notEnoughBytes)) ∧
    (k + 4 + number b k ≤ b.length → ∃ x, out = ((g x).run (before ++ b)).run
      (before.length + (k + 4 + number b k / Service.size * Service.size))) := by
  by_cases hfour : k + 4 ≤ b.length
  swap
  · exact ⟨fun _ => run_need_error _ (by omega), fun h => by omega⟩
  have hsize : (UInt32.ofNat (ofLittle (slice b k 4))).toNat = number b k :=
    UInt32.toNat_ofNat_of_lt' (number_lt b k)
  rw [run_need_at _ hfour, run_scalar_at _ _ hfour, hsize]
  refine ⟨fun hshort => run_need_error _ hshort, fun hall => ?_⟩
  have hle := Nat.div_mul_le_self (number b k) Service.size
  have hroom : before.length + (k + 4) + number b k / Service.size * Service.size ≤
      (before ++ b).length := by
    rw [length_append]
    omega
  obtain ⟨x, hx⟩ := takes_service.times (number b k / Service.size) _ _ hroom
  rw [Nat.add_assoc before.length] at hx
  exact ⟨x, by rw [run_need_at _ hall, run_bind_of_ok hx]⟩

/-- The services. -/
theorem run_services (before b : List UInt8) (g : List Service → Reader Error β) :
    let out := ((RoutingInfoEntry.deserializeServices (EntryType.ofByte (b.headD 0)) >>= g).run
      (before ++ b)).run (before.length + clientEnd b)
    (wide b = true ∧ b.length < clientEnd b + 4 + servicesSize b →
      out = .error (.error .notEnoughBytes)) ∧
    (¬ (wide b = true ∧ b.length < clientEnd b + 4 + servicesSize b) →
      ∃ x, out = ((g x).run (before ++ b)).run (before.length + entryEnd b)) := by
  unfold RoutingInfoEntry.deserializeServices entryEnd
  rw [← wide]
  by_cases hwide : wide b = true
  · obtain ⟨hshort, hall⟩ := run_counted before b (clientEnd b) g
    rw [if_pos hwide, if_pos hwide]
    simp only [bind_assoc]
    exact ⟨fun h => hshort h.2, fun h => hall (not_lt.mp fun hlt => h ⟨hwide, hlt⟩)⟩
  · rw [if_neg hwide, if_neg hwide, pure_bind]
    exact ⟨fun h => absurd h.1 hwide, fun _ => ⟨[], rfl⟩⟩

/-- What becomes of an entry, by its verdict. -/
def Outcome (before b : List UInt8) (out : Except (Failure Error) (RoutingInfoEntry × ℕ)) :
    Prop :=
  match judge b with
  | .overrun => out = .error .outside
  | .refused => ∃ e, out = .error (.error e)
  | .taken _ => ∃ e, out = .ok (e, before.length + entryEnd b)

theorem outcome_refused {out : Except (Failure Error) (RoutingInfoEntry × ℕ)} (h : Refused b)
    {e : Error} (hout : out = .error (.error e)) : Outcome before b out := by
  unfold Outcome judge
  rw [if_pos h]
  exact ⟨e, hout⟩

theorem outcome_overrun {out : Except (Failure Error) (RoutingInfoEntry × ℕ)}
    (h : b.length < clientEnd b) (hrefused : ¬ Refused b) (hout : out = .error .outside) :
    Outcome before b out := by
  unfold Outcome judge
  rw [if_neg hrefused, if_pos h]
  exact hout

theorem outcome_deserialize (before b : List UInt8) :
    Outcome before b ((RoutingInfoEntry.deserialize.run (before ++ b)).run before.length) := by
  unfold RoutingInfoEntry.deserialize
  by_cases hseven : 7 ≤ b.length
  swap
  · have hneed : ((need (1 + 4 + 2) .notEnoughBytes : Reader Error Unit).run (before ++ b)).run
        before.length = .error (.error .notEnoughBytes) :=
      if_pos (by rw [length_append]; omega)
    exact outcome_refused (Or.inl (by omega)) (run_bind_of_error hneed _)
  have hhead : UInt8.ofNat (ofLittle (slice b 0 1)) = b.headD 0 := by
    obtain ⟨x, rest, rfl⟩ := exists_cons_of_length_pos (show 0 < b.length by omega)
    change UInt8.ofNat (ofLittle [x]) = x
    simp [ofLittle, Codec.ofBytes]
  rw [run_need_bind (by rw [length_append]; omega)]
  change Outcome before b (((scalar 1 UInt8.ofNat >>= _ : Reader Error _).run _).run
    (before.length + 0))
  rw [run_scalar_at _ _ (by omega), hhead, run_failIf_bind]
  by_cases hunknown : EntryType.ofByte (b.headD 0) = .unknown
  · rw [if_pos hunknown]
    exact outcome_refused (Or.inr (Or.inl hunknown)) rfl
  rw [if_neg hunknown, run_scalar_at _ _ (by omega), Nat.zero_add, ← number,
    show 1 + 4 = 5 from rfl, run_client hseven]
  by_cases hclient : clientAt b + 2 ≤ b.length
  swap
  · rw [if_neg hclient]
    refine outcome_overrun ?_ ?_ rfl
    · unfold clientEnd
      split_ifs <;> omega
    · rintro (h | h | h | h)
      · omega
      · exact hunknown h
      · exact hclient h.1
      · have := h.2.1
        unfold clientEnd at this
        split_ifs at this <;> omega
  rw [if_pos hclient]
  obtain ⟨hbad, hgood⟩ := run_address before b fun x => (do
      let services ← RoutingInfoEntry.deserializeServices (EntryType.ofByte (b.headD 0))
      return { type := EntryType.ofByte (b.headD 0)
               client := UInt16.ofNat (ofLittle (slice b (clientAt b) 2))
               address := x.1, port := x.2, services } : Reader Error RoutingInfoEntry)
  by_cases hsize : 2 < clientSize b ∧ clientSize b ≠ 8 ∧ clientSize b ≠ 20
  · exact outcome_refused (Or.inr (Or.inr (Or.inl ⟨hclient, hsize⟩))) (hbad hsize)
  obtain ⟨hinside, houtside⟩ := hgood hsize hclient
  by_cases hend : clientEnd b ≤ b.length
  swap
  · refine outcome_overrun (Nat.not_le.mp hend) ?_ (houtside (Nat.not_le.mp hend))
    rintro (h | h | h | h)
    · omega
    · exact hunknown h
    · exact hsize h.2
    · exact hend h.2.1
  obtain ⟨⟨address, port⟩, hrun⟩ := hinside hend
  obtain ⟨hshort, hall⟩ := run_services before b fun services => pure
    { type := EntryType.ofByte (b.headD 0)
      client := UInt16.ofNat (ofLittle (slice b (clientAt b) 2))
      address := address, port := port, services := services : RoutingInfoEntry }
  by_cases hservices : wide b = true ∧ b.length < clientEnd b + 4 + servicesSize b
  · exact outcome_refused (Or.inr (Or.inr (Or.inr ⟨hservices.1, hend, hservices.2⟩)))
      (hrun.trans (hshort hservices))
  · obtain ⟨services, hrun'⟩ := hall hservices
    have hrefused : ¬ Refused b := by
      rintro (h | h | h | h)
      · omega
      · exact hunknown h
      · exact hsize h.2
      · exact hservices ⟨h.1, h.2.2⟩
    unfold Outcome judge
    rw [if_neg hrefused, if_neg (Nat.not_lt.mpr hend)]
    exact ⟨_, hrun.trans hrun'⟩

end entry

/-! ### Reading the command -/

/-- The entries that stand in the buffer from an index on, up to its end: each is what is read there,
and its sizes are those of the bytes that it takes. -/
inductive Consumes (buffer : List UInt8) : ℕ → List RoutingInfoEntry → Prop
  | nil : Consumes buffer buffer.length []
  | cons {i i' : ℕ} {e : RoutingInfoEntry} {es : List RoutingInfoEntry} :
      (RoutingInfoEntry.deserialize.run buffer).run i = .ok (e, i') →
      Sized (buffer.drop i) (i' - i) → Consumes buffer i' es → Consumes buffer i (e :: es)

theorem consumes_cons {buffer : List UInt8} {i : ℕ} {e : RoutingInfoEntry}
    {es : List RoutingInfoEntry} (h : Consumes buffer i (e :: es)) :
    ∃ i', (RoutingInfoEntry.deserialize.run buffer).run i = .ok (e, i') ∧
      Sized (buffer.drop i) (i' - i) ∧ Consumes buffer i' es := by
  cases h with
  | cons hread hsized hrest => exact ⟨_, hread, hsized, hrest⟩

theorem seven_le_entryEnd (b : List UInt8) : 7 ≤ entryEnd b := by
  unfold entryEnd clientEnd clientAt
  split_ifs <;> omega

theorem entryEnd_le_length {b : List UInt8} {sized : Bool} (h : judge b = .taken sized) :
    entryEnd b ≤ b.length ∧ sized = decide (Sized b (entryEnd b)) := by
  unfold judge at h
  split_ifs at h with hrefused hend
  cases h
  refine ⟨?_, rfl⟩
  unfold entryEnd
  split_ifs with hwide
  · have hall : clientEnd b + 4 + servicesSize b ≤ b.length := by
      by_contra hlt
      exact hrefused (Or.inr (Or.inr (Or.inr ⟨hwide, by omega, by omega⟩)))
    have hle := Nat.div_mul_le_self (servicesSize b) Service.size
    omega
  · omega

/-- The loop over the entries, by the verdicts on them. -/
theorem run_entries (rounds : ℕ) (before b : List UInt8) (hrounds : b.length < rounds) :
    let out := ((untilEnd RoutingInfoEntry.deserialize rounds).run (before ++ b)).run
      before.length
    (.overrun ∈ walk rounds b → out = .error .outside) ∧
    (.overrun ∉ walk rounds b → .refused ∈ walk rounds b → ∃ e, out = .error (.error e)) ∧
    (.overrun ∉ walk rounds b → .refused ∉ walk rounds b → ∃ es i, out = .ok (es, i) ∧
      (Consumes (before ++ b) before.length es ↔ .taken false ∉ walk rounds b)) := by
  induction rounds generalizing before b with
  | zero => exact absurd hrounds (Nat.not_lt_zero _)
  | succ rounds ih =>
      unfold walk
      by_cases hnil : b = []
      · subst hnil
        rw [if_pos rfl, append_nil, run_untilEnd_of_end]
        refine ⟨by simp, by simp, fun _ _ => ⟨[], _, rfl, ?_⟩⟩
        exact iff_of_true .nil not_mem_nil
      have hpos := length_pos_iff.mpr hnil
      have hmore : before.length < (before ++ b).length := by
        rw [length_append]
        omega
      have hentry := outcome_deserialize before b
      unfold Outcome at hentry
      rw [if_neg hnil, run_untilEnd_of_lt _ _ hmore]
      rcases hjudge : judge b with _ | _ | sized <;> rw [hjudge] at hentry
      · rw [run_bind_of_error hentry]
        exact ⟨fun _ => rfl, fun h => absurd mem_cons_self h,
          fun h => absurd mem_cons_self h⟩
      · obtain ⟨e, he⟩ := hentry
        rw [run_bind_of_error he]
        exact ⟨fun h => by simp at h, fun _ _ => ⟨e, rfl⟩,
          fun _ h => absurd mem_cons_self h⟩
      · obtain ⟨e, he⟩ := hentry
        obtain ⟨hend, hsized⟩ := entryEnd_le_length hjudge
        have hseven := seven_le_entryEnd b
        -- The rest of the loop, from behind this entry.
        have hsplit : before ++ b = (before ++ b.take (entryEnd b)) ++ b.drop (entryEnd b) := by
          rw [append_assoc, take_append_drop]
        have hbefore : (before ++ b.take (entryEnd b)).length = before.length + entryEnd b := by
          rw [length_append, length_take_of_le hend]
        have hrest := ih (before ++ b.take (entryEnd b)) (b.drop (entryEnd b))
          (by rw [length_drop]; omega)
        rw [hbefore, ← hsplit] at hrest
        obtain ⟨hoverrun, hrefused, htaken⟩ := hrest
        rw [run_bind_of_ok he, ReaderT.run_map, StateT.run_map]
        simp only [mem_cons, reduceCtorEq, false_or, Verdict.taken.injEq]
        refine ⟨fun h => by rw [hoverrun h]; rfl, fun h h' => ?_, fun h h' => ?_⟩
        · obtain ⟨e', he'⟩ := hrefused h h'
          exact ⟨e', by rw [he']; rfl⟩
        · obtain ⟨es, i, hes, hiff⟩ := htaken h h'
          refine ⟨e :: es, i, by rw [hes]; rfl, ?_⟩
          have hdrop : (before ++ b).drop before.length = b := drop_left
          constructor
          · intro hconsumes
            obtain ⟨i', hread, hsizes, hmoreEntries⟩ := consumes_cons hconsumes
            rw [he] at hread
            cases hread
            rw [hdrop, Nat.add_sub_cancel_left] at hsizes
            rintro (hfalse | hmem)
            · rw [hsized, decide_eq_true hsizes] at hfalse
              cases hfalse
            · exact hiff.mp hmoreEntries hmem
          · intro hall
            have htrue : Sized b (entryEnd b) := by
              by_contra hnot
              exact hall (Or.inl (by rw [hsized, decide_eq_false hnot]))
            refine .cons he ?_ (hiff.mpr fun hmem => hall (Or.inr hmem))
            rwa [hdrop, Nat.add_sub_cancel_left]

/-- Reading stays in the buffer and ends, with an error or with entries whose sizes are right. -/
def RoutingInfoParsed (buffer : List UInt8) : Prop :=
  Ends (fun c => Consumes buffer commandHeaderSize c.entries)
    (RoutingInfoCommand.deserialize buffer)

/-- **Reading of any bytes.** It is as it should be if and only if there is no header with the id of
the command, or no entry leads out of the buffer, and one is refused or the sizes of all are
right. -/
theorem routing_info_parsed_iff (buffer : List UInt8) :
    RoutingInfoParsed buffer ↔ buffer.length < commandHeaderSize ∨
      buffer.head? ≠ some routingInfoId ∨
        let verdicts := walk (buffer.length + 1) (buffer.drop commandHeaderSize)
        .overrun ∉ verdicts ∧ (.refused ∈ verdicts ∨ .taken false ∉ verdicts) := by
  by_cases hheader : commandHeaderSize ≤ buffer.length
  swap
  · have hneed : ((need commandHeaderSize .notEnoughBytes : Reader Error Unit).run buffer).run 0 =
        .error (.error .notEnoughBytes) := if_pos (by omega)
    refine iff_of_true ?_ (Or.inl (by omega))
    unfold RoutingInfoParsed RoutingInfoCommand.deserialize RoutingInfoCommand.readAll
    rw [run_bind_of_error hneed]
    trivial
  have hroom : 0 + commandHeaderSize ≤ buffer.length := by omega
  unfold RoutingInfoParsed RoutingInfoCommand.deserialize RoutingInfoCommand.readAll
  rw [run_need_bind hroom]
  rcases Command.header_cases routingInfoId hheader with ⟨header, rest, rfl⟩ | hid
  swap
  · refine iff_of_true ?_ (Or.inr (Or.inl hid))
    unfold RoutingInfoCommand.deserializeHeader
    simp only [bind_assoc]
    rw [run_head_mismatch (Nat.lt_of_lt_of_le (by decide) hheader) hid]
    trivial
  have hhead := header.head?_bytes routingInfoId rest
  have hdrop : (header.bytes routingInfoId ++ rest).drop commandHeaderSize = rest :=
    drop_left' Command.Header.length_bytes
  have hrun := (RoutingInfoCommand.reads_deserializeHeader
    (c := ⟨header.version, header.client, header.size, []⟩)) [] rest
  change ((RoutingInfoCommand.deserializeHeader).run (header.bytes routingInfoId ++ rest)).run 0 =
    .ok (_, 0 + (header.bytes routingInfoId).length) at hrun
  rw [Command.Header.length_bytes, Nat.zero_add] at hrun
  have hentries := run_entries ((header.bytes routingInfoId ++ rest).length + 1)
    (header.bytes routingInfoId) rest (by rw [length_append]; omega)
  rw [Command.Header.length_bytes] at hentries
  obtain ⟨hoverrun, hrefused, htaken⟩ := hentries
  rw [run_bind_of_ok hrun, hhead, hdrop]
  generalize walk _ rest = verdicts at hoverrun hrefused htaken ⊢
  have hlong : ¬ (header.bytes routingInfoId ++ rest).length < commandHeaderSize := by omega
  by_cases hover : Verdict.overrun ∈ verdicts
  · rw [run_bind_of_error (hoverrun hover)]
    refine iff_of_false id ?_
    rintro (h | h | h)
    · exact hlong h
    · exact h rfl
    · exact h.1 hover
  by_cases href : Verdict.refused ∈ verdicts
  · obtain ⟨e, he⟩ := hrefused hover href
    rw [run_bind_of_error he]
    exact iff_of_true trivial (Or.inr (Or.inr ⟨hover, Or.inl href⟩))
  · obtain ⟨es, i, hes, hiff⟩ := htaken hover href
    rw [run_bind_of_ok hes]
    refine Iff.trans hiff ⟨fun h => Or.inr (Or.inr ⟨hover, Or.inr h⟩), ?_⟩
    rintro (h | h | h)
    · exact absurd h hlong
    · exact absurd rfl h
    · exact h.2.resolve_left href

/-- A header and the first seven bytes of an entry with services. -/
def cutEntry : List UInt8 := [routingInfoId, 0, 0, 0, 0, 7, 0, 0, 0, 0x02, 0, 0, 0, 0, 0, 0]

/-- The size of the client part is read behind the end of the buffer. -/
theorem client_size_read_behind_end : ¬ RoutingInfoParsed cutEntry := by
  have hread : RoutingInfoCommand.deserialize cutEntry = .error .outside := by decide +kernel
  unfold RoutingInfoParsed
  rw [hread]
  exact id

end SomeipTunnel.Protocol
