import SomeipTunnel.Protocol.Command

/-!
# Reading a subscribe command from any bytes

Nothing in a subscribe command says how many pairs the filter has. The reader takes pairs as long as
nine bytes are left, and the last flag behind them without looking whether there is one. So the bytes
behind the fixed part decide: with none left after the pairs the flag is read behind the end, with
more than one the rest is ignored (`subscribe_parsed_iff`).

Source: vsomeip/implementation/protocol/src/subscribe_command.cpp, subscribe_command_base.cpp
-/

namespace SomeipTunnel.Protocol.Subscribe

open DebounceFilter Indexed List

namespace DebounceFilter

/-- The bytes are exactly those of a filter: its head, pairs with different keys, and a flag. -/
def At (f : DebounceFilter) (bs : List UInt8) : Prop :=
  ∃ (a b : UInt8) (v : UInt64) (pairs : List (Index × UInt8)) (last : UInt8),
    bs = little 1 a.toNat ++ (little 1 b.toNat ++ (little 8 v.toNat ++
      (pairs.flatMap ignoreBytes ++ little 1 last.toNat))) ∧
    (pairs.map Prod.fst).Nodup ∧
    f = { onChange := a.toNat != 0
          onChangeResetsInterval := b.toNat != 0
          interval := v.toInt64
          ignore := pairs.foldl (fun m e => m.emplace e.1 e.2) .empty
          sendCurrentValueAfter := last.toNat != 0 }

/-- The keys of as many pairs as the bytes have room for. -/
def keys (bs : List UInt8) : List ℕ :=
  if 8 + 1 ≤ bs.length then ofLittle (bs.take 8) :: keys (bs.drop (8 + 1)) else []
termination_by bs.length
decreasing_by
  rw [length_drop]
  omega

/-- Any bytes are the images of pairs, and less than nine bytes. -/
theorem exists_pairs (bs : List UInt8) : ∃ (pairs : List (Index × UInt8)) (tail : List UInt8),
    bs = pairs.flatMap ignoreBytes ++ tail ∧ tail.length < 9 ∧
      keys bs = pairs.map fun e => e.1.val := by
  induction h : bs.length using Nat.strong_induction_on generalizing bs with
  | _ n ih =>
      by_cases hroom : 9 ≤ bs.length
      · obtain ⟨key, hkey, rest, rfl⟩ := exists_little_append (show 8 ≤ bs.length by omega)
        rw [length_append, length_little] at hroom h
        obtain ⟨value, rest, rfl, hrest⟩ := Command.exists_uint8 rest (by omega)
        obtain ⟨pairs, tail, rfl, htail, hkeys⟩ := ih rest.length (by omega) rest rfl
        refine ⟨(⟨key, hkey⟩, value) :: pairs, tail, by simp [ignoreBytes], htail, ?_⟩
        have hdrop : (little 8 key ++ (little 1 value.toNat ++ (pairs.flatMap ignoreBytes ++
            tail))).drop (8 + 1) = pairs.flatMap ignoreBytes ++ tail := by
          rw [← append_assoc]
          exact drop_left' (by simp)
        have htake : (little 8 key ++ (little 1 value.toNat ++ (pairs.flatMap ignoreBytes ++
            tail))).take 8 = little 8 key := take_left' (by simp)
        unfold keys
        rw [if_pos (by simp only [length_append, length_little]; omega), hdrop, htake,
          ofLittle_little hkey, hkeys]
        rfl
      · refine ⟨[], bs, rfl, by omega, ?_⟩
        unfold keys
        exact if_neg (by omega)

/-- The loop over any pairs: a key that comes twice is an error. -/
theorem run_pairs {pairs : List (Index × UInt8)} (ignore : OrderedMap Index UInt8) {fuel : ℕ}
    (hfuel : pairs.length < fuel) (before : List UInt8) {tail : List UInt8}
    (htail : tail.length < 9) :
    ((readIgnore fuel ignore).run (before ++ (pairs.flatMap ignoreBytes ++ tail))).run
        before.length =
      if (pairs.map Prod.fst).Nodup ∧ ∀ e ∈ pairs, ¬ ignore.Contains e.1 then
        .ok (pairs.foldl (fun m e => m.emplace e.1 e.2) ignore,
          before.length + (pairs.flatMap ignoreBytes).length)
      else .error (.error .malformed) := by
  obtain ⟨fuel, rfl⟩ := Nat.exists_eq_add_one_of_ne_zero (Nat.ne_zero_of_lt hfuel)
  induction pairs generalizing ignore fuel before with
  | nil =>
      rw [if_pos ⟨nodup_nil, by simp⟩]
      refine run_readIgnore_of_lt ?_
      rw [flatMap_nil, nil_append, length_append, Nat.add_sub_cancel_left]
      exact htail
  | cons e pairs ih =>
      obtain ⟨key, value⟩ := e
      rw [length_cons] at hfuel
      obtain ⟨fuel, rfl⟩ := Nat.exists_eq_add_one_of_ne_zero (show fuel ≠ 0 by omega)
      have hmore : 9 ≤ (before ++ (((key, value) :: pairs).flatMap ignoreBytes ++ tail)).length -
          before.length := by
        rw [length_append, Nat.add_sub_cancel_left, length_append,
          length_flatMap_ignoreBytes, length_cons]
        omega
      rw [run_readIgnore_of_le hmore, flatMap_cons, append_assoc]
      by_cases hkey : ignore.Contains key
      · have hcond : ¬ ((((key, value) :: pairs).map Prod.fst).Nodup ∧
            ∀ e ∈ (key, value) :: pairs, ¬ ignore.Contains e.1) :=
          fun h => h.2 _ mem_cons_self hkey
        rw [if_neg hcond, ignoreBytes, append_assoc, readPair, bind_assoc,
          (reads_index key).run_bind, bind_assoc, run_failIf_bind, if_pos hkey]
      · have hrest := ih (ignore.emplace key value) (before ++ ignoreBytes (key, value)) fuel
          (by omega)
        rw [length_append, append_assoc] at hrest
        rw [(reads_readPair value hkey).run_bind, hrest]
        have hiff : ((pairs.map Prod.fst).Nodup ∧
            ∀ e ∈ pairs, ¬ (ignore.emplace key value).Contains e.1) ↔
            (((key, value) :: pairs).map Prod.fst).Nodup ∧
              ∀ e ∈ (key, value) :: pairs, ¬ ignore.Contains e.1 := by
          simp only [OrderedMap.contains_emplace, not_or, map_cons, nodup_cons,
            mem_map, not_exists, forall_mem_cons]
          grind
        rw [length_append, Nat.add_assoc]
        exact if_congr hiff rfl rfl

end DebounceFilter

/-! ### The command -/

namespace SubscribeCommand

/-- A buffer that is long enough begins with the image of the header and the ids, or with another
id. -/
theorem base_cases {buffer : List UInt8} (h : fixedSize ≤ buffer.length) :
    (∃ (c : SubscribeCommand) (rest : _), buffer = c.baseBytes ++ rest) ∨
      (buffer.head? ≠ some subscribeId ∧ deserialize buffer = .error (.error .mismatch)) := by
  rcases Command.header_cases subscribeId (le_trans (by decide) h) with ⟨hd, rest, rfl⟩ | hid
  · rw [length_append, Command.Header.length_bytes, fixedSize] at h
    obtain ⟨service, rest, rfl, h₁⟩ := Command.exists_uint16 rest (by omega)
    obtain ⟨inst, rest, rfl, h₂⟩ := Command.exists_uint16 rest (by omega)
    obtain ⟨eventgroup, rest, rfl, h₃⟩ := Command.exists_uint16 rest (by omega)
    obtain ⟨major, rest, rfl, h₄⟩ := Command.exists_uint8 rest (by omega)
    obtain ⟨event, rest, rfl, h₅⟩ := Command.exists_uint16 rest (by omega)
    obtain ⟨pendingId, rest, rfl, -⟩ := Command.exists_uint16 rest (by omega)
    refine Or.inl ⟨⟨hd.version, hd.client, hd.size, service, inst, eventgroup, major, event,
      pendingId, none⟩, rest, ?_⟩
    simp [baseBytes, Command.Header.bytes]
  · refine Or.inr ⟨hid, ?_⟩
    unfold deserialize readAll deserializeBase
    rw [run_need_bind (by omega)]
    simp only [bind_assoc]
    rw [run_head_mismatch (lt_of_lt_of_le (by decide) h) hid]
    rfl

/-- What is read behind the header and the ids. -/
theorem deserialize_append (c : SubscribeCommand) (rest : List UInt8) :
    deserialize (c.baseBytes ++ rest) = Except.map (fun f => { c with filter := f })
      (Except.map Prod.fst (((deserializeFilter ((c.baseBytes ++ rest).length + 1)).run
        (c.baseBytes ++ rest)).run fixedSize)) := by
  have hroom : 0 + fixedSize ≤ (c.baseBytes ++ rest).length := by simp
  have hbase := reads_deserializeBase (c := c) |>.run_bind (fun command => do
    return command (← deserializeFilter ((c.baseBytes ++ rest).length + 1))) [] rest
  rw [nil_append, length_nil, Nat.zero_add, length_baseBytes] at hbase
  unfold deserialize readAll
  rw [run_need_bind hroom, hbase, ReaderT.run_bind, StateT.run_bind]
  generalize ((deserializeFilter _).run _).run _ = out
  rcases out with e | ⟨f, i⟩ <;> rfl

/-- The bytes behind the head of a filter. -/
theorem run_deserializeFilter (before : List UInt8) (a b : UInt8) (v : UInt64)
    (pairs : List (Index × UInt8)) {tail : List UInt8} (htail : tail.length < 9) {fuel : ℕ}
    (hfuel : pairs.length < fuel) :
    Except.map Prod.fst (((deserializeFilter fuel).run (before ++ (little 1 a.toNat ++
        (little 1 b.toNat ++ (little 8 v.toNat ++ (pairs.flatMap ignoreBytes ++ tail)))))).run
          before.length) =
      if (pairs.map Prod.fst).Nodup then
        tail.head?.elim (.error .outside) fun last => .ok (some
          { onChange := a.toNat != 0
            onChangeResetsInterval := b.toNat != 0
            interval := v.toInt64
            ignore := pairs.foldl (fun m e => m.emplace e.1 e.2) .empty
            sendCurrentValueAfter := last.toNat != 0 })
      else .error (.error .malformed) := by
  generalize hbuffer : before ++ (little 1 a.toNat ++ (little 1 b.toNat ++ (little 8 v.toNat ++
    (pairs.flatMap ignoreBytes ++ tail)))) = buffer
  have hlong : 1 + 1 + 8 ≤ buffer.length - before.length := by
    rw [← hbuffer]
    simp only [length_append, length_little]
    omega
  have hfilter : ((deserializeFilter fuel).run buffer).run before.length =
      ((DebounceFilter.deserialize fuel >>= fun f => pure (some f)).run buffer).run
        before.length := if_pos hlong
  rw [hfilter, ← hbuffer]
  unfold DebounceFilter.deserialize
  rw [bind_assoc, (reads_scalar_little a.toNat_lt _).run_next, bind_assoc,
    (reads_scalar_little b.toNat_lt _).run_next, bind_assoc,
    (reads_scalar_little v.toNat_lt _).run_next, bind_assoc]
  generalize before ++ little 1 a.toNat ++ little 1 b.toNat ++ little 8 v.toNat = before'
  have hpairs := run_pairs .empty hfuel before' htail
  by_cases hnodup : (pairs.map Prod.fst).Nodup
  · rw [if_pos ⟨hnodup, by simp [OrderedMap.empty, OrderedMap.Contains]⟩] at hpairs
    rw [if_pos hnodup, run_bind_of_ok hpairs, bind_assoc]
    rcases tail with _ | ⟨last, tail⟩
    · have hget : ((get 1 : Reader Error _).run (before' ++ (pairs.flatMap ignoreBytes ++ []))).run
          (before'.length + (pairs.flatMap ignoreBytes).length) = .error .outside :=
        if_neg (by simp)
      rw [scalar, bind_assoc, run_bind_of_error hget]
      rfl
    · have hlast := (reads_scalar_little (ε := Error) (n := 1) last.toNat_lt (· != 0))
        (before' ++ pairs.flatMap ignoreBytes) tail
      rw [little_one, singleton_append, length_append, append_assoc] at hlast
      rw [run_bind_of_ok hlast, UInt64.ofNat_toNat]
      rfl
  · rw [if_neg fun h => hnodup h.1] at hpairs
    rw [if_neg hnodup, run_bind_of_error hpairs]
    rfl

end SubscribeCommand

open SubscribeCommand

/-- Reading stays in the buffer and ends; and if there is a filter, the bytes behind the fixed part
are exactly those of the filter. -/
def Parsed (buffer : List UInt8) : Prop :=
  Ends (fun c => ∀ f, c.filter = some f → f.At (buffer.drop fixedSize))
    (SubscribeCommand.deserialize buffer)

/-- **Reading of any bytes.** It is as it should be if and only if there are too few bytes for a
filter, the id is another one, a key comes twice, or exactly one byte is left behind the pairs. -/
theorem subscribe_parsed_iff (buffer : List UInt8) :
    Parsed buffer ↔ buffer.length < fixedSize + 10 ∨ buffer.head? ≠ some subscribeId ∨
      ¬ (keys (buffer.drop (fixedSize + 10))).Nodup ∨
        (buffer.length - (fixedSize + 10)) % 9 = 1 := by
  by_cases hfixed : fixedSize ≤ buffer.length
  swap
  · have hneed : ((need fixedSize .notEnoughBytes : Reader Error Unit).run buffer).run 0 =
        .error (.error .notEnoughBytes) := if_pos (by omega)
    refine iff_of_true ?_ (Or.inl (by omega))
    unfold Parsed SubscribeCommand.deserialize readAll
    rw [ReaderT.run_bind, StateT.run_bind, hneed]
    trivial
  rcases base_cases hfixed with ⟨c, rest, rfl⟩ | ⟨hid, hread⟩
  swap
  · refine iff_of_true ?_ (Or.inr (Or.inl hid))
    unfold Parsed
    rw [hread]
    trivial
  have hhead : (c.baseBytes ++ rest).head? = some subscribeId := by
    simp [baseBytes, little_one]
  have hdrop : (c.baseBytes ++ rest).drop fixedSize = rest :=
    drop_left' SubscribeCommand.length_baseBytes
  have hlength : (c.baseBytes ++ rest).length = fixedSize + rest.length := by simp
  unfold Parsed
  rw [deserialize_append, hdrop, hlength, hhead]
  by_cases hten : rest.length < 10
  · refine iff_of_true ?_ (Or.inl (by omega))
    have hnone : ((deserializeFilter (fixedSize + rest.length + 1)).run (c.baseBytes ++ rest)).run
        fixedSize = .ok (none, fixedSize) := if_neg (by rw [hlength]; omega)
    rw [hnone]
    exact fun f hf => (Option.some_ne_none f hf.symm).elim
  obtain ⟨a, rest, rfl, ha⟩ := Command.exists_uint8 rest (by omega)
  obtain ⟨b, rest, rfl, hb⟩ := Command.exists_uint8 rest (by omega)
  obtain ⟨v, rest, rfl, -⟩ := Command.exists_uint64 rest (by omega)
  obtain ⟨pairs, tail, rfl, htail, hkeys⟩ := exists_pairs rest
  have hbehind : (c.baseBytes ++ (little 1 a.toNat ++ (little 1 b.toNat ++ (little 8 v.toNat ++
      (pairs.flatMap ignoreBytes ++ tail))))).drop (fixedSize + 10) =
      pairs.flatMap ignoreBytes ++ tail := by
    rw [← drop_drop, hdrop]
    simp only [← append_assoc]
    rw [append_assoc]
    exact drop_left' (by simp)
  have hpairs := length_flatMap_ignoreBytes pairs
  have hfuel : pairs.length < fixedSize + (little 1 a.toNat ++ (little 1 b.toNat ++
      (little 8 v.toNat ++ (pairs.flatMap ignoreBytes ++ tail)))).length + 1 := by
    simp only [length_append]
    omega
  have hread := run_deserializeFilter c.baseBytes a b v pairs htail hfuel
  rw [SubscribeCommand.length_baseBytes] at hread
  have hnodup : (pairs.map fun e => e.1.val).Nodup ↔ (pairs.map Prod.fst).Nodup := by
    rw [← nodup_map_iff Fin.val_injective, map_map]
    rfl
  rw [hread, hbehind, hkeys, hnodup]
  simp only [length_append, length_little] at hten ⊢
  by_cases hdistinct : (pairs.map Prod.fst).Nodup
  · rw [if_pos hdistinct]
    rcases tail with _ | ⟨last, tail⟩
    · refine iff_of_false id ?_
      rintro (hshort | hid | hnot | hone)
      · omega
      · exact hid rfl
      · exact hnot hdistinct
      · rw [length_nil] at hone
        omega
    · rw [length_cons] at htail hten ⊢
      constructor
      · intro h
        obtain ⟨a', b', v', pairs', last', heq, -⟩ := h _ rfl
        have hlengths := congrArg List.length heq
        simp only [length_append, length_cons, length_little,
          length_flatMap_ignoreBytes] at hlengths
        omega
      · intro h
        have hnil : tail.length = 0 := by
          rcases h with hshort | hid | hnot | hone
          · omega
          · exact absurd rfl hid
          · exact absurd hdistinct hnot
          · omega
        obtain rfl := length_eq_zero_iff.mp hnil
        intro f hf
        cases hf
        exact ⟨a, b, v, pairs, last, by rw [little_one last], hdistinct, rfl⟩
  · rw [if_neg hdistinct]
    exact iff_of_true trivial (Or.inr (Or.inr (Or.inl hdistinct)))

/-- The fixed part and the head of a filter, without a byte behind them. -/
def headOnly : List UInt8 := subscribeId :: List.replicate (fixedSize + 9) 0

/-- The last flag is read behind the end of the buffer. -/
theorem flag_read_behind_end : ¬ Parsed headOnly := by
  have hread : SubscribeCommand.deserialize headOnly = .error .outside := by decide +kernel
  unfold Parsed
  rw [hread]
  exact id

end SomeipTunnel.Protocol.Subscribe
