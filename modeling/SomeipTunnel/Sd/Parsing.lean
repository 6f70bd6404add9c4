import SomeipTunnel.Sd.EntryCodec
import SomeipTunnel.Sd.Message
import SomeipTunnel.Sd.OptionCodec

/-!
# Reading messages from any bytes

`parts` takes a byte string apart as `deserialize` does: the header, the flags, the entries and the
bytes of the options array. `deserialize` reads the options from there, and it does so inside the
array wherever an option starts with more than two bytes or with fewer (`deserialize_eq`). With two
bytes left, `look_ahead` reads the byte behind the array (`deserialize_strays`): it compares its index
with what remains and takes one that is equal.

* `readSafely_iff`: reading is safe iff no option starts two bytes in front of the end of the array.
-/

namespace SomeipTunnel.Sd

open Codec Cursor Cursor.Parse Someip

/-! ### The parts of a byte string -/

/-- The header, the flags and the length of the entries. -/
def front : Decoder (Header × UInt8 × UInt32) := do
  let header ← header
  let flags ← byte
  let _reserved ← long true
  let entriesLength ← long false
  return (header, flags, entriesLength)

/-- The entries and the bytes of the options array behind the front. -/
def arrays (entriesLength : UInt32) (body : List UInt8) : Option (List Entry × List UInt8) :=
  if entriesLength > UInt32.ofNat body.length then none
  else
    match (Codec.many entry (entriesLength.toNat + 1)).run (body.take entriesLength.toNat) with
    | none => none
    | some (entries, _) =>
        let behind :=
          (body.drop entriesLength.toNat).take (UInt32.ofNat body.length - entriesLength).toNat
        if behind = [] then some (entries, [])
        else
          match (long false).run behind with
          | none => none
          | some (optionsLength, rest) => some (entries, rest.take optionsLength.toNat)

/-- What a byte string is made of. -/
structure Parts where
  header : Header
  flags : UInt8
  entries : List Entry
  optionsArray : List UInt8
deriving DecidableEq, Repr

/-- The parts of a byte string, if it has them. -/
def parts (data : List UInt8) : Option Parts :=
  match front.run data with
  | none => none
  | some ((header, flags, entriesLength), body) =>
      (arrays entriesLength body).map fun a => ⟨header, flags, a.1, a.2⟩

/-- Where the options of an array start. -/
def optionStarts (array : List UInt8) : List (List UInt8) := starts option (array.length + 1) array

/-- The options of an array. -/
def optionsOf (array : List UInt8) : List SdOption := gather option (array.length + 1) array

/-- The message that the parts are read as. -/
def Parts.message (p : Parts) : SdMessage :=
  ⟨p.header, p.flags, p.entries, optionsOf p.optionsArray⟩

/-! ### Reading the arrays -/

theorem follows_deserializeFront : Follows deserializeFront front :=
  follows_deserializeHeader.bind fun _ => follows_deserialize8.bind fun _ =>
    (follows_deserialize32 true).bind fun _ => (follows_deserialize32 false).bind fun _ =>
      follows_pure _

theorem discardBehind_eq (n : ℕ) (c : Cursor) :
    discardBehind n c = .ok (some (), c.limit (min c.remaining n)) := by
  rw [discardBehind, bind_of_some (a := c.remaining) rfl]
  split_ifs with h
  · rw [Nat.min_eq_right (Nat.le_of_lt h)]
    rfl
  · rw [Nat.min_eq_left (Nat.le_of_not_lt h)]
    rfl

variable {data : List UInt8} {c : Cursor}

/-- Without bytes there are no options. -/
theorem collect_of_remaining_eq_zero (h : c.remaining = 0) :
    collect deserializeOption (c.remaining + 1) c = .ok (some [], c) := by
  rw [collect_succ, if_pos h]

/-- Behind entries that are not read, nothing is. -/
theorem deserializeOptions_none (c : Cursor) :
    ∃ c', deserializeOptions none c = .ok (none, c') ∧ c'.strayed = c.strayed := by
  have h0 : (c.limit (min c.remaining 0)).remaining = 0 := Nat.min_zero _
  refine ⟨c.limit (min c.remaining 0), ?_, rfl⟩
  rw [deserializeOptions, bind_of_some (discardBehind_eq 0 c), bind_of_some rfl,
    bind_of_some (collect_of_remaining_eq_zero h0)]
  rfl

/-- Behind entries that are read, the options are read from their array, if its length is. -/
theorem deserializeOptions_some (hc : c.Sound) (entries : List Entry) :
    match (long false).run c.view with
    | none => ∃ c', deserializeOptions (some entries) c = .ok (none, c') ∧ c'.strayed = c.strayed
    | some (optionsLength, rest) =>
        ∃ c', c'.Sound ∧ c'.view = rest.take optionsLength.toNat ∧ c'.strayed = c.strayed ∧
          deserializeOptions (some entries) c =
            (collect deserializeOption (c'.view.length + 1) >>=
              fun options => pure (entries, options)) c' := by
  have hfollows := follows_deserialize32 false c hc
  rcases hd : (long false).run c.view with - | ⟨optionsLength, rest⟩
  · obtain ⟨n, hn, hrun⟩ := hfollows.eq_none hd
    have h0 : ((c.leaving n).limit (min (c.leaving n).remaining 0)).remaining = 0 := Nat.min_zero _
    refine ⟨(c.leaving n).limit (min (c.leaving n).remaining 0), ?_, rfl⟩
    rw [deserializeOptions, bind_of_some (attempt_of_ok hrun)]
    exact (bind_of_some (discardBehind_eq 0 _)).trans
      ((bind_of_some rfl).trans (bind_of_some (collect_of_remaining_eq_zero h0)))
  · obtain ⟨hrun, hle, hview⟩ := hfollows.eq_ok hc hd
    have hsound := hc.leaving hle
    have hmin := Nat.min_le_left (c.leaving rest.length).remaining optionsLength.toNat
    have hsound' := hsound.limit hmin
    refine ⟨_, hsound', ?_, rfl, ?_⟩
    · rw [view_limit hmin, hview, remaining_leaving, List.take_eq_take_iff]
      omega
    · rw [deserializeOptions, bind_of_some (attempt_of_ok hrun), hsound'.length_view]
      exact (bind_of_some (discardBehind_eq _ _)).trans (bind_of_some rfl)

/-- What is left to do when the entries have been tried. -/
def behindEntries : Option (List Entry) → ℕ → Parse (List Entry × List SdOption)
  | none, 0 => fail
  | some entries, 0 => pure (entries, [])
  | entries, _ + 1 => deserializeOptions entries

theorem deserializeArrays_of_entries {c' : Cursor} {entriesLength : UInt32}
    {entries : Option (List Entry)} (hfit : ¬ entriesLength > UInt32.ofNat c.remaining)
    (hentries : Parse.many deserializeEntry (entriesLength.toNat + 1) (c.limit entriesLength.toNat) =
      .ok (entries, c')) : deserializeArrays entriesLength c =
      behindEntries entries (UInt32.ofNat c.remaining - entriesLength).toNat
        (c'.limit (UInt32.ofNat c.remaining - entriesLength).toNat) := by
  rw [deserializeArrays, bind_of_some (a := c.remaining) rfl, if_neg hfit, bind_of_some rfl,
    bind_of_some (attempt_of_ok hentries), bind_of_some rfl, bind_of_some rfl, remaining_limit]
  generalize (UInt32.ofNat c.remaining - entriesLength).toNat = m
  rcases m with - | m
  · rw [if_pos rfl]
    cases entries <;> rfl
  · rw [if_neg (Nat.succ_ne_zero m)]
    cases entries <;> rfl

/-- **The arrays are read as they are taken apart**: without them there is no message, with them
what is left is to read the options of the array. -/
theorem deserializeArrays_eq (hc : c.Sound) (entriesLength : UInt32) :
    match arrays entriesLength c.view with
    | none => ∃ c', deserializeArrays entriesLength c = .ok (none, c') ∧ c'.strayed = c.strayed
    | some (entries, array) =>
        ∃ c', c'.Sound ∧ c'.view = array ∧ c'.strayed = c.strayed ∧
          deserializeArrays entriesLength c =
            (collect deserializeOption (c'.view.length + 1) >>=
              fun options => pure (entries, options)) c' := by
  rw [arrays, hc.length_view]
  by_cases hfit : entriesLength > UInt32.ofNat c.remaining
  · rw [if_pos hfit]
    refine ⟨c, ?_, rfl⟩
    rw [deserializeArrays, bind_of_some (a := c.remaining) rfl, if_pos hfit]
    rfl
  rw [if_neg hfit]
  have hle : entriesLength ≤ UInt32.ofNat c.remaining := UInt32.not_lt.mp hfit
  have hsave : (UInt32.ofNat c.remaining).toNat ≤ c.remaining := by
    rw [UInt32.toNat_ofNat']
    exact Nat.mod_le _ _
  have hn : entriesLength.toNat ≤ (UInt32.ofNat c.remaining).toNat := UInt32.le_iff_toNat_le.mp hle
  have hm : (UInt32.ofNat c.remaining - entriesLength).toNat ≤
      c.remaining - entriesLength.toNat := by
    rw [UInt32.toNat_sub_of_le _ _ hle]
    exact Nat.sub_le_sub_right hsave _
  have hsound := hc.limit (hn.trans hsave)
  have hfollows := followsAt_many (fun c hc h0 => followsAt_deserializeEntry hc h0)
    (fun _ _ _ => lt_of_run_entry) _ _ hsound (Nat.lt_succ_self _)
  have hview := view_limit (hn.trans hsave)
  rcases hd : (Codec.many entry (entriesLength.toNat + 1)).run (c.view.take entriesLength.toNat)
    with - | ⟨entries, rest⟩
  · obtain ⟨k, -, hrun⟩ := hfollows.eq_none (by rw [hview]; exact hd)
    rw [deserializeArrays_of_entries hfit hrun]
    generalize (UInt32.ofNat c.remaining - entriesLength).toNat = m
    rcases m with - | m
    · exact ⟨_, rfl, rfl⟩
    · exact deserializeOptions_none _
  · obtain rfl := rest_of_run_many hd
    obtain ⟨hrun, -, -⟩ := hfollows.eq_ok hsound (by rw [hview]; exact hd)
    rw [deserializeArrays_of_entries hfit hrun, List.length_nil, limit_leaving_zero (hn.trans hsave)]
    have hsound' := (hc.leaving (Nat.sub_le c.remaining entriesLength.toNat)).limit hm
    have hview' := view_limit (c := c.leaving (c.remaining - entriesLength.toNat)) hm
    rw [view_leaving (Nat.sub_le _ _), Nat.sub_sub_self (hn.trans hsave)] at hview'
    have hlength := hsound'.length_view
    rw [hview', remaining_limit] at hlength
    generalize (UInt32.ofNat c.remaining - entriesLength).toNat = m at *
    dsimp only
    rcases m with - | m
    · rw [if_pos (List.eq_nil_of_length_eq_zero hlength)]
      refine ⟨_, hsound', List.eq_nil_of_length_eq_zero hsound'.length_view, rfl, ?_⟩
      rw [hsound'.length_view, bind_of_some (collect_of_remaining_eq_zero remaining_limit)]
      rfl
    · rw [if_neg (fun h => by rw [h] at hlength; cases hlength), ← hview']
      have hoptions := deserializeOptions_some hsound' entries
      rcases hlong : (long false).run
        ((c.leaving (c.remaining - entriesLength.toNat)).limit (m + 1)).view with - | ⟨length, rest⟩
      · rw [hlong] at hoptions
        exact hoptions
      · rw [hlong] at hoptions
        exact hoptions

/-! ### Reading messages -/

/-- An option takes a byte at least. -/
theorem lt_of_run_option (data : List UInt8) (o : SdOption) (rest : List UInt8)
    (h : option.run data = some (o, rest)) : rest.length < data.length := by
  have := atLeast_option data o rest h
  omega

/-- With two bytes left the look-ahead has a fault or strays, and there is no option. -/
theorem deserializeOption_strays (hc : c.Sound) (h2 : c.remaining = 2) (o : Option SdOption)
    (c' : Cursor) (h : deserializeOption c = .ok (o, c')) : o = none ∧ c'.strayed = true := by
  have hlook : lookAhead 2 c = peek 2 c := by
    rw [lookAhead, if_neg (by omega)]
  rcases hbyte : c.data[c.position + 2]? with - | b
  · have hpeek : lookAhead 2 c = .error .outside := by
      rw [hlook, peek, hbyte]
    simp only [deserializeOption, Bind.bind, hpeek] at h
    cases h
  · have hpeek : lookAhead 2 c = .ok (some b, { c with strayed := true }) := by
      rw [hlook, peek, hbyte]
      simp only [h2, Nat.le_refl, decide_true, Bool.or_true]
    rw [deserializeOption, bind_of_some hpeek] at h
    -- every class reads a header of four bytes
    have hsound : ({ c with strayed := true } : Cursor).Sound := hc
    have hnone : (optionAs (OptionType.ofByte b)).run c.view = none := by
      rcases hrun : (optionAs (OptionType.ofByte b)).run c.view with - | ⟨o, rest⟩
      · rfl
      · have hlength := atLeast_optionAs _ _ _ _ hrun
        rw [hc.length_view] at hlength
        omega
    obtain ⟨n, -, hrun⟩ := (follows_deserializeAs (OptionType.ofByte b) _ hsound).eq_none hnone
    rw [hrun] at h
    cases h
    exact ⟨rfl, rfl⟩

/-- What is read behind the front. -/
theorem deserialize_of_front {body : List UInt8} {f : Header × UInt8 × UInt32}
    (h : front.run data = some (f, body)) :
    ∃ c : Cursor, c.Sound ∧ c.view = body ∧ c.strayed = false ∧
      deserialize (start data) = (deserializeArrays f.2.2 >>= fun parts =>
        pure (⟨f.1, f.2.1, parts.1, parts.2⟩ : SdMessage)) c := by
  have hsound := sound_start data
  obtain ⟨hrun, hle, hview⟩ := (follows_deserializeFront _ hsound).eq_ok hsound
    (by rw [view_start]; exact h)
  exact ⟨_, hsound.leaving hle, hview, rfl, bind_of_some hrun⟩

/-- **A byte string without its parts** is not a message. -/
theorem deserialize_eq_none (h : parts data = none) :
    ∃ c, deserialize (start data) = .ok (none, c) ∧ c.strayed = false := by
  unfold parts at h
  rcases hfront : front.run data with - | ⟨f, body⟩
  · obtain ⟨n, -, hrun⟩ := (follows_deserializeFront _ (sound_start data)).eq_none
      (by rw [view_start]; exact hfront)
    exact ⟨_, bind_of_none hrun, rfl⟩
  · rw [hfront] at h
    obtain ⟨c, hc, rfl, hstrayed, hrun⟩ := deserialize_of_front hfront
    have harrays := deserializeArrays_eq hc f.2.2
    rw [Option.map_eq_none_iff.mp h] at harrays
    obtain ⟨c', hnone, hstrayed'⟩ := harrays
    exact ⟨c', hrun.trans (bind_of_none hnone), hstrayed'.trans hstrayed⟩

variable {p : Parts}

/-- What is left to read of a byte string with its parts: the options of the array. -/
theorem deserialize_of_parts (h : parts data = some p) :
    ∃ c : Cursor, c.Sound ∧ c.view = p.optionsArray ∧ c.strayed = false ∧
      deserialize (start data) = (collect deserializeOption (c.view.length + 1) >>= fun options =>
        pure (⟨p.header, p.flags, p.entries, options⟩ : SdMessage)) c := by
  unfold parts at h
  rcases hfront : front.run data with - | ⟨f, body⟩
  · rw [hfront] at h
    cases h
  · rw [hfront] at h
    obtain ⟨c, hc, rfl, hstrayed, hrun⟩ := deserialize_of_front hfront
    have harrays := deserializeArrays_eq hc f.2.2
    obtain ⟨⟨entries, array⟩, hsome, rfl⟩ := Option.map_eq_some_iff.mp h
    rw [hsome] at harrays
    obtain ⟨c', hc', hview, hstrayed', hrun'⟩ := harrays
    refine ⟨c', hc', hview, hstrayed'.trans hstrayed, hrun.trans ?_⟩
    rcases hcollect : collect deserializeOption (c'.view.length + 1) c' with e | ⟨- | options, c''⟩
    · simp only [Bind.bind, hrun', hcollect]
    · rw [bind_of_none hcollect, bind_of_none (hrun'.trans (bind_of_none hcollect))]
    · rw [bind_of_some hcollect, bind_of_some (hrun'.trans (bind_of_some hcollect))]

/-- **Reading a message**: where no option starts two bytes in front of the end of its array, the
message is that of the parts, and only bytes of the part at hand are read. -/
theorem deserialize_eq (h : parts data = some p)
    (h2 : ∀ rest ∈ optionStarts p.optionsArray, rest.length ≠ 2) :
    ∃ c, deserialize (start data) = .ok (some p.message, c) ∧ c.strayed = false := by
  obtain ⟨c, hc, hview, hstrayed, hrun⟩ := deserialize_of_parts h
  rw [← hview] at h2
  have hlt : c.remaining < c.view.length + 1 := by
    rw [hc.length_view]
    exact Nat.lt_succ_self _
  obtain ⟨n, -, hcollect⟩ := collect_eq (fun _ hc h2 => followsAt_deserializeOption hc h2)
    lt_of_run_option _ c hc hlt h2
  refine ⟨c.leaving n, hrun.trans ((bind_of_some hcollect).trans ?_), hstrayed⟩
  rw [Parts.message, optionsOf, ← hview]
  rfl

/-- A byte string with its parts is a message, whatever its options are. -/
theorem deserialize_ne_none (h : parts data = some p) (c' : Cursor) :
    deserialize (start data) ≠ .ok (none, c') := by
  obtain ⟨c, -, -, -, heq⟩ := deserialize_of_parts h
  intro hrun
  obtain ⟨- | options, hcollect, hmap⟩ := exists_of_bind_pure (heq.symm.trans hrun)
  · exact collect_ne_none _ _ _ _ hcollect
  · cases hmap

/-- **Straying**: where an option starts two bytes in front of the end of its array, the byte behind
the array is read, or there is none. -/
theorem deserialize_strays (h : parts data = some p)
    (h2 : ∃ rest ∈ optionStarts p.optionsArray, rest.length = 2) (m : Option SdMessage)
    (c' : Cursor) (hrun : deserialize (start data) = .ok (m, c')) : c'.strayed = true := by
  obtain ⟨c, hc, hview, -, heq⟩ := deserialize_of_parts h
  rw [← hview] at h2
  have hlt : c.remaining < c.view.length + 1 := by
    rw [hc.length_view]
    exact Nat.lt_succ_self _
  obtain ⟨options, hcollect, -⟩ := exists_of_bind_pure (heq.symm.trans hrun)
  exact collect_strays (fun _ hc h2 => followsAt_deserializeOption hc h2) lt_of_run_option
    (fun _ hc h2 => deserializeOption_strays hc h2) _ c hc hlt h2 _ _ hcollect

/-! ### Safety -/

/-- Looking up an index gives one of the options, or none. -/
def SdMessage.LooksUp (m : SdMessage) : Prop :=
  ∀ e ∈ m.entries, ∀ i ∈ e.run1 ++ e.run2,
    m.getOption (i : ℕ) = none ∨ ∃ o ∈ m.options, m.getOption (i : ℕ) = some o

/-- Reading the byte string ends without a fault and without a byte outside the part at hand, and
every index of an entry that is read addresses an option that is read, or none. -/
def ReadSafely (data : List UInt8) : Prop :=
  ∃ r c, deserialize (start data) = .ok (r, c) ∧ c.strayed = false ∧ ∀ m, r = some m → m.LooksUp

theorem SdMessage.looksUp (m : SdMessage) : m.LooksUp := by
  intro e _ i _
  unfold getOption
  split_ifs with hpos hlt
  · rw [List.getElem?_eq_getElem hlt]
    exact Or.inr ⟨_, List.getElem_mem hlt, rfl⟩
  · exact Or.inl rfl
  · exact Or.inl rfl

/-- **Reading is safe** for exactly the byte strings in which no option starts two bytes in front of
the end of the options array. -/
theorem readSafely_iff (data : List UInt8) : ReadSafely data ↔
    ∀ p, parts data = some p → ∀ rest ∈ optionStarts p.optionsArray, rest.length ≠ 2 := by
  constructor
  · rintro ⟨r, c, hrun, hstrayed, -⟩ p hp rest hrest h2
    have := deserialize_strays hp ⟨rest, hrest, h2⟩ r c hrun
    rw [hstrayed] at this
    cases this
  · intro h
    rcases hp : parts data with - | p
    · obtain ⟨c, hrun, hstrayed⟩ := deserialize_eq_none hp
      exact ⟨none, c, hrun, hstrayed, fun _ h => nomatch h⟩
    · obtain ⟨c, hrun, hstrayed⟩ := deserialize_eq hp (h p hp)
      exact ⟨_, c, hrun, hstrayed, fun m _ => m.looksUp⟩

/-- A message without entries whose options array has two bytes. -/
def twoBytes : List UInt8 :=
  (⟨0xFFFF, 0x8100, 22, 0, 1, 1, 1, 2, 0⟩ : Header).serialize 22 ++
    [0xC0, 0, 0, 0, 0, 0, 0, 0, 0, 0, 0, 2, 0, 9]

/-- **The look-ahead leaves the message**: the third byte of an option that has two is read behind
the end of the byte string. -/
theorem twoBytes_outside :
    deserialize (start twoBytes) = .error .outside ∧ ¬ ReadSafely twoBytes := by
  have h : deserialize (start twoBytes) = .error .outside := by decide +kernel
  refine ⟨h, ?_⟩
  rintro ⟨r, c, hrun, -⟩
  rw [h] at hrun
  cases hrun

end SomeipTunnel.Sd
