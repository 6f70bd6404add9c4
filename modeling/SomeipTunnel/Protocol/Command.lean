import SomeipTunnel.Protocol.Subscribe

/-!
# The header of a command, and the command that asks for a client id

Every command between an application and the routing host begins with the same header, which says
how many bytes follow. `Header.bytes` is its image: writing puts it into the buffer, and a buffer
that is long enough begins with such an image or has another id (`header_cases`).

The first command that an application sends asks for a client id, with the name of the application
behind the header. The writer takes the end of the buffer for the end of the name. The reader takes
the address of the last byte for it, so that this byte is not part of the name
(`assign_client_codec_iff`).

Source: vsomeip/implementation/protocol/src/command.cpp, assign_client_command.cpp
-/

namespace SomeipTunnel.Protocol.Command

open Indexed List

/-- Source: `error_e`, as far as these commands need it. -/
inductive Error where
  | notEnoughBytes
  | maxCommandSizeExceeded
  | mismatch
  | unknown
deriving DecidableEq

/-- Source: `command`, but for the id. -/
structure Header where
  version : UInt16
  client : UInt16
  size : UInt32
deriving DecidableEq

/-- Source: `std::numeric_limits<command_size_t>::max()`. -/
def maxCommandSize : ℕ := 2 ^ 32 - 1

/-- Source: `MAX_SUPPORTED_VERSION`, the version of a new command. -/
def maxSupportedVersion : UInt16 := 0

/-- Source: `command::serialize`. -/
def Header.serialize (h : Header) (id : UInt8) : Indexed.Writer Error Unit := do
  put (little 1 id.toNat)
  put (little 2 h.version.toNat)
  put (little 2 h.client.toNat)
  put (little 4 h.size.toNat)

/-- Source: `command::deserialize`. -/
def deserializeHeader (id : UInt8) : Reader Error Header := do
  let itsId ← scalar 1 UInt8.ofNat
  failIf (itsId ≠ id) Error.mismatch
  let version ← scalar 2 UInt16.ofNat
  let client ← scalar 2 UInt16.ofNat
  let size ← scalar 4 UInt32.ofNat
  return { version, client, size }

/-! ### Numbers -/

theorem exists_uint8 (bs : List UInt8) (h : 1 ≤ bs.length) :
    ∃ (x : UInt8) (rest : _), bs = little 1 x.toNat ++ rest ∧ bs.length = 1 + rest.length := by
  obtain ⟨v, hv, rest, rfl⟩ := exists_little_append h
  exact ⟨UInt8.ofNat v, rest, by rw [UInt8.toNat_ofNat_of_lt' hv], by simp⟩

theorem exists_uint16 (bs : List UInt8) (h : 2 ≤ bs.length) :
    ∃ (x : UInt16) (rest : _), bs = little 2 x.toNat ++ rest ∧ bs.length = 2 + rest.length := by
  obtain ⟨v, hv, rest, rfl⟩ := exists_little_append h
  exact ⟨UInt16.ofNat v, rest, by rw [UInt16.toNat_ofNat_of_lt' hv], by simp⟩

theorem exists_uint32 (bs : List UInt8) (h : 4 ≤ bs.length) :
    ∃ (x : UInt32) (rest : _), bs = little 4 x.toNat ++ rest ∧ bs.length = 4 + rest.length := by
  obtain ⟨v, hv, rest, rfl⟩ := exists_little_append h
  exact ⟨UInt32.ofNat v, rest, by rw [UInt32.toNat_ofNat_of_lt' hv], by simp⟩

theorem exists_uint64 (bs : List UInt8) (h : 8 ≤ bs.length) :
    ∃ (x : UInt64) (rest : _), bs = little 8 x.toNat ++ rest ∧ bs.length = 8 + rest.length := by
  obtain ⟨v, hv, rest, rfl⟩ := exists_little_append h
  exact ⟨UInt64.ofNat v, rest, by rw [UInt64.toNat_ofNat_of_lt' hv], by simp⟩

/-! ### The header -/

namespace Header

variable {h : Header} {id : UInt8}

/-- The image of a header. -/
def bytes (h : Header) (id : UInt8) : List UInt8 :=
  little 1 id.toNat ++ (little 2 h.version.toNat ++
    (little 2 h.client.toNat ++ little 4 h.size.toNat))

@[simp] theorem length_bytes : (h.bytes id).length = commandHeaderSize := by
  simp [bytes, commandHeaderSize]

theorem writes_serialize : Writes (h.serialize id) (h.bytes id) :=
  (writes_put _).then ((writes_put _).then ((writes_put _).then (writes_put _)))

theorem reads_deserialize (h : Header) (id : UInt8) : Reads (deserializeHeader id) (h.bytes id) h :=
  (reads_uint8 id).bind ((reads_failIf Error.mismatch (not_not.mpr rfl)).bind
    ((reads_uint16 _).bind ((reads_uint16 _).bind ((reads_uint32 _).check (reads_pure _)))))

/-- What follows the header is read from behind it. -/
theorem run_bind (f : Header → Reader Error α) (rest : List UInt8) :
    ((deserializeHeader id >>= f).run (h.bytes id ++ rest)).run 0 =
      ((f h).run (h.bytes id ++ rest)).run commandHeaderSize := by
  have hrun := (reads_deserialize h id).run_bind f [] rest
  rwa [nil_append, length_nil, Nat.zero_add, length_bytes] at hrun

end Header

theorem Header.head?_bytes (h : Header) (id : UInt8) (rest : List UInt8) :
    (h.bytes id ++ rest).head? = some id := by
  simp [bytes, little_one]

/-- A buffer that is long enough begins with the image of a header, or with another id. -/
theorem header_cases (id : UInt8) {buffer : List UInt8} (h : commandHeaderSize ≤ buffer.length) :
    (∃ (hd : Header) (rest : _), buffer = hd.bytes id ++ rest) ∨ buffer.head? ≠ some id := by
  unfold commandHeaderSize at h
  obtain ⟨itsId, rest, rfl, h₁⟩ := exists_uint8 buffer (by omega)
  by_cases hid : itsId = id
  · subst hid
    obtain ⟨version, rest, rfl, h₂⟩ := exists_uint16 rest (by omega)
    obtain ⟨client, rest, rfl, h₃⟩ := exists_uint16 rest (by omega)
    obtain ⟨size, rest, rfl, -⟩ := exists_uint32 rest (by omega)
    exact Or.inl ⟨⟨version, client, size⟩, rest, by simp [Header.bytes]⟩
  · exact Or.inr (by simpa [little_one] using hid)

theorem run_header_mismatch {id : UInt8} {buffer : List UInt8}
    (h : commandHeaderSize ≤ buffer.length) (hid : buffer.head? ≠ some id)
    (f : Header → Reader Error α) :
    ((deserializeHeader id >>= f).run buffer).run 0 = .error (.error .mismatch) := by
  unfold deserializeHeader
  rw [bind_assoc]
  simp only [bind_assoc]
  exact run_head_mismatch (Nat.lt_of_lt_of_le (by decide) h) hid _ _

/-- A reader that checks the size of the header, reads it and stays in the buffer behind it. -/
theorem stays_header {id : UInt8} {P : α → ℕ → Prop} {f : Header → Reader Error α} {n : ℕ}
    (hn : commandHeaderSize ≤ n) {buffer : List UInt8}
    (h : ∀ (hd : Header) rest, buffer = hd.bytes id ++ rest → n ≤ buffer.length →
      Stays P (((f hd).run buffer).run commandHeaderSize)) :
    Stays P (((need n .notEnoughBytes >>= fun _ => deserializeHeader id >>= f).run buffer).run
      0) := by
  refine stays_need_bind fun hroom => ?_
  rw [Nat.zero_add] at hroom
  rcases header_cases id (hn.trans hroom) with ⟨hd, rest, rfl⟩ | hid
  · rw [Header.run_bind]
    exact h hd rest rfl hroom
  · rw [run_header_mismatch (hn.trans hroom) hid]
    trivial

/-! ### The name of an application -/

/-- Source: `id_e::ASSIGN_CLIENT_ID`. -/
def assignClientId : UInt8 := 0x00

/-- Source: `assign_client_command`, with the members of `command`. -/
structure AssignClientCommand where
  header : Header
  name : List UInt8
deriving DecidableEq

namespace AssignClientCommand

variable (c : AssignClientCommand)

/-- Source: `its_size` in `serialize`. -/
def totalSize : ℕ := commandHeaderSize + c.name.length

/-- The header with the size set. -/
def sized : Header := { c.header with size := UInt32.ofNat c.name.length }

def writeAll : Indexed.Writer Error Unit := do
  c.sized.serialize assignClientId
  if c.name = [] then pure () else put c.name

/-- What stands in the buffer, which is resized before. -/
def serialize (buffer : List UInt8) : Except (Failure Error) (List UInt8) :=
  if maxCommandSize < c.totalSize then .error (.error .maxCommandSizeExceeded)
  else Except.map (fun r => r.2.1) (c.writeAll.run (Buffer.resize buffer c.totalSize 0, 0))

/-- `name_.assign(&_buffer[COMMAND_POSITION_PAYLOAD], &_buffer[_buffer.size() - 1])`, for a command
whose name is empty. There is no element at the first address if the buffer ends there. -/
def deserializeName (size : UInt32) : Reader Error (List UInt8) := fun buffer index =>
  if 0 < size then
    if index < buffer.length then
      .ok (Buffer.slice buffer index (buffer.length - 1 - index), buffer.length - 1)
    else .error .outside
  else .ok ([], index)

/-- A new command reads the buffer. -/
def deserialize (buffer : List UInt8) : Except (Failure Error) AssignClientCommand :=
  Except.map Prod.fst (((do
    need commandHeaderSize Error.notEnoughBytes
    let header ← deserializeHeader assignClientId
    let name ← deserializeName header.size
    return { header, name } : Reader Error _).run buffer).run 0)

/-- What is written is read as the same name, unless the error says that it is too long. -/
def RoundTrips : Prop :=
  ∀ buffer, c.serialize buffer = .error (.error .maxCommandSizeExceeded) ∨
    ∃ bytes c', c.serialize buffer = .ok bytes ∧ deserialize bytes = .ok c' ∧ c'.name = c.name

/-- The image of the command. -/
def bytes : List UInt8 := c.sized.bytes assignClientId ++ c.name

variable {c}

theorem serialize_eq (h : c.totalSize ≤ maxCommandSize) (buffer : List UInt8) :
    c.serialize buffer = .ok c.bytes := by
  have hname : Writes (if c.name = [] then pure () else put c.name : Indexed.Writer Error Unit)
      c.name := by
    split_ifs with hnil
    · rw [hnil]
      exact writes_pure
    · exact writes_put _
  have hall : Writes c.writeAll c.bytes := Header.writes_serialize.then hname
  have hlength : (Buffer.resize buffer c.totalSize 0).length = c.bytes.length := by
    simp [bytes, totalSize]
  have hrun := hall.run_fill hlength
  rw [serialize, if_neg (Nat.not_lt.mpr h), hrun]
  rfl

/-- What is read behind a header. -/
theorem deserialize_append (hd : Header) (rest : List UInt8) :
    deserialize (hd.bytes assignClientId ++ rest) = if 0 < hd.size then
        if rest = [] then .error .outside else .ok { header := hd, name := rest.dropLast }
      else .ok { header := hd, name := [] } := by
  have hroom : 0 + commandHeaderSize ≤ (hd.bytes assignClientId ++ rest).length := by simp
  unfold deserialize
  rw [run_need_bind hroom, Header.run_bind, ReaderT.run_bind, StateT.run_bind]
  have hlength : (hd.bytes assignClientId ++ rest).length = commandHeaderSize + rest.length := by
    simp
  have hname : ((deserializeName hd.size).run (hd.bytes assignClientId ++ rest)).run
      commandHeaderSize = if 0 < hd.size then
        if rest = [] then .error .outside
        else .ok (rest.dropLast, commandHeaderSize + rest.length - 1)
      else .ok ([], commandHeaderSize) := by
    change deserializeName _ _ _ = _
    unfold deserializeName
    rw [hlength]
    by_cases hsize : 0 < hd.size
    · rw [if_pos hsize, if_pos hsize]
      by_cases hrest : rest = []
      · subst hrest
        rfl
      · have hpos := length_pos_iff.mpr hrest
        have hslice : Buffer.slice (hd.bytes assignClientId ++ rest) commandHeaderSize
            (commandHeaderSize + rest.length - 1 - commandHeaderSize) = rest.dropLast := by
          rw [Buffer.slice, drop_left' Header.length_bytes, dropLast_eq_take]
          congr 1
          omega
        rw [if_pos (by omega), if_neg hrest, hslice]
    · rw [if_neg hsize, if_neg hsize]
  rw [hname]
  split_ifs <;> rfl

end AssignClientCommand

open AssignClientCommand

/-- **The name is read back only if it is empty**, and the buffer is left only by a header without
anything behind it that says that there is a name. -/
theorem assign_client_codec_iff (c : AssignClientCommand) (buffer : List UInt8) :
    (c.RoundTrips ↔ c.name = [] ∨ maxCommandSize < commandHeaderSize + c.name.length) ∧
    (AssignClientCommand.deserialize buffer ≠ .error .outside ↔
      ∀ hd : Header, 0 < hd.size → buffer ≠ hd.bytes assignClientId) := by
  constructor
  · by_cases hsize : c.totalSize ≤ maxCommandSize
    · have hfits : c.name.length < 2 ^ 32 := by
        unfold totalSize maxCommandSize at hsize
        omega
      have hread : AssignClientCommand.deserialize c.bytes =
          .ok { header := c.sized, name := c.name.dropLast } := by
        rw [bytes, deserialize_append]
        by_cases hnil : c.name = []
        · rw [if_neg (by simp [sized, hnil]), hnil]
          rfl
        · have hpos : 0 < c.sized.size := by
            rw [UInt32.lt_iff_toNat_lt, sized, UInt32.toNat_ofNat_of_lt' hfits]
            exact length_pos_iff.mpr hnil
          rw [if_pos hpos, if_neg hnil]
      refine ⟨fun h => Or.inl ?_, fun h => fun buffer => Or.inr ?_⟩
      · rcases h [] with herror | ⟨bs, c', hwrite, hread', hname⟩
        · rw [serialize_eq hsize] at herror
          cases herror
        · rw [serialize_eq hsize] at hwrite
          cases hwrite
          rw [hread] at hread'
          cases hread'
          by_contra hnil
          have hlength := congrArg List.length hname
          rw [length_dropLast] at hlength
          have hpos := length_pos_iff.mpr hnil
          omega
      · have hnil : c.name = [] := h.resolve_right (Nat.not_lt.mpr hsize)
        exact ⟨_, _, serialize_eq hsize buffer, hread, by rw [hnil]; rfl⟩
    · refine iff_of_true (fun buffer => Or.inl ?_) (Or.inr (Nat.not_le.mp hsize))
      rw [serialize, if_pos (Nat.not_le.mp hsize)]
  · by_cases hroom : commandHeaderSize ≤ buffer.length
    · rcases header_cases assignClientId hroom with ⟨hd, rest, rfl⟩ | hid
      · rw [deserialize_append]
        refine ⟨fun h hd' hpos heq => h ?_, fun h => ?_⟩
        · have hlength := congrArg List.length heq
          rw [length_append, Header.length_bytes, Header.length_bytes] at hlength
          obtain rfl : rest = [] := length_eq_zero_iff.mp (by omega)
          rw [append_nil] at heq
          have hread := Header.reads_deserialize hd assignClientId [] []
          have hread' := Header.reads_deserialize hd' assignClientId [] []
          rw [heq, hread'] at hread
          cases hread
          rw [if_pos hpos, if_pos rfl]
        · split_ifs with hpos hrest
          · subst hrest
            exact absurd (append_nil _) (h hd hpos)
          · exact fun h => by cases h
          · exact fun h => by cases h
      · have hread : AssignClientCommand.deserialize buffer = .error (.error .mismatch) := by
          unfold AssignClientCommand.deserialize
          rw [run_need_bind (by omega), run_header_mismatch hroom hid]
          rfl
        rw [hread]
        refine iff_of_true (fun h => by cases h) fun hd _ heq => hid ?_
        rw [heq, ← hd.head?_bytes assignClientId [], append_nil]
    · have hread : AssignClientCommand.deserialize buffer = .error (.error .notEnoughBytes) := by
        have hneed : ((need commandHeaderSize .notEnoughBytes : Reader Error Unit).run buffer).run
            0 = .error (.error .notEnoughBytes) := if_pos (by omega)
        unfold AssignClientCommand.deserialize
        rw [ReaderT.run_bind, StateT.run_bind, hneed]
        rfl
      rw [hread]
      refine iff_of_true (fun h => by cases h) fun hd _ heq => hroom ?_
      rw [heq, Header.length_bytes]

/-- The name `ab` is read as `a`. -/
theorem last_byte_of_name_lost :
    ¬ (⟨⟨0, 0x1234, 0⟩, [0x61, 0x62]⟩ : AssignClientCommand).RoundTrips := by
  intro h
  have hserialize : (⟨⟨0, 0x1234, 0⟩, [0x61, 0x62]⟩ : AssignClientCommand).serialize [] =
      .ok [0, 0, 0, 0x34, 0x12, 2, 0, 0, 0, 0x61, 0x62] := by decide +kernel
  have hdeserialize : AssignClientCommand.deserialize
      [0, 0, 0, 0x34, 0x12, 2, 0, 0, 0, 0x61, 0x62] = .ok ⟨⟨0, 0x1234, 2⟩, [0x61]⟩ := by
    decide +kernel
  rcases h [] with herror | ⟨bs, c', hwrite, hread, hname⟩
  · rw [hserialize] at herror
    cases herror
  · rw [hserialize] at hwrite
    cases hwrite
    rw [hdeserialize] at hread
    cases hread
    exact absurd hname (by decide)

end SomeipTunnel.Protocol.Command
