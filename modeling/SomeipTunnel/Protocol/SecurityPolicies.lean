import SomeipTunnel.Protocol.Command
import SomeipTunnel.Security.PolicyParser

/-!
# The command that distributes security policies

The routing host sends the policies that it has got to an application: a count and, each behind its
length, the policies as they arrived. The buffer is sized by what `set_payloads` has put together.
Without a call of it the command has no bytes behind the header, and the zero that is written there
as the count has no room.

`distribute_codec_iff`: a command with payloads that `policy::deserialize` accepts is written inside
its buffer and read as their policies iff `set_payloads` was called; and whatever bytes arrive, they
are read to an end and inside the vector, and an error leaves no policy.

Source: vsomeip/implementation/protocol/src/distribute_security_policies_command.cpp
-/

namespace SomeipTunnel.Protocol.Command

open Indexed List Security Buffer

/-- Source: `id_e::DISTRIBUTE_SECURITY_POLICIES_ID`. -/
def distributeSecurityPoliciesId : UInt8 := 0x28

/-- Source: `distribute_security_policies_command`, with the members of `command`. -/
structure DistributeCommand [Icl.Containers] where
  header : Header
  payload : List UInt8
  policies : List Policy

namespace DistributeCommand

section containers

variable [Icl.Containers] (c : DistributeCommand)

/-- A new command. -/
def new (client : UInt16) : DistributeCommand := ⟨⟨maxSupportedVersion, client, 0⟩, [], []⟩

/-- A payload behind its length. -/
def framed (itsPayload : List UInt8) : List UInt8 := little 4 itsPayload.length ++ itsPayload

/-- Source: `distribute_security_policies_command::set_payloads`; the payloads in the order of their
users. -/
def setPayloads (payloads : List (List UInt8)) : DistributeCommand :=
  { c with payload := c.payload ++ (little 4 payloads.length ++ payloads.flatMap framed) }

def totalSize : ℕ := commandHeaderSize + min c.payload.length maxCommandSize

/-- What `command::serialize` writes. -/
def sized : Header := { c.header with size := UInt32.ofNat (c.totalSize - commandHeaderSize) }

def writeAll : Indexed.Writer Error Unit := do
  c.sized.serialize distributeSecurityPoliciesId
  put (if c.payload.isEmpty then [0, 0, 0, 0] else c.payload)

/-- What stands in the buffer, which is resized before.
Source: `distribute_security_policies_command::serialize`. -/
def serialize (buffer : List UInt8) : Except (Failure Error) (List UInt8) :=
  if maxCommandSize < c.totalSize then .error (.error .maxCommandSizeExceeded)
  else Except.map (fun r => r.2.1) (c.writeAll.run (resize buffer c.totalSize 0, 0))

/-- `policy::deserialize` for a new policy, on bytes of the buffer. -/
def parsePolicy (itsPolicySize : ℕ) : Reader Error Policy := fun buffer index =>
  match InPlace.deserialize .default ⟨buffer, index, itsPolicySize, false⟩ with
  | .ok (some p, _) => .ok (p, index + itsPolicySize)
  | .ok (none, _) => .error (.error .unknown)
  | .error .outside => .error .outside
  | .error .endless => .error .endless

/-- Source: `distribute_security_policies_command::deserialize`, the body of the loop. -/
def deserializePolicy : Reader Error Policy := do
  need 4 .notEnoughBytes
  let itsPolicySize ← scalar 4 UInt32.ofNat
  need itsPolicySize.toNat .notEnoughBytes
  failIf (itsPolicySize = 0) Error.unknown
  parsePolicy itsPolicySize.toNat

def deserializePolicies : Reader Error (List Policy) := do
  let itsPoliciesCount ← scalar 4 UInt32.ofNat
  times deserializePolicy itsPoliciesCount.toNat

/-- The reported error and the command behind it. In the loop an error clears the policies.
Source: `distribute_security_policies_command::deserialize`. -/
def deserialize (buffer : List UInt8) : Except (Failure Error) (Option Error × DistributeCommand) :=
  match ((need (commandHeaderSize + 4) .notEnoughBytes >>= fun _ =>
      deserializeHeader distributeSecurityPoliciesId).run buffer).run 0 with
  | .error (.error e) => .ok (some e, c)
  | .error failure => .error failure
  | .ok (header, index) =>
      match (deserializePolicies.run buffer).run index with
      | .error (.error e) => .ok (some e, { c with header := header, policies := [] })
      | .error failure => .error failure
      | .ok (policies, _) =>
          .ok (none, { c with header := header, policies := c.policies ++ policies })

/-! ### What is asked of it -/

/-- What `policy::deserialize` gives for a payload. -/
def policyOf (itsPayload : List UInt8) : Option Policy :=
  match InPlace.deserialize .default (Cursor.start itsPayload) with
  | .ok (p, _) => p
  | .error _ => none

/-- Payloads by their users, as `send_cached_security_policies` hands them over: not empty and
accepted. -/
structure Payloads where
  byUser : OrderedMap (Fin (2 ^ 32)) (List UInt8)
  ne_nil : ∀ entry ∈ byUser.entries, entry.2 ≠ []
  accepted : ∀ entry ∈ byUser.entries, (policyOf entry.2).isSome

def Payloads.list (payloads : Payloads) : List (List UInt8) := payloads.byUser.entries.map Prod.snd

/-- A command with the payloads, or one for which `set_payloads` was not called. -/
def ofPayloads (client : UInt16) (payloads : Option Payloads) : DistributeCommand :=
  payloads.elim (new client) fun p => (new client).setPayloads p.list

/-- A command that fits is written inside its buffer and read as the policies of the payloads, and
of one that does not fit nothing is written. -/
def RoundTrips (client : UInt16) (payloads : Option Payloads) : Prop :=
  ∀ buffer,
    if commandHeaderSize + (ofPayloads client payloads).payload.length ≤ maxCommandSize then
      ∃ bytes, (ofPayloads client payloads).serialize buffer = .ok bytes ∧
        ∀ receiver, ∃ received, (new receiver).deserialize bytes = .ok (none, received) ∧
          received.policies.Perm ((payloads.elim [] Payloads.list).filterMap policyOf)
    else
      (ofPayloads client payloads).serialize buffer = .error (.error .maxCommandSizeExceeded)

/-- All bytes are read to an end and inside the vector, and an error leaves no policy. -/
def ReadSafely : Prop :=
  ∀ (receiver : UInt16) (buffer : List UInt8), ∃ error received,
    (new receiver).deserialize buffer = .ok (error, received) ∧
      (error ≠ none → received.policies = [])

/-! ### Reading -/

theorem policyOf_eq (itsPayload : List UInt8) :
    policyOf itsPayload = (Policy.default.deserialize.run itsPayload).map Prod.fst := by
  obtain ⟨cursor, hrun, -⟩ := (InPlace.follows_deserialize .default).start itsPayload
  rw [policyOf, hrun]

/-- The parser sees the bytes of the policy and nothing else. -/
theorem run_parsePolicy {buffer : List UInt8} {index size : ℕ}
    (h : index + size ≤ buffer.length) : ((parsePolicy size).run buffer).run index =
      match policyOf (slice buffer index size) with
      | some p => .ok (p, index + size)
      | none => .error (.error .unknown) := by
  obtain ⟨n, -, hrun, -⟩ := InPlace.follows_deserialize .default ⟨buffer, index, size, false⟩ h
  change parsePolicy size buffer index = _
  rw [parsePolicy, hrun, policyOf_eq]
  change (match (.ok (Option.map Prod.fst
      (Policy.default.deserialize.run (slice buffer index size)), _) :
      Except Cursor.Fault (Option Policy × Cursor)) with
    | .ok (some p, _) => _
    | .ok (none, _) => _
    | .error .outside => _
    | .error .endless => _) = _
  cases (Policy.default.deserialize.run (slice buffer index size)).map Prod.fst <;> rfl

theorem safe_deserializePolicy : Safe 4 deserializePolicy := by
  intro buffer index hindex
  refine stays_need_bind fun hroom => ?_
  refine (takes_scalar 4 UInt32.ofNat).stays_bind hroom fun size => ?_
  refine stays_need_bind fun hroom' => stays_failIf_bind fun _ => ?_
  rw [run_parsePolicy hroom']
  cases policyOf (slice buffer (index + 4) size.toNat) with
  | none => trivial
  | some p => exact ⟨by omega, hroom'⟩

omit [Icl.Containers] in
/-- The header is refused or read, and then there is room for the count. -/
theorem run_header (buffer : List UInt8) :
    (∃ e, ((need (commandHeaderSize + 4) .notEnoughBytes >>= fun _ =>
      deserializeHeader distributeSecurityPoliciesId).run buffer).run 0 = .error (.error e)) ∨
    ∃ hd, ((need (commandHeaderSize + 4) .notEnoughBytes >>= fun _ =>
      deserializeHeader distributeSecurityPoliciesId).run buffer).run 0 =
        .ok (hd, commandHeaderSize) ∧ commandHeaderSize + 4 ≤ buffer.length := by
  by_cases hroom : commandHeaderSize + 4 ≤ buffer.length
  · rw [run_need_bind (by rw [Nat.zero_add]; exact hroom)]
    rcases header_cases distributeSecurityPoliciesId (by omega : commandHeaderSize ≤ buffer.length)
      with ⟨hd, rest, rfl⟩ | hid
    · have hrun := Header.reads_deserialize hd distributeSecurityPoliciesId [] rest
      rw [nil_append, length_nil, Nat.zero_add, Header.length_bytes] at hrun
      exact .inr ⟨hd, hrun, hroom⟩
    · have hrun := run_header_mismatch (by omega) hid (pure : Header → Reader Error Header)
      rw [bind_pure] at hrun
      exact .inl ⟨_, hrun⟩
  · have hneed : ((need (commandHeaderSize + 4) .notEnoughBytes : Reader Error Unit).run buffer).run
        0 = .error (.error .notEnoughBytes) := if_pos (by omega)
    exact .inl ⟨_, run_bind_of_error hneed _⟩

/-- **All bytes** are read to an end and inside the vector. -/
theorem readSafely : ReadSafely := by
  intro receiver buffer
  rw [deserialize]
  rcases run_header buffer with ⟨e, hrun⟩ | ⟨hd, hrun, hroom⟩
  · rw [hrun]
    exact ⟨some e, new receiver, rfl, fun _ => rfl⟩
  · rw [hrun]
    have hstays : Stays (fun _ _ => True) ((deserializePolicies.run buffer).run
        commandHeaderSize) :=
      (takes_scalar 4 UInt32.ofNat).stays_bind hroom fun count =>
        safe_deserializePolicy.times count.toNat hroom
    dsimp only
    rcases hpolicies : (deserializePolicies.run buffer).run commandHeaderSize with
      (e | _ | _) | ⟨ps, i⟩ <;> rw [hpolicies] at hstays
    · exact ⟨some e, _, rfl, fun _ => rfl⟩
    · exact absurd hstays id
    · exact absurd hstays id
    · exact ⟨none, _, rfl, fun h => absurd rfl h⟩

/-! ### Reading what was written -/

theorem reads_deserializePolicy {itsPayload : List UInt8} {p : Policy} (hne : itsPayload ≠ [])
    (hlt : itsPayload.length < 2 ^ 32) (hp : policyOf itsPayload = some p) :
    Reads deserializePolicy (framed itsPayload) p := by
  have hsize : (UInt32.ofNat itsPayload.length).toNat = itsPayload.length :=
    UInt32.toNat_ofNat_of_lt' hlt
  have hzero : ¬ UInt32.ofNat itsPayload.length = 0 := fun h => by
    rw [h] at hsize
    exact hne (length_eq_zero_iff.mp hsize.symm)
  have hparse : Reads (parsePolicy itsPayload.length) itsPayload p := by
    intro before after
    have hslice : slice (before ++ (itsPayload ++ after)) before.length
        itsPayload.length = itsPayload := by
      rw [slice, drop_left, take_left]
    rw [run_parsePolicy (by simp only [length_append]; omega), hslice, hp]
  refine Reads.need ((reads_size hlt).bind ?_) _ (by simp)
  rw [hsize]
  refine Reads.need ?_ _ le_rfl
  exact (reads_failIf Error.unknown hzero).bind hparse

omit [Icl.Containers] in
/-- Every payload takes the four bytes of its length at least. -/
theorem length_framed_le (payloads : List (List UInt8)) :
    4 * payloads.length ≤ (payloads.flatMap framed).length := by
  induction payloads with
  | nil => rfl
  | cons itsPayload payloads ih =>
      simp only [flatMap_cons, length_append, length_cons, framed, length_little]
      omega

theorem serialize_eq {c : DistributeCommand} (hne : c.payload ≠ [])
    (h : commandHeaderSize + c.payload.length ≤ maxCommandSize) (buffer : List UInt8) :
    c.serialize buffer = .ok (c.sized.bytes distributeSecurityPoliciesId ++ c.payload) := by
  have htotal : c.totalSize = commandHeaderSize + c.payload.length := by
    rw [totalSize, Nat.min_eq_left (by omega)]
  have hall : Writes c.writeAll (c.sized.bytes distributeSecurityPoliciesId ++ c.payload) := by
    refine Header.writes_serialize.then ?_
    rw [if_neg (by simpa using hne)]
    exact writes_put _
  have hlength : (resize buffer c.totalSize 0).length =
      (c.sized.bytes distributeSecurityPoliciesId ++ c.payload).length := by
    simp [htotal]
  rw [serialize, if_neg (by omega), hall.run_fill hlength]
  rfl

/-- What does not fit is refused before the buffer is resized. -/
theorem serialize_of_not_fits {c : DistributeCommand}
    (h : ¬ commandHeaderSize + c.payload.length ≤ maxCommandSize) (buffer : List UInt8) :
    c.serialize buffer = .error (.error .maxCommandSizeExceeded) := by
  refine if_pos ?_
  rw [totalSize]
  have hpos : 0 < commandHeaderSize := by decide
  omega

/-- The policies of payloads are read from their bytes. -/
theorem reads_deserializePolicies (payloads : Payloads)
    (h : (little 4 payloads.list.length ++ payloads.list.flatMap framed).length ≤ maxCommandSize) :
    Reads deserializePolicies (little 4 payloads.list.length ++ payloads.list.flatMap framed)
      (payloads.list.filterMap policyOf) := by
  rw [length_append, length_little, maxCommandSize] at h
  have hcount : payloads.list.length < 2 ^ 32 := by
    have hle := length_framed_le payloads.list
    omega
  have hlength : ∀ itsPayload ∈ payloads.list, itsPayload.length < 2 ^ 32 := by
    intro itsPayload hmem
    have hle := (sublist_flatten_of_mem (mem_map_of_mem (f := framed) hmem)).length_le
    rw [← flatMap_def, framed, length_append] at hle
    omega
  have hsome : ∀ itsPayload ∈ payloads.list,
      policyOf itsPayload = some ((policyOf itsPayload).getD .default) := by
    intro itsPayload hmem
    obtain ⟨entry, hentry, rfl⟩ := mem_map.mp hmem
    obtain ⟨p, hp⟩ := Option.isSome_iff_exists.mp (payloads.accepted entry hentry)
    rw [hp, Option.getD_some]
  have hfilter : payloads.list.filterMap policyOf =
      payloads.list.map fun itsPayload => (policyOf itsPayload).getD .default := by
    rw [← filterMap_eq_map]
    exact filterMap_congr hsome
  rw [hfilter]
  refine (reads_size hcount).bind ?_
  rw [UInt32.toNat_ofNat_of_lt' hcount]
  refine reads_times_map fun itsPayload hmem => ?_
  obtain ⟨entry, hentry, rfl⟩ := mem_map.mp hmem
  exact reads_deserializePolicy (payloads.ne_nil entry hentry) (hlength _ hmem) (hsome _ hmem)

/-- A header and policies that are read make up the command. -/
theorem deserialize_of_runs {buffer : List UInt8} {index last : ℕ} {hd : Header}
    {policies : List Policy}
    (hheader : ((need (commandHeaderSize + 4) .notEnoughBytes >>= fun _ =>
      deserializeHeader distributeSecurityPoliciesId).run buffer).run 0 = .ok (hd, index))
    (hpolicies : (deserializePolicies.run buffer).run index = .ok (policies, last)) :
    c.deserialize buffer =
      .ok (none, { c with header := hd, policies := c.policies ++ policies }) := by
  rw [deserialize, hheader]
  dsimp only
  rw [hpolicies]

/-- **With payloads** the command is read as their policies. -/
theorem roundTrips_some (client : UInt16) (payloads : Payloads) :
    RoundTrips client (some payloads) := by
  intro buffer
  split
  case isFalse hfits => exact serialize_of_not_fits hfits buffer
  rename_i hfits
  have hpayload : (ofPayloads client (some payloads)).payload =
      little 4 payloads.list.length ++ payloads.list.flatMap framed := rfl
  have hne : (ofPayloads client (some payloads)).payload ≠ [] := by
    rw [hpayload]
    exact append_ne_nil_of_left_ne_nil (ne_nil_of_length_pos (by simp)) _
  refine ⟨_, serialize_eq hne hfits buffer, fun receiver => ?_⟩
  generalize (ofPayloads client (some payloads)).sized = hd
  rw [hpayload] at hfits ⊢
  have hheader := Header.reads_deserialize hd distributeSecurityPoliciesId [] (little 4
    payloads.list.length ++ payloads.list.flatMap framed)
  rw [nil_append, length_nil, Nat.zero_add, Header.length_bytes] at hheader
  have hpolicies := reads_deserializePolicies payloads (by omega)
    (hd.bytes distributeSecurityPoliciesId) []
  rw [append_nil, Header.length_bytes] at hpolicies
  have hroom : 0 + (commandHeaderSize + 4) ≤ (hd.bytes distributeSecurityPoliciesId ++
      (little 4 payloads.list.length ++ payloads.list.flatMap framed)).length := by
    rw [length_append, length_append, Header.length_bytes, length_little]
    omega
  have hrun := (run_need_bind hroom Error.notEnoughBytes
    fun _ => deserializeHeader distributeSecurityPoliciesId).trans hheader
  exact ⟨_, deserialize_of_runs (new receiver) hrun hpolicies, List.Perm.refl _⟩

/-- Without a call of `set_payloads` the count is written behind the buffer. -/
theorem serialize_new (client : UInt16) (buffer : List UInt8) :
    (new client).serialize buffer = .error .outside := by
  have hroom : 0 + ((new client).sized.bytes distributeSecurityPoliciesId).length ≤
      (resize buffer (new client).totalSize 0).length := by
    rw [Header.length_bytes, length_resize]
    exact Nat.le_refl _
  have hwrite := Header.writes_serialize.run_bind (fun _ => put [0, 0, 0, 0]) hroom
  have hput : (put [0, 0, 0, 0] : Indexed.Writer Error Unit).run (overwrite
      (resize buffer (new client).totalSize 0) 0
      ((new client).sized.bytes distributeSecurityPoliciesId),
      0 + ((new client).sized.bytes distributeSecurityPoliciesId).length) = .error .outside := by
    refine if_neg ?_
    rw [length_overwrite hroom, Header.length_bytes, length_resize]
    exact Nat.not_le.mpr (Nat.lt_add_of_pos_right (by decide))
  have htotal : (new client).totalSize = commandHeaderSize := rfl
  have hfits : ¬ maxCommandSize < (new client).totalSize := by
    rw [htotal]
    decide
  rw [serialize, if_neg hfits]
  change Except.map _ ((_ >>= fun _ => put [0, 0, 0, 0] : Indexed.Writer Error Unit).run _) = _
  rw [hwrite, hput]
  rfl

/-- Without a call of `set_payloads` the command is not written. -/
theorem not_roundTrips_none (client : UInt16) : ¬ RoundTrips client none := by
  intro h
  have hfits : commandHeaderSize + (ofPayloads client none).payload.length ≤ maxCommandSize :=
    Nat.le_of_ble_eq_true rfl
  obtain ⟨bytes, hbytes, -⟩ := (if_pos hfits).mp (h [])
  rw [ofPayloads, Option.elim_none, serialize_new] at hbytes
  cases hbytes

/-- **The command is written and read** iff `set_payloads` was called. -/
theorem distribute_codec_iff (client : UInt16) (payloads : Option Payloads) :
    RoundTrips client payloads ∧ ReadSafely ↔ payloads.isSome := by
  cases payloads with
  | some payloads => exact iff_of_true ⟨roundTrips_some client payloads, readSafely⟩ rfl
  | none => exact iff_of_false (fun h => not_roundTrips_none client h.1) Bool.false_ne_true

/-- The one payload of user 1000. -/
def smallPayloads : Payloads where
  byUser := OrderedMap.empty.assign ⟨1000, by decide⟩ smallDocument.encode
  ne_nil := by
    intro entry hentry
    obtain rfl := mem_singleton.mp hentry
    exact cons_ne_nil _ _
  accepted := by
    intro entry hentry
    obtain rfl := mem_singleton.mp hentry
    have hreads := reads_document .default smallDocument_length []
    rw [append_nil] at hreads
    rw [policyOf_eq, hreads]
    rfl

end containers

open scoped Icl.Pointwise

/-- The command with one payload is written and read. -/
theorem smallPayloads_roundTrip : RoundTrips 0x1234 (some smallPayloads) ∧ ReadSafely :=
  (distribute_codec_iff 0x1234 (some smallPayloads)).mpr rfl

/-- **The count of no policies** is written behind the end of the buffer. -/
theorem count_written_outside :
    (new 0x1234).serialize [] = .error .outside ∧ ¬ RoundTrips 0x1234 none :=
  ⟨serialize_new _ _, not_roundTrips_none _⟩

end DistributeCommand

end SomeipTunnel.Protocol.Command
