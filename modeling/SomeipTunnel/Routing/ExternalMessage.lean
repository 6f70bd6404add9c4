import SomeipTunnel.Endpoint.Utility

/-!
# Reading the header of a message from outside

`on_message` takes the bytes that an endpoint received, reads fields of the header at fixed positions
and may hand a range of the bytes to the E2E protection. A read outside of the bytes has no result
here, so that `onMessage` has one iff all reads and the range are inside.

`reads_inside_iff`: they are, iff the length and the protection base are right. The message type, at
position 14, is read behind a check for 8 bytes.

Source: vsomeip/implementation/routing/src/routing_manager_impl.cpp
-/

namespace SomeipTunnel.Routing.ExternalMessage

open Tp Endpoint.Utility
open Endpoint (isRequest)

/-! ### The functions -/

/-- The answers of the rest of the routing manager about a message. -/
structure Host where
  /-- The message goes to the service discovery, if it is one of its messages. -/
  discovers : Bool
  isAclMessageAllowed : ℕ → ℕ → Bool
  /-- `find_instance_multicast` or `find_instance` -/
  findInstance : ℕ → ℕ
  /-- The major version of a service that `find_service` finds. -/
  findService : ℕ → ℕ → Option UInt8
  isSecurityEnabled : Bool
  isOfferedRemote : ℕ → ℕ → Bool
  findLocal : ℕ → Bool
  isRemoteAccessAllowed : Bool
  hasE2eProvider : Bool
  /-- The protection base, if messages of the service and the method are checked. -/
  protectionBase : ℕ → ℕ → Option ℕ

/-- Source: `return_code_e`, the values of `check_error` -/
inductive ReturnCode where
  | ok
  | notOk
  | unknownService
  | wrongProtocolVersion
  | wrongInterfaceVersion
  | malformedMessage
deriving DecidableEq

/-- The fields of the error message. -/
structure ErrorMessage where
  returnCode : ReturnCode
  service : ℕ
  method : ℕ
  client : ℕ
  session : ℕ
  interfaceVersion : UInt8
  inst : ℕ

/-- What becomes of a message. -/
inductive Outcome where
  | ignored
  | toDiscovery
  | error (message : ErrorMessage)
  | forwarded (service inst : ℕ) (checked : Option (List UInt8))

/-- Source: `utility::is_request_no_return` -/
def isRequestNoReturn (type : UInt8) : Bool := type = 0x01 || type = 0x41

variable (host : Host) (data : List UInt8)

/-- `_data[pos]` -/
def byte (pos : ℕ) : Option UInt8 := data[pos]?

/-- `bithelper::read_uint16_be(&_data[pos])` -/
def word (pos : ℕ) : Option ℕ := do
  let hi ← byte data pos
  let lo ← byte data (pos + 1)
  return hi.toNat * 2 ^ 8 + lo.toNat

/-- Source: `routing_manager_impl::check_error` -/
def checkError (inst : ℕ) : Option ReturnCode := do
  let service ← word data 0
  if 16 ≤ data.length then
    let type ← byte data 14
    if isRequest type || isRequestNoReturn type then
      let version ← byte data 12
      if version ≠ 1 then return .wrongProtocolVersion
      if inst = 0xFFFF then return .unknownService
      if let some major := host.findService service inst then
        let interfaceVersion ← byte data 13
        if interfaceVersion ≠ major then return .wrongInterfaceVersion
      let returnCode ← byte data 15
      if returnCode ≠ 0 then return .notOk
    return .ok
  else return .malformedMessage

/-- Source: `routing_manager_impl::send_error`, the message that is sent -/
def sendError (code : ReturnCode) (inst : ℕ) : Option ErrorMessage := do
  let client ← if 9 ≤ data.length then word data 8 else some 0
  let service ← if 1 ≤ data.length then word data 0 else some 0
  let method ← if 3 ≤ data.length then word data 2 else some 0
  let session ← if 11 ≤ data.length then word data 10 else some 0
  let version ← if 13 ≤ data.length then byte data 13 else some 0
  return ⟨code, service, method, client, session, version, inst⟩

/-- Source: `routing_manager_impl::on_message`, "Security checks if enabled!" -/
def isAdmitted (service inst : ℕ) : Option Bool :=
  if host.isSecurityEnabled then do
    let type ← byte data 14
    if isRequest type then
      let requester ← word data 8
      let _method ← word data 2
      return host.isOfferedRemote service inst && !host.findLocal requester &&
        host.isRemoteAccessAllowed
    else return true
  else some true

/-- Source: `routing_manager_impl::on_message`, the buffer of the E2E check -/
def e2eBuffer (service : ℕ) : Option (Option (List UInt8)) :=
  if host.hasE2eProvider then do
    let method ← word data 2
    match host.protectionBase service method with
    | some base => if base ≤ data.length then return some (data.drop base) else none
    | none => return none
  else some none

/-- Source: `routing_manager_impl::on_message`, a message without error -/
def forward (service inst : ℕ) : Option Outcome := do
  if !(← isAdmitted host data service inst) then return .ignored
  let checked ← e2eBuffer host data service
  if host.isAclMessageAllowed service inst then return .forwarded service inst checked
  else return .ignored

/-- Source: `routing_manager_impl::on_message`, the fields that are logged for an invalid port -/
def logInvalidPort (inst : ℕ) : Option Unit :=
  if inst = 0xFFFF then do
    let _method ← word data 2
    let _client ← word data 8
    let _session ← word data 10
    return ()
  else some ()

/-- Source: `routing_manager_impl::on_message`, a message that is not one of the service discovery -/
def handle (type : UInt8) (service : ℕ) : Option Outcome := do
  let inst := host.findInstance service
  logInvalidPort data inst
  if 14 ≤ data.length && !isValidMessageType type then return .ignored
  let code ← checkError host data inst
  let noReturn ← if 14 ≤ data.length then (byte data 14).map isRequestNoReturn else some false
  if code = .ok ∨ code = .notOk then forward host data service inst
  else if noReturn then return .ignored
  else (sendError data code inst).map .error

/-- Source: `routing_manager_impl::on_message` -/
def onMessage : Option Outcome :=
  if 8 ≤ data.length then do
    let type ← byte data 14
    let service ← word data 0
    if service = 0xFFFF then
      let method ← word data 2
      if host.discovers && method = 0x8100 && host.isAclMessageAllowed service 0xFFFF then
        return .toDiscovery
      else return .ignored
    else handle host data type service
  else some .ignored

/-! ### When a message gets to the E2E check -/

/-- A request passes the checks of `check_error`. -/
def RequestAccepted (service inst : ℕ) : Prop :=
  byteAt data 12 = 1 ∧ inst ≠ 0xFFFF ∧
    ∀ major, host.findService service inst = some major → byteAt data 13 = major

/-- A request passes the security checks. -/
def RequestAdmitted (service inst : ℕ) : Prop :=
  host.isOfferedRemote service inst = true ∧ host.findLocal (readUint16Be data 8) = false ∧
    host.isRemoteAccessAllowed = true

/-- The message is complete, valid, and free of errors, and passes the security checks. -/
structure GetsToE2e : Prop where
  complete : 16 ≤ data.length
  notSd : readUint16Be data 0 ≠ 0xFFFF
  valid : isValidMessageType (byteAt data 14) = true
  accepted : (isRequest (byteAt data 14) || isRequestNoReturn (byteAt data 14)) = true →
    RequestAccepted host data (readUint16Be data 0) (host.findInstance (readUint16Be data 0))
  admitted : host.isSecurityEnabled = true → isRequest (byteAt data 14) = true →
    RequestAdmitted host data (readUint16Be data 0) (host.findInstance (readUint16Be data 0))

/-- If the message gets to an E2E check, the protection base is not behind its end. -/
def BaseInside : Prop :=
  GetsToE2e host data → host.hasE2eProvider = true → ∀ base,
    host.protectionBase (readUint16Be data 0) (readUint16Be data 2) = some base → base ≤ data.length

/-! ### Reads -/

section reads

variable {host data} {pos service inst : ℕ}

theorem byte_eq (h : pos < data.length) : byte data pos = some (byteAt data pos) :=
  getElem?_eq_some_byteAt h

theorem word_eq (h : pos + 1 < data.length) : word data pos = some (readUint16Be data pos) := by
  rw [word, byte_eq (by omega), byte_eq h]
  rfl

theorem exists_checkError (host : Host) (inst : ℕ) (h : 15 ≤ data.length) :
    ∃ code, checkError host data inst = some code ∧ (code = .ok ∨ code = .notOk ↔ 16 ≤ data.length ∧
      ((isRequest (byteAt data 14) || isRequestNoReturn (byteAt data 14)) = true →
        RequestAccepted host data (readUint16Be data 0) inst)) := by
  unfold checkError RequestAccepted
  rw [word_eq (by omega)]
  by_cases hlen : 16 ≤ data.length
  · have h12 : byte data 12 = some (byteAt data 12) := byte_eq (by omega)
    have h13 : byte data 13 = some (byteAt data 13) := byte_eq (by omega)
    have h14 : byte data 14 = some (byteAt data 14) := byte_eq (by omega)
    have h15 : byte data 15 = some (byteAt data 15) := byte_eq (by omega)
    simp only [Option.bind_eq_bind, Option.bind_some, hlen, if_true, h12, h13, h14, h15, true_and]
    by_cases hrequest : (isRequest (byteAt data 14) || isRequestNoReturn (byteAt data 14)) = true
    · by_cases hversion : byteAt data 12 = 1
      · by_cases hinst : inst = 0xFFFF
        · simp [hrequest, hversion, hinst]
        · rcases host.findService (readUint16Be data 0) inst with _ | major
          · by_cases hcode : byteAt data 15 = 0
            · simp [hrequest, hversion, hinst, hcode]
            · simp [hrequest, hversion, hinst, hcode]
          · by_cases hmajor : byteAt data 13 = major
            · by_cases hcode : byteAt data 15 = 0
              · simp [hrequest, hversion, hinst, hcode, hmajor]
              · simp [hrequest, hversion, hinst, hcode, hmajor]
            · simp [hrequest, hversion, hinst, hmajor]
      · simp [hrequest, hversion]
    · simp [hrequest]
  · simp [hlen]

theorem isSome_sendError (h : 15 ≤ data.length) (code : ReturnCode) :
    (sendError data code inst).isSome := by
  unfold sendError
  rw [word_eq (show 8 + 1 < _ by omega), word_eq (show 0 + 1 < _ by omega),
    word_eq (show 2 + 1 < _ by omega), word_eq (show 10 + 1 < _ by omega),
    byte_eq (show 13 < _ by omega)]
  split_ifs <;> rfl

theorem exists_isAdmitted (host : Host) (service inst : ℕ) (h : 15 ≤ data.length) :
    ∃ b, isAdmitted host data service inst = some b ∧
      (b = true ↔ (host.isSecurityEnabled = true → isRequest (byteAt data 14) = true →
        RequestAdmitted host data service inst)) := by
  unfold isAdmitted RequestAdmitted
  rw [byte_eq (show 14 < _ by omega), word_eq (show 8 + 1 < _ by omega),
    word_eq (show 2 + 1 < _ by omega)]
  cases host.isSecurityEnabled
  · simp
  · by_cases hrequest : isRequest (byteAt data 14) = true
    · simp [hrequest, and_assoc]
    · simp [hrequest]

theorem isSome_e2eBuffer (h : 15 ≤ data.length) : (e2eBuffer host data service).isSome ↔
    (host.hasE2eProvider = true → ∀ base,
      host.protectionBase service (readUint16Be data 2) = some base → base ≤ data.length) := by
  unfold e2eBuffer
  rw [word_eq (show 2 + 1 < _ by omega)]
  cases host.hasE2eProvider
  · simp
  · rcases hbase : host.protectionBase service (readUint16Be data 2) with _ | base
    · simp [hbase]
    · by_cases hle : base ≤ data.length
      · simp [hbase, hle]
      · simp [hbase, hle]

theorem isSome_forward (h : 15 ≤ data.length) : (forward host data service inst).isSome ↔
    ((host.isSecurityEnabled = true → isRequest (byteAt data 14) = true →
      RequestAdmitted host data service inst) → host.hasE2eProvider = true → ∀ base,
      host.protectionBase service (readUint16Be data 2) = some base → base ≤ data.length) := by
  obtain ⟨b, hadmitted, hb⟩ := exists_isAdmitted host service inst h
  rw [← hb, ← isSome_e2eBuffer h, forward, hadmitted]
  cases b
  · simp
  · rcases he2e : e2eBuffer host data service with _ | checked
    · simp
    · cases host.isAclMessageAllowed service inst <;> simp

theorem logInvalidPort_eq (h : 15 ≤ data.length) : logInvalidPort data inst = some () := by
  unfold logInvalidPort
  rw [word_eq (show 2 + 1 < _ by omega), word_eq (show 8 + 1 < _ by omega),
    word_eq (show 10 + 1 < _ by omega)]
  split_ifs <;> rfl

/-- A message that is not one of the service discovery. -/
theorem isSome_handle (h : 15 ≤ data.length) (hsd : readUint16Be data 0 ≠ 0xFFFF) :
    (handle host data (byteAt data 14) (readUint16Be data 0)).isSome ↔ BaseInside host data := by
  obtain ⟨code, hcheck, hcode⟩ := exists_checkError host (host.findInstance (readUint16Be data 0)) h
  have h14 : byte data 14 = some (byteAt data 14) := byte_eq (by omega)
  have hlen : 14 ≤ data.length := by omega
  unfold handle
  simp only [logInvalidPort_eq h, hcheck, h14, hlen, Option.bind_eq_bind, Option.bind_some,
    Option.map_some, if_true, decide_true, Bool.true_and]
  cases hvalid : isValidMessageType (byteAt data 14)
  · refine iff_of_true rfl fun hgets => ?_
    rw [hgets.valid] at hvalid
    cases hvalid
  · by_cases hok : code = .ok ∨ code = .notOk
    · obtain ⟨hcomplete, haccepted⟩ := hcode.mp hok
      simp only [Bool.not_true, Bool.false_eq_true, if_false, if_pos hok]
      rw [isSome_forward h]
      constructor
      · exact fun hforward hgets => hforward hgets.admitted
      · exact fun hbase hadmitted => hbase ⟨hcomplete, hsd, hvalid, haccepted, hadmitted⟩
    · simp only [Bool.not_true, Bool.false_eq_true, if_false, if_neg hok]
      refine iff_of_true ?_ fun hgets => absurd (hcode.mpr ⟨hgets.complete, hgets.accepted⟩) hok
      split_ifs
      · rfl
      · rw [Option.isSome_map]
        exact isSome_sendError h code

end reads

/-- Every read and the range for the E2E check are inside the bytes that were received iff there are
less than 8 or at least 15 of them and, if the message gets to an E2E check, the protection base is
not behind its end. -/
theorem reads_inside_iff (host : Host) (data : List UInt8) : (onMessage host data).isSome ↔
      (data.length < 8 ∨ 15 ≤ data.length) ∧ BaseInside host data := by
  unfold onMessage
  by_cases h8 : 8 ≤ data.length
  · by_cases h15 : 15 ≤ data.length
    · have h14 : byte data 14 = some (byteAt data 14) := byte_eq (by omega)
      rw [if_pos h8, h14, word_eq (by omega), word_eq (show 2 + 1 < _ by omega)]
      simp only [Option.bind_eq_bind, Option.bind_some, h15, or_true, true_and]
      split_ifs with hsd hdiscovers
      · exact iff_of_true rfl fun hgets => absurd hsd hgets.notSd
      · exact iff_of_true rfl fun hgets => absurd hsd hgets.notSd
      · exact isSome_handle h15 hsd
    · refine iff_of_false ?_ ?_
      · have h14 : byte data 14 = none := List.getElem?_eq_none (by omega)
        rw [if_pos h8, h14]
        simp
      · omega
  · rw [if_neg h8]
    refine iff_of_true rfl ⟨.inl (by omega), fun hgets => ?_⟩
    have := hgets.complete
    omega

/-- A host that knows no service. -/
def bareHost : Host :=
  ⟨false, fun _ _ => true, fun _ => 0xFFFF, fun _ _ => none, false, fun _ _ => false,
    fun _ => false, true, false, fun _ _ => none⟩

/-- A message of nine bytes: its message type is read at position 14. -/
theorem message_type_read_outside : onMessage bareHost [0, 0, 0, 0, 0, 0, 0, 1, 0] = none := rfl

end SomeipTunnel.Routing.ExternalMessage
