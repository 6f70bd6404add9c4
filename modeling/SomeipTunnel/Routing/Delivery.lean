import SomeipTunnel.Endpoint.Responses
import SomeipTunnel.Routing.Ownership

/-!
# Who may answer for a service

Before a message reaches the application, `deliver_message` checks whether its sender may send it.
For a response, an error or a notification of a local client there are two tests: a dynamic one,
`is_response_allowed`, by the tables of who offers and has offered the service instance, and a
static one, whether the security policy lets the client offer it. `Delivery` has the tables: the
`Registry` of the local services and the history of former offers, which the routing manager
itself only ever erases from.

* `deliverMessage_answer`: what the nested tests come to for an answer of a local client. The
  dynamic one has no part in it.
* `answers_authorised_iff`: in a run with internal security that is not in audit mode only clients
  that offer, or have offered, the service instance get an answer through, iff every answer that the
  policy lets through comes from the present owner of the instance.

Source: vsomeip/implementation/routing/src/routing_manager_impl.cpp,
vsomeip/implementation/routing/src/routing_manager_base.cpp
-/

namespace SomeipTunnel.Routing

open StepRun Endpoint

/-! ### The tests -/

/-- The part of the configuration that the tests read. -/
structure SecurityMode where
  isSecurityEnabled : Bool
  isSecurityExternal : Bool
  isSecurityAudit : Bool
  isLocalRouting : Bool
  isRemoteAccessAllowed : Bool

/-- The answers of the security policy, for the credentials of a client. -/
structure Permissions (S : Type*) where
  isClientAllowedToOffer : S → ℕ × ℕ → Bool
  isClientAllowedToAccessMember : S → ℕ × ℕ → ℕ → Bool

/-- The message with the arguments of `deliver_message`: `key` is the service with the instance. -/
structure Incoming (S : Type*) where
  key : ℕ × ℕ
  method : ℕ
  client : ℕ
  messageType : UInt8
  boundClient : ℕ
  secClient : S
  isFromRemote : Bool

/-- Source: `utility::is_notification`. -/
def isNotification (type : UInt8) : Bool := type == 0x02

/-- Source: `VSOMEIP_ROUTING_CLIENT`. -/
def routingClient : ℕ := 0

/-- Source: `local_services_history_`. -/
abbrev History := AList fun _ : ℕ × ℕ => Finset ℕ

/-- The tables behind the dynamic test. -/
structure Delivery where
  registry : Registry
  history : History

namespace Delivery

/-- Source: `routing_manager_base::find_local_client_unlocked`. -/
def findLocalClientUnlocked (d : Delivery) (key : ℕ × ℕ) : ℕ :=
  (d.registry.owner key).getD routingClient

/-- The clients that have offered an instance. -/
def former (d : Delivery) (key : ℕ × ℕ) : Finset ℕ := (d.history.lookup key).getD ∅

/-- Source: `routing_manager_base::is_response_allowed`. -/
def isResponseAllowed (mode : SecurityMode) (d : Delivery) (sender : ℕ) (key : ℕ × ℕ) : Bool :=
  if !mode.isSecurityEnabled || !mode.isLocalRouting then true
  else if sender = d.findLocalClientUnlocked key then true
  else if sender ∈ d.former key then true
  else !mode.isSecurityAudit

/-- Source: `routing_manager_impl::deliver_message`. Is the message handed to the application? `own`
are the credentials of the application; a message that cannot be deserialized is `none`. -/
def deliverMessage {S : Type*} (mode : SecurityMode) (own : S) (p : Permissions S) (d : Delivery) :
    Option (Incoming S) → Bool
  | none => false
  | some m =>
      if !m.isFromRemote then
        if isRequest m.messageType then
          if mode.isSecurityEnabled && mode.isLocalRouting && m.client != m.boundClient then false
          else p.isClientAllowedToAccessMember m.secClient m.key m.method
        else
          let isInternRespAllowed :=
            !mode.isSecurityExternal && d.isResponseAllowed mode m.boundClient m.key
          let isOfferOk := p.isClientAllowedToOffer m.secClient m.key
          if !isOfferOk then false
          else if isInternRespAllowed || isOfferOk then
            let isAccessMemberOk := p.isClientAllowedToAccessMember own m.key m.method
            if !isAccessMemberOk && isNotification m.messageType then false else true
          else false
      else if !mode.isRemoteAccessAllowed then false
      else if isNotification m.messageType then p.isClientAllowedToAccessMember own m.key m.method
      else true

/-! ### The tables -/

/-- Source: `routing_manager_base::release_service`, the part on the history. -/
def releaseService (d : Delivery) (key : ℕ × ℕ) : Delivery :=
  { d with history := d.history.erase key }

/-- One entry of the loop behind `remove_local`: where nobody is left of an instance, the whole
service is erased. -/
def forget (client : ℕ) (history : History) (key : ℕ × ℕ) : History :=
  let rest := ((history.lookup key).getD ∅).erase client
  if rest = ∅ then
    history.keys.foldl (fun h k => if k.1 = key.1 then h.erase k else h) history
  else history.insert key rest

/-- Source: `routing_manager_base::remove_local`, the part on the history. -/
def forgetClient (client : ℕ) (history : History) : History :=
  (history.keys.filter fun key => client ∈ (history.lookup key).getD ∅).foldl (forget client)
    history

/-- What happens to the tables, and the messages. Every message has the policy in force. -/
inductive Event (S : Type*) where
  | owner (e : OwnerEvent)
  | releaseService (key : ℕ × ℕ)
  | message (p : Permissions S) (m : Option (Incoming S))

/-- The tables behind an event of the registry. -/
def ownerEvent (host : ℕ) (d : Delivery) (e : OwnerEvent) : Delivery where
  registry := (d.registry.step host e).2
  history :=
    match e with
    | .removeLocal client => forgetClient client d.history
    | _ => d.history

def after {S : Type*} (host : ℕ) (d : Delivery) : Event S → Delivery
  | .owner e => d.ownerEvent host e
  | .releaseService key => d.releaseService key
  | .message _ _ => d

/-- One step; a message answers whether it is handed to the application. -/
def step {S : Type*} (mode : SecurityMode) (host : ℕ) (own : S) (d : Delivery) (e : Event S) :
    Except Empty (Option Bool × Delivery) :=
  match e with
  | .message p m => .ok (some (d.deliverMessage mode own p m), d.after host e)
  | _ => .ok (none, d.after host e)

def start : Delivery := ⟨.empty, ∅⟩

/-! ### What the tests come to -/

/-- Security is on, by the policies of the configuration, and not only audited. -/
def Internal (mode : SecurityMode) : Prop :=
  mode.isSecurityEnabled = true ∧ mode.isSecurityExternal = false ∧ mode.isSecurityAudit = false

/-- A response, an error or a notification of a local client. -/
def IsAnswer {S : Type*} (m : Incoming S) : Prop :=
  m.isFromRemote = false ∧ isRequest m.messageType = false

/-- The policy lets an answer through: its sender may offer the instance and, if it is a
notification, the application may receive it. -/
def Permitted {S : Type*} (own : S) (p : Permissions S) (m : Incoming S) : Prop :=
  p.isClientAllowedToOffer m.secClient m.key = true ∧
    (isNotification m.messageType = true →
      p.isClientAllowedToAccessMember own m.key m.method = true)

/-- The sender offers the instance, or has offered it. -/
def Authorised {S : Type*} (d : Delivery) (m : Incoming S) : Prop :=
  d.registry.owner m.key = some m.boundClient ∨ m.boundClient ∈ d.former m.key

variable {S : Type*} {mode : SecurityMode} {own : S} {p : Permissions S} {d : Delivery}
  {m : Incoming S}

/-- **The effective test.** An answer of a local client is handed on by the policy alone. -/
theorem deliverMessage_answer (h : IsAnswer m) :
    d.deliverMessage mode own p (some m) = true ↔ Permitted own p m := by
  unfold deliverMessage Permitted
  simp only [h.1, h.2, Bool.not_false, if_true, Bool.false_eq_true, if_false]
  cases p.isClientAllowedToOffer m.secClient m.key
  · simp
  · cases p.isClientAllowedToAccessMember own m.key m.method
    · cases isNotification m.messageType <;> simp
    · simp

/-- Where routing is local, the dynamic test lets every owner through. -/
theorem isResponseAllowed_of_owner {client : ℕ} {key : ℕ × ℕ}
    (h : mode.isLocalRouting = true → d.registry.owner key = some client) :
    d.isResponseAllowed mode client key = true := by
  unfold isResponseAllowed
  cases hlocal : mode.isLocalRouting
  · simp
  · have hclient : client = d.findLocalClientUnlocked key := by
      rw [findLocalClientUnlocked, h hlocal, Option.getD_some]
    rw [if_pos hclient, ite_self]

/-! ### Every run -/

/-- An answer is only handed on if it passes the dynamic test and, where routing is local, its
sender offers the instance or has offered it. -/
def Guarded (mode : SecurityMode) (own : S) (d : Delivery) : Event S → Prop
  | .message p (some m) => Internal mode → IsAnswer m →
      d.deliverMessage mode own p (some m) = true →
        d.isResponseAllowed mode m.boundClient m.key = true ∧
          (mode.isLocalRouting = true → d.Authorised m)
  | _ => True

/-- An answer that the policy lets through comes from the owner of the instance, where routing is
local. -/
def FromOwner (mode : SecurityMode) (own : S) (d : Delivery) : Event S → Prop
  | .message p (some m) => Internal mode → IsAnswer m → Permitted own p m →
      mode.isLocalRouting = true → d.registry.owner m.key = some m.boundClient
  | _ => True

/-- Nothing is ever written to the history. -/
theorem history_after (host : ℕ) (h : d.history = ∅) (e : Event S) :
    (d.after host e).history = ∅ := by
  cases e with
  | owner e =>
      cases e with
      | removeLocal client =>
          simp only [after, ownerEvent, h]
          rfl
      | _ => exact h
  | releaseService key =>
      simp only [after, releaseService, h]
      rfl
  | message p m => exact h

/-- Without a history an answer is guarded iff the owner sends it. -/
theorem guarded_iff (h : d.history = ∅) (e : Event S) :
    Guarded mode own d e ↔ FromOwner mode own d e := by
  rcases e with _ | _ | ⟨p, _ | m⟩
  · exact Iff.rfl
  · exact Iff.rfl
  · exact Iff.rfl
  refine imp_congr_right fun hinternal => imp_congr_right fun hanswer => ?_
  rw [deliverMessage_answer hanswer]
  refine imp_congr_right fun _ => ?_
  constructor
  · rintro ⟨-, hauthorised⟩ hlocal
    rcases hauthorised hlocal with howner | hformer
    · exact howner
    · rw [former, h] at hformer
      cases hformer
  · intro howner
    exact ⟨isResponseAllowed_of_owner howner, fun hlocal => .inl (howner hlocal)⟩

/-- **Answers are authorised by an offer** in a run, iff those that the policy lets through come
from the owner of the instance at the time. -/
theorem answers_authorised_iff (mode : SecurityMode) (host : ℕ) (own : S)
    (events : List (Event S)) : AllSteps (step mode host own) (Guarded mode own) start events ↔
      AllSteps (step mode host own) (FromOwner mode own) start events := by
  refine AllSteps.iff_of_invariant (fun d => d.history = ∅) ?_ ?_ rfl
  · intro d e o d' h _ hstep
    have hafter : d' = d.after host e := by
      cases e <;> exact (Prod.mk.inj (Except.ok.inj hstep)).2.symm
    rw [hafter]
    exact history_after host h e
  · intro d e h
    exact guarded_iff h e

/-- Internal security that is enforced, in a system with local routing. -/
def sampleMode : SecurityMode where
  isSecurityEnabled := true
  isSecurityExternal := false
  isSecurityAudit := false
  isLocalRouting := true
  isRemoteAccessAllowed := false

/-- A response for the instance 1 of the service 0x1234 from the client 0x20. -/
def sampleAnswer : Incoming Unit where
  key := (0x1234, 1)
  method := 0x21
  client := 0x30
  messageType := 0x80
  boundClient := 0x20
  secClient := ()
  isFromRemote := false

/-- **An answer without an offer is handed on.** The client 0x10 offers the instance, the client
0x20 has never offered it but may do so by the policy, and its response reaches the application. -/
theorem answer_not_authorised : ∃ d, StepRun.run (step sampleMode 0x01 ()) start
        [.owner (.offer ⟨(0x1234, 1), 1, 0, 0x10⟩ ⟨true, true⟩)] = .ok ([none], d) ∧
      Internal sampleMode ∧ IsAnswer sampleAnswer ∧
      d.deliverMessage sampleMode () ⟨fun _ _ => true, fun _ _ _ => true⟩ (some sampleAnswer) =
        true ∧ ¬ d.Authorised sampleAnswer := by
  refine ⟨_, rfl, ⟨rfl, rfl, rfl⟩, ⟨rfl, by decide⟩, by decide +kernel, ?_⟩
  unfold Authorised
  decide +kernel

end Delivery

end SomeipTunnel.Routing
