import SomeipTunnel.Tp.Wire

/-!
# What endpoints read from the bytes of a message

The size of a message and the tests of its header that the server endpoints share.

Source: vsomeip/implementation/utility/src/utility.cpp
-/

/-- Source: `utility::is_request`; the bounds are `MT_NOTIFICATION`, `MT_REQUEST_ACK` and
`MT_REQUEST_NO_RETURN_ACK`. -/
def SomeipTunnel.Endpoint.isRequest (type : UInt8) : Bool :=
  type < 0x02 || 0x40 ≤ type && type ≤ 0x41

namespace SomeipTunnel.Endpoint.Utility

open Tp (u32 byteAt readUint32Be)

/-- Source: `utility::get_message_size`; the sum is one of `uint32_t` -/
def getMessageSize (data : List UInt8) : ℕ :=
  if 8 ≤ data.length then u32 (8 + readUint32Be data 4) else 0

/-- Source: `utility::is_valid_message_type` -/
def isValidMessageType (type : UInt8) : Bool :=
  [0x00, 0x01, 0x02, 0x40, 0x41, 0x42, 0x80, 0x81, 0xC0, 0xC1, 0xFF].contains type

/-- Source: `utility::is_valid_return_code` -/
def isValidReturnCode (code : UInt8) : Bool := code ≤ 0x0A || (0x20 ≤ code && code ≤ 0x5E)

/-- Protocol version, message type and return code are those of SOME/IP. -/
def HeaderValid (data : List UInt8) : Prop :=
  byteAt data 12 = 1 ∧ isValidMessageType (byteAt data 14) ∧ isValidReturnCode (byteAt data 15)
deriving Decidable

end SomeipTunnel.Endpoint.Utility
