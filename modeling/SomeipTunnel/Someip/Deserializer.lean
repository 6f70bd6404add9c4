import SomeipTunnel.Lib.Cursor

/-!
# Serializer and deserializer

`deserializer` reads numbers from the bytes of a message, the highest byte first, as long as enough
bytes remain; `serializer` appends them. The cursor is `Cursor`: `position_` and `remaining_` are
counted separately, since the callers set `remaining_` to the length of the part they read
(`set_remaining`).

Next to each read stands the decoder that it follows, and how that decoder takes back what the
serializer writes.
-/

namespace SomeipTunnel.Someip

open Codec Cursor Cursor.Parse

/-! ### Reading -/

/-- Source: `deserializer::deserialize(uint8_t&)` -/
def deserialize8 : Parse UInt8 := Parse.scalar 1 UInt8.ofNat

/-- Source: `deserializer::deserialize(uint16_t&)` -/
def deserialize16 : Parse UInt16 := Parse.scalar 2 UInt16.ofNat

/-- Source: `deserializer::deserialize(uint32_t&, bool)` -/
def deserialize32 (omitLastByte : Bool) : Parse UInt32 :=
  Parse.scalar (if omitLastByte then 3 else 4) UInt32.ofNat

/-- Fill a vector of the given capacity.
Source: `deserializer::deserialize(std::vector<uint8_t>&)`; the reads into an array and into a
string check the same -/
def deserializeVector (capacity : ℕ) : Parse (List UInt8) := Parse.bytes capacity

/-! ### Writing -/

/-- Source: `serializer::serialize(const uint8_t)` -/
def serialize8 (value : UInt8) : List UInt8 := toBytes 1 value.toNat

theorem serialize8_eq (value : UInt8) : serialize8 value = [value] := by
  have h : serialize8 value = [UInt8.ofNat (value.toNat / 1)] := rfl
  rw [h, Nat.div_one, UInt8.ofNat_toNat]

/-- Source: `serializer::serialize(const uint16_t)` -/
def serialize16 (value : UInt16) : List UInt8 := toBytes 2 value.toNat

/-- Source: `serializer::serialize(const uint32_t, bool)` -/
def serialize32 (value : UInt32) (omitLastByte : Bool) : List UInt8 :=
  toBytes (if omitLastByte then 3 else 4) value.toNat

/-! ### The decoders that the reads follow -/

/-- A byte. -/
def byte : Decoder UInt8 := Codec.scalar 1 UInt8.ofNat

/-- A number of two bytes. -/
def short : Decoder UInt16 := Codec.scalar 2 UInt16.ofNat

/-- A number of four bytes, or of three. -/
def long (omitLastByte : Bool) : Decoder UInt32 :=
  Codec.scalar (if omitLastByte then 3 else 4) UInt32.ofNat

theorem follows_deserialize8 : Follows deserialize8 byte := follows_scalar 1 _

theorem follows_deserialize16 : Follows deserialize16 short := follows_scalar 2 _

theorem follows_deserialize32 (omitLastByte : Bool) :
    Follows (deserialize32 omitLastByte) (long omitLastByte) := follows_scalar _ _

theorem reads_byte (x : UInt8) : Reads byte (serialize8 x) x :=
  reads_scalar x.toNat_lt UInt8.ofNat_toNat

theorem reads_short (x : UInt16) : Reads short (serialize16 x) x :=
  reads_scalar x.toNat_lt UInt16.ofNat_toNat

theorem reads_long (x : UInt32) : Reads (long false) (serialize32 x false) x :=
  reads_scalar x.toNat_lt UInt32.ofNat_toNat

/-- Three bytes hold what fits them. -/
theorem reads_long_of_lt {x : UInt32} (h : x.toNat < 2 ^ 24) :
    Reads (long true) (serialize32 x true) x := reads_scalar h UInt32.ofNat_toNat

theorem takes_byte : Takes 1 byte := takes_scalar

theorem takes_short : Takes 2 short := takes_scalar

theorem takes_long : Takes 4 (long false) := takes_scalar

theorem atLeast_byte : AtLeast 1 byte := atLeast_scalar

theorem atLeast_short : AtLeast 2 short := atLeast_scalar

theorem atLeast_long : AtLeast 4 (long false) := atLeast_scalar

theorem atLeast_long_true : AtLeast 3 (long true) := atLeast_scalar

theorem exact_byte : Exact byte serialize8 :=
  exact_scalar fun _ h => UInt8.toNat_ofNat_of_lt' h

theorem exact_short : Exact short serialize16 :=
  exact_scalar fun _ h => UInt16.toNat_ofNat_of_lt' h

theorem exact_long : Exact (long false) fun x => serialize32 x false :=
  exact_scalar fun _ h => UInt32.toNat_ofNat_of_lt' h

end SomeipTunnel.Someip
