import TransitionNetwork.Text.Digits

/-!
The cyclic redundancy check CRC-32C over the Castagnoli polynomial, computed bit by bit on the
reflected remainder.
-/

namespace TransitionNetwork.Checksum

/-- The Castagnoli polynomial with its bits in reverse order. -/
def polynomial : UInt32 := 0x82F63B78

/-- Moves the remainder down one place, subtracting the polynomial when a bit falls out. -/
def shift (remainder : UInt32) : UInt32 :=
  if remainder &&& 1 = 1 then (remainder >>> 1) ^^^ polynomial else remainder >>> 1

def shifts : Nat → UInt32 → UInt32
  | 0, remainder => remainder
  | n + 1, remainder => shifts n (shift remainder)

def addByte (remainder : UInt32) (byte : UInt8) : UInt32 :=
  shifts 8 (remainder ^^^ byte.toUInt32)

/-- The remainder starts from all ones and is inverted at the end. -/
def crc32c (bytes : List UInt8) : UInt32 :=
  bytes.foldl addByte 0xFFFFFFFF ^^^ 0xFFFFFFFF

/-- The checksum of a text in UTF-8, as eight hexadecimal digits. -/
def ofText (text : String) : String :=
  String.ofList (Text.hexDigits 8 (crc32c text.toUTF8.toList).toNat)

end TransitionNetwork.Checksum
