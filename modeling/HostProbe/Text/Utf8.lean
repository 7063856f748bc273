/-!
UTF-8 over lists of octets. Decoding is strict: overlong forms, surrogates and values beyond
U+10FFFF are refused.
-/

namespace HostProbe.Text.Utf8

/-- The octets of a text. -/
def encode (s : String) : List UInt8 := s.toList.flatMap String.utf8EncodeChar

/-- A continuation octet. -/
def isTail (b : UInt8) : Bool := 0x80 ≤ b && b ≤ 0xBF

def tailBits (b : UInt8) : Nat := b.toNat % 0x40

/-- Decodes, with the characters read so far in reverse order in front. -/
def decodeOnto : List Char → List UInt8 → Option (List Char)
  | done, [] => some done.reverse
  | done, a :: rest =>
    if a < 0x80 then decodeOnto (Char.ofNat a.toNat :: done) rest
    else match rest with
      | [] => none
      | b :: rest =>
        if !isTail b then none
        else if 0xC2 ≤ a && a ≤ 0xDF then
          decodeOnto (Char.ofNat (a.toNat % 0x20 * 0x40 + tailBits b) :: done) rest
        else match rest with
          | [] => none
          | c :: rest =>
            let three := a.toNat % 0x10 * 0x1000 + tailBits b * 0x40 + tailBits c
            if !isTail c then none
            else if 0xE0 ≤ a && a ≤ 0xEF then
              if 0x800 ≤ three && (three < 0xD800 || 0xDFFF < three) then
                decodeOnto (Char.ofNat three :: done) rest
              else none
            else match rest with
              | [] => none
              | d :: rest =>
                let four := a.toNat % 0x08 * 0x40000 + tailBits b * 0x1000 +
                  tailBits c * 0x40 + tailBits d
                if isTail d && 0xF0 ≤ a && a ≤ 0xF4 && 0x10000 ≤ four && four ≤ 0x10FFFF then
                  decodeOnto (Char.ofNat four :: done) rest
                else none

/-- The text that the octets encode, if they are valid UTF-8. -/
def decode (octets : List UInt8) : Option String :=
  (decodeOnto [] octets).map String.ofList

end HostProbe.Text.Utf8
