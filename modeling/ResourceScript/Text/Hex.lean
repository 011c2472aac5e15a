import ResourceScript.Text.Class
import ResourceScript.Text.Glyph

namespace ResourceScript.Text

def hexDigits (width n : Nat) : List Char :=
  let digits := Nat.toDigits 16 n
  List.replicate (width - digits.length) '0' ++ digits

def hexOfBytes (b : Bytes) : String :=
  String.ofList (b.flatMap fun x => hexDigits 2 x.toNat)

def bytesOfHex? : List Char → Option Bytes
  | [] => some []
  | a :: b :: cs => do
    let high ← hexValue? a
    let low ← hexValue? b
    let rest ← bytesOfHex? cs
    return UInt8.ofNat (high * 16 + low) :: rest
  | [_] => none

end ResourceScript.Text
