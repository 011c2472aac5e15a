import ResourceScript.Bytes.BigEndian

namespace ResourceScript.Base64

def alphabet : List Char :=
  "ABCDEFGHIJKLMNOPQRSTUVWXYZabcdefghijklmnopqrstuvwxyz0123456789+/".toList

def bytesOf (values : List Nat) : Bytes :=
  let n := Text.ofDigits 64 (values ++ List.replicate (4 - values.length) 0)
  (BigEndian.bytes 3 n).take (values.length - 1)

/-- The bytes of a text, given the values of the unfinished four and the pads behind them. Two
values at least and their pads end the bytes, whatever follows. -/
def decodeFrom (values : List Nat) (pads : Nat) : List Char → Option Bytes
  | [] => if values.isEmpty then some [] else none
  | c :: cs =>
    if c = '=' then
      if values.length < 2 then decodeFrom values pads cs
      else if values.length + pads + 1 < 4 then decodeFrom values (pads + 1) cs
      else some (bytesOf values)
    else
      match alphabet.idxOf? c with
      | none => decodeFrom values pads cs
      | some value =>
        let all := values ++ [value]
        if all.length < 4 then decodeFrom all 0 cs
        else (decodeFrom [] 0 cs).map (bytesOf all ++ ·)

/-- The bytes of a text in base 64, unless characters or pads are missing at its end. -/
def decode? (cs : List Char) : Option Bytes :=
  decodeFrom [] 0 cs

end ResourceScript.Base64
