import ResourceScript.Text.Glyph

namespace ResourceScript

inductive TextEncoding where
  | macRoman
  | utf8
  | ascii
  | latin1
  deriving DecidableEq, Repr

namespace TextEncoding

def macRomanHigh : List Nat := [
  0x00C4, 0x00C5, 0x00C7, 0x00C9, 0x00D1, 0x00D6, 0x00DC, 0x00E1, 0x00E0, 0x00E2, 0x00E4, 0x00E3,
  0x00E5, 0x00E7, 0x00E9, 0x00E8, 0x00EA, 0x00EB, 0x00ED, 0x00EC, 0x00EE, 0x00EF, 0x00F1, 0x00F3,
  0x00F2, 0x00F4, 0x00F6, 0x00F5, 0x00FA, 0x00F9, 0x00FB, 0x00FC, 0x2020, 0x00B0, 0x00A2, 0x00A3,
  0x00A7, 0x2022, 0x00B6, 0x00DF, 0x00AE, 0x00A9, 0x2122, 0x00B4, 0x00A8, 0x2260, 0x00C6, 0x00D8,
  0x221E, 0x00B1, 0x2264, 0x2265, 0x00A5, 0x00B5, 0x2202, 0x2211, 0x220F, 0x03C0, 0x222B, 0x00AA,
  0x00BA, 0x03A9, 0x00E6, 0x00F8, 0x00BF, 0x00A1, 0x00AC, 0x221A, 0x0192, 0x2248, 0x2206, 0x00AB,
  0x00BB, 0x2026, 0x00A0, 0x00C0, 0x00C3, 0x00D5, 0x0152, 0x0153, 0x2013, 0x2014, 0x201C, 0x201D,
  0x2018, 0x2019, 0x00F7, 0x25CA, 0x00FF, 0x0178, 0x2044, 0x20AC, 0x2039, 0x203A, 0xFB01, 0xFB02,
  0x2021, 0x00B7, 0x201A, 0x201E, 0x2030, 0x00C2, 0x00CA, 0x00C1, 0x00CB, 0x00C8, 0x00CD, 0x00CE,
  0x00CF, 0x00CC, 0x00D3, 0x00D4, 0xF8FF, 0x00D2, 0x00DA, 0x00DB, 0x00D9, 0x0131, 0x02C6, 0x02DC,
  0x00AF, 0x02D8, 0x02D9, 0x02DA, 0x00B8, 0x02DD, 0x02DB, 0x02C7]

def encodeChar? (e : TextEncoding) (c : Char) : Option Bytes :=
  match e with
  | utf8 => some (String.utf8EncodeChar c)
  | ascii => if c.toNat < 0x80 then some [UInt8.ofNat c.toNat] else none
  | latin1 => if c.toNat < 0x100 then some [UInt8.ofNat c.toNat] else none
  | macRoman =>
    if c.toNat < 0x80 then some [UInt8.ofNat c.toNat]
    else (macRomanHigh.idxOf? c.toNat).map fun i => [UInt8.ofNat (0x80 + i)]

def encodeGlyph? (e : TextEncoding) : Glyph → Option Bytes
  | .char c => e.encodeChar? c
  | .byte b => some [b]

def encode? (e : TextEncoding) : Text → Option Bytes
  | [] => some []
  | g :: t => do
    let b ← e.encodeGlyph? g
    let rest ← e.encode? t
    return b ++ rest

def reason : TextEncoding → String
  | macRoman => "character maps to <undefined>"
  | utf8 => "surrogates not allowed"
  | ascii => "ordinal not in range(128)"
  | latin1 => "ordinal not in range(256)"

/-- The name of an encoding in lower case, with one underscore for each run of other characters than
letters, digits and points. -/
def normalName (s : String) : String :=
  let isPlain (c : Char) : Bool := c.isAlphanum || c == '.'
  String.ofList (List.intercalate ['_']
    (((s.toList.map Char.toLower).splitOnP fun c => !isPlain c).filter (!·.isEmpty)))

def names : List (TextEncoding × List String) :=
  [(macRoman, ["mac_roman", "macroman", "macintosh"]),
    (utf8, ["utf_8", "utf8", "u8", "utf", "utf8_ucs2", "utf8_ucs4", "cp65001"]),
    (ascii, ["ascii", "us_ascii", "us", "646", "ansi_x3.4_1968", "ansi_x3_4_1968", "ansi_x3.4_1986",
      "cp367", "csascii", "ibm367", "iso646_us", "iso_646.irv_1991", "iso_ir_6"]),
    (latin1, ["latin_1", "latin1", "latin", "l1", "iso8859_1", "iso_8859_1", "iso8859", "8859",
      "iso_8859_1_1987", "iso_ir_100", "cp819", "csisolatin1", "ibm819"])]

def ofName? (s : String) : Option TextEncoding :=
  (names.find? fun entry => entry.2.contains (normalName s)).map (·.1)

end TextEncoding

/-- Turns a text into bytes. A text that an encoding lacks has a reason for it; without a reason it
is the encoder itself that fails. -/
abbrev Encoder := Text → Except (Option String) Bytes

def TextEncoding.encoder (e : TextEncoding) : Encoder := fun t =>
  match e.encode? t with
  | some b => .ok b
  | none => .error (some e.reason)

namespace Encoder

/-- The code points of the bytes `80` to `9F` in Windows code page 1252, zero for those that it
lacks. -/
def windowsHigh : List Nat := [
  0x20AC, 0, 0x201A, 0x0192, 0x201E, 0x2026, 0x2020, 0x2021, 0x02C6, 0x2030, 0x0160, 0x2039, 0x0152,
  0, 0x017D, 0, 0, 0x2018, 0x2019, 0x201C, 0x201D, 0x2022, 0x2013, 0x2014, 0x02DC, 0x2122, 0x0161,
  0x203A, 0x0153, 0, 0x017E, 0x0178]

def windowsByte? (c : Char) : Option UInt8 :=
  if c.toNat < 0x80 ∨ 0xA0 ≤ c.toNat ∧ c.toNat < 0x100 then some (UInt8.ofNat c.toNat)
  else (windowsHigh.idxOf? c.toNat).map fun i => UInt8.ofNat (0x80 + i)

def windows : Encoder := fun t =>
  let bytes? := t.mapM fun
    | .char c => windowsByte? c
    | .byte b => some b
  match bytes? with
  | some b => .ok b
  | none => .error (some "character maps to <undefined>")

/-- An encoder that is there by name but does not put up with raw bytes, and so encodes nothing. -/
def strict : Encoder := fun _ => .error none

def others : List (String × Encoder) :=
  [("cp1252", windows), ("windows_1252", windows), ("1252", windows), ("idna", strict),
    ("undefined", strict)]

def other? (name : String) : Option Encoder :=
  others.lookup (TextEncoding.normalName name)

/-- The encoder with a name: that of a usual encoding, or else one that is known besides. -/
def ofName? (known : String → Option Encoder) (name : String) : Option Encoder :=
  ((TextEncoding.ofName? name).map TextEncoding.encoder).or (known name)

end Encoder

def defaultEncoding : String := "mac_roman"

/-- The encoding asked for, or else that of the surroundings. An empty name asks for nothing. -/
def encodingOf (asked surroundings : Option String) : String :=
  let given (name : Option String) : Option String := name.filter (!·.isEmpty)
  ((given asked).orElse fun _ => given surroundings).getD defaultEncoding

end ResourceScript
