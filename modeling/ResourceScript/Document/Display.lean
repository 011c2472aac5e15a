import ResourceScript.Document.Basic
import ResourceScript.Text.Quoted

namespace ResourceScript

def paddedDecimal (width n : Nat) : String :=
  let digits := Nat.toDigits 10 n
  String.ofList (List.replicate (width - digits.length) '0' ++ digits)

def commaSeparated (parts : List String) : String :=
  ", ".intercalate parts

def Date.display (d : Date) : String :=
  s!"{paddedDecimal 4 d.year}-{paddedDecimal 2 d.month}-{paddedDecimal 2 d.day}"

namespace Clock

def displayZone (minutes : Int) : String :=
  let size := minutes.natAbs
  (if minutes < 0 then "-" else "+") ++ paddedDecimal 2 (size / 60) ++ ":" ++
    paddedDecimal 2 (size % 60)

def display (c : Clock) : String :=
  let seconds := s!"{paddedDecimal 2 c.hour}:{paddedDecimal 2 c.minute}:{paddedDecimal 2 c.second}"
  let fraction := if c.microsecond = 0 then "" else "." ++ paddedDecimal 6 c.microsecond
  seconds ++ fraction ++ (c.zone.map displayZone).getD ""

def quotedZone (minutes : Int) : String :=
  if minutes = 0 then "datetime.timezone.utc"
  else
    let days := Int.fdiv minutes 1440
    let seconds := Int.fmod minutes 1440 * 60
    let parts := (if days = 0 then [] else [s!"days={days}"]) ++
      (if seconds = 0 then [] else [s!"seconds={seconds}"])
    s!"datetime.timezone(datetime.timedelta({commaSeparated parts}))"

end Clock

namespace Document

def floatWords : FloatWords := ⟨"inf", "nan"⟩

def quotedDate (d : Date) : String :=
  s!"datetime.date({d.year}, {d.month}, {d.day})"

/-- A moment by its components. Seconds and their fraction are left out where they are zero. -/
def quotedMoment (d : Date) (c : Clock) : String :=
  let fine :=
    if c.microsecond ≠ 0 then [c.second, c.microsecond]
    else if c.second ≠ 0 then [c.second]
    else []
  let parts := [d.year, d.month, d.day, c.hour, c.minute] ++ fine
  let zone := (c.zone.map fun z => ["tzinfo=" ++ Clock.quotedZone z]).getD []
  s!"datetime.datetime({commaSeparated (parts.map toString ++ zone)})"

def ellipsis : Document → String
  | list _ => "[...]"
  | _ => "\x7b...\x7d"

/-- Bytes between quotes, those that are no visible ASCII by their hexadecimal digits. -/
def quotedBytes (b : Bytes) : String :=
  let chars := b.map fun byte => Char.ofNat byte.toNat
  let mark := Text.quoteMark chars
  let shown (c : Char) : List Char :=
    if c.toNat < 0x7F then Text.quoteChar mark c else ['\\', 'x'] ++ Text.hexDigits 2 c.toNat
  String.ofList ('b' :: mark :: chars.flatMap shown ++ [mark])

mutual

/-- A document as it stands inside lists and maps, given how the parts with numbers are shown. -/
def quotedWith (part : Nat → String) : Document → String
  | null => "None"
  | bool b => if b then "True" else "False"
  | int n => toString n
  | float x => String.ofList (renderFloat floatWords x)
  | text s => String.ofList (Text.quoted s.toList)
  | bytes b => quotedBytes b
  | date d => quotedDate d
  | moment d c => quotedMoment d c
  | pair first second => s!"({quotedWith part first}, {quotedWith part second})"
  | list items => s!"[{commaSeparated (quotedItems part items)}]"
  | set [] => "set()"
  | set (item :: items) =>
    "\x7b" ++ commaSeparated (quotedWith part item :: quotedItems part items) ++ "\x7d"
  | map members => "\x7b" ++ commaSeparated (quotedMembers part members) ++ "\x7d"
  | shared n => part n

def quotedItems (part : Nat → String) : List Document → List String
  | [] => []
  | item :: items => quotedWith part item :: quotedItems part items

def quotedMembers (part : Nat → String) : List (Document × Document) → List String
  | [] => []
  | (key, value) :: members =>
    s!"{quotedWith part key}: {quotedWith part value}" :: quotedMembers part members

end

def quotedInside (parts : Parts) (around : List Nat) : Nat → Document → String
  | 0, d => quotedWith (fun _ => "") d
  | depth + 1, d =>
    quotedWith (fun n =>
      let part := whole parts (shared n)
      if around.contains n then part.ellipsis else quotedInside parts (n :: around) depth part) d

/-- A document as it stands inside lists and maps. Parts with numbers are nested no deeper than
their number, since none is shown inside itself. -/
def quoted (parts : Parts) (d : Document) : String :=
  quotedInside parts [] (parts.size + 1) d

def display (parts : Parts) (d : Document) : String :=
  match d with
  | text s => s
  | date d => d.display
  | moment d c => d.display ++ " " ++ c.display
  | _ => quoted parts d

end Document

end ResourceScript
