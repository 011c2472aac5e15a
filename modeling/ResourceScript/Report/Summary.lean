import ResourceScript.Text.Class
import ResourceScript.Json.Basic

namespace ResourceScript

structure Summary where
  /-- What is summed up, in small letters. -/
  kind : Text
  pairs : List (String × Text)
  deriving DecidableEq, Repr

namespace Summary

def kinds : List String :=
  ["types", "compile", "write", "manifest", "inspect"]

/-- Whether a glyph is a form of a small letter. The long s is an s, and an i need not carry one
dot. -/
def isForm (letter : Char) : Glyph → Bool
  | .char c => c.toLower == letter || (letter == 's' && c == 'ſ') ||
      (letter == 'i' && (c == 'ı' || c == 'İ'))
  | .byte _ => false

def small : Glyph → Text
  | .char 'İ' => [.char 'i', .char '\u0307']
  | .char c => [.char c.toLower]
  | .byte b => [.byte b]

def after? : List Char → Text → Option Text
  | [], t => some t
  | _ :: _, [] => none
  | c :: cs, g :: t => if isForm c g then after? cs t else none

def isLine (t : Text) : Bool :=
  let newline : Glyph := .char '\n'
  !(t.dropLast.contains newline)

def pair? (word : Text) : Option (String × Text) :=
  let (name, rest) := word.span (· != .char '=')
  match rest with
  | _ :: value => some (Text.toString name, value)
  | [] => none

def isBlank : Glyph → Bool
  | .char c => Text.isBlank c
  | .byte _ => false

/-- The pairs among the words of a text. Of two pairs with one name the later counts. -/
def pairsOf (t : Text) : List (String × Text) :=
  mergeMembers [] ((t.splitOnP isBlank).filterMap pair?)

def ofMessage? (message : Text) : Option Summary :=
  kinds.findSome? fun kind => do
    let rest ← after? (kind ++ " summary:").toList message
    if isLine rest then
      some { kind := (message.take kind.length).flatMap small, pairs := pairsOf rest }
    else none

end Summary

end ResourceScript
