import ResourceScript.Proofs.History
import ResourceScript.Proofs.Lines
import ResourceScript.Proofs.Places
import ResourceScript.Report.Diagnostic

namespace ResourceScript

variable {source : String} {path : Option String} {p : Position} {cs : List Char} {offset : Nat}

/-- The line of an offset: what stands between the newlines around it. -/
def lineAt (cs : List Char) (offset : Nat) : List Char :=
  (cs.drop (lineStart cs offset)).takeWhile (· != '\n')

namespace Diagnostic

/-- A line of a script with a mark below one of its columns. -/
def marked (line : List Char) (column : Nat) : List Text :=
  [margin ++ shownLine line, margin ++ Text.spaces (column - 1) ++ text "^"]

end Diagnostic

variable {settings : Settings} {r : Registry} {cause : Problem}

/-- A form feed in a comment ends a line of the excerpt, but none of the script: what is marked is
not the line that is at fault. -/
theorem excerpt_behind_form_feed :
    let source := "// a\x0cb\nnew () \x7b none = 1; \x7d\n"
    let cause := Problem.unknownField "none" "Note"
    let p : Position := ⟨none, 2, 10, 16⟩
    let d := Diagnostic.ofProblem cause (some p)
    '\r' ∉ source.toList ∧
      (compile Sample.settings Sample.registry source).result = .error (cause.at p) ∧
      lineAt source.toList p.offset = "new () \x7b none = 1; \x7d".toList ∧
      d.lines source = d.headline :: Diagnostic.marked ['b'] 10 ∧
      d.lines source ≠ d.headline ::
        Diagnostic.marked (lineAt source.toList p.offset) p.column := by
  decide +kernel

end ResourceScript
