import ResourceScript.Failure

namespace ResourceScript.Document

inductive Flaw where
  /-- The text breaks the rules of its language. -/
  | malformed
  /-- The text keeps to the rules, but its document cannot be had. -/
  | fault (cause : Fault)
  deriving DecidableEq, Repr

end ResourceScript.Document
