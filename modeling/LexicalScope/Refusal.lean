set_option autoImplicit false

/-!
# Refusals

An operation on a table is refused for one of two causes. Each cause has a message, a
diagnostic code and a hint on how to avoid it; `Refusal.report` sets the three out for a
reader.

The arrangement of the report is that of the library which prints diagnostics for the command
line. It is restated for the demonstration, and no result rests on it.

## Main definitions

* `LexicalScope.Refusal` — the two causes.
* `LexicalScope.Refusal.message`, `LexicalScope.Refusal.code`,
  `LexicalScope.Refusal.help` — the wording of a cause.
* `LexicalScope.Refusal.report` — the wording as a report of several lines.
-/

namespace LexicalScope

/-- Why an operation on a table is refused. -/
inductive Refusal where
  /-- No binding of this name lies where the operation looks for one. -/
  | unbound (name : String)
  /-- The scope to be left is the root scope, or the one that an open child holds. -/
  | atFloor
deriving DecidableEq, Inhabited

namespace Refusal

/-- The name that a refusal is about, where there is one. -/
def name? : Refusal → Option String
  | unbound name => some name
  | atFloor => none

/-- What went wrong, in one line. -/
def message : Refusal → String
  | unbound name => "no binding named `" ++ name ++ "` is in scope"
  | atFloor => "cannot exit the root scope"

/-- The stable diagnostic code. -/
def code : Refusal → String
  | unbound _ => "scope::not_found"
  | atFloor => "scope::root_scope"

/-- How to avoid the refusal. -/
def help : Refusal → String
  | unbound _ => "declare the name with `insert` before updating or removing it"
  | atFloor => "every `exit_scope` must be paired with an earlier `enter_scope`"

/-- The code on a line of its own, then the marked message and the hint, then a blank line. -/
def report (r : Refusal) : String :=
  r.code ++ "\n\n  × " ++ r.message ++ "\n  help: " ++ r.help ++ "\n\n"

end Refusal

end LexicalScope
