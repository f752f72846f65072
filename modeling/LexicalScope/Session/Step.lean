import LexicalScope.Child

set_option autoImplicit false

/-!
# Steps of a session

What a user of a session can ask for, what is answered, and what an observer of the session
sees.

## Main definitions

* `LexicalScope.Query` — a question that changes nothing.
* `LexicalScope.Edit` — a change of a single table.
* `LexicalScope.Step` — a step of a session over several tables, which are numbered by slots.
* `LexicalScope.Reply` — the answer to a step.
* `LexicalScope.LogRecord` — what an observer sees: events, and the two ends of spans.
-/

namespace LexicalScope

/-- A question about one table. -/
inductive Query where
  /-- The binding that a name refers to. -/
  | resolve (name : String)
  /-- The first binding of a name in the current scope. -/
  | resolveHere (name : String)
  /-- The level of the current scope. -/
  | level
  /-- The number of bindings. -/
  | size
  /-- Whether there are no bindings. -/
  | isEmpty
  /-- All bindings, outermost scope first. -/
  | bindings
  /-- The bindings of the current scope. -/
  | bindingsHere
  /-- The bindings of the current scope as lines `name = value`. -/
  | assignments
  /-- All bindings as lines `name: type = value`. -/
  | declarations
  /-- The context of the table. -/
  | context
  /-- The table itself. -/
  | table
  /-- The innermost open child of the slot with the table, or else the table itself. -/
  | handle
  /-- The given event, unchanged: asked in order to have an event written as text. -/
  | echo (event : Event)
deriving DecidableEq

/-- A change of one table. -/
inductive Edit where
  /-- Declares a binding in the current scope. -/
  | insert (name typeTag value : String)
  /-- Overwrites the value of the binding that a name refers to. -/
  | assign (name value : String)
  /-- Removes the first binding of a name from the current scope. -/
  | erase (name : String)
  /-- Enters a scope. -/
  | enter
  /-- Leaves the current scope. -/
  | exit
deriving DecidableEq

/-- The way on which an event made up by the user is reported. -/
inductive Outlet where
  /-- Through the tracer of the table's context, which may be silent. -/
  | context
  /-- Straight to the log. -/
  | log
deriving DecidableEq

/-- A step of a session. -/
inductive Step where
  /-- Asks a question about the table of a slot. -/
  | query (slot : Nat) (query : Query)
  /-- Changes the table of a slot. -/
  | edit (slot : Nat) (edit : Edit)
  /-- Copies the bindings of one slot's table into another's. -/
  | copy (source receiver : Nat)
  /-- Writes the visible values of one slot's table back to another's. -/
  | carry (source receiver : Nat)
  /-- Exchanges the tables of two slots; the children stay with their slots. -/
  | swap (first second : Nat)
  /-- Opens a child on the handle of a slot. -/
  | openChild (slot : Nat)
  /-- Closes the most recently opened child, of whatever slot. Where none is open, the slot
  says which table to report on. -/
  | closeChild (slot : Nat)
  /-- Asks for the level that the slot's innermost child was opened at. -/
  | childLevel (slot : Nat)
  /-- Seeds the current scope with copies of what lies outside of the slot's innermost
  child. -/
  | seed (slot : Nat)
  /-- Writes the values visible inside of the slot's innermost child back to the outside. -/
  | writeBack (slot : Nat)
  /-- Reports an event made up by the user. -/
  | trace (slot : Nat) (outlet : Outlet) (event : Event) (level : Nat)
deriving DecidableEq

/-- The answer to a step. -/
inductive Reply where
  /-- The step was carried out and has no answer of its own. -/
  | done
  /-- The binding asked for, if there is one. -/
  | found (binding? : Option Binding)
  /-- The binding that was removed. -/
  | removed (binding : Binding)
  /-- A list of bindings. -/
  | bindings (bindings : List Binding)
  /-- A level or a count. -/
  | number (n : Nat)
  /-- A truth value. -/
  | flag (b : Bool)
  /-- Lines of text. -/
  | lines (lines : List String)
  /-- A context. -/
  | context (context : Context)
  /-- A table, or a child together with the table that stands behind it. -/
  | handle (child? : Option Child) (table : Table)
  /-- An event. -/
  | event (event : Event)
  /-- The table refused the step. -/
  | refused (cause : Refusal)
  /-- The step needs frames that the table does not have; nothing was changed. -/
  | outOfRange
  /-- The step needs a child, and the slot has none open. -/
  | notChild
  /-- There is no open child to close. -/
  | noChild
  /-- There is no table in the slot of the step. -/
  | noSlot
  /-- The second slot of the step is empty, or it is the first one again. -/
  | badPartner
deriving DecidableEq

/-- What an observer of a session sees. -/
inductive LogRecord where
  /-- The table of a slot emitted an event while spans of the given scopes were open,
  outermost first. -/
  | event (slot : Nat) (emission : Emission) (spans : List Nat)
  /-- The span of a child with the given scope was entered. -/
  | enterSpan (scope : Nat)
  /-- The span of a child with the given scope was left. -/
  | exitSpan (scope : Nat)
deriving DecidableEq

namespace Step

/-- The slot that a step is addressed to. -/
def slot : Step → Nat
  | query slot _ | edit slot _ | openChild slot | closeChild slot | childLevel slot
  | seed slot | writeBack slot | trace slot _ _ _ => slot
  | copy source _ | carry source _ => source
  | swap first _ => first

end Step

namespace Reply

/-- The answer to an edit: what it answers, or why the table refused. -/
def ofExcept {α : Type} (reply : α → Reply) : Except Refusal α → Reply
  | .ok a => reply a
  | .error e => refused e

end Reply

end LexicalScope
