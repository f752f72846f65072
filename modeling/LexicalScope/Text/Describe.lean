import LexicalScope.Session.Basic
import LexicalScope.Text.Tree

set_option autoImplicit false

/-!
# Descriptions of the library's values

How bindings, frames, tables, children, events, refusals and the replies of a session are
described as trees. A description shows all data of its value, and shows it once; a stack is
shown with its outermost frame first.

## Main definitions

* `LexicalScope.Binding.tree`, `LexicalScope.Frame.tree`, `LexicalScope.Context.tree`,
  `LexicalScope.Table.tree`, `LexicalScope.Child.tree`, `LexicalScope.Event.tree`,
  `LexicalScope.Refusal.tree` — the descriptions of single values.
* `LexicalScope.Reply.tree?` — the description of what a step answers.
-/

namespace LexicalScope

open Text (Tree)

/-- A binding as a record of its four fields. -/
def Binding.tree (b : Binding) : Tree :=
  .record "Binding"
    [("name", .quoted b.name), ("type_tag", .quoted b.typeTag), ("value", .quoted b.value),
      ("scope_level", .number b.scopeLevel)]

/-- A frame as a record of its level and its bindings. -/
def Frame.tree (f : Frame) : Tree :=
  .record "Frame"
    [("level", .number f.level), ("bindings", .list (f.bindings.map Binding.tree))]

/-- A tracer as a constructor. -/
def Tracer.tree : Tracer → Tree
  | silent => .leaf "Nil"
  | log => .node "Log" [.leaf "LogTracer"]

/-- A context as a record of its tracer and its frame capacity. -/
def Context.tree (c : Context) : Tree :=
  .record "ScopeContext"
    [("tracer", c.tracer.tree), ("frame_capacity", .number c.frameCapacity)]

/-- A table as a record of its frames, outermost first, its floor and its context. -/
def Table.tree (t : Table) : Tree :=
  .record "SymbolTable"
    [("frames", .list (t.stack.reverse.map Frame.tree)), ("floor", .number t.floor),
      ("context", t.context.tree)]

/-- A child as a record of its level and the table behind it. -/
def Child.tree (c : Child) (t : Table) : Tree :=
  .record "ChildScope" [("base", .number c.base), ("table", t.tree)]

/-- A refusal as a constructor, with the name it is about as a field. -/
def Refusal.tree : Refusal → Tree
  | unbound name => .record "NotFound" [("name", .quoted name)]
  | atFloor => .leaf "RootScope"

/-- An event as a constructor with its data. -/
def Event.tree : Event → Tree
  | declared name => .node "Insert" [.quoted name]
  | updated name => .node "Update" [.quoted name]
  | removed name => .node "Remove" [.quoted name]
  | missed name => .node "Miss" [.quoted name]
  | wroteBack name => .node "Propagate" [.quoted name]
  | entered => .leaf "EnterScope"
  | exited reaped => .node "ExitScope" [.number reaped]

/-- The answer of a step as a tree. What an edit answers is wrapped according to its success.
There is no description where the session could not carry the step out. -/
def Reply.tree? : Reply → Option Tree
  | done => some (.node "Ok" [.unit])
  | removed b => some (.node "Ok" [b.tree])
  | refused e => some (.node "Err" [e.tree])
  | found none => some (.leaf "None")
  | found (some b) => some (.node "Some" [b.tree])
  | bindings bs => some (.list (bs.map Binding.tree))
  | lines ls => some (.list (ls.map .quoted))
  | number n => some (.number n)
  | flag b => some (.leaf (if b then "true" else "false"))
  | context c => some c.tree
  | handle none t => some t.tree
  | handle (some c) t => some (c.tree t)
  | event e => some e.tree
  | outOfRange | notChild | noChild | noSlot | badPartner => none

end LexicalScope
