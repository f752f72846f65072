import LexicalScope.Session.Step

set_option autoImplicit false

/-!
# Sessions

A *session* works on several tables at once. Each table stands in a numbered slot; children
are opened on slots and closed in the opposite order, across all slots. What the tables emit
is collected in one log, together with the spans of the children.

## Main definitions

* `LexicalScope.Session` — the tables, the open children and the open spans.
* `LexicalScope.Session.step` — carries out one step.
* `LexicalScope.Session.run` — carries out steps one after the other.
* `LexicalScope.Session.unwind` — closes all children that are still open.

## Main results

* `LexicalScope.Session.length_run` — each step of a run has one outcome.
* `LexicalScope.Session.run_append` — a run goes on from where its first part ended.

## Design

The children of all slots form one stack, most recently opened first, so that closing needs no
choice. The open spans are a second stack: it is the observer's, who only sees spans entered
and left, and that it lists exactly the open children with a span is a theorem about runs.

A step that needs frames which are not there answers `Reply.outOfRange` and changes no table.
Closing a child gives up its handle and its span even then.
-/

namespace LexicalScope

/-- A child that is open on a slot. -/
structure OpenChild where
  /-- The slot that the child was opened on. -/
  slot : Nat
  /-- The handle. -/
  child : Child
deriving DecidableEq, Inhabited

/-- Several tables with the children and spans that are open on them. -/
structure Session where
  /-- The tables, by slot. -/
  tables : List Table
  /-- The open children of all slots, most recently opened first. -/
  children : List OpenChild
  /-- The scopes of the open spans, most recently entered first. -/
  spans : List Nat
deriving DecidableEq, Inhabited

/-- What a step of a session leaves behind. -/
structure Outcome where
  /-- The answer. -/
  reply : Reply
  /-- The session afterwards. -/
  session : Session
  /-- What an observer saw during the step, in order. -/
  log : List LogRecord
deriving DecidableEq

/-- The answer to a question about a table on which `child?` is the innermost open child;
`none` if the question is about the current frame and there is none. -/
def Query.answer? (child? : Option Child) (t : Table) : Query → Option Reply
  | resolve name => some (.found (t.resolve name))
  | resolveHere name => t.current?.map fun f => .found (f.find? name)
  | level => t.current?.map fun _ => .number t.level
  | size => some (.number t.size)
  | isEmpty => some (.flag t.isEmpty)
  | bindings => some (.bindings t.bindings)
  | bindingsHere => t.current?.map fun f => .bindings f.bindings
  | assignments => t.current?.map fun f => .lines (f.bindings.map Binding.assignment)
  | declarations => some (.lines (t.bindings.map Binding.declaration))
  | context => some (.context t.context)
  | table => some (.handle none t)
  | handle => some (.handle child? t)
  | echo event => some (.event event)

namespace Session

/-- A session over fresh tables. -/
def ofContexts (contexts : List Context) : Session :=
  { tables := contexts.map Table.ofContext, children := [], spans := [] }

/-! ## Views -/

/-- The innermost child that is open on a slot. -/
def child? (s : Session) (slot : Nat) : Option Child :=
  (s.children.find? fun c => c.slot == slot).map OpenChild.child

/-- The slot that a step reports on: the one that it is addressed to, except that closing a
child reports on the slot of the child. -/
def focus (s : Session) : Step → Nat
  | .closeChild slot =>
    match s.children with
    | [] => slot
    | c :: _ => c.slot
  | step => step.slot

/-- How an observer sees the emissions of the table of a slot. -/
def observe (s : Session) (slot : Nat) (trace : List Emission) : List LogRecord :=
  trace.map fun e => .event slot e s.spans.reverse

/-! ## Ways in which a step ends -/

/-- The outcome of a step that answers and does nothing else. -/
def answer (s : Session) (reply : Reply) : Outcome :=
  { reply := reply, session := s, log := [] }

/-- The session with another table in a slot. -/
def setTable (s : Session) (slot : Nat) (t : Table) : Session :=
  { s with tables := s.tables.set slot t }

/-- The outcome of an operation on the table of a slot. -/
def commit {α : Type} (s : Session) (slot : Nat) (reply : α → Reply) :
    Option (Effect α) → Outcome
  | none => s.answer .outOfRange
  | some e =>
    { reply := reply e.answer
      session := s.setTable slot e.table
      log := s.observe slot e.trace }

/-- Continues with the table of a slot, if the slot has one. -/
def withTable (s : Session) (slot : Nat) (k : Table → Outcome) : Outcome :=
  match s.tables[slot]? with
  | none => s.answer .noSlot
  | some t => k t

/-- Continues with the tables of two different slots. -/
def withTables (s : Session) (slot partner : Nat) (k : Table → Table → Outcome) : Outcome :=
  s.withTable slot fun t =>
    if partner = slot then
      s.answer .badPartner
    else
      match s.tables[partner]? with
      | none => s.answer .badPartner
      | some u => k t u

/-- Continues with the innermost child of a slot and the table behind it. -/
def withChild (s : Session) (slot : Nat) (k : Child → Table → Outcome) : Outcome :=
  s.withTable slot fun t =>
    match s.child? slot with
    | none => s.answer .notChild
    | some c => k c t

/-! ## Steps -/

/-- Changes the table of a slot. -/
def edit (s : Session) (slot : Nat) (t : Table) : Edit → Outcome
  | .insert name typeTag value => s.commit slot (fun _ => .done) (t.insert name typeTag value)
  | .assign name value => s.commit slot (.ofExcept fun _ => .done) (t.assign name value)
  | .erase name => s.commit slot (.ofExcept .removed) (t.erase name)
  | .enter => s.commit slot (fun _ => .done) (some t.enter)
  | .exit => s.commit slot (.ofExcept fun _ => .done) t.exit

/-- Opens a child on a slot. Its span, if it has one, is entered before its scope. -/
def openChild (s : Session) (slot : Nat) (t : Table) : Outcome :=
  let e := t.openChild
  let c := e.answer
  let spans := if c.hasSpan then c.base :: s.spans else s.spans
  let opened : Session :=
    { tables := s.tables.set slot e.table
      children := { slot := slot, child := c } :: s.children
      spans := spans }
  { reply := .number c.base
    session := opened
    log := (if c.hasSpan then [.enterSpan c.base] else []) ++ opened.observe slot e.trace }

/-- Closes the child `c`, with `rest` being the children that stay open. Its span, if it has
one, is left after its scope. -/
def closeChild (s : Session) (c : OpenChild) (rest : List OpenChild) : Outcome :=
  s.withTable c.slot fun t =>
    let closed := s.commit c.slot (fun _ => .done) (c.child.close t)
    { reply := closed.reply
      session :=
        { closed.session with
          children := rest
          spans := if c.child.hasSpan then s.spans.tail else s.spans }
      log := closed.log ++ if c.child.hasSpan then [.exitSpan c.child.base] else [] }

/-- Carries out one step. -/
def step (s : Session) : Step → Outcome
  | .query slot q =>
    s.withTable slot fun t => s.answer ((q.answer? (s.child? slot) t).getD .outOfRange)
  | .edit slot e => s.withTable slot fun t => s.edit slot t e
  | .copy source receiver =>
    s.withTables source receiver fun t u =>
      s.commit receiver (fun _ => .done) (t.copyInto u)
  | .carry source receiver =>
    s.withTables source receiver fun t u =>
      s.commit receiver .number (some (t.carryInto u))
  | .swap first second =>
    s.withTables first second fun t u =>
      ((s.setTable first u).setTable second t).answer .done
  | .openChild slot => s.withTable slot fun t => s.openChild slot t
  | .closeChild slot =>
    match s.children with
    | [] => s.withTable slot fun _ => s.answer .noChild
    | c :: rest => s.closeChild c rest
  | .childLevel slot => s.withChild slot fun c _ => s.answer (.number c.base)
  | .seed slot => s.withChild slot fun c t => s.commit slot (fun _ => .done) (c.seed t)
  | .writeBack slot => s.withChild slot fun c t => s.commit slot .number (c.writeBack t)
  | .trace slot outlet event level =>
    s.withTable slot fun t =>
      let trace :=
        match outlet with
        | .context => t.context.emit event level
        | .log => Tracer.log.emit event level
      { reply := .done, session := s, log := s.observe slot trace }

/-- Carries out steps one after the other, and gives the outcome of each. -/
def run (s : Session) : List Step → List Outcome
  | [] => []
  | step :: steps =>
    let outcome := s.step step
    outcome :: run outcome.session steps

/-- Closes all children that are still open, most recently opened first. -/
def unwind (s : Session) : List Outcome :=
  s.run (List.replicate s.children.length (.closeChild 0))

/-- The session after the given outcomes, the first of which began in `s`. -/
def after (s : Session) (outcomes : List Outcome) : Session :=
  (outcomes.getLast?.map Outcome.session).getD s

/-! ## Laws -/

/-- A run without steps has no outcomes. -/
@[simp] theorem run_nil (s : Session) : s.run [] = [] := rfl

/-- After its first step, a run goes on from the session that the step leaves behind. -/
@[simp] theorem run_cons (s : Session) (step : Step) (steps : List Step) :
    s.run (step :: steps) = s.step step :: (s.step step).session.run steps := rfl

/-- Each step of a run has one outcome. -/
@[simp] theorem length_run (s : Session) (steps : List Step) :
    (s.run steps).length = steps.length := by
  induction steps generalizing s with
  | nil => rfl
  | cons step steps ih => simp [ih]

/-- After no outcomes, the session is still the one at the beginning. -/
@[simp] theorem after_nil (s : Session) : s.after [] = s := rfl

/-- After a first outcome, what is left starts from the session that it left behind. -/
@[simp] theorem after_cons (s : Session) (o : Outcome) (os : List Outcome) :
    s.after (o :: os) = o.session.after os := by
  cases os with
  | nil => rfl
  | cons p os => simp [after, List.getLast?_cons]

/-- A run goes on from where its first part ended. -/
theorem run_append (s : Session) (steps rest : List Step) :
    s.run (steps ++ rest) = s.run steps ++ (s.after (s.run steps)).run rest := by
  induction steps generalizing s with
  | nil => rfl
  | cons step steps ih => simp [ih]

end Session

end LexicalScope
