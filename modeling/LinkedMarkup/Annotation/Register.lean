import LinkedMarkup.Annotation.Extraction

/-
  This file defines an evaluation that shares its open
  elements. Each has one sheet, to which two lists refer by
  number: the elements that are open, and those that capture
  content. At its end tag, an element is looked for in the
  second list by what is on its sheet.

  That this does what an evaluation does that keeps its open
  elements on their own is proven by
  `Evaluation.Shared.evaluate_plain`.

  Key definitions include:
    * `Entries.alike`
    * `Scope.alike`
    * `Sheet`
    * `Sheet.capture`
    * `Sheet.joined`
    * `Sheet.alike`
    * `Register`
    * `Register.capture`
    * `Register.opened`
    * `Register.release`
    * `Evaluation.Shared`
    * `Evaluation.Shared.process`
    * `Evaluation.Shared.evaluate`
    * `Evaluation.Shared.plain`
-/

namespace LinkedMarkup

------------------------------------------------------------
-- Same contents
------------------------------------------------------------

/- Whether two maps give every key the same value. -/
def Entries.alike
    (a b : Entries) : Bool :=
  (a ++ b).all (fun entry => a.get? entry.1 == b.get? entry.1)

/-
  Whether two scopes have the same contents. Two list mappings
  are only the same if they have the same number.
-/
def Scope.alike
    (a b : Scope) : Bool :=
  a.base == b.base && a.subject == b.subject &&
    a.object == b.object && a.prefixes.alike b.prefixes &&
    a.terms.alike b.terms && a.vocab == b.vocab &&
    a.language == b.language && a.list == b.list &&
    a.incomplete == b.incomplete

------------------------------------------------------------
-- Sheets
------------------------------------------------------------

/- What a pending value captures of an event. -/
def Pending.piece?
    (p : Pending)
    (event : Event) : Option String :=
  if p.keepsMarkup then
    some event.written
  else
    match event with
    | .text data => some data
    | _ => none

/-
  What is kept of an open element: the element as its start
  tag was read, and the pieces of its content that its pending
  value has captured.
-/
structure Sheet where
  element : Element
  pieces : List String
  deriving DecidableEq, Repr

namespace Sheet

/- Whether a value waits for the content of the element. -/
def waits
    (s : Sheet) : Bool :=
  s.element.pending.isSome

/- Add what is captured of an event. -/
def capture
    (event : Event)
    (s : Sheet) : Sheet :=
  { s with
    pieces :=
      s.pieces ++
        (s.element.pending.bind (fun p => p.piece? event)).toList }

/- The element with its pieces put together. -/
def joined
    (s : Sheet) : Element :=
  { s.element with
    pending :=
      s.element.pending.map
        (fun p => { p with text := p.text ++ String.join s.pieces }) }

/- Whether two sheets have the same contents. -/
def alike
    (s t : Sheet) : Bool :=
  s.element.name == t.element.name &&
    s.element.scope.alike t.element.scope &&
    s.element.subject == t.element.subject &&
    s.element.list == t.element.list &&
    s.element.pending == t.element.pending && s.pieces == t.pieces

end Sheet

------------------------------------------------------------
-- Registers
------------------------------------------------------------

/-
  The sheets of all elements so far, in the order of their
  start tags, with the numbers of the elements that are open,
  the outermost first, and of those that capture content, in
  the order in which they began to.
-/
structure Register where
  sheets : Array Sheet
  stack : List Nat
  capturing : List Nat
  deriving DecidableEq, Repr

namespace Register

/- A register without elements. -/
def empty : Register :=
  ⟨#[], [], []⟩

/- Whether a value waits for the content of a numbered element. -/
def waits
    (r : Register)
    (n : Nat) : Bool :=
  r.sheets[n]?.any Sheet.waits

/- Whether the sheets of two numbers have the same contents. -/
def alike
    (r : Register)
    (m n : Nat) : Bool :=
  match r.sheets[m]?, r.sheets[n]? with
  | some s, some t => s.alike t
  | _, _ => false

/- The innermost open element: its number and its sheet. -/
def innermost?
    (r : Register) : Option (Nat × Sheet) :=
  r.stack.getLast?.bind (fun n => r.sheets[n]?.map (fun s => (n, s)))

/- The scope that the next start tag is read in. -/
def scope
    (r : Register)
    (outer : Scope) : Scope :=
  match r.innermost? with
  | none => outer
  | some (_, s) => s.element.scope

/- Add an event to each sheet that captures, one by one. -/
def capture
    (r : Register)
    (event : Event) : Register :=
  { r with
    sheets :=
      r.capturing.foldl
        (fun sheets n => sheets.modify n (Sheet.capture event))
        r.sheets }

/- Open an element, which captures if a value waits. -/
def opened
    (r : Register)
    (e : Element) : Register :=
  { sheets := r.sheets.push ⟨e, []⟩
    stack := r.stack ++ [r.sheets.size]
    capturing :=
      if e.pending.isSome then
        r.capturing ++ [r.sheets.size]
      else
        r.capturing }

/-
  Take the innermost element off the stack. If a value waits
  for its content, the first element with the same contents
  stops capturing, and the value is completed.
-/
def release
    (r : Register)
    (n : Nat)
    (s : Sheet) : Work Register :=
  if s.waits then
    if r.capturing.any (fun m => r.alike m n) then do
      Evaluation.completeElement s.joined
      return { r with
        stack := r.stack.dropLast
        capturing := r.capturing.eraseP (fun m => r.alike m n) }
    else
      Work.fail (.raised .value "list.remove(x): x not in list")
  else
    return { r with stack := r.stack.dropLast }

/- The open elements with what they captured, innermost first. -/
def elements
    (r : Register) : List Element :=
  r.stack.reverse.filterMap (fun n => r.sheets[n]?.map Sheet.joined)

end Register

------------------------------------------------------------
-- Evaluations
------------------------------------------------------------

namespace Evaluation

/- The evaluation of a document that shares its open elements. -/
structure Shared where
  settings : Settings
  outer : Scope
  register : Register
  session : Session
  deriving DecidableEq

namespace Shared

/- The evaluation of a document that has not begun. -/
def start
    (settings : Settings)
    (base : String) : Except Fault Shared :=
  (Evaluation.start settings base).map
    (fun d => ⟨d.settings, d.outer, .empty, d.session⟩)

/- Read one event: the register after it. -/
def readEvent
    (d : Shared)
    (event : Event) : Work Register :=
  match event with
  | .opened name attributes _ => do
      let r := d.register.capture event
      let e ←
        openElement d.settings (r.scope d.outer) r.stack.isEmpty name
          attributes
      return r.opened e
  | .text _ => return d.register.capture event
  | .closed name _ =>
      match d.register.innermost? with
      | none => Work.fail (.unexpectedEnd name)
      | some (n, s) =>
          if s.element.name == name then do
            let left ← d.register.release n s
            let r := left.capture event
            Work.flushLists s.element.list s.element.subject
            return r
          else
            Work.fail (.mismatchedEnd s.element.name name)
  | .unknown description => Work.fail (.unexpectedEvent description)

/-
  Process one event: the evaluation after it, unless it was at
  fault, and what was noted on the way.
-/
def process
    (d : Shared)
    (event : Event) : Except Fault Shared × List Note :=
  match d.readEvent event { d.session with notes := #[] } with
  | (.error fault, s) => (.error fault, s.notes.toList)
  | (.ok r, s) =>
      (.ok { d with register := r, session := s }, s.notes.toList)

/-
  Process events in order: the notes for each, and the
  evaluation at the end or the fault that came first.
-/
def evaluate
    (d : Shared) :
    List Event → List (List Note) × Except Fault Shared
  | [] => ([], .ok d)
  | event :: rest =>
      match d.process event with
      | (.error fault, notes) => ([notes], .error fault)
      | (.ok next, notes) =>
          let more := next.evaluate rest
          (notes :: more.1, more.2)

/- The evaluation with its open elements taken on their own. -/
def plain
    (d : Shared) : State where
  settings := d.settings
  outer := d.outer
  elements := d.register.elements
  session := d.session

end Shared
end Evaluation
end LinkedMarkup
