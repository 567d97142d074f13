/-
# A session leaves no traces in its printer

While a printer works it moves the indentation of the shared settings and it may keep everything
on one line for a moment.  Both are undone on every way out, also when a value deep inside a body
is at fault.  So work leaves the printer as it was; only writing a graph decides anew whether
edges are directed.

`Work.Frames` states this for a piece of work.  Each way of combining work keeps it, and from there
it is carried over the values that are written, by induction on the value.  `Action.after_perform`
says what one step of a session does to the printer, and `runSession_leaves_no_traces` what this
means for whole sessions: every step answers as it would with a new printer.
-/
import DotNotation.Session.Run
import Mathlib.Tactic.Lemma

namespace DotNotation

namespace Work

variable {α β : Type} {w : Work α} {f : α → Work β}

/-- The work leaves the printer as it was, whether it succeeds or fails. -/
def Frames (w : Work α) : Prop := ∀ printer, (w printer).2 = printer

/-- The work directs edges or not, and apart from that leaves the printer as it was, whether it
succeeds or fails. -/
def Directs (directed : Bool) (w : Work α) : Prop :=
  ∀ printer, (w printer).2 = { printer with directed }

/-! ## Combining work -/

lemma frames_pure (a : α) : (pure a : Work α).Frames := fun _ => rfl

lemma frames_fail (fault : Fault) : (fail fault : Work α).Frames := fun _ => rfl

lemma frames_look (g : Printer → α) : (look g).Frames := fun _ => rfl

lemma frames_given (built : Built α) : (given built).Frames := fun _ => rfl

lemma bind_apply (printer : Printer) :
    (w >>= f) printer = match w printer with
      | (.ok a, after) => f a after
      | (.error fault, after) => (.error fault, after) := rfl

lemma Frames.bind (hw : w.Frames) (hf : ∀ a, (f a).Frames) : (w >>= f).Frames := by
  intro printer
  have hprinter := hw printer
  rw [bind_apply]
  generalize w printer = result at hprinter
  rcases result with ⟨_ | a, after⟩
  · exact hprinter
  · exact (hf a after).trans hprinter

/-- Behind work that directs edges, work that leaves the printer as it is changes nothing more. -/
lemma Directs.bind {directed : Bool} (hw : w.Directs directed) (hf : ∀ a, (f a).Frames) :
    (w >>= f).Directs directed := by
  intro printer
  have hprinter := hw printer
  rw [bind_apply]
  generalize w printer = result at hprinter
  rcases result with ⟨_ | a, after⟩
  · exact hprinter
  · exact (hf a after).trans hprinter

/-- A result that is only wrapped up adds nothing to what the work does to the printer. -/
lemma after_bind_pure (w : Work α) (g : α → β) (printer : Printer) :
    ((w >>= fun a => pure (g a)) printer).2 = (w printer).2 := by
  rw [bind_apply]
  rcases w printer with ⟨_ | a, after⟩
  · rfl
  · rfl

lemma directs_direct (directed : Bool) : (direct directed).Directs directed := fun _ => rfl

lemma Frames.ite {c : Prop} [Decidable c] {v : Work α} (hw : w.Frames) (hv : v.Frames) :
    (if c then w else v).Frames := by
  split
  · exact hw
  · exact hv

lemma frames_mapM {as : List β} {g : β → Work α} (h : ∀ a ∈ as, (g a).Frames) :
    (as.mapM g).Frames := by
  -- the texts found so far are kept in reverse
  have hloop : ∀ found : List α, (List.mapM.loop g as found).Frames := by
    induction as with
    | nil => exact fun found => frames_pure _
    | cons a as ih =>
      intro found
      refine (h a List.mem_cons_self).bind fun b => ?_
      exact ih (fun c hc => h c (List.mem_cons_of_mem a hc)) (b :: found)
  exact hloop []

/-- What is moved in is moved out by the same width. -/
lemma Frames.nested (hw : w.Frames) : w.nested.Frames := by
  intro printer
  have hinner := hw (printer.shift (2 * printer.settings.indentStep))
  show (w _).2.shift _ = printer
  rw [hinner, Printer.shift, Printer.shift, Int.add_neg_cancel_right]

lemma Frames.oneLine (hw : w.Frames) : w.oneLine.Frames := by
  intro printer
  have hinner := hw { printer with inline := true }
  show { (w _).2 with inline := printer.inline } = printer
  rw [hinner]

lemma frames_braces {statements : List (Work Text)} (h : ∀ w ∈ statements, w.Frames) :
    (braces statements).Frames := by
  have htexts : (statements.mapM fun w : Work Text => do return (← w).dropTrailingSpaces).Frames :=
    frames_mapM fun w hw => (h w hw).bind fun t => frames_pure _
  have hlines (pad : Text) :
      (statements.mapM fun w : Work Text => do return pad ++ (← w)).Frames :=
    frames_mapM fun w hw => (h w hw).bind fun t => frames_pure _
  unfold braces
  refine Frames.ite (frames_pure _) ((frames_look _).bind fun inline => ?_)
  refine Frames.ite (htexts.bind fun texts => frames_pure _) ?_
  refine (frames_look _).bind fun sep => (frames_look _).bind fun closing => ?_
  refine Frames.bind ?_ fun lines => frames_pure _
  exact ((frames_look _).bind hlines).nested

lemma Frames.edge {chain : Work Text} (h : chain.Frames) : (edge chain).Frames := by
  unfold Work.edge
  refine (frames_look _).bind fun inline => Frames.ite h ?_
  refine h.oneLine.bind fun short => (frames_look _).bind fun threshold => ?_
  exact Frames.ite (frames_pure _) h

end Work

/-! ## Writing values -/

namespace Value

open Work

lemma frames_shown (v : Value) : v.shown.Frames := frames_given _

lemma frames_enclosed (before after : Text) (v : Value) : (v.enclosed before after).Frames := by
  unfold enclosed
  exact Frames.ite (frames_pure _) (v.frames_shown.bind fun t => frames_pure _)

lemma frames_writePort (v : Value) : v.writePort.Frames := by
  unfold writePort
  refine (frames_given _).bind fun name => (frames_enclosed _ _ name).bind fun title => ?_
  refine (frames_given _).bind fun compass => Frames.ite (frames_pure _) ?_
  exact (frames_given _).bind fun point => point.frames_shown.bind fun t => frames_pure _

lemma frames_writeNodeId (v : Value) : v.writeNodeId.Frames := by
  unfold writeNodeId
  refine (frames_given _).bind fun port => (frames_given _).bind fun name => ?_
  refine name.frames_shown.bind fun title => Frames.ite (frames_pure _) ?_
  exact port.frames_writePort.bind fun t => frames_pure _

lemma frames_writeAttribute (v : Value) : v.writeAttribute.Frames := by
  unfold writeAttribute
  refine (frames_given _).bind fun key => key.frames_shown.bind fun title => ?_
  exact (frames_given _).bind fun value => value.frames_shown.bind fun t => frames_pure _

lemma frames_writeBrackets (attrs : List Value) : (writeBrackets attrs).Frames := by
  unfold writeBrackets
  refine (frames_look _).bind fun sep => ?_
  exact (frames_mapM fun attr _ => attr.frames_writeAttribute).bind fun texts => frames_pure _

lemma frames_writeAttributes (attrs : List Value) : (writeAttributes attrs).Frames := by
  unfold writeAttributes
  exact Frames.ite (frames_pure _) (frames_writeBrackets attrs)

lemma frames_terminate (v : Value) (text : Text) : (v.terminate text).Frames := by
  unfold terminate
  refine (frames_look _).bind fun semicolons => Frames.ite (frames_pure _) ?_
  exact (frames_given _).bind fun ends => Frames.ite (frames_pure _) (frames_pure _)

lemma frames_writeGroup (name : Value) {statements : List (Work Text)}
    (h : ∀ w ∈ statements, w.Frames) : (writeGroup name statements).Frames := by
  unfold writeGroup
  exact (name.frames_enclosed _ _).bind fun title =>
    (frames_braces h).bind fun body => frames_pure _

lemma frames_writeChain {vertices : List (Work Text)} (h : ∀ w ∈ vertices, w.Frames)
    (attrs : List Value) : (writeChain vertices attrs).Frames := by
  unfold writeChain
  refine (frames_look _).bind fun arrow => (frames_mapM h).bind fun texts => ?_
  exact (frames_writeAttributes attrs).bind fun list => frames_pure _

lemma frames_writeDefaults (target : Value) (attrs : List Value) :
    (writeDefaults target attrs).Frames := by
  unfold writeDefaults
  refine (frames_given _).bind fun word => (frames_writeBrackets attrs).bind fun list => ?_
  cases word with
  | text t => exact frames_pure _
  | _ => exact frames_fail _

mutual

lemma frames_writeBare : ∀ v : Value, v.writeBare.Frames
  | .node ref attrs => by
    rw [writeBare]
    exact ref.frames_writeNodeId.bind fun t =>
      (frames_writeAttributes attrs).bind fun list => frames_pure _
  | .edge chain attrs => by
    rw [writeBare]
    exact (frames_writeChain (frames_vertexWork chain) attrs).edge
  | .subgraph name body => by
    rw [writeBare]
    exact frames_writeGroup name (frames_statementWork body)
  | .attr key value => by
    rw [writeBare]
    exact frames_writeAttribute _
  | .defaults target attrs => by
    rw [writeBare]
    exact frames_writeDefaults target attrs
  -- everything else is no statement
  | .absent | .bool _ | .int _ | .real _ | .text _ | .list _ | .tuple _ | .member _ | .id _ _
  | .port _ _ | .nodeId _ _ | .graph _ _ _ _ | .argument _ _ => frames_fail _

lemma frames_statementWork : ∀ body : List Value, ∀ w ∈ statementWork body, w.Frames
  | [] => by simp [statementWork]
  | s :: rest => by
    rw [statementWork]
    refine List.forall_mem_cons.2 ⟨?_, frames_statementWork rest⟩
    exact (frames_writeBare s).bind fun text => s.frames_terminate text

lemma frames_writeVertex : ∀ v : Value, v.writeVertex.Frames
  | .subgraph name body => by
    rw [writeVertex]
    exact frames_writeGroup name (frames_statementWork body)
  | .absent | .bool _ | .int _ | .real _ | .text _ | .list _ | .tuple _ | .member _ | .id _ _
  | .port _ _ | .nodeId _ _ | .attr _ _ | .node _ _ | .edge _ _ | .defaults _ _ | .graph _ _ _ _
  | .argument _ _ => frames_writeNodeId _

lemma frames_vertexWork : ∀ chain : List Value, ∀ w ∈ vertexWork chain, w.Frames
  | [] => by simp [vertexWork]
  | v :: rest => by
    rw [vertexWork]
    exact List.forall_mem_cons.2 ⟨frames_writeVertex v, frames_vertexWork rest⟩

end

lemma frames_writeStatement (v : Value) : v.writeStatement.Frames :=
  v.frames_writeBare.bind fun text => v.frames_terminate text

lemma frames_writeEdge (v : Value) : v.writeEdge.Frames := by
  cases v with
  | edge chain attrs => exact (frames_writeChain (frames_vertexWork chain) attrs).edge
  | _ => exact frames_given _

lemma frames_writeSubgraph (v : Value) : v.writeSubgraph.Frames := by
  cases v with
  | subgraph name body => exact frames_writeGroup name (frames_statementWork body)
  | graph strict directed name body => exact frames_writeGroup name (frames_statementWork body)
  | _ =>
    exact (frames_given _).bind fun name => name.frames_shown.bind fun t => frames_given _

lemma frames_writeBody (v : Value) : v.writeBody.Frames := by
  unfold writeBody
  refine Frames.ite ((frames_given _).bind fun body => ?_) (frames_braces (by simp))
  exact frames_braces (frames_statementWork body)

lemma frames_writeAttributeList (v : Value) (always : Bool) :
    (v.writeAttributeList always).Frames := by
  unfold writeAttributeList
  exact Frames.ite ((frames_given _).bind frames_writeBrackets) (frames_pure _)

/-- The directedness of a graph. -/
def directed? : Value → Option Bool
  | graph _ directed _ _ => some directed.truth
  | _ => none

/-- Writing a graph directs edges as in that graph, from the start and also if its body is at
fault; what is no graph leaves the printer as it is. -/
lemma after_writeGraph (v : Value) (printer : Printer) :
    (v.writeGraph printer).2 = { printer with directed := v.directed?.getD printer.directed } := by
  cases v with
  | graph strict directed name body =>
    have hdirects : (graph strict directed name body).writeGraph.Directs directed.truth := by
      refine (directs_direct _).bind fun _ => (name.frames_enclosed _ _).bind fun title => ?_
      exact (frames_braces (frames_statementWork body)).bind fun t => frames_pure _
    exact hdirects printer
  | _ => rfl

lemma after_write (v : Value) (printer : Printer) :
    (v.write printer).2 = { printer with directed := v.directed?.getD printer.directed } := by
  cases v with
  | graph strict directed name body => exact after_writeGraph _ printer
  | nodeId name place => exact frames_writeNodeId _ printer
  | port name compass => exact frames_writePort _ printer
  | id kind value => exact frames_shown _ printer
  | _ => exact frames_writeStatement _ printer

/-- A new printer on the same settings gives them back as they were. -/
lemma frames_anew_writeGraph (v : Value) : (Work.anew v.writeGraph).Frames := by
  intro printer
  have hafter := v.after_writeGraph (Printer.create printer.settings false)
  show { printer with settings := (v.writeGraph _).2.settings } = printer
  rw [hafter]
  rfl

end Value

/-! ## Steps -/

open Work

lemma Part.frames_write {part : Part} (hpart : part ≠ .graph) (args : Bound) :
    (part.write args).Frames := by
  cases part with
  | edge => exact Value.frames_writeEdge _
  | statement => exact Value.frames_writeStatement _
  | subgraph => exact Value.frames_writeSubgraph _
  | body => exact Value.frames_writeBody _
  | attributeList => exact Value.frames_writeAttributeList _ _
  | attr => exact Value.frames_writeAttribute _
  | nodeId => exact Value.frames_writeNodeId _
  | port => exact Value.frames_writePort _
  | graph => exact absurd rfl hpart

/-- What a call gives to the parameters for a part. -/
def Part.bound (part : Part) (args : List Term) (named : List (Text × Term)) : Built Bound := do
  let positional ← Term.evalAll .empty args
  let named ← Term.evalNamed .empty named
  part.signature.bind ⟨positional.map Value.fixed, named⟩

namespace Action

lemma perform_call (part : Part) (args : List Term) (named : List (Text × Term)) :
    (call part args named).perform = do
      let bound ← given (part.bound args named)
      return some (← part.write bound) := by
  funext printer
  rw [perform, Part.bound]
  cases Term.evalAll .empty args with
  | error fault => rfl
  | ok positional =>
    cases Term.evalNamed .empty named with
    | error fault => rfl
    | ok named => rfl

/-- The value that a step writes as a graph or by what it is, with the printer of the session. -/
def value? : Action → Option Value
  | print term => (term.eval .empty).toOption
  | call .graph args named => (Part.graph.bound args named).toOption.map (·.get "graph")
  | _ => none

/-- The directedness of the graph that a step writes with the printer of the session. -/
def directed? (action : Action) : Option Bool := action.value?.bind Value.directed?

/-- A step that sets no field leaves the printer as it was, apart from the directedness of a graph
that it writes. -/
lemma after_perform {action : Action} (h : ∀ setting, action ≠ .assign setting)
    (printer : Printer) :
    (action.perform printer).2 =
      { printer with directed := action.directed?.getD printer.directed } := by
  cases action with
  | assign setting => exact absurd rfl (h setting)
  | print term =>
    rw [directed?, value?, perform]
    cases term.eval .empty with
    | error fault => rfl
    | ok v => exact (after_bind_pure v.write some printer).trans (v.after_write printer)
  | printAnew term =>
    have hframes : (printAnew term).perform.Frames :=
      (frames_given _).bind fun v => v.frames_anew_writeGraph.bind fun t => frames_pure _
    exact hframes printer
  | call part args named =>
    rw [perform_call]
    by_cases hpart : part = .graph
    · subst hpart
      rw [directed?, value?]
      cases Part.graph.bound args named with
      | error fault => rfl
      | ok bound =>
        have hafter := (bound.get "graph").after_writeGraph printer
        exact (after_bind_pure _ some printer).trans hafter
    · have hnone : (call part args named).value? = none := by
        cases part <;> first | rfl | exact absurd rfl hpart
      have hframes : (given (part.bound args named) >>= fun bound =>
          part.write bound >>= fun t => pure (some t)).Frames :=
        (frames_given _).bind fun bound =>
          (Part.frames_write hpart bound).bind fun t => frames_pure _
      rw [directed?, hnone]
      exact hframes printer

end Action

/-! ## Sessions -/

namespace Printer

/-- The printer after some steps. -/
def afterAll (printer : Printer) (actions : List Action) : Printer :=
  actions.foldl (fun printer action => (action.perform printer).2) printer

/-- A new printer that is on one line or not from its creation on; the field of the settings that
decides about this has its present value only afterwards. -/
def fresh (settings : Settings) (directed inline : Bool) : Printer :=
  (Setting.alwaysInline settings.alwaysInline).apply
    (create { settings with alwaysInline := inline } directed)

lemma fresh_self (printer : Printer) :
    fresh printer.settings printer.directed printer.inline = printer := rfl

lemma afterAll_append (printer : Printer) (earlier later : List Action) :
    printer.afterAll (earlier ++ later) = (printer.afterAll earlier).afterAll later :=
  List.foldl_append

end Printer

/-- No step changes the mode of a printer, not even one that sets a field. -/
lemma Action.inline_perform (action : Action) (printer : Printer) :
    (action.perform printer).2.inline = printer.inline := by
  by_cases h : ∀ setting, action ≠ .assign setting
  · rw [after_perform h]
  · obtain ⟨setting, rfl⟩ : ∃ setting, action = .assign setting := by simpa using h
    cases setting <;> rfl

lemma Printer.inline_afterAll (printer : Printer) (actions : List Action) :
    (printer.afterAll actions).inline = printer.inline := by
  induction actions generalizing printer with
  | nil => rfl
  | cons action rest ih =>
    exact (ih (action.perform printer).2).trans (action.inline_perform printer)

/-- A session goes on with the printer that its earlier steps left. -/
lemma runSession_append (printer : Printer) (earlier later : List Action) :
    runSession printer (earlier ++ later) =
      runSession printer earlier ++ runSession (printer.afterAll earlier) later := by
  induction earlier generalizing printer with
  | nil => rfl
  | cons action rest ih =>
    rw [List.cons_append, runSession, runSession, ih, List.cons_append]
    rfl

lemma length_runSession (printer : Printer) (actions : List Action) :
    (runSession printer actions).length = actions.length := by
  induction actions generalizing printer with
  | nil => rfl
  | cons action rest ih => rw [runSession, List.length_cons, List.length_cons, ih]

/-- A session leaves no traces in its printer.  Each step answers as it would with a new printer
on the present settings, directed as the session is at that moment and on one line as it was at
the creation.  The mode of the printer stays the one of its creation.  A step that sets no field
leaves all settings as they were and, unless it writes a graph, also the directedness; otherwise
that is the one of the graph.  All this holds also for steps that fail, and behind such steps. -/
theorem runSession_leaves_no_traces (settings : Settings) (directed : Bool)
    (earlier : List Action) (action : Action) (later : List Action) :
    let start := Printer.create settings directed
    let before := start.afterAll earlier
    ∃ after,
      (runSession start (earlier ++ action :: later))[earlier.length]? =
        some ((action.perform
          (.fresh before.settings before.directed settings.alwaysInline)).1, after) ∧
      after = start.afterAll (earlier ++ [action]) ∧
      after.inline = settings.alwaysInline ∧
      ((∀ setting, action ≠ .assign setting) →
        after.settings = before.settings ∧
        after.directed = action.directed?.getD before.directed) ∧
      (∀ setting, action = .assign setting → after = setting.apply before) := by
  intro start before
  have hinline : before.inline = settings.alwaysInline := start.inline_afterAll earlier
  refine ⟨(action.perform before).2, ?_, ?_, ?_, ?_, ?_⟩
  · rw [← hinline, before.fresh_self, runSession_append, List.getElem?_append_right,
      length_runSession, Nat.sub_self, runSession, List.getElem?_cons_zero]
    exact Nat.le_of_eq (length_runSession start earlier)
  · exact (start.afterAll_append earlier [action]).symm
  · exact (action.inline_perform before).trans hinline
  · intro h
    rw [Action.after_perform h]
    exact ⟨rfl, rfl⟩
  · rintro setting rfl
    rfl

/-- A directed graph with an edge in a subgraph, one end of which has a port whose point is a text
and no compass point. -/
def Value.brokenInside : Value :=
  let name (c : Char) : Value := .id (.member IdKind.plain.member) (.text [c])
  let broken := .nodeId (name 'b') (.port .absent (.text ['n']))
  .graph (.bool false) (.bool true) .absent
    [.node (.nodeId (name 'a') .absent) [],
      .subgraph .absent [.edge [.nodeId (name 'a') .absent, broken] []]]

/-- The fault is found two bodies in while an edge is tried on one line; the indentation that was
set before, the mode and the new directedness are all in place afterwards. -/
theorem runSession_leaves_no_traces_broken_port : ∃ after,
    (runSession (.create {} false) [.assign (.currentIndent 3), .print (.value .brokenInside),
      .assign (.alwaysInline true)])[1]? =
        some (.error (.noField "str".toList "value".toList), after) ∧
      after.settings.currentIndent = 3 ∧ after.inline = false ∧ after.directed = true := by
  obtain ⟨after, hrun, -, hinline, hkept, -⟩ :=
    runSession_leaves_no_traces {} false [.assign (.currentIndent 3)]
      (.print (.value .brokenInside)) [.assign (.alwaysInline true)]
  obtain ⟨hsettings, hdirected⟩ := hkept (by intro setting; simp)
  refine ⟨after, ?_, ?_, hinline, ?_⟩
  · exact hrun
  · rw [hsettings]; rfl
  · rw [hdirected]; rfl

end DotNotation
