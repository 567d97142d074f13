/-
# The printer writes a tree as it is laid out

A tree is laid out with a pen, and the pen of a part is worked out on the way down.  A printer has
no pen: it writes loosely typed values, moves the indentation in its settings forth and back, tries
an edge on one line with its mode changed for a moment, and asks each value for its fields, which
may fail.

`Printer.Holds` relates the two states, and `Work.Answers` says that work of a printer succeeds with
a given result, whenever the printer holds a given pen.  Each way of combining work has a rule, and
the writers follow the constructors of the tree.  The main result is `Graph.writeGraph_toValue`: the
value of a graph is written as `Graph.print` lays the graph out, and nothing in it is at fault.
-/
import DotNotation.Session.Write
import Mathlib.Data.List.Forall2

namespace DotNotation

/-! ## Printers and pens -/

/-- The printer is in the state that the pen describes.  It moves the indentation in its settings,
where the pen keeps the settings as they were at the start. -/
structure Printer.Holds (printer : Printer) (pen : Pen) : Prop where
  directed : printer.directed = pen.directed
  inline : printer.inline = pen.inline
  indent : printer.settings.currentIndent = pen.indent
  settings : { printer.settings with currentIndent := pen.settings.currentIndent } = pen.settings

namespace Printer

variable {printer : Printer} {pen : Pen}

lemma holds_create (settings : Settings) (directed : Bool) :
    (create settings directed).Holds (Pen.start settings directed) := ⟨rfl, rfl, rfl, rfl⟩

lemma Holds.lineSeparator (h : printer.Holds pen) :
    printer.settings.lineSeparator = pen.settings.lineSeparator :=
  (congrArg Settings.lineSeparator h.settings :)

lemma Holds.useSemicolons (h : printer.Holds pen) :
    printer.settings.useSemicolons = pen.settings.useSemicolons :=
  (congrArg Settings.useSemicolons h.settings :)

lemma Holds.inlineThreshold (h : printer.Holds pen) :
    printer.settings.inlineThreshold = pen.settings.inlineThreshold :=
  (congrArg Settings.inlineThreshold h.settings :)

lemma Holds.indentStep (h : printer.Holds pen) :
    printer.settings.indentStep = pen.settings.indentStep :=
  (congrArg Settings.indentStep h.settings :)

lemma Holds.separator (h : printer.Holds pen) : printer.pen.separator = pen.separator := by
  rw [Pen.separator, Pen.separator, ← h.useSemicolons]
  rfl

lemma Holds.arrow (h : printer.Holds pen) : printer.pen.arrow = pen.arrow := by
  rw [Pen.arrow, Pen.arrow, ← h.directed]
  rfl

lemma Holds.direct (h : printer.Holds pen) (directed : Bool) :
    { printer with directed }.Holds { pen with directed } :=
  ⟨rfl, h.inline, h.indent, h.settings⟩

lemma Holds.oneLine (h : printer.Holds pen) : { printer with inline := true }.Holds pen.oneLine :=
  ⟨h.directed, rfl, h.indent, h.settings⟩

/-- Two steps further in the printer holds the pen for the inside of a body. -/
lemma Holds.inside (h : printer.Holds pen) (hinline : pen.inline = false) :
    (printer.shift (2 * printer.settings.indentStep)).Holds pen.inside := by
  refine ⟨?_, ?_, ?_, ?_⟩
  · rw [Pen.directed_inside]
    exact h.directed
  · rw [Pen.inline_inside]
    exact h.inline
  · rw [Pen.inside, hinline, ← h.indent, ← h.indentStep]
    rfl
  · rw [Pen.settings_inside]
    exact h.settings

end Printer

/-! ## Work that succeeds -/

namespace Work

variable {α β : Type} {pen : Pen} {w : Work α} {f : α → Work β} {a : α} {b : β}

/-- A printer that holds the pen does the work with the result, and is then as it was before. -/
def Answers (pen : Pen) (w : Work α) (a : α) : Prop :=
  ∀ printer : Printer, printer.Holds pen → w printer = (.ok a, printer)

lemma answers_pure (a : α) : (pure a : Work α).Answers pen a := fun _ _ => rfl

lemma answers_given {built : Built α} (h : built = .ok a) : (given built).Answers pen a := by
  intro printer _
  rw [given, h]

lemma answers_look {g : Printer → α} (h : ∀ printer : Printer, printer.Holds pen → g printer = a) :
    (look g).Answers pen a := by
  intro printer hholds
  rw [look, h printer hholds]

lemma Answers.bind (hw : w.Answers pen a) (hf : (f a).Answers pen b) :
    (w >>= f).Answers pen b := by
  intro printer hholds
  show andThen w f printer = _
  rw [andThen, hw printer hholds]
  exact hf printer hholds

lemma Answers.map {g : α → β} (hw : w.Answers pen a) (hg : g a = b) :
    (w >>= fun a => pure (g a)).Answers pen b :=
  hw.bind (hg ▸ answers_pure _)

lemma direct_bind (directed : Bool) (f : Unit → Work β) (printer : Printer) :
    (direct directed >>= f) printer = f () { printer with directed } := rfl

lemma answers_mapM {g : β → Work α} {bs : List β} {as : List α}
    (h : List.Forall₂ (fun b a => (g b).Answers pen a) bs as) : (bs.mapM g).Answers pen as := by
  -- the results found so far are kept in reverse
  have hloop : ∀ found : List α, (List.mapM.loop g bs found).Answers pen (found.reverse ++ as) := by
    induction h with
    | nil =>
      intro found
      rw [List.append_nil]
      exact answers_pure _
    | cons hfirst _ ih =>
      intro found
      refine hfirst.bind ?_
      rw [List.append_cons, ← List.reverse_cons]
      exact ih _
  exact hloop []

lemma Answers.nested (hinline : pen.inline = false) (h : w.Answers pen.inside a) :
    w.nested.Answers pen a := by
  intro printer hholds
  have hinner := h _ (hholds.inside hinline)
  rw [Work.nested, hinner]
  simp only [Printer.shift, Int.add_neg_cancel_right]

lemma Answers.oneLine (h : w.Answers pen.oneLine a) : w.oneLine.Answers pen a := by
  intro printer hholds
  have hinner := h _ hholds.oneLine
  rw [Work.oneLine, hinner]

/-- A body is written as it is laid out, given that its statements are. -/
lemma answers_braces {statements : List (Work Text)} {texts : List Text}
    (h : List.Forall₂ (Answers pen.inside) statements texts) :
    (braces statements).Answers pen (pen.braces texts) := by
  cases h with
  | nil => exact answers_pure _
  | @cons _ t _ ts hfirst hrest =>
    have hall := List.Forall₂.cons hfirst hrest
    unfold braces
    rw [if_neg (by simp), Pen.braces, if_neg (by simp)]
    refine (answers_look fun printer hholds => hholds.inline).bind ?_
    cases hinline : pen.inline with
    | true =>
      have hinside : pen.inside = pen := by rw [Pen.inside, if_pos hinline]
      rw [hinside] at hall
      rw [if_pos rfl, if_pos rfl]
      refine (answers_mapM ?_).map rfl
      exact List.forall₂_map_right_iff.mpr (hall.imp fun w t hw => hw.map rfl)
    | false =>
      rw [if_neg (by simp), if_neg (by simp)]
      refine (answers_look fun printer hholds => hholds.lineSeparator).bind ?_
      refine (answers_look (a := Text.spaces pen.indent ++ ['}']) fun printer hholds => ?_).bind ?_
      · rw [hholds.indent]
      · refine (Answers.nested (a := (t :: ts).map (Text.spaces pen.inside.indent ++ ·))
          hinline ?_).map (by simp)
        refine (answers_look (a := Text.spaces pen.inside.indent) fun printer hholds => ?_).bind ?_
        · rw [hholds.indent]
        · refine answers_mapM ?_
          exact List.forall₂_map_right_iff.mpr (hall.imp fun w t hw => hw.map rfl)

/-- An edge is written in the form that fits. -/
lemma Answers.edge {chain : Work Text} {short long : Text}
    (hshort : chain.Answers pen.oneLine short) (hlong : chain.Answers pen long) :
    (Work.edge chain).Answers pen (if pen.inline then long else pen.fit short long) := by
  unfold Work.edge
  refine (answers_look fun printer hholds => hholds.inline).bind ?_
  split
  · exact hlong
  · refine hshort.oneLine.bind ?_
    refine (answers_look fun printer hholds => hholds.inlineThreshold).bind ?_
    rw [Pen.fit]
    split
    · exact answers_pure _
    · exact hlong

end Work

/-! ## Parts without a body -/

open Work

variable {pen : Pen}

lemma Id.display_toValue (name : Id) : name.toValue.display = .ok name.render := by
  obtain ⟨kind, value⟩ := name
  cases kind <;> rfl

lemma Id.answers_shown (name : Id) : name.toValue.shown.Answers pen name.render :=
  answers_given name.display_toValue

lemma Id.answers_enclosed (pen : Pen) (before after : Text) (id : Option Id) :
    ((optionValue Id.toValue id).enclosed before after).Answers pen
      ((id.map fun name => before ++ name.render ++ after).getD []) := by
  cases id with
  | none => exact answers_pure _
  | some name => exact name.answers_shown.map rfl

lemma Compass.content_member (c : Compass) : c.member.content = .text c.word := by
  cases c <;> rfl

lemma Port.answers_writePort (p : Port) : p.toValue.writePort.Answers pen p.render := by
  obtain ⟨id, compass⟩ := p
  have hname := Id.answers_enclosed pen [':'] [] id
  refine (answers_given rfl).bind (hname.bind ((answers_given rfl).bind ?_))
  cases compass with
  | none =>
    have hrender : (id.map fun name => [':'] ++ name.render ++ []).getD [] =
        Port.render ⟨id, none⟩ := by
      cases id <;> simp [Port.render]
    rw [hrender]
    exact answers_pure _
  | some c =>
    refine (answers_given rfl).bind ((answers_given (a := c.word) ?_).map ?_)
    · rw [c.content_member]
      rfl
    · cases id <;> simp [Port.render]

lemma NodeId.answers_writeNodeId (ref : NodeId) :
    ref.toValue.writeNodeId.Answers pen ref.render := by
  obtain ⟨name, port⟩ := ref
  refine (answers_given rfl).bind ((answers_given rfl).bind (name.answers_shown.bind ?_))
  cases port with
  | none =>
    have hrender : NodeId.render ⟨name, none⟩ = name.render := List.append_nil _
    rw [hrender]
    exact answers_pure _
  | some p => exact p.answers_writePort.map rfl

lemma Attribute.answers_writeAttribute (attr : Attribute) :
    attr.toValue.writeAttribute.Answers pen attr.render :=
  (answers_given rfl).bind (attr.key.answers_shown.bind
    ((answers_given rfl).bind (attr.value.answers_shown.map rfl)))

lemma answers_writeBrackets (attrs : List Attribute) :
    (Value.writeBrackets (attrs.map Attribute.toValue)).Answers pen (pen.brackets attrs) := by
  refine (answers_look fun printer hholds => hholds.separator).bind ((answers_mapM ?_).map rfl)
  rw [List.forall₂_map_left_iff, List.forall₂_map_right_iff, List.forall₂_same]
  exact fun attr _ => attr.answers_writeAttribute

lemma answers_writeAttributes (attrs : List Attribute) :
    (Value.writeAttributes (attrs.map Attribute.toValue)).Answers pen (pen.attributes attrs) := by
  cases attrs with
  | nil => exact answers_pure _
  | cons attr rest => exact answers_writeBrackets (attr :: rest)

/-! ## Ends of statements -/

lemma NodeId.isBareSubgraph_toValue (ref : NodeId) :
    ref.toValue.isBareSubgraph = .ok (ref.isWord Keyword.subgraph.word) := by
  obtain ⟨⟨kind, value⟩, port⟩ := ref
  cases port with
  | some p => rfl
  | none => cases kind <;> rfl

lemma Vertex.toValues_eq_map (chain : List Vertex) :
    Vertex.toValues chain = chain.map Vertex.toValue := by
  induction chain with
  | nil => rfl
  | cons v rest ih => rw [Vertex.toValues, ih, List.map_cons]

lemma Statement.endsInBareSubgraph_toValue (s : Statement) :
    s.toValue.endsInBareSubgraph = .ok s.endsInBareSubgraph := by
  cases s with
  | node ref attrs =>
    cases attrs with
    | nil => exact ref.isBareSubgraph_toValue
    | cons attr rest => rfl
  | edge chain attrs =>
    cases attrs with
    | nil =>
      rw [Statement.toValue, Vertex.toValues_eq_map, List.map_nil, Value.endsInBareSubgraph,
        Statement.endsInBareSubgraph, List.getLast?_map]
      cases chain.getLast? with
      | none => rfl
      | some v =>
        cases v with
        | node ref => exact ref.isBareSubgraph_toValue
        | subgraph group => cases group; rfl
    | cons attr rest => rfl
  | subgraph group => cases group; rfl
  | assign attr => rfl
  | defaults target attrs => rfl

lemma Statement.answers_terminate (s : Statement) (text : Text) :
    (s.toValue.terminate text).Answers pen (pen.terminate s text) := by
  refine (answers_look fun printer hholds => hholds.useSemicolons).bind ?_
  rw [Pen.terminate]
  cases pen.settings.useSemicolons with
  | true => exact answers_pure _
  | false =>
    refine (answers_given s.endsInBareSubgraph_toValue).bind ?_
    cases s.endsInBareSubgraph with
    | true => exact answers_pure _
    | false => exact answers_pure _

/-! ## Parts with a body -/

lemma answers_writeChain {vertices : List (Work Text)} {texts : List Text}
    (h : List.Forall₂ (Answers pen) vertices texts) (attrs : List Attribute) :
    (Value.writeChain vertices (attrs.map Attribute.toValue)).Answers pen
      (pen.chain texts attrs) := by
  refine (answers_look fun printer hholds => hholds.arrow).bind ((answers_mapM h).bind ?_)
  refine (answers_writeAttributes attrs).map ?_
  rw [Pen.chain]

lemma answers_writeDefaults (target : Target) (attrs : List Attribute) :
    (Value.writeDefaults (.member target.member) (attrs.map Attribute.toValue)).Answers pen
      (target.word ++ pen.brackets attrs) := by
  have hword : (Value.member target.member).field .value = .ok (.text target.word) := by
    cases target <;> rfl
  exact (answers_given hword).bind ((answers_writeBrackets attrs).map rfl)

lemma Subgraph.header_eq (id : Option Id) :
    Subgraph.header id =
      "subgraph ".toList ++ (id.map fun name => [] ++ name.render ++ [' ']).getD [] := by
  cases id with
  | none => exact (List.append_nil _).symm
  | some name => exact List.append_assoc _ _ _

lemma answers_writeGroup (id : Option Id) {statements : List (Work Text)} {texts : List Text}
    (h : List.Forall₂ (Answers pen.inside) statements texts) :
    (Value.writeGroup (optionValue Id.toValue id) statements).Answers pen
      (Subgraph.header id ++ pen.braces texts) := by
  have htitle := Id.answers_enclosed pen [] [' '] id
  have hbody := answers_braces h
  rw [Value.writeGroup, Subgraph.header_eq]
  exact htitle.bind (hbody.map rfl)

mutual

lemma Subgraph.answers_writeVertex (pen : Pen) : ∀ group : Subgraph,
    group.toValue.writeVertex.Answers pen (group.render pen)
  | .mk id body => by
    rw [Subgraph.toValue, Value.writeVertex, Subgraph.render]
    exact answers_writeGroup id (Statement.answers_statementWork pen.inside body)

lemma Statement.answers_writeBare (pen : Pen) : ∀ s : Statement,
    s.toValue.writeBare.Answers pen (s.bare pen)
  | .node ref attrs => by
    rw [Statement.toValue, Value.writeBare, Statement.bare]
    exact ref.answers_writeNodeId.bind ((answers_writeAttributes attrs).map rfl)
  | .edge chain attrs => by
    rw [Statement.toValue, Value.writeBare, Statement.bare]
    exact (answers_writeChain (Vertex.answers_vertexWork pen.oneLine chain) attrs).edge
      (answers_writeChain (Vertex.answers_vertexWork pen chain) attrs)
  | .subgraph group => by
    have hbare : group.toValue.writeBare = group.toValue.writeVertex := by
      cases group
      rw [Subgraph.toValue, Value.writeBare, Value.writeVertex]
    rw [Statement.toValue, hbare, Statement.bare]
    exact Subgraph.answers_writeVertex pen group
  | .assign attr => by
    rw [Statement.toValue, Attribute.toValue, Value.writeBare, Statement.bare]
    exact attr.answers_writeAttribute
  | .defaults target attrs => by
    rw [Statement.toValue, Value.writeBare, Statement.bare]
    exact answers_writeDefaults target attrs

lemma Statement.answers_statementWork (pen : Pen) : ∀ body : List Statement,
    List.Forall₂ (Answers pen) (Value.statementWork (Statement.toValues body))
      (Statement.renderAll pen body)
  | [] => .nil
  | s :: rest => by
    rw [Statement.toValues, Value.statementWork, Statement.renderAll]
    exact .cons ((Statement.answers_writeBare pen s).bind (s.answers_terminate _))
      (Statement.answers_statementWork pen rest)

lemma Vertex.answers_writeVertex (pen : Pen) : ∀ v : Vertex,
    v.toValue.writeVertex.Answers pen (v.render pen)
  | .node ref => by
    rw [Vertex.toValue, Vertex.render]
    exact ref.answers_writeNodeId
  | .subgraph group => by
    rw [Vertex.toValue, Vertex.render]
    exact Subgraph.answers_writeVertex pen group

lemma Vertex.answers_vertexWork (pen : Pen) : ∀ chain : List Vertex,
    List.Forall₂ (Answers pen) (Value.vertexWork (Vertex.toValues chain))
      (Vertex.renderAll pen chain)
  | [] => .nil
  | v :: rest => by
    rw [Vertex.toValues, Value.vertexWork, Vertex.renderAll]
    exact .cons (Vertex.answers_writeVertex pen v) (Vertex.answers_vertexWork pen rest)

end

/-! ## Statements and graphs -/

/-- A new printer writes a statement as it is laid out, and is then as it was before. -/
theorem Statement.write_toValue (s : Statement) (settings : Settings) (directed : Bool) :
    s.toValue.write (Printer.create settings directed) =
      (.ok (s.render (Pen.start settings directed)), Printer.create settings directed) := by
  have hanswers : s.toValue.writeStatement.Answers (Pen.start settings directed)
      (s.render (Pen.start settings directed)) :=
    (Statement.answers_writeBare _ s).bind (s.answers_terminate _)
  have hwrite : s.toValue.write = s.toValue.writeStatement := by
    cases s with
    | subgraph group => cases group; rfl
    | _ => rfl
  rw [hwrite]
  exact hanswers _ (Printer.holds_create settings directed)

/-- A printer that holds a pen writes a graph as it is laid out with that pen.  From then on it
directs edges as in that graph. -/
theorem Graph.writeGraph_of_holds (g : Graph) {printer : Printer} (h : printer.Holds pen) :
    g.toValue.writeGraph printer =
      (.ok (g.render pen), { printer with directed := g.directed }) := by
  have hbody := answers_braces
    (Statement.answers_statementWork (Pen.inside { pen with directed := g.directed }) g.body)
  have htitle := Id.answers_enclosed { pen with directed := g.directed } [] [' '] g.id
  rw [Graph.toValue, Value.writeGraph, direct_bind]
  refine htitle.bind (hbody.map ?_) _ (h.direct g.directed)
  rw [Graph.render, Graph.header, Statement.renderBody, List.append_assoc _ [' ']]
  rfl

/-- A new printer writes the value of a graph as the graph is printed. -/
theorem Graph.writeGraph_toValue (g : Graph) (settings : Settings) (directed : Bool) :
    g.toValue.writeGraph (Printer.create settings directed) =
      (.ok (g.print settings), Printer.create settings g.directed) :=
  (g.writeGraph_of_holds (Printer.holds_create settings directed) :)

end DotNotation
