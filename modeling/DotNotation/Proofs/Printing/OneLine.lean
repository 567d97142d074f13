/-
# Texts on one line

Besides the text between two lines, the line ends of a written document are those in its
identifiers.  So where no identifier has one, whatever a pen keeps on one line has none either.
The main results are

* `Statement.oneLine_bare`: a statement that is kept on one line;
* `Graph.oneLine_print`: a document that is.
-/
import DotNotation.Proofs.Printing.Spacing

namespace DotNotation

open Lexical

/-! ## The identifiers of a tree -/

/-- The identifiers of a node reference. -/
def NodeId.ids (node : NodeId) : List Id := node.id :: (node.port.bind Port.id).toList

/-- The identifiers of an attribute. -/
def Attribute.ids (attr : Attribute) : List Id := [attr.key, attr.value]

mutual

/-- The identifiers of a subgraph. -/
def Subgraph.ids : Subgraph → List Id
  | .mk id body => id.toList ++ Statement.idsAll body

/-- The identifiers of a statement. -/
def Statement.ids : Statement → List Id
  | .node id attrs => id.ids ++ attrs.flatMap Attribute.ids
  | .edge chain attrs => Vertex.idsAll chain ++ attrs.flatMap Attribute.ids
  | .subgraph group => group.ids
  | .assign attr => attr.ids
  | .defaults _ attrs => attrs.flatMap Attribute.ids

/-- The identifiers of a body. -/
def Statement.idsAll : List Statement → List Id
  | [] => []
  | s :: rest => s.ids ++ Statement.idsAll rest

/-- The identifiers of a vertex. -/
def Vertex.ids : Vertex → List Id
  | .node id => id.ids
  | .subgraph group => group.ids

/-- The identifiers of a chain. -/
def Vertex.idsAll : List Vertex → List Id
  | [] => []
  | v :: rest => v.ids ++ Vertex.idsAll rest

end

/-- The identifiers of a graph. -/
def Graph.ids (graph : Graph) : List Id := graph.id.toList ++ Statement.idsAll graph.body

/-! ## Texts on one line -/

/-- The text has no line end. -/
def Text.OneLine (t : Text) : Prop := '\n' ∉ t

instance : DecidablePred Text.OneLine := fun t => inferInstanceAs (Decidable ('\n' ∉ t))

/-- None of the identifiers has a line end. -/
def Id.Unbroken (names : List Id) : Prop := ∀ name ∈ names, Text.OneLine name.value

section OneLine

variable {u v sep : Text} {ts : List Text}

lemma oneLine_nil : Text.OneLine [] := List.not_mem_nil

lemma oneLine_append : Text.OneLine (u ++ v) ↔ Text.OneLine u ∧ Text.OneLine v := by
  simp [Text.OneLine]

lemma oneLine_cons {c : Char} (hc : c ≠ '\n') (h : Text.OneLine u) : Text.OneLine (c :: u) := by
  simpa [Text.OneLine, hc.symm] using h

lemma oneLine_join (hsep : Text.OneLine sep) (h : ∀ t ∈ ts, Text.OneLine t) :
    Text.OneLine (Text.join sep ts) := by
  induction ts with
  | nil => exact oneLine_nil
  | cons t ts ih =>
    obtain ⟨ht, hts⟩ := List.forall_mem_cons.1 h
    cases ts with
    | nil => exact ht
    | cons u ts =>
      rw [Text.join_cons_cons, oneLine_append, oneLine_append]
      exact ⟨⟨ht, hsep⟩, ih hts⟩

lemma oneLine_dropTrailingSpaces (h : Text.OneLine u) : Text.OneLine u.dropTrailingSpaces := by
  intro hmem
  rw [Text.dropTrailingSpaces, List.mem_reverse] at hmem
  exact h (List.mem_reverse.1 ((List.dropWhile_suffix _).subset hmem))

lemma Id.unbroken_append {names others : List Id} :
    Id.Unbroken (names ++ others) ↔ Id.Unbroken names ∧ Id.Unbroken others :=
  List.forall_mem_append

lemma Id.oneLine_render {name : Id} (h : Text.OneLine name.value) : Text.OneLine name.render := by
  obtain ⟨kind, value⟩ := name
  cases kind with
  | plain => exact h
  | quoted => exact oneLine_append.2 ⟨oneLine_cons (by decide) h, by decide⟩
  | html => exact oneLine_append.2 ⟨oneLine_cons (by decide) h, by decide⟩

lemma oneLine_of_isPlain (h : isPlain u = true) : Text.OneLine u := by
  intro hmem
  exact absurd (dark_of_isPlain h hmem).1 (by decide)

lemma NodeId.oneLine_render {node : NodeId} (h : Id.Unbroken node.ids) :
    Text.OneLine node.render := by
  obtain ⟨name, port⟩ := node
  obtain ⟨hname, hport⟩ := List.forall_mem_cons.1 h
  refine oneLine_append.2 ⟨Id.oneLine_render hname, ?_⟩
  rcases port with _ | ⟨inner, compass⟩
  · exact oneLine_nil
  · refine oneLine_append.2 ⟨?_, ?_⟩
    · cases inner with
      | none => exact oneLine_nil
      | some inner =>
        exact oneLine_cons (by decide) (Id.oneLine_render (hport inner (by simp)))
    · cases compass with
      | none => exact oneLine_nil
      | some c => exact oneLine_cons (by decide) (oneLine_of_isPlain (isPlain_compass c))

lemma Attribute.oneLine_render {attr : Attribute} (h : Id.Unbroken attr.ids) :
    Text.OneLine attr.render := by
  have hkey := Id.oneLine_render (h attr.key (by simp [Attribute.ids]))
  have hvalue := Id.oneLine_render (h attr.value (by simp [Attribute.ids]))
  exact oneLine_append.2 ⟨hkey, oneLine_cons (by decide) hvalue⟩

lemma Subgraph.oneLine_header {name : Option Id} (h : Id.Unbroken name.toList) :
    Text.OneLine (Subgraph.header name) := by
  have hword : Text.OneLine "subgraph ".toList := by decide
  cases name with
  | none => exact hword
  | some name =>
    have hname := Id.oneLine_render (h name (by simp))
    exact oneLine_append.2 ⟨oneLine_append.2 ⟨hword, hname⟩, by decide⟩

namespace Pen

lemma oneLine_arrow (pen : Pen) : Text.OneLine pen.arrow := by
  unfold arrow
  split <;> decide

variable (pen : Pen) {attrs : List Attribute} (hattrs : Id.Unbroken (attrs.flatMap Attribute.ids))
include hattrs

lemma oneLine_brackets : Text.OneLine (pen.brackets attrs) := by
  have hsep : Text.OneLine pen.separator := by
    unfold separator
    split <;> decide
  have hparts : ∀ t ∈ attrs.map Attribute.render, Text.OneLine t := by
    intro t ht
    obtain ⟨attr, hattr, rfl⟩ := List.mem_map.1 ht
    exact Attribute.oneLine_render fun name hname =>
      hattrs name (List.mem_flatMap.2 ⟨attr, hattr, hname⟩)
  exact oneLine_append.2 ⟨oneLine_cons (by decide) (oneLine_join hsep hparts),
    by decide⟩

lemma oneLine_attributes : Text.OneLine (pen.attributes attrs) := by
  unfold attributes
  split
  · decide
  · exact pen.oneLine_brackets hattrs

lemma oneLine_chain (h : ∀ t ∈ ts, Text.OneLine t) : Text.OneLine (pen.chain ts attrs) :=
  oneLine_append.2 ⟨oneLine_join pen.oneLine_arrow h,
    oneLine_cons (by decide) (pen.oneLine_attributes hattrs)⟩

end Pen

lemma Pen.oneLine_braces {pen : Pen} (hinline : pen.inline = true)
    (h : ∀ t ∈ ts, Text.OneLine t) : Text.OneLine (pen.braces ts) := by
  simp only [Pen.braces, hinline, if_true]
  split
  · decide
  · refine oneLine_append.2 ⟨oneLine_cons (by decide) (oneLine_join ?_ ?_), ?_⟩
    · decide
    · intro t ht
      obtain ⟨v, hv, rfl⟩ := List.mem_map.1 ht
      exact oneLine_dropTrailingSpaces (h v hv)
    · decide

lemma Pen.oneLine_terminate {pen : Pen} (s : Statement) (h : Text.OneLine u) :
    Text.OneLine (pen.terminate s u) := by
  unfold Pen.terminate
  split
  · exact oneLine_append.2 ⟨h, by decide⟩
  · exact h

end OneLine

mutual

lemma Subgraph.oneLine_render {pen : Pen} (hinline : pen.inline = true) :
    ∀ {group : Subgraph}, Id.Unbroken group.ids → Text.OneLine (group.render pen)
  | .mk name body, h => by
    rw [Subgraph.ids, Id.unbroken_append] at h
    rw [Subgraph.render, oneLine_append]
    have hinside : pen.inside.inline = true := by rwa [Pen.inline_inside]
    exact ⟨Subgraph.oneLine_header h.1,
      Pen.oneLine_braces hinline (Statement.oneLine_renderAll hinside h.2)⟩

/-- What a pen keeps on one line has no line end. -/
lemma Statement.oneLine_bare {pen : Pen} (hinline : pen.inline = true) :
    ∀ {s : Statement}, Id.Unbroken s.ids → Text.OneLine (s.bare pen)
  | .node node attrs, h => by
    rw [Statement.ids, Id.unbroken_append] at h
    rw [Statement.bare, oneLine_append]
    exact ⟨NodeId.oneLine_render h.1, pen.oneLine_attributes h.2⟩
  | .edge chain attrs, h => by
    rw [Statement.ids, Id.unbroken_append] at h
    rw [Statement.bare]
    simp only [hinline, if_true]
    exact pen.oneLine_chain h.2 (Vertex.oneLine_renderAll hinline h.1)
  | .subgraph group, h => by
    rw [Statement.ids] at h
    rw [Statement.bare]
    exact Subgraph.oneLine_render hinline h
  | .assign attr, h => by
    rw [Statement.ids] at h
    rw [Statement.bare]
    exact Attribute.oneLine_render h
  | .defaults target attrs, h => by
    rw [Statement.ids] at h
    rw [Statement.bare, oneLine_append]
    exact ⟨oneLine_of_isPlain (isPlain_keyword target.keyword), pen.oneLine_brackets h⟩

lemma Statement.oneLine_renderAll {pen : Pen} (hinline : pen.inline = true) :
    ∀ {body : List Statement}, Id.Unbroken (Statement.idsAll body) →
      ∀ t ∈ Statement.renderAll pen body, Text.OneLine t
  | [], _ => by simp [Statement.renderAll]
  | s :: rest, h => by
    rw [Statement.idsAll, Id.unbroken_append] at h
    rw [Statement.renderAll, List.forall_mem_cons]
    exact ⟨Pen.oneLine_terminate s (Statement.oneLine_bare hinline h.1),
      Statement.oneLine_renderAll hinline h.2⟩

lemma Vertex.oneLine_renderAll {pen : Pen} (hinline : pen.inline = true) :
    ∀ {chain : List Vertex}, Id.Unbroken (Vertex.idsAll chain) →
      ∀ t ∈ Vertex.renderAll pen chain, Text.OneLine t
  | [], _ => by simp [Vertex.renderAll]
  | .node node :: rest, h => by
    rw [Vertex.idsAll, Vertex.ids, Id.unbroken_append] at h
    rw [Vertex.renderAll, Vertex.render, List.forall_mem_cons]
    exact ⟨NodeId.oneLine_render h.1, Vertex.oneLine_renderAll hinline h.2⟩
  | .subgraph group :: rest, h => by
    rw [Vertex.idsAll, Vertex.ids, Id.unbroken_append] at h
    rw [Vertex.renderAll, Vertex.render, List.forall_mem_cons]
    exact ⟨Subgraph.oneLine_render hinline h.1, Vertex.oneLine_renderAll hinline h.2⟩

end

lemma Graph.oneLine_header {graph : Graph} (h : Id.Unbroken graph.id.toList) :
    Text.OneLine graph.header := by
  have hstrict : Text.OneLine (if graph.strict then "strict ".toList else []) := by
    split <;> decide
  have hkind : Text.OneLine (Graph.kindWord graph.directed) := by
    unfold Graph.kindWord
    split <;> decide
  have hname : Text.OneLine ((graph.id.map fun name => name.render ++ [' ']).getD []) := by
    cases hid : graph.id with
    | none => exact oneLine_nil
    | some name =>
      have hrender := Id.oneLine_render (h name (by simp [hid]))
      exact oneLine_append.2 ⟨hrender, by decide⟩
  rw [Graph.header, oneLine_append, oneLine_append, oneLine_append]
  exact ⟨⟨⟨hstrict, hkind⟩, by decide⟩, hname⟩

/-- A document that is kept on one line has no line end. -/
lemma Graph.oneLine_print {graph : Graph} {settings : Settings}
    (hinline : settings.alwaysInline = true) (hids : Id.Unbroken graph.ids) :
    Text.OneLine (graph.print settings) := by
  rw [Graph.ids, Id.unbroken_append] at hids
  have hpen : (Pen.start settings graph.directed).inline = true := hinline
  have hinside : (Pen.start settings graph.directed).inside.inline = true := by
    rwa [Pen.inline_inside]
  have hbody := Pen.oneLine_braces hpen (Statement.oneLine_renderAll hinside hids.2)
  exact oneLine_append.2 ⟨Graph.oneLine_header hids.1, hbody⟩

end DotNotation
