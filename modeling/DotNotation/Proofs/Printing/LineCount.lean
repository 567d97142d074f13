/-
# A wider threshold breaks no further lines

The threshold decides which edge statements stay on one line, and the decision is taken anew for
every edge inside the subgraphs of an edge that is spread out.  A wider threshold keeps whole
statements together that a narrow one takes apart, so the two texts differ in shape, not only in
the places of their line ends.  They are compared by their pens: one pen is tighter than another if
it keeps on one line whatever the other keeps there.  The main results are

* `Statement.bare_congr`: what is kept on one line does not depend on threshold or indentation,
  so that two pens try the same text against their thresholds;
* `Statement.lineEnds_bare_le`: the tighter pen writes no more line ends;
* `Graph.count_print_le`: nor does a wider threshold, for a whole document.
-/
import DotNotation.Proofs.Printing.Tokens

namespace DotNotation

/-! ## Line ends -/

namespace Text

/-- The number of line ends of a text. -/
def lineEnds (t : Text) : Nat := t.count '\n'

/-- One by one, the texts of the first list have no more line ends than those of the second. -/
def NoMoreLines (ts us : List Text) : Prop :=
  List.Forall₂ (fun t u => lineEnds t ≤ lineEnds u) ts us

variable {t u sep other : Text} {ts us : List Text}

@[simp] lemma lineEnds_append : lineEnds (t ++ u) = lineEnds t + lineEnds u := List.count_append

lemma lineEnds_cons {c : Char} (hc : c ≠ '\n') : lineEnds (c :: t) = lineEnds t :=
  List.count_cons_of_ne hc

@[simp] lemma lineEnds_spaces (width : Int) : lineEnds (spaces width) = 0 :=
  List.count_eq_zero.2 fun h => absurd (List.eq_of_mem_replicate h) (by decide)

@[simp] lemma lineEnds_dropTrailingSpaces : lineEnds t.dropTrailingSpaces = lineEnds t := by
  have hblanks : (t.reverse.takeWhile (· == ' ')).count '\n' = 0 :=
    List.count_eq_zero.2 fun h => absurd (List.mem_takeWhile_imp h) (by decide)
  have hsplit := congrArg (List.count '\n') (List.takeWhile_append_dropWhile (p := (· == ' '))
    (l := t.reverse))
  rw [List.count_append, hblanks, Nat.zero_add, List.count_reverse] at hsplit
  rw [lineEnds, dropTrailingSpaces, List.count_reverse, hsplit, lineEnds]

lemma lineEnds_join_le (hsep : lineEnds sep ≤ lineEnds other) (h : NoMoreLines ts us) :
    lineEnds (join sep ts) ≤ lineEnds (join other us) := by
  induction h with
  | nil => exact le_rfl
  | cons hfirst hrest ih =>
    cases hrest with
    | nil => exact hfirst
    | cons _ _ =>
      simp only [join_cons_cons, lineEnds_append]
      omega

/-- What is done to the parts of a text does not matter if it keeps their line ends. -/
lemma lineEnds_join_map (sep : Text) (ts : List Text) {f : Text → Text}
    (hf : ∀ t, lineEnds (f t) = lineEnds t) :
    lineEnds (join sep (ts.map f)) = lineEnds (join sep ts) := by
  induction ts with
  | nil => rfl
  | cons t ts ih =>
    cases ts with
    | nil => exact hf t
    | cons u ts =>
      simp only [List.map_cons, join_cons_cons, lineEnds_append, hf] at ih ⊢
      rw [ih]

end Text

open Text (lineEnds NoMoreLines)

/-! ## Signs -/

namespace Pen

variable {pen other : Pen}

lemma arrow_congr (h : pen.signs = other.signs) : pen.arrow = other.arrow := by
  rw [arrow, arrow, show pen.directed = other.directed from congrArg Signs.directed h]

lemma useSemicolons_congr (h : pen.signs = other.signs) :
    pen.settings.useSemicolons = other.settings.useSemicolons := congrArg Signs.semicolons h

lemma brackets_congr (h : pen.signs = other.signs) (attrs : List Attribute) :
    pen.brackets attrs = other.brackets attrs := by
  rw [brackets, brackets, separator, separator, useSemicolons_congr h]

lemma attributes_congr (h : pen.signs = other.signs) (attrs : List Attribute) :
    pen.attributes attrs = other.attributes attrs := by
  rw [attributes, attributes, brackets_congr h]

lemma chain_congr (h : pen.signs = other.signs) (ts : List Text) (attrs : List Attribute) :
    pen.chain ts attrs = other.chain ts attrs := by
  rw [chain, chain, arrow_congr h, attributes_congr h]

lemma terminate_congr (h : pen.signs = other.signs) (s : Statement) (t : Text) :
    pen.terminate s t = other.terminate s t := by
  rw [terminate, terminate, useSemicolons_congr h]

lemma inside_of_inline (h : pen.inline = true) : pen.inside = pen := by
  rw [inside, if_pos h]

end Pen

/-! ## Texts on one line -/

/-- Both pens keep everything on one line, and they use the same signs. -/
structure Pen.SameLine (pen other : Pen) : Prop where
  left : pen.inline = true
  right : other.inline = true
  signs : pen.signs = other.signs

lemma Pen.SameLine.braces_congr {pen other : Pen} (h : pen.SameLine other) (ts : List Text) :
    pen.braces ts = other.braces ts := by
  simp only [Pen.braces, h.left, h.right, if_true]

mutual

lemma Subgraph.render_congr {pen other : Pen} (h : pen.SameLine other) :
    ∀ group : Subgraph, group.render pen = group.render other
  | .mk name body => by
    rw [Subgraph.render, Subgraph.render, Pen.inside_of_inline h.left, Pen.inside_of_inline h.right,
      Statement.renderAll_congr h body, h.braces_congr]

/-- On one line nothing depends on the threshold or the indentation. -/
lemma Statement.bare_congr {pen other : Pen} (h : pen.SameLine other) :
    ∀ s : Statement, s.bare pen = s.bare other
  | .node name attrs => by
    rw [Statement.bare, Statement.bare, Pen.attributes_congr h.signs]
  | .edge chain attrs => by
    rw [Statement.bare, Statement.bare, if_pos h.left, if_pos h.right,
      Vertex.renderAll_congr h chain, Pen.chain_congr h.signs]
  | .subgraph group => by
    rw [Statement.bare, Statement.bare, Subgraph.render_congr h group]
  | .assign attr => by
    rw [Statement.bare, Statement.bare]
  | .defaults target attrs => by
    rw [Statement.bare, Statement.bare, Pen.brackets_congr h.signs]

lemma Statement.renderAll_congr {pen other : Pen} (h : pen.SameLine other) :
    ∀ body : List Statement, Statement.renderAll pen body = Statement.renderAll other body
  | [] => rfl
  | s :: rest => by
    rw [Statement.renderAll, Statement.renderAll, Statement.bare_congr h s,
      Pen.terminate_congr h.signs, Statement.renderAll_congr h rest]

lemma Vertex.renderAll_congr {pen other : Pen} (h : pen.SameLine other) :
    ∀ chain : List Vertex, Vertex.renderAll pen chain = Vertex.renderAll other chain
  | [] => rfl
  | .node name :: rest => by
    rw [Vertex.renderAll, Vertex.renderAll, Vertex.render, Vertex.render,
      Vertex.renderAll_congr h rest]
  | .subgraph group :: rest => by
    rw [Vertex.renderAll, Vertex.renderAll, Vertex.render, Vertex.render,
      Subgraph.render_congr h group, Vertex.renderAll_congr h rest]

end

/-! ## Line ends of a body -/

namespace Pen

variable {pen : Pen} {ts : List Text}

lemma lineEnds_braces_of_inline (h : pen.inline = true) :
    lineEnds (pen.braces ts) = lineEnds (Text.join [' '] ts) := by
  cases ts with
  | nil => rfl
  | cons t ts =>
    have hjoin := Text.lineEnds_join_map [' '] (t :: ts) fun _ => Text.lineEnds_dropTrailingSpaces
    simp only [braces, h, List.isEmpty_cons, Bool.false_eq_true, if_false, if_true]
    rw [List.cons_append, Text.lineEnds_cons (by decide), Text.lineEnds_append, hjoin]
    rfl

lemma lineEnds_braces_of_spread (h : pen.inline = false) (hne : ts ≠ []) :
    lineEnds (pen.braces ts) = lineEnds (Text.join pen.settings.lineSeparator ts) +
      2 * lineEnds pen.settings.lineSeparator := by
  have hjoin := Text.lineEnds_join_map pen.settings.lineSeparator ts
    (f := (Text.spaces pen.inside.indent ++ ·)) (by simp)
  have hempty : ts.isEmpty = false := by simpa using hne
  have hclose : lineEnds ['}'] = 0 := rfl
  simp only [braces, h, hempty, Bool.false_eq_true, if_false, List.cons_append]
  rw [Text.lineEnds_cons (by decide)]
  simp only [Text.lineEnds_append, Text.lineEnds_spaces, hjoin, hclose]
  omega

end Pen

/-! ## Tighter pens -/

/-- The first pen keeps on one line whatever the second keeps there. -/
structure Pen.Tighter (pen other : Pen) : Prop where
  signs : pen.signs = other.signs
  inline : pen.inline = false → other.inline = false
  lines : pen.inline = false → pen.settings.lineSeparator = other.settings.lineSeparator
  threshold : pen.inline = false →
    other.settings.inlineThreshold ≤ pen.settings.inlineThreshold

namespace Pen.Tighter

variable {pen other : Pen} {ts us : List Text}

lemma inside (h : pen.Tighter other) : pen.inside.Tighter other.inside where
  signs := by simpa using h.signs
  inline := by simpa using h.inline
  lines := by simpa using h.lines
  threshold := by simpa using h.threshold

/-- Nothing is tighter than one line. -/
lemma of_inline (hinline : pen.inline = true) (hsigns : pen.signs = other.signs) :
    pen.Tighter other where
  signs := hsigns
  inline := by simp [hinline]
  lines := by simp [hinline]
  threshold := by simp [hinline]

lemma lineEnds_braces_le (h : pen.Tighter other) (hts : NoMoreLines ts us) :
    lineEnds (pen.braces ts) ≤ lineEnds (other.braces us) := by
  by_cases hne : us = []
  · subst hne
    cases hts
    exact le_rfl
  · have hne' : ts ≠ [] := by
      rintro rfl
      cases hts
      exact hne rfl
    cases hinline : pen.inline with
    | true =>
      -- a body on one line has no line ends of its own
      rw [lineEnds_braces_of_inline hinline]
      cases hother : other.inline with
      | true =>
        rw [lineEnds_braces_of_inline hother]
        exact Text.lineEnds_join_le le_rfl hts
      | false =>
        rw [lineEnds_braces_of_spread hother hne]
        have hblank : lineEnds [' '] ≤ lineEnds other.settings.lineSeparator := Nat.zero_le _
        have hjoin := Text.lineEnds_join_le hblank hts
        omega
    | false =>
      rw [lineEnds_braces_of_spread hinline hne', lineEnds_braces_of_spread (h.inline hinline) hne,
        h.lines hinline]
      have hjoin := Text.lineEnds_join_le (le_refl (lineEnds other.settings.lineSeparator)) hts
      omega

lemma lineEnds_chain_le (h : pen.Tighter other) (hts : NoMoreLines ts us) (attrs : List Attribute) :
    lineEnds (pen.chain ts attrs) ≤ lineEnds (other.chain us attrs) := by
  rw [Pen.chain_congr h.signs, Pen.chain, Pen.chain, Text.lineEnds_append, Text.lineEnds_append]
  exact Nat.add_le_add_right (Text.lineEnds_join_le le_rfl hts) _

lemma lineEnds_terminate_le (h : pen.Tighter other) (s : Statement) {t u : Text}
    (htu : lineEnds t ≤ lineEnds u) :
    lineEnds (pen.terminate s t) ≤ lineEnds (other.terminate s u) := by
  rw [Pen.terminate_congr h.signs, Pen.terminate, Pen.terminate]
  split
  · simpa using htu
  · exact htu

/-- Both pens try the same text on one line, and the tighter one has more room for it. -/
lemma lineEnds_edge_le (h : pen.Tighter other) (chain : List Vertex) (attrs : List Attribute)
    (hchain : ∀ {pen other : Pen}, pen.Tighter other →
      NoMoreLines (Vertex.renderAll pen chain) (Vertex.renderAll other chain)) :
    lineEnds ((Statement.edge chain attrs).bare pen) ≤
      lineEnds ((Statement.edge chain attrs).bare other) := by
  rw [Statement.bare, Statement.bare]
  have hlong := h.lineEnds_chain_le (hchain h) attrs
  cases hinline : pen.inline with
  | true =>
    have hone : pen.Tighter other.oneLine := of_inline hinline (by simpa using h.signs)
    have hshort := h.lineEnds_chain_le (hchain hone) attrs
    simp only [if_true, Pen.fit]
    split
    · exact hlong
    · split
      · exact hshort
      · exact hlong
  | false =>
    have hone : pen.oneLine.Tighter other := of_inline rfl (by simpa using h.signs)
    have hshort := h.lineEnds_chain_le (hchain hone) attrs
    have htext : pen.chain (Vertex.renderAll pen.oneLine chain) attrs =
        other.chain (Vertex.renderAll other.oneLine chain) attrs := by
      have hsame : pen.oneLine.SameLine other.oneLine := ⟨rfl, rfl, by simpa using h.signs⟩
      rw [Vertex.renderAll_congr hsame, Pen.chain_congr h.signs]
    have hthreshold := h.threshold hinline
    simp only [h.inline hinline, Bool.false_eq_true, if_false, Pen.fit, ← htext]
    split
    · split
      · exact le_rfl
      · exact hshort
    · rename_i hwide
      rw [if_neg (by omega)]
      exact hlong

end Pen.Tighter

/-! ## The tighter pen writes no more line ends -/

mutual

lemma Subgraph.lineEnds_render_le {pen other : Pen} (h : pen.Tighter other) :
    ∀ group : Subgraph, lineEnds (group.render pen) ≤ lineEnds (group.render other)
  | .mk name body => by
    rw [Subgraph.render, Subgraph.render, Text.lineEnds_append, Text.lineEnds_append]
    exact Nat.add_le_add_left
      (h.lineEnds_braces_le (Statement.noMoreLines_renderAll h.inside body)) _

/-- The tighter pen writes no more line ends. -/
lemma Statement.lineEnds_bare_le {pen other : Pen} (h : pen.Tighter other) :
    ∀ s : Statement, lineEnds (s.bare pen) ≤ lineEnds (s.bare other)
  | .node name attrs => by
    rw [Statement.bare, Statement.bare, Pen.attributes_congr h.signs]
  | .edge chain attrs =>
    h.lineEnds_edge_le chain attrs fun h => Vertex.noMoreLines_renderAll h chain
  | .subgraph group => by
    rw [Statement.bare, Statement.bare]
    exact Subgraph.lineEnds_render_le h group
  | .assign attr => by
    rw [Statement.bare, Statement.bare]
  | .defaults target attrs => by
    rw [Statement.bare, Statement.bare, Pen.brackets_congr h.signs]

lemma Statement.noMoreLines_renderAll {pen other : Pen} (h : pen.Tighter other) :
    ∀ body : List Statement,
      NoMoreLines (Statement.renderAll pen body) (Statement.renderAll other body)
  | [] => .nil
  | s :: rest => by
    rw [Statement.renderAll, Statement.renderAll]
    exact .cons (h.lineEnds_terminate_le s (Statement.lineEnds_bare_le h s))
      (Statement.noMoreLines_renderAll h rest)

lemma Vertex.noMoreLines_renderAll {pen other : Pen} (h : pen.Tighter other) :
    ∀ chain : List Vertex, NoMoreLines (Vertex.renderAll pen chain) (Vertex.renderAll other chain)
  | [] => .nil
  | .node name :: rest => by
    rw [Vertex.renderAll, Vertex.renderAll, Vertex.render, Vertex.render]
    exact .cons le_rfl (Vertex.noMoreLines_renderAll h rest)
  | .subgraph group :: rest => by
    rw [Vertex.renderAll, Vertex.renderAll, Vertex.render, Vertex.render]
    exact .cons (Subgraph.lineEnds_render_le h group) (Vertex.noMoreLines_renderAll h rest)

end

lemma Statement.lineEnds_renderBody_le {pen other : Pen} (h : pen.Tighter other)
    (body : List Statement) :
    lineEnds (Statement.renderBody pen body) ≤ lineEnds (Statement.renderBody other body) :=
  h.lineEnds_braces_le (Statement.noMoreLines_renderAll h.inside body)

/-! ## Whole documents -/

lemma Graph.count_print_le_of_tighter {settings other : Settings} {graph : Graph}
    (h : (Pen.start settings graph.directed).Tighter (Pen.start other graph.directed)) :
    (graph.print settings).count '\n' ≤ (graph.print other).count '\n' := by
  have hbody := Statement.lineEnds_renderBody_le h graph.body
  simp only [Graph.print, Graph.render, List.count_append]
  exact Nat.add_le_add_left hbody _

/-- No layout of a document has fewer line ends than the one on a single line, which has only those
of its identifiers. -/
theorem Graph.count_print_inline_le (settings : Settings) (graph : Graph) :
    (graph.print { settings with alwaysInline := true }).count '\n' ≤
      (graph.print settings).count '\n' :=
  Graph.count_print_le_of_tighter (.of_inline rfl rfl)

/-- With a wider threshold a document has no more line ends, whatever the other settings are and
whatever line ends stand in its identifiers. -/
theorem Graph.count_print_le {narrow wide : ℤ} (h : narrow ≤ wide) (settings : Settings)
    (graph : Graph) :
    (graph.print { settings with inlineThreshold := wide }).count '\n' ≤
      (graph.print { settings with inlineThreshold := narrow }).count '\n' :=
  Graph.count_print_le_of_tighter ⟨rfl, fun hinline => hinline, fun _ => rfl, fun _ => h⟩

/-- An edge that is spread out under both thresholds, with an edge inside it that is kept together
under the wider one only; a name has a line end of its own. -/
theorem Graph.count_print_le_nested_edge :
    (Graph.print ⟨2, 0, ['\n'], false, false, 20⟩ ⟨false, true, none, [
      .edge [.subgraph (.mk none [.edge [.node ⟨⟨.plain, ['a']⟩, none⟩,
          .subgraph (.mk none [.node ⟨⟨.plain, ['b']⟩, none⟩ []])] []]),
        .node ⟨⟨.quoted, ['c', '\n']⟩, none⟩] []]⟩).count '\n' ≤
    (Graph.print ⟨2, 0, ['\n'], false, false, 17⟩ ⟨false, true, none, [
      .edge [.subgraph (.mk none [.edge [.node ⟨⟨.plain, ['a']⟩, none⟩,
          .subgraph (.mk none [.node ⟨⟨.plain, ['b']⟩, none⟩ []])] []]),
        .node ⟨⟨.quoted, ['c', '\n']⟩, none⟩] []]⟩).count '\n' :=
  Graph.count_print_le (by decide) ⟨2, 0, ['\n'], false, false, 90⟩ _

end DotNotation
