/-
# The tokens of a written document

A written document is laid out in many ways, but its tokens depend only on the tree and on two
choices: the sign between vertices and whether semicolons are written.  They are defined here
from the tree alone, and compared with the texts that the printer writes.  A piece of text is
followed by a text that breaks off words, wherever it stands in a document; this is all that
has to be known about its surroundings.  The main results are

* `Statement.writes_renderAll`: the statements of a body are written as their tokens, with or
  without the blanks at their ends;
* `Graph.spaced_print`: a written document consists of blanks and the tokens of its graph;
* `Graph.splits_print`: a written document splits into the tokens of its graph.
-/
import DotNotation.Printing.Layout
import DotNotation.Proofs.Lexical.Split
import DotNotation.Proofs.Syntax.Shape
import Mathlib.Data.List.Forall2

namespace DotNotation

open Lexical

/-! ## The tokens of a tree -/

/-- The lists in order, with one token between each two. -/
def Token.join (sep : Token) : List (List Token) → List Token
  | [] => []
  | w :: ws => w ++ ws.flatMap (sep :: ·)

/-- The tokens of a port. -/
def Port.tokens (port : Port) : List Token :=
  (port.id.map fun name => [.punct .colon, .id name]).getD [] ++
    (port.compass.map fun c => [.punct .colon, .word c.word]).getD []

/-- The tokens of a node reference. -/
def NodeId.tokens (node : NodeId) : List Token :=
  .id node.id :: (node.port.map Port.tokens).getD []

/-- The tokens of an attribute. -/
def Attribute.tokens (attr : Attribute) : List Token :=
  [.id attr.key, .punct .equals, .id attr.value]

/-- The choices between tokens in a written document. -/
structure Signs where
  /-- Are edges written as arrows? -/
  directed : Bool
  /-- Are semicolons written after statements and between attributes? -/
  semicolons : Bool

namespace Signs

/-- The token between two vertices. -/
def arrow (signs : Signs) : Token := .punct (if signs.directed then .arrow else .line)

/-- The token between two attributes. -/
def separator (signs : Signs) : Token := .punct (if signs.semicolons then .semicolon else .comma)

/-- The tokens of a bracketed attribute list. -/
def brackets (signs : Signs) (attrs : List Attribute) : List Token :=
  .punct .openBracket :: Token.join signs.separator (attrs.map Attribute.tokens) ++
    [.punct .closeBracket]

/-- The tokens of an attribute list that is left out when there is no attribute. -/
def attributes (signs : Signs) (attrs : List Attribute) : List Token :=
  if attrs.isEmpty then [] else signs.brackets attrs

/-- The tokens of a statement, with a semicolon where one is written. -/
def terminate (signs : Signs) (s : Statement) (w : List Token) : List Token :=
  if signs.semicolons || s.endsInBareSubgraph then w ++ [.punct .semicolon] else w

end Signs

/-- The tokens of a body. -/
def Token.braces (ws : List (List Token)) : List Token :=
  .punct .openBrace :: ws.flatten ++ [.punct .closeBrace]

mutual

/-- The tokens of a subgraph. -/
def Subgraph.tokens (signs : Signs) : Subgraph → List Token
  | .mk id body =>
    .word Keyword.subgraph.word :: (id.map Token.id).toList ++
      Token.braces (Statement.tokensAll signs body)

/-- The tokens of a statement, without a semicolon after it. -/
def Statement.tokens (signs : Signs) : Statement → List Token
  | .node id attrs => id.tokens ++ signs.attributes attrs
  | .edge chain attrs =>
    Token.join signs.arrow (Vertex.tokensAll signs chain) ++ signs.attributes attrs
  | .subgraph group => group.tokens signs
  | .assign attr => attr.tokens
  | .defaults target attrs => .word target.word :: signs.brackets attrs

/-- The tokens of the statements of a body, each with its semicolon. -/
def Statement.tokensAll (signs : Signs) : List Statement → List (List Token)
  | [] => []
  | s :: rest => signs.terminate s (s.tokens signs) :: Statement.tokensAll signs rest

/-- The tokens of a vertex. -/
def Vertex.tokens (signs : Signs) : Vertex → List Token
  | .node id => id.tokens
  | .subgraph group => group.tokens signs

/-- The tokens of the vertices of a chain. -/
def Vertex.tokensAll (signs : Signs) : List Vertex → List (List Token)
  | [] => []
  | v :: rest => v.tokens signs :: Vertex.tokensAll signs rest

end

/-- The word for a kind of graph. -/
def Graph.kind (graph : Graph) : Keyword := if graph.directed then .digraph else .graph

/-- The tokens of a graph. -/
def Graph.tokens (semicolons : Bool) (graph : Graph) : List Token :=
  (if graph.strict then [.word Keyword.strict.word] else []) ++ .word graph.kind.word ::
    (graph.id.map Token.id).toList ++
      Token.braces (Statement.tokensAll ⟨graph.directed, semicolons⟩ graph.body)

/-! ## Pieces of text -/

/-- The text consists of blanks and the given tokens, without any comment. -/
inductive Spaced : Text → List Token → Prop
  | nil : Spaced [] []
  | blanks {u t : Text} {toks : List Token} (hne : u ≠ []) (hu : IsBlank u)
      (ht : Spaced t toks) : Spaced (u ++ t) toks
  | token {t : Text} {tok : Token} {toks : List Token} (hk : tok.StandsBefore t)
      (ht : Spaced t toks) : Spaced (tok.render ++ t) (tok :: toks)

lemma Spaced.splits {t : Text} {toks : List Token} (h : Spaced t toks) : Splits t toks := by
  induction h with
  | nil => exact .nil
  | blanks hne hu _ ih => exact .trivia (.blanks hne hu) ih
  | token hk _ ih => exact .token hk ih

/-- Before any text of blanks and tokens, the piece adds the given tokens. -/
def Leads (u : Text) (w : List Token) : Prop :=
  ∀ (t : Text) (toks : List Token), Spaced t toks → Spaced (u ++ t) (w ++ toks)

/-- Before a text of blanks and tokens that breaks off words, the piece adds the given tokens. -/
def Writes (u : Text) (w : List Token) : Prop :=
  ∀ (t : Text) (toks : List Token), breaks t = true → Spaced t toks → Spaced (u ++ t) (w ++ toks)

section Pieces

variable {u v : Text} {w x : List Token}

lemma breaks_append (hu : breaks u = true) (hv : breaks v = true) : breaks (u ++ v) = true := by
  cases u with
  | nil => exact hv
  | cons c u => exact hu

lemma Leads.writes (h : Leads u w) : Writes u w := fun t toks _ ht => h t toks ht

lemma Leads.append (h : Leads u w) (h' : Leads v x) : Leads (u ++ v) (w ++ x) := by
  intro t toks ht
  rw [List.append_assoc, List.append_assoc]
  exact h _ _ (h' t toks ht)

/-- What leads can stand before every piece. -/
lemma Leads.append_writes (h : Leads u w) (h' : Writes v x) : Writes (u ++ v) (w ++ x) := by
  intro t toks hbreaks ht
  rw [List.append_assoc, List.append_assoc]
  exact h _ _ (h' t toks hbreaks ht)

/-- A piece can stand before a piece that breaks off words. -/
lemma Writes.append (h : Writes u w) (hv : breaks v = true) (h' : Writes v x) :
    Writes (u ++ v) (w ++ x) := by
  intro t toks hbreaks ht
  rw [List.append_assoc, List.append_assoc]
  exact h _ _ (breaks_append hv hbreaks) (h' t toks hbreaks ht)

lemma leads_nil : Leads [] [] := fun _ _ ht => ht

lemma writes_nil : Writes [] [] := leads_nil.writes

lemma leads_punct (p : Punct) : Leads p.text [.punct p] := by
  intro t toks ht
  have hp : (Token.punct p).StandsBefore t := trivial
  exact .token hp ht

lemma leads_blanks (hu : isBlankRun u = true) : Leads u [] := by
  intro t toks ht
  cases u with
  | nil => exact ht
  | cons c u => exact .blanks (List.cons_ne_nil c u) (isBlankRun_iff.1 hu) ht

lemma writes_id {name : Id} (h : name.isValid = true) : Writes name.render [.id name] := by
  intro t toks hbreaks ht
  have hname : (Token.id name).StandsBefore t := Token.standsBefore_of_breaks h hbreaks
  exact .token hname ht

lemma writes_word {t : Text} (h : isPlain t = true) : Writes t [.word t] :=
  @writes_id ⟨.plain, t⟩ h

lemma breaks_of_isBlankRun (h : isBlankRun u = true) : breaks u = true := by
  rw [isBlankRun, List.isEmpty_iff] at h
  unfold blankRun at h
  split at h
  · rfl
  · rfl
  · rfl
  · rfl
  · simp only at h
    rw [h]
    rfl

lemma isBlankRun_spaces (width : Int) : isBlankRun (Text.spaces width) = true := by
  rw [Text.spaces]
  induction width.toNat with
  | zero => rfl
  | succ n ih => simpa [List.replicate_succ, isBlankRun, blankRun] using ih

end Pieces

/-! ## Sequences of pieces -/

lemma Text.join_cons (sep t : Text) (ts : List Text) :
    Text.join sep (t :: ts) = t ++ ts.flatMap (sep ++ ·) := by
  induction ts generalizing t with
  | nil => simp
  | cons u ts ih => simp only [Text.join_cons_cons, ih, List.flatMap_cons, List.append_assoc]

section Sequences

variable {sep : Text} {x : List Token} {ts : List Text} {ws : List (List Token)}

/-- Pieces with a separator before each of them. -/
lemma writes_flatMap (hsep : ∀ t, breaks (sep ++ t) = true) (hlead : Leads sep x)
    (h : List.Forall₂ Writes ts ws) : Writes (ts.flatMap (sep ++ ·)) (ws.flatMap (x ++ ·)) := by
  induction h with
  | nil => exact writes_nil
  | @cons t w ts ws ht _ ih =>
    rw [List.flatMap_cons, List.flatMap_cons]
    refine (hlead.append_writes ht).append ?_ ih
    cases ts with
    | nil => rfl
    | cons u ts =>
      rw [List.flatMap_cons, List.append_assoc]
      exact hsep _

/-- Pieces with a separator between each two of them. -/
lemma writes_join_cons (hsep : ∀ t, breaks (sep ++ t) = true) (hlead : Leads sep x) {t : Text}
    {w : List Token} (h : List.Forall₂ Writes (t :: ts) (w :: ws)) :
    Writes (Text.join sep (t :: ts)) (w ++ ws.flatMap (x ++ ·)) := by
  obtain ⟨ht, hts⟩ := List.forall₂_cons.1 h
  rw [Text.join_cons]
  refine ht.append ?_ (writes_flatMap hsep hlead hts)
  cases ts with
  | nil => rfl
  | cons u ts =>
    rw [List.flatMap_cons, List.append_assoc]
    exact hsep _

lemma writes_join {tok : Token} (hsep : ∀ t, breaks (sep ++ t) = true) (hlead : Leads sep [tok])
    (h : List.Forall₂ Writes ts ws) : Writes (Text.join sep ts) (Token.join tok ws) := by
  cases h with
  | nil => exact writes_nil
  | cons ht hts => exact writes_join_cons hsep hlead (.cons ht hts)

/-- Pieces with blanks between each two of them. -/
lemma writes_join_blanks (hne : sep ≠ []) (hsep : isBlankRun sep = true)
    (h : List.Forall₂ Writes ts ws) : Writes (Text.join sep ts) ws.flatten := by
  have hbreaks : ∀ t, breaks (sep ++ t) = true := by
    intro t
    have := breaks_of_isBlankRun hsep
    cases sep with
    | nil => exact absurd rfl hne
    | cons c sep => exact this
  cases h with
  | nil => exact writes_nil
  | @cons t w ts ws ht hts =>
    have hjoin := writes_join_cons hbreaks (leads_blanks hsep) (.cons ht hts)
    rwa [show w ++ ws.flatMap ([] ++ ·) = (w :: ws).flatten by simp] at hjoin

end Sequences

/-! ## Parts without a body -/

lemma isPlain_keyword (k : Keyword) : isPlain k.word = true := by
  cases k <;> decide

lemma isPlain_compass (c : Compass) : isPlain c.word = true := by
  cases c <;> decide

lemma Port.breaks_render (port : Port) : breaks port.render = true := by
  obtain ⟨name, compass⟩ := port
  cases name <;> cases compass <;> rfl

lemma Port.writes_render {port : Port} (h : port.isValid = true) :
    Writes port.render port.tokens := by
  obtain ⟨name, compass⟩ := port
  have hcompass : Writes ((compass.map fun c => ':' :: c.word).getD [])
      ((compass.map fun c => [.punct .colon, .word c.word]).getD []) := by
    cases compass with
    | none => exact writes_nil
    | some c => exact (leads_punct .colon).append_writes (writes_word (isPlain_compass c))
  cases name with
  | none => exact hcompass
  | some name =>
    have hname : name.isValid = true := by simpa [Port.isValid, Port.isComplete] using h
    refine ((leads_punct .colon).append_writes (writes_id hname)).append ?_ hcompass
    cases compass <;> rfl

lemma NodeId.writes_render {node : NodeId} (h : node.isValid = true) :
    Writes node.render node.tokens := by
  obtain ⟨name, port⟩ := node
  simp only [NodeId.isValid, Bool.and_eq_true] at h
  cases port with
  | none => exact (writes_id h.1).append rfl writes_nil
  | some port =>
    exact (writes_id h.1).append (Port.breaks_render port) (Port.writes_render (by simpa using h.2))

lemma Attribute.writes_render {attr : Attribute} (h : attr.isValid = true) :
    Writes attr.render attr.tokens := by
  simp only [Attribute.isValid, Bool.and_eq_true] at h
  exact (writes_id h.1).append rfl ((leads_punct .equals).append_writes (writes_id h.2))

namespace Pen

variable (pen : Pen)

/-- The choices of signs that a pen makes. -/
def signs : Signs := ⟨pen.directed, pen.settings.useSemicolons⟩

@[simp] lemma signs_inside : pen.inside.signs = pen.signs := by simp [signs]

@[simp] lemma signs_oneLine : pen.oneLine.signs = pen.signs := by simp [signs]

lemma leads_arrow : Leads pen.arrow [pen.signs.arrow] := by
  have hblank : isBlankRun [' '] = true := rfl
  unfold arrow Signs.arrow signs
  cases pen.directed with
  | true => exact ((leads_blanks hblank).append (leads_punct .arrow)).append (leads_blanks hblank)
  | false => exact ((leads_blanks hblank).append (leads_punct .line)).append (leads_blanks hblank)

lemma leads_separator : Leads pen.separator [pen.signs.separator] := by
  unfold separator Signs.separator signs
  cases pen.settings.useSemicolons with
  | true => exact leads_punct .semicolon
  | false => exact leads_punct .comma

lemma breaks_arrow (t : Text) : breaks (pen.arrow ++ t) = true := by
  unfold arrow
  split <;> rfl

lemma breaks_separator (t : Text) : breaks (pen.separator ++ t) = true := by
  unfold separator
  split <;> rfl

variable {pen}

lemma writes_brackets {attrs : List Attribute} (h : ∀ attr ∈ attrs, attr.isValid = true) :
    Writes (pen.brackets attrs) (pen.signs.brackets attrs) := by
  have hattrs : List.Forall₂ Writes (attrs.map Attribute.render) (attrs.map Attribute.tokens) := by
    rw [List.forall₂_map_left_iff, List.forall₂_map_right_iff, List.forall₂_same]
    intro attr hattr
    exact Attribute.writes_render (h attr hattr)
  have hjoin := writes_join pen.breaks_separator pen.leads_separator hattrs
  exact ((leads_punct .openBracket).append_writes hjoin).append rfl
    (leads_punct .closeBracket).writes

lemma breaks_attributes (attrs : List Attribute) : breaks (pen.attributes attrs) = true := by
  unfold attributes
  split <;> rfl

lemma writes_attributes {attrs : List Attribute} (h : ∀ attr ∈ attrs, attr.isValid = true) :
    Writes (pen.attributes attrs) (pen.signs.attributes attrs) := by
  unfold attributes Signs.attributes
  split
  · exact writes_nil
  · exact writes_brackets h

end Pen

/-! ## The blanks at the end of a statement

In a body on one line the blank is dropped with which an edge without attributes ends. -/

/-- The text ends in a character other than a blank. -/
def EndsDark (t : Text) : Prop := ∃ u c, t = u ++ [c] ∧ c ≠ ' '

section EndsDark

variable {t u : Text}

lemma EndsDark.append_left (h : EndsDark t) (u : Text) : EndsDark (u ++ t) := by
  obtain ⟨v, c, rfl, hc⟩ := h
  exact ⟨u ++ v, c, (List.append_assoc u v [c]).symm, hc⟩

lemma EndsDark.cons (h : EndsDark t) (c : Char) : EndsDark (c :: t) := h.append_left [c]

lemma endsDark_concat (u : Text) {c : Char} (hc : c ≠ ' ') : EndsDark (u ++ [c]) := ⟨u, c, rfl, hc⟩

lemma EndsDark.dropTrailingSpaces (h : EndsDark t) : t.dropTrailingSpaces = t := by
  obtain ⟨u, c, rfl, hc⟩ := h
  simp [Text.dropTrailingSpaces, hc]

lemma EndsDark.dropTrailingSpaces_concat (h : EndsDark t) :
    Text.dropTrailingSpaces (t ++ [' ']) = t := by
  have hsame := h.dropTrailingSpaces
  simpa [Text.dropTrailingSpaces] using hsame

lemma ne_space_of_isPlain {c : Char} (ht : isPlain t = true) (hc : c ∈ t) : c ≠ ' ' := by
  rintro rfl
  obtain ⟨d, ds, rfl, hd⟩ := exists_of_plain (isPlain_iff_plain.1 ht)
  rcases List.mem_cons.1 hc with rfl | hc
  · rcases hd with h | h | h | ⟨h, -⟩ <;> exact absurd h (by decide)
  · rcases word_char_of_mem_tail ht hc with h | h <;> exact absurd h (by decide)

lemma endsDark_of_isPlain (ht : isPlain t = true) : EndsDark t := by
  rcases List.eq_nil_or_concat t with rfl | ⟨u, c, rfl⟩
  · exact absurd ht (by decide)
  · rw [List.concat_eq_append] at ht ⊢
    exact ⟨u, c, rfl, ne_space_of_isPlain ht (by simp)⟩

lemma Id.endsDark_render {name : Id} (h : name.isValid = true) : EndsDark name.render := by
  obtain ⟨kind, value⟩ := name
  cases kind with
  | plain => exact endsDark_of_isPlain h
  | quoted => exact endsDark_concat ('"' :: value) (by decide)
  | html => exact endsDark_concat ('<' :: value) (by decide)

lemma NodeId.endsDark_render {node : NodeId} (h : node.isValid = true) :
    EndsDark node.render := by
  obtain ⟨name, port⟩ := node
  simp only [NodeId.isValid, Bool.and_eq_true] at h
  have hname := Id.endsDark_render h.1
  rcases port with _ | ⟨inner, compass⟩
  · simpa [NodeId.render] using hname
  · cases compass with
    | some c =>
      have hword := (endsDark_of_isPlain (isPlain_compass c)).cons ':'
      exact (hword.append_left _).append_left _
    | none =>
      cases inner with
      | none => simpa [NodeId.render, Port.render] using hname
      | some inner =>
        have hinner : inner.isValid = true := by simpa [Port.isValid, Port.isComplete] using h.2
        have hport := (Id.endsDark_render hinner).cons ':'
        refine EndsDark.append_left ?_ _
        simpa [Port.render] using hport

lemma endsDark_join {sep : Text} {ts : List Text} (hne : ts ≠ []) (h : ∀ t ∈ ts, EndsDark t) :
    EndsDark (Text.join sep ts) := by
  induction ts with
  | nil => exact absurd rfl hne
  | cons t ts ih =>
    cases ts with
    | nil => exact h t (by simp)
    | cons u ts =>
      rw [Text.join_cons_cons]
      exact (ih (by simp) fun v hv => h v (List.mem_cons_of_mem t hv)).append_left _

lemma Pen.endsDark_braces (pen : Pen) (ts : List Text) : EndsDark (pen.braces ts) := by
  unfold Pen.braces
  split
  · exact endsDark_concat ['{'] (by decide)
  · split
    · exact endsDark_concat _ (by decide)
    · exact endsDark_concat _ (by decide)

lemma Pen.endsDark_brackets (pen : Pen) (attrs : List Attribute) :
    EndsDark (pen.brackets attrs) :=
  endsDark_concat _ (by decide)

lemma Subgraph.endsDark_render (pen : Pen) (group : Subgraph) : EndsDark (group.render pen) := by
  obtain ⟨name, body⟩ := group
  rw [Subgraph.render]
  exact (pen.endsDark_braces _).append_left _

lemma Vertex.endsDark_renderAll (pen : Pen) {chain : List Vertex}
    (h : Vertex.areValid chain = true) : ∀ t ∈ Vertex.renderAll pen chain, EndsDark t := by
  induction chain with
  | nil => simp [Vertex.renderAll]
  | cons v chain ih =>
    simp only [Vertex.areValid, Bool.and_eq_true] at h
    rw [Vertex.renderAll]
    refine List.forall_mem_cons.2 ⟨?_, ih h.2⟩
    cases v with
    | node node => exact NodeId.endsDark_render (by simpa [Vertex.isValid] using h.1)
    | subgraph group => simpa [Vertex.render] using group.endsDark_render pen

end EndsDark

/-! ## Parts with a body -/

/-- The lines of a layout are separated by blanks. -/
def Settings.Separates (settings : Settings) : Prop :=
  settings.lineSeparator ≠ [] ∧ isBlankRun settings.lineSeparator = true

/-- The piece adds the given tokens, with and without the blanks at its end. -/
def WritesTrimmed (t : Text) (w : List Token) : Prop := Writes t w ∧ Writes t.dropTrailingSpaces w

lemma EndsDark.writesTrimmed {t : Text} {w : List Token} (ht : EndsDark t) (h : Writes t w) :
    WritesTrimmed t w := by
  refine ⟨h, ?_⟩
  rwa [ht.dropTrailingSpaces]

lemma Pen.writes_braces (pen : Pen) (hsep : pen.settings.Separates) {ts : List Text}
    {ws : List (List Token)} (h : List.Forall₂ WritesTrimmed ts ws) :
    Writes (pen.braces ts) (Token.braces ws) := by
  have hopen := leads_punct .openBrace
  have hclose := (leads_punct .closeBrace).writes
  unfold Pen.braces
  split
  · rename_i hempty
    rw [List.isEmpty_iff] at hempty
    subst hempty
    cases h
    exact hopen.append_writes hclose
  · split
    -- on one line the blanks behind a statement are dropped
    · have hpieces : List.Forall₂ Writes (ts.map Text.dropTrailingSpaces) ws := by
        rw [List.forall₂_map_left_iff]
        exact h.imp fun _ _ hw => hw.2
      have hjoin := writes_join_blanks (List.cons_ne_nil ' ' []) rfl hpieces
      exact (hopen.append_writes hjoin).append rfl hclose
    -- on lines of their own the statements are indented
    · have hpad := leads_blanks (isBlankRun_spaces pen.inside.indent)
      have hpieces : List.Forall₂ Writes (ts.map (Text.spaces pen.inside.indent ++ ·)) ws := by
        rw [List.forall₂_map_left_iff]
        exact h.imp fun _ _ hw => hpad.append_writes hw.1
      have hlines := writes_join_blanks hsep.1 hsep.2 hpieces
      have hline := leads_blanks hsep.2
      have hindent := leads_blanks (isBlankRun_spaces pen.indent)
      have hfirst := (hopen.append hline).append_writes hlines
      have hlast := hline.append_writes (hindent.append_writes hclose)
      have hbreaks : breaks (pen.settings.lineSeparator ++ (Text.spaces pen.indent ++ ['}'])) =
          true :=
        breaks_append (breaks_of_isBlankRun hsep.2)
          (breaks_append (breaks_of_isBlankRun (isBlankRun_spaces _)) rfl)
      have hall := hfirst.append hbreaks hlast
      simpa [Token.braces, Punct.text] using hall

/-- A semicolon is written after a statement where one is wanted or needed. -/
lemma Pen.writes_terminate {pen : Pen} {s : Statement} {t : Text} {w : List Token}
    (h : WritesTrimmed t w) : WritesTrimmed (pen.terminate s t) (pen.signs.terminate s w) := by
  unfold Pen.terminate Signs.terminate Pen.signs
  split
  · exact (endsDark_concat t (by decide)).writesTrimmed
      (h.1.append rfl (leads_punct .semicolon).writes)
  · exact h

/-- A chain with its attributes; only without attributes it ends in a blank. -/
lemma Pen.writes_chain (pen : Pen) {ts : List Text} {ws : List (List Token)}
    {attrs : List Attribute} (h : List.Forall₂ Writes ts ws) (hne : ts ≠ [])
    (hdark : ∀ t ∈ ts, EndsDark t) (hattrs : ∀ attr ∈ attrs, attr.isValid = true) :
    WritesTrimmed (pen.chain ts attrs)
      (Token.join pen.signs.arrow ws ++ pen.signs.attributes attrs) := by
  have hjoin := writes_join pen.breaks_arrow pen.leads_arrow h
  have hblank : Leads [' '] [] := leads_blanks rfl
  have hattributes := hblank.append_writes (@writes_attributes pen attrs hattrs)
  have hwhole := hjoin.append rfl hattributes
  unfold Pen.chain
  cases attrs with
  | nil =>
    refine ⟨hwhole, ?_⟩
    -- the trimmed text lacks the blank at the end and nothing else
    rw [show pen.attributes [] = [] from rfl, (endsDark_join hne hdark).dropTrailingSpaces_concat,
      show pen.signs.attributes [] = [] from rfl, List.append_nil]
    exact hjoin
  | cons attr attrs =>
    exact (((pen.endsDark_brackets _).cons ' ').append_left _).writesTrimmed hwhole

/-- A word with a blank behind it. -/
lemma leads_word {t : Text} (h : isPlain t = true) : Leads (t ++ [' ']) [.word t] := by
  intro r toks hr
  have hblank : Leads [' '] [] := leads_blanks rfl
  rw [List.append_assoc]
  exact writes_word h _ _ rfl (hblank r toks hr)

/-- A name that may be left out, with a blank behind it. -/
lemma leads_name {name : Option Id} (h : name.all Id.isValid = true) :
    Leads ((name.map fun id => id.render ++ [' ']).getD []) (name.map Token.id).toList := by
  cases name with
  | none => exact leads_nil
  | some name =>
    intro r toks hr
    have hblank : Leads [' '] [] := leads_blanks rfl
    rw [Option.map_some, Option.getD_some, List.append_assoc]
    exact writes_id (by simpa using h) _ _ rfl (hblank r toks hr)

lemma Subgraph.leads_header {name : Option Id} (h : name.all Id.isValid = true) :
    Leads (Subgraph.header name) (.word Keyword.subgraph.word :: (name.map Token.id).toList) := by
  have hword : "subgraph ".toList = Keyword.subgraph.word ++ [' '] := by decide
  have hfirst : Leads "subgraph ".toList [.word Keyword.subgraph.word] := by
    rw [hword]
    exact leads_word (isPlain_keyword .subgraph)
  cases name with
  | none => exact hfirst
  | some name =>
    show Leads ("subgraph ".toList ++ name.render ++ [' ']) _
    rw [List.append_assoc]
    exact hfirst.append (leads_name h)

mutual

lemma Subgraph.writes_render {pen : Pen} (hsep : pen.settings.Separates) :
    ∀ {group : Subgraph}, group.isValid = true →
      Writes (group.render pen) (group.tokens pen.signs)
  | .mk name body, h => by
    simp only [Subgraph.isValid, Bool.and_eq_true] at h
    have hinside : pen.inside.settings.Separates := by rwa [Pen.settings_inside]
    have hbody := Statement.writes_renderAll hinside h.2
    rw [Pen.signs_inside] at hbody
    rw [Subgraph.render, Subgraph.tokens]
    exact (Subgraph.leads_header h.1).append_writes (pen.writes_braces hsep hbody)

lemma Statement.writes_bare {pen : Pen} (hsep : pen.settings.Separates) :
    ∀ {s : Statement}, s.isValid = true → WritesTrimmed (s.bare pen) (s.tokens pen.signs)
  | .node node attrs, h => by
    simp only [Statement.isValid, Bool.and_eq_true, List.all_eq_true] at h
    obtain ⟨⟨hnode, hattrs⟩, -⟩ := h
    have hwhole := (NodeId.writes_render hnode).append (pen.breaks_attributes attrs)
      (Pen.writes_attributes hattrs)
    rw [Statement.bare, Statement.tokens]
    refine EndsDark.writesTrimmed ?_ hwhole
    cases attrs with
    | nil => simpa [Pen.attributes] using NodeId.endsDark_render hnode
    | cons attr attrs => exact (pen.endsDark_brackets _).append_left _
  | .edge chain attrs, h => by
    simp only [Statement.isValid, Bool.and_eq_true, decide_eq_true_eq, List.all_eq_true] at h
    obtain ⟨⟨hlength, hchain⟩, hattrs⟩ := h
    have hne : ∀ other : Pen, Vertex.renderAll other chain ≠ [] := by
      intro other
      cases chain with
      | nil => simp at hlength
      | cons v chain => simp [Vertex.renderAll]
    -- whichever form fits, its tokens are the same
    have hlong := pen.writes_chain (Vertex.writes_renderAll hsep hchain) (hne pen)
      (Vertex.endsDark_renderAll pen hchain) hattrs
    have honeLine : pen.oneLine.settings.Separates := hsep
    have hshort := pen.writes_chain (Vertex.writes_renderAll honeLine hchain) (hne pen.oneLine)
      (Vertex.endsDark_renderAll pen.oneLine hchain) hattrs
    rw [Statement.bare, Statement.tokens]
    simp only [Pen.fit]
    split
    · exact hlong
    · split
      · exact hshort
      · exact hlong
  | .subgraph group, h => by
    rw [Statement.isValid] at h
    rw [Statement.bare, Statement.tokens]
    exact (group.endsDark_render pen).writesTrimmed (Subgraph.writes_render hsep h)
  | .assign attr, h => by
    rw [Statement.isValid] at h
    rw [Statement.bare, Statement.tokens]
    have hvalue : attr.value.isValid = true := by
      simp only [Attribute.isValid, Bool.and_eq_true] at h
      exact h.2
    have hdark := ((Id.endsDark_render hvalue).cons '=').append_left attr.key.render
    exact EndsDark.writesTrimmed hdark (Attribute.writes_render h)
  | .defaults target attrs, h => by
    simp only [Statement.isValid, List.all_eq_true] at h
    rw [Statement.bare, Statement.tokens]
    refine EndsDark.writesTrimmed ((pen.endsDark_brackets attrs).append_left _) ?_
    exact (writes_word (isPlain_keyword target.keyword)).append rfl (Pen.writes_brackets h)

lemma Statement.writes_renderAll {pen : Pen} (hsep : pen.settings.Separates) :
    ∀ {body : List Statement}, Statement.areValid body = true →
      List.Forall₂ WritesTrimmed (Statement.renderAll pen body)
        (Statement.tokensAll pen.signs body)
  | [], _ => by
    rw [Statement.renderAll, Statement.tokensAll]
    exact .nil
  | s :: rest, h => by
    simp only [Statement.areValid, Bool.and_eq_true] at h
    rw [Statement.renderAll, Statement.tokensAll]
    exact .cons (Pen.writes_terminate (Statement.writes_bare hsep h.1))
      (Statement.writes_renderAll hsep h.2)

lemma Vertex.writes_render {pen : Pen} (hsep : pen.settings.Separates) :
    ∀ {v : Vertex}, v.isValid = true → Writes (v.render pen) (v.tokens pen.signs)
  | .node node, h => by
    rw [Vertex.isValid] at h
    rw [Vertex.render, Vertex.tokens]
    exact NodeId.writes_render h
  | .subgraph group, h => by
    rw [Vertex.isValid] at h
    rw [Vertex.render, Vertex.tokens]
    exact Subgraph.writes_render hsep h

lemma Vertex.writes_renderAll {pen : Pen} (hsep : pen.settings.Separates) :
    ∀ {chain : List Vertex}, Vertex.areValid chain = true →
      List.Forall₂ Writes (Vertex.renderAll pen chain) (Vertex.tokensAll pen.signs chain)
  | [], _ => by
    rw [Vertex.renderAll, Vertex.tokensAll]
    exact .nil
  | v :: rest, h => by
    simp only [Vertex.areValid, Bool.and_eq_true] at h
    rw [Vertex.renderAll, Vertex.tokensAll]
    exact .cons (Vertex.writes_render hsep h.1) (Vertex.writes_renderAll hsep h.2)

end

/-! ## Whole documents -/

lemma Graph.leads_header {graph : Graph} (h : graph.id.all Id.isValid = true) :
    Leads graph.header
      ((if graph.strict then [.word Keyword.strict.word] else []) ++ .word graph.kind.word ::
        (graph.id.map Token.id).toList) := by
  have hstrict : Leads (if graph.strict then "strict ".toList else [])
      (if graph.strict then [.word Keyword.strict.word] else []) := by
    have hword : "strict ".toList = Keyword.strict.word ++ [' '] := by decide
    split
    · rw [hword]
      exact leads_word (isPlain_keyword .strict)
    · exact leads_nil
  have hkind : Leads (Graph.kindWord graph.directed ++ [' ']) [.word graph.kind.word] := by
    have hword : Graph.kindWord graph.directed = graph.kind.word := by
      unfold Graph.kindWord Graph.kind
      split <;> rfl
    rw [hword]
    exact leads_word (isPlain_keyword _)
  have hall := hstrict.append (hkind.append (leads_name h))
  rw [List.singleton_append] at hall
  simpa only [Graph.header, List.append_assoc] using hall

/-- A written document consists of blanks and the tokens of its graph. -/
theorem Graph.spaced_print {settings : Settings} (hsep : settings.Separates) {graph : Graph}
    (h : graph.isValid = true) :
    Spaced (graph.print settings) (graph.tokens settings.useSemicolons) := by
  simp only [Graph.isValid, Bool.and_eq_true] at h
  let pen := Pen.start settings graph.directed
  have hinside : pen.inside.settings.Separates := by rwa [Pen.settings_inside]
  have hbody := Statement.writes_renderAll hinside h.2
  rw [Pen.signs_inside] at hbody
  have hall := (Graph.leads_header h.1).append_writes (pen.writes_braces hsep hbody)
  have hspaced := hall [] [] rfl .nil
  rw [List.append_nil, List.append_nil, List.append_assoc] at hspaced
  rw [Graph.tokens, List.append_assoc]
  exact hspaced

/-- A written document splits into the tokens of its graph. -/
theorem Graph.splits_print {settings : Settings} (hsep : settings.Separates) {graph : Graph}
    (h : graph.isValid = true) :
    Splits (graph.print settings) (graph.tokens settings.useSemicolons) :=
  (graph.spaced_print hsep h).splits

end DotNotation
