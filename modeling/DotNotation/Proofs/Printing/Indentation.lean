/-
# Indentation follows nesting

A line of a written document is indented by two steps for each body that is open where it
starts.  Bodies open and close inside of statements as well: an edge may spread the subgraphs of
its chain over many lines, close one and open the next on the same line, and keep the bodies
inside it on one line.  Here the law is stated without the tree, by the tokens before a line, and
proved along the tree.  A piece of text lays out its lines if, before any text whose lines are
laid out, it gives such a text again; pieces without a line end do this whatever they are.  The
main results are

* `Statement.lays_bare`: a statement lays out its lines at the depth at which it stands;
* `Graph.print_indentation`: the indentation of every line of a document.
-/
import DotNotation.Proofs.Parsing.Braces
import DotNotation.Proofs.Printing.OneLine
import Mathlib.Tactic.Positivity
import Mathlib.Tactic.Ring

namespace DotNotation

open Lexical

/-! ## Tokens close what they open -/

namespace Token

lemma closed_of_forall {w : List Token} (h : ∀ tok ∈ w, tok.isBrace = false) : Closed w := by
  induction w with
  | nil => exact closed_nil
  | cons tok w ih =>
    obtain ⟨htok, hw⟩ := List.forall_mem_cons.1 h
    exact (closed_singleton htok).append (ih hw)

lemma closed_flatMap {ws : List (List Token)} (h : ∀ w ∈ ws, Closed w) {front : List Token}
    (hfront : Closed front) : Closed (ws.flatMap (front ++ ·)) := by
  induction ws with
  | nil => exact closed_nil
  | cons w ws ih =>
    obtain ⟨hw, hws⟩ := List.forall_mem_cons.1 h
    exact (hfront.append hw).append (ih hws)

lemma closed_join {sep : Token} (hsep : sep.isBrace = false) {ws : List (List Token)}
    (h : ∀ w ∈ ws, Closed w) : Closed (Token.join sep ws) := by
  cases ws with
  | nil => exact closed_nil
  | cons w ws =>
    obtain ⟨hw, hws⟩ := List.forall_mem_cons.1 h
    exact hw.append (closed_flatMap hws (closed_singleton hsep))

lemma closed_braces {ws : List (List Token)} (h : ∀ w ∈ ws, Closed w) :
    Closed (Token.braces ws) := by
  have hflat := closed_flatMap h closed_nil
  simpa [Token.braces, List.flatMap_id'] using hflat.braces

end Token

open Token (Closed)

lemma NodeId.closed_tokens (node : NodeId) : Closed node.tokens := by
  refine Token.closed_of_forall ?_
  obtain ⟨name, _ | ⟨inner, compass⟩⟩ := node
  · simp [NodeId.tokens, Token.isBrace]
  · cases inner <;> cases compass <;> simp [NodeId.tokens, Port.tokens, Token.isBrace, Token.word]

lemma Attribute.closed_tokens (attr : Attribute) : Closed attr.tokens :=
  Token.closed_of_forall (by simp [Attribute.tokens, Token.isBrace])

lemma Subgraph.closed_header (name : Option Id) :
    Closed (.word Keyword.subgraph.word :: (name.map Token.id).toList) :=
  Token.closed_of_forall (by cases name <;> simp [Token.isBrace, Token.word])

namespace Signs

variable {signs : Signs}

lemma closed_brackets (attrs : List Attribute) : Closed (signs.brackets attrs) := by
  have hsep : signs.separator.isBrace = false := by
    unfold separator
    cases signs.semicolons <;> rfl
  have hattrs : ∀ w ∈ attrs.map Attribute.tokens, Closed w := by
    intro w hw
    obtain ⟨attr, -, rfl⟩ := List.mem_map.1 hw
    exact attr.closed_tokens
  have hopen : Closed [.punct .openBracket] := Token.closed_singleton rfl
  have hclose : Closed [.punct .closeBracket] := Token.closed_singleton rfl
  exact (hopen.append (Token.closed_join hsep hattrs)).append hclose

lemma closed_attributes (attrs : List Attribute) : Closed (signs.attributes attrs) := by
  unfold attributes
  split
  · exact Token.closed_nil
  · exact closed_brackets attrs

lemma closed_terminate (s : Statement) {w : List Token} (h : Closed w) :
    Closed (signs.terminate s w) := by
  unfold terminate
  split
  · exact h.append (Token.closed_singleton rfl)
  · exact h

lemma isBrace_arrow : signs.arrow.isBrace = false := by
  unfold arrow
  cases signs.directed <;> rfl

end Signs

mutual

lemma Subgraph.closed_tokens (signs : Signs) : ∀ group : Subgraph, Closed (group.tokens signs)
  | .mk name body => by
    rw [Subgraph.tokens]
    exact (Subgraph.closed_header name).append
      (Token.closed_braces (Statement.closed_tokensAll signs body))

lemma Statement.closed_tokens (signs : Signs) : ∀ s : Statement, Closed (s.tokens signs)
  | .node node attrs => by
    rw [Statement.tokens]
    exact node.closed_tokens.append (Signs.closed_attributes attrs)
  | .edge chain attrs => by
    rw [Statement.tokens]
    exact (Token.closed_join Signs.isBrace_arrow (Vertex.closed_tokensAll signs chain)).append
      (Signs.closed_attributes attrs)
  | .subgraph group => by
    rw [Statement.tokens]
    exact Subgraph.closed_tokens signs group
  | .assign attr => by
    rw [Statement.tokens]
    exact attr.closed_tokens
  | .defaults target attrs => by
    rw [Statement.tokens]
    exact (Token.closed_singleton rfl).append (Signs.closed_brackets attrs)

lemma Statement.closed_tokensAll (signs : Signs) : ∀ body : List Statement,
    ∀ w ∈ Statement.tokensAll signs body, Closed w
  | [] => by simp [Statement.tokensAll]
  | s :: rest => by
    rw [Statement.tokensAll, List.forall_mem_cons]
    exact ⟨Signs.closed_terminate s (Statement.closed_tokens signs s),
      Statement.closed_tokensAll signs rest⟩

lemma Vertex.closed_tokensAll (signs : Signs) : ∀ chain : List Vertex,
    ∀ w ∈ Vertex.tokensAll signs chain, Closed w
  | [] => by simp [Vertex.tokensAll]
  | .node node :: rest => by
    rw [Vertex.tokensAll, Vertex.tokens, List.forall_mem_cons]
    exact ⟨node.closed_tokens, Vertex.closed_tokensAll signs rest⟩
  | .subgraph group :: rest => by
    rw [Vertex.tokensAll, Vertex.tokens, List.forall_mem_cons]
    exact ⟨Subgraph.closed_tokens signs group, Vertex.closed_tokensAll signs rest⟩

end

/-! ## Pieces that lay out their lines -/

/-- The indentation for a number of bodies that are open. -/
def Settings.indentAt (settings : Settings) (depth : ℤ) : ℤ :=
  settings.currentIndent + 2 * settings.indentStep * depth

/-- The line is indented for the bodies that are open before it, where one that it closes at once
does not count. -/
def Settings.Indents (settings : Settings) (depth : ℤ) (line : Text) : Prop :=
  ∃ (width : Nat) (c : Char) (rest : Text), line = List.replicate width ' ' ++ c :: rest ∧
    isSpace c = false ∧ (width : ℤ) = settings.indentAt (depth - if c = '}' then 1 else 0)

/-- Behind a text that opens so many more bodies than it closes, each further line of this text is
indented for what is open before it. -/
def Laid (settings : Settings) (depth : ℤ) (t : Text) : Prop :=
  ∀ before line, t = before ++ '\n' :: line →
    ∃ toks, Spaced before toks ∧ settings.Indents (depth + Token.surplus toks) line

/-- The piece can stand before any text whose lines are laid out and that breaks off words. -/
def Lays (settings : Settings) (depth : ℤ) (u : Text) : Prop :=
  ∀ t, breaks t = true → Laid settings depth t → Laid settings depth (u ++ t)

section Pieces

variable {settings : Settings} {depth : ℤ} {u v t : Text} {w : List Token}

/-- A line end behind a piece on one line is behind the piece. -/
lemma exists_of_append_eq {before line : Text} (hu : Text.OneLine u)
    (h : u ++ t = before ++ '\n' :: line) :
    ∃ inner, before = u ++ inner ∧ t = inner ++ '\n' :: line := by
  rcases List.append_eq_append_iff.1 h with ⟨inner, hbefore, ht⟩ | ⟨inner, hu', hline⟩
  · exact ⟨inner, hbefore, ht⟩
  · cases inner with
    | nil => exact ⟨[], by simpa using hu'.symm, by simpa using hline.symm⟩
    | cons c inner =>
      obtain ⟨rfl, -⟩ := List.cons.inj hline
      exact absurd (by simp [hu']) hu

lemma breaks_of_append (h : breaks (u ++ v) = true) : breaks u = true := by
  cases u with
  | nil => rfl
  | cons c u => exact h

/-- Text on one line changes the depth behind it by the braces in it. -/
lemma Laid.append_left (hu : Text.OneLine u)
    (hspaced : ∀ before line toks, t = before ++ '\n' :: line → Spaced before toks →
      Spaced (u ++ before) (w ++ toks))
    (h : Laid settings (depth + Token.surplus w) t) : Laid settings depth (u ++ t) := by
  intro before line heq
  obtain ⟨inner, rfl, ht⟩ := exists_of_append_eq hu heq
  obtain ⟨toks, htoks, hindents⟩ := h inner line ht
  refine ⟨w ++ toks, hspaced inner line toks ht htoks, ?_⟩
  rwa [Token.surplus_append, ← Int.add_assoc]

lemma Leads.laid (hw : Leads u w) (hu : Text.OneLine u)
    (h : Laid settings (depth + Token.surplus w) t) : Laid settings depth (u ++ t) :=
  Laid.append_left hu (fun before _ toks _ htoks => hw before toks htoks) h

/-- A piece on one line that closes what it opens. -/
lemma Writes.lays (hw : Writes u w) (hclosed : Closed w) (hu : Text.OneLine u) :
    Lays settings depth u := by
  intro t hbreaks h
  refine Laid.append_left hu ?_ (by rwa [hclosed.surplus_eq, Int.add_zero])
  intro before line toks ht htoks
  exact hw before toks (breaks_of_append (ht ▸ hbreaks)) htoks

lemma Lays.append (hu : Lays settings depth u) (hbreaks : breaks v = true)
    (hv : Lays settings depth v) : Lays settings depth (u ++ v) := by
  intro t ht h
  rw [List.append_assoc]
  exact hu _ (breaks_append hbreaks ht) (hv t ht h)

/-- A front on one line that closes what it opens, before any piece. -/
lemma Leads.lays_append (hw : Leads u w) (hclosed : Closed w) (hu : Text.OneLine u)
    (hv : Lays settings depth v) : Lays settings depth (u ++ v) := by
  intro t ht h
  rw [List.append_assoc]
  refine hw.laid hu ?_
  rw [hclosed.surplus_eq, Int.add_zero]
  exact hv t ht h

/-- Pieces with a sign on one line between them. -/
lemma lays_join {sep : Text} {ts : List Text} (hsep : ∀ t, breaks (sep ++ t) = true)
    (hw : Leads sep w) (hclosed : Closed w) (hline : Text.OneLine sep)
    (h : ∀ t ∈ ts, Lays settings depth t) : Lays settings depth (Text.join sep ts) := by
  induction ts with
  | nil => exact fun _ _ ht => ht
  | cons t ts ih =>
    obtain ⟨ht, hts⟩ := List.forall_mem_cons.1 h
    cases ts with
    | nil => exact ht
    | cons u ts =>
      rw [Text.join_cons_cons, List.append_assoc]
      exact ht.append (hsep _) (hw.lays_append hclosed hline (ih hts))

/-- A line that starts as deep as it should. -/
lemma Laid.line {c : Char} {width : ℤ} (hwidth : 0 ≤ width)
    (hindent : width = settings.indentAt (depth - if c = '}' then 1 else 0))
    (hc : isSpace c = false) (h : Laid settings depth (c :: t)) :
    Laid settings depth ('\n' :: (Text.spaces width ++ c :: t)) := by
  have hpad : Laid settings depth (Text.spaces width ++ c :: t) := by
    refine (leads_blanks (isBlankRun_spaces width)).laid ?_ (by simpa using h)
    simp [Text.OneLine, Text.spaces]
  intro before line heq
  cases before with
  | nil =>
    obtain ⟨-, rfl⟩ := List.cons.inj heq
    refine ⟨[], .nil, width.toNat, c, t, rfl, hc, ?_⟩
    rw [Int.toNat_of_nonneg hwidth, hindent, Token.surplus_nil, Int.add_zero]
  | cons b before =>
    obtain ⟨rfl, hrest⟩ := List.cons.inj heq
    obtain ⟨toks, htoks, hindents⟩ := hpad before line hrest
    have hline : Leads ['\n'] [] := leads_blanks rfl
    exact ⟨toks, hline before toks htoks, hindents⟩

end Pieces

/-! ## What a line starts with -/

/-- The text starts with a character that is no white space and closes no body. -/
def StartsDark (t : Text) : Prop := ∃ c rest, t = c :: rest ∧ isSpace c = false ∧ c ≠ '}'

section StartsDark

variable {u : Text}

lemma StartsDark.append (h : StartsDark u) (v : Text) : StartsDark (u ++ v) := by
  obtain ⟨c, rest, rfl, hc⟩ := h
  exact ⟨c, rest ++ v, rfl, hc⟩

lemma startsDark_of_isPlain (h : isPlain u = true) : StartsDark u := by
  cases u with
  | nil => exact absurd h (by decide)
  | cons c rest =>
    refine ⟨c, rest, rfl, (dark_of_isPlain h List.mem_cons_self).1, ?_⟩
    rintro rfl
    rcases isWordChar_or_sign_of_isPlain h List.mem_cons_self with hc | hc | hc <;>
      exact absurd hc (by decide)

lemma Id.startsDark_render {name : Id} (h : name.isValid = true) : StartsDark name.render := by
  obtain ⟨kind, value⟩ := name
  cases kind with
  | plain => exact startsDark_of_isPlain h
  | quoted => exact ⟨'"', value ++ ['"'], rfl, by decide, by decide⟩
  | html => exact ⟨'<', value ++ ['>'], rfl, by decide, by decide⟩

lemma NodeId.startsDark_render {node : NodeId} (h : node.isValid = true) :
    StartsDark node.render := by
  simp only [NodeId.isValid, Bool.and_eq_true] at h
  exact (Id.startsDark_render h.1).append _

lemma Subgraph.startsDark_render (pen : Pen) (group : Subgraph) :
    StartsDark (group.render pen) := by
  obtain ⟨name, body⟩ := group
  rw [Subgraph.render]
  refine StartsDark.append ?_ _
  have hword : StartsDark "subgraph ".toList := ⟨'s', "ubgraph ".toList, rfl, by decide, by decide⟩
  cases name with
  | none => exact hword
  | some name => exact (hword.append name.render).append [' ']

lemma Pen.startsDark_chain (pen other : Pen) {chain : List Vertex} (attrs : List Attribute)
    (hlength : 2 ≤ chain.length) (h : Vertex.areValid chain = true) :
    StartsDark (pen.chain (Vertex.renderAll other chain) attrs) := by
  cases chain with
  | nil => simp at hlength
  | cons v rest =>
    simp only [Vertex.areValid, Bool.and_eq_true] at h
    rw [Pen.chain, Vertex.renderAll, Text.join_cons]
    refine StartsDark.append (StartsDark.append ?_ _) _
    cases v with
    | node node =>
      rw [Vertex.render]
      exact NodeId.startsDark_render (by simpa [Vertex.isValid] using h.1)
    | subgraph group =>
      rw [Vertex.render]
      exact group.startsDark_render other

lemma Statement.startsDark_bare (pen : Pen) {s : Statement} (h : s.isValid = true) :
    StartsDark (s.bare pen) := by
  cases s with
  | node node attrs =>
    simp only [Statement.isValid, Bool.and_eq_true] at h
    rw [Statement.bare]
    exact (NodeId.startsDark_render h.1.1).append _
  | edge chain attrs =>
    simp only [Statement.isValid, Bool.and_eq_true, decide_eq_true_eq] at h
    obtain ⟨⟨hlength, hchain⟩, -⟩ := h
    rw [Statement.bare]
    simp only [Pen.fit]
    split
    · exact pen.startsDark_chain pen attrs hlength hchain
    · split
      · exact pen.startsDark_chain pen.oneLine attrs hlength hchain
      · exact pen.startsDark_chain pen attrs hlength hchain
  | subgraph group =>
    rw [Statement.bare]
    exact group.startsDark_render pen
  | assign attr =>
    simp only [Statement.isValid, Attribute.isValid, Bool.and_eq_true] at h
    rw [Statement.bare]
    exact (Id.startsDark_render h.1).append _
  | defaults target attrs =>
    rw [Statement.bare]
    exact (startsDark_of_isPlain (isPlain_keyword target.keyword)).append _

lemma Pen.startsDark_terminate (pen : Pen) (s : Statement) (h : StartsDark u) :
    StartsDark (pen.terminate s u) := by
  unfold Pen.terminate
  split
  · exact h.append [';']
  · exact h

end StartsDark

/-! ## Bodies -/

/-- The pen writes lines of their own, at the given depth. -/
structure Pen.At (pen : Pen) (depth : Nat) : Prop where
  inline : pen.inline = false
  lines : pen.settings.lineSeparator = ['\n']
  step_nonneg : 0 ≤ pen.settings.indentStep
  start_nonneg : 0 ≤ pen.settings.currentIndent
  indent : pen.indent = pen.settings.indentAt depth

namespace Pen.At

variable {pen : Pen} {depth : Nat}

lemma indent_nonneg (h : pen.At depth) : 0 ≤ pen.indent := by
  have hstep := h.step_nonneg
  have hstart := h.start_nonneg
  rw [h.indent, Settings.indentAt]
  positivity

lemma separates (h : pen.At depth) : pen.settings.Separates := by
  rw [Settings.Separates, h.lines]
  exact ⟨List.cons_ne_nil _ _, rfl⟩

lemma inside (h : pen.At depth) : pen.inside.At (depth + 1) where
  inline := by rw [Pen.inline_inside, h.inline]
  lines := by rw [Pen.settings_inside, h.lines]
  step_nonneg := by rw [Pen.settings_inside]; exact h.step_nonneg
  start_nonneg := by rw [Pen.settings_inside]; exact h.start_nonneg
  indent := by
    rw [Pen.settings_inside, Pen.inside, h.inline]
    simp only [Bool.false_eq_true, if_false, h.indent, Settings.indentAt]
    push_cast
    ring

end Pen.At

lemma Text.line_join (pad : Text) {ts : List Text} (hne : ts ≠ []) :
    '\n' :: Text.join ['\n'] (ts.map (pad ++ ·)) = ts.flatMap fun t => '\n' :: (pad ++ t) := by
  cases ts with
  | nil => exact absurd rfl hne
  | cons t ts =>
    rw [List.map_cons, Text.join_cons, List.flatMap_map, List.flatMap_cons]
    rfl

lemma breaks_lines (pad : Text) (ts : List Text) {r : Text} (h : breaks r = true) :
    breaks ((ts.flatMap fun t => '\n' :: (pad ++ t)) ++ r) = true := by
  cases ts with
  | nil => exact h
  | cons t ts => rfl

/-- Lines that start with a statement each, one below the other. -/
lemma laid_lines {settings : Settings} {depth width : ℤ} (hwidth : 0 ≤ width)
    (hindent : width = settings.indentAt depth) {ts : List Text}
    (h : ∀ t ∈ ts, StartsDark t ∧ Lays settings depth t) {r : Text} (hbreaks : breaks r = true)
    (hr : Laid settings depth r) :
    Laid settings depth ((ts.flatMap fun t => '\n' :: (Text.spaces width ++ t)) ++ r) := by
  induction ts with
  | nil => exact hr
  | cons t ts ih =>
    obtain ⟨⟨⟨c, rest, rfl, hc, hbrace⟩, hlays⟩, hts⟩ := List.forall_mem_cons.1 h
    have hrest : Laid settings depth
        (c :: (rest ++ ((ts.flatMap fun t => '\n' :: (Text.spaces width ++ t)) ++ r))) :=
      hlays _ (breaks_lines (Text.spaces width) ts hbreaks) (ih hts)
    have hline : width = settings.indentAt (depth - if c = '}' then 1 else 0) := by
      rw [if_neg hbrace, Int.sub_zero, hindent]
    have hall := Laid.line hwidth hline hc hrest
    simpa only [List.flatMap_cons, List.cons_append, List.append_assoc] using hall

/-- A body on lines of its own lays them out, if its statements lay out theirs one level further
in. -/
lemma Pen.At.lays_braces {pen : Pen} {depth : Nat} (hpen : pen.At depth) {ts : List Text}
    (h : ∀ t ∈ ts, StartsDark t ∧ Lays pen.settings (depth + 1) t) :
    Lays pen.settings depth (pen.braces ts) := by
  intro r _ hr
  have hclose : Laid pen.settings (depth + 1) ('}' :: r) := by
    refine (leads_punct .closeBrace).laid (by decide) ?_
    simpa using hr
  have hopen : ∀ {t : Text}, Laid pen.settings (depth + 1) t → Laid pen.settings depth ('{' :: t) :=
    fun ht => (leads_punct .openBrace).laid (by decide) (by simpa using ht)
  cases hts : ts with
  | nil => exact hopen hclose
  | cons first rest =>
    -- the closing brace starts its line one level further out
    have hlast : Laid pen.settings (depth + 1)
        ('\n' :: (Text.spaces pen.indent ++ '}' :: r)) :=
      Laid.line hpen.indent_nonneg (by simp [hpen.indent]) (by decide) hclose
    have hinner := hpen.inside.indent
    rw [Pen.settings_inside] at hinner
    have hlines := laid_lines hpen.inside.indent_nonneg (by simpa using hinner) h rfl hlast
    have hne : ts ≠ [] := by simp [hts]
    rw [← Text.line_join _ hne] at hlines
    have hbody := hopen hlines
    simpa [Pen.braces, hpen.inline, hpen.lines, hts] using hbody

/-! ## Statements -/

section Parts

variable {settings : Settings} {depth : ℤ} {attrs : List Attribute}
  (hattrs : Id.Unbroken (attrs.flatMap Attribute.ids))
  (hvalid : ∀ attr ∈ attrs, attr.isValid = true)
include hattrs hvalid

lemma Pen.lays_brackets (pen : Pen) : Lays settings depth (pen.brackets attrs) :=
  (Pen.writes_brackets hvalid).lays (Signs.closed_brackets attrs) (pen.oneLine_brackets hattrs)

lemma Pen.lays_attributes (pen : Pen) : Lays settings depth (pen.attributes attrs) :=
  (Pen.writes_attributes hvalid).lays (Signs.closed_attributes attrs)
    (pen.oneLine_attributes hattrs)

/-- A chain lays out the lines of its vertices. -/
lemma Pen.lays_chain (pen : Pen) {ts : List Text} (h : ∀ t ∈ ts, Lays settings depth t) :
    Lays settings depth (pen.chain ts attrs) := by
  have harrow : Closed [pen.signs.arrow] := Token.closed_singleton Signs.isBrace_arrow
  have hjoin := lays_join pen.breaks_arrow pen.leads_arrow harrow pen.oneLine_arrow h
  have hblank : Leads [' '] [] := leads_blanks rfl
  exact hjoin.append rfl
    (hblank.lays_append Token.closed_nil (by decide) (pen.lays_attributes hattrs hvalid))

end Parts

lemma NodeId.lays_render {settings : Settings} {depth : ℤ} {node : NodeId}
    (hvalid : node.isValid = true) (hids : Id.Unbroken node.ids) :
    Lays settings depth node.render :=
  (NodeId.writes_render hvalid).lays node.closed_tokens (NodeId.oneLine_render hids)

lemma Attribute.lays_render {settings : Settings} {depth : ℤ} {attr : Attribute}
    (hvalid : attr.isValid = true) (hids : Id.Unbroken attr.ids) :
    Lays settings depth attr.render :=
  (Attribute.writes_render hvalid).lays attr.closed_tokens (Attribute.oneLine_render hids)

/-- The semicolon behind a statement. -/
lemma Pen.lays_terminate (pen : Pen) (s : Statement) {settings : Settings} {depth : ℤ} {t : Text}
    (h : Lays settings depth t) : Lays settings depth (pen.terminate s t) := by
  unfold Pen.terminate
  split
  · exact h.append rfl ((leads_punct .semicolon).writes.lays (Token.closed_singleton rfl)
      (by decide))
  · exact h

mutual

lemma Subgraph.lays_render {pen : Pen} {depth : Nat} (hpen : pen.At depth) :
    ∀ {group : Subgraph}, group.isValid = true → Id.Unbroken group.ids →
      Lays pen.settings depth (group.render pen)
  | .mk name body, hvalid, hids => by
    simp only [Subgraph.isValid, Bool.and_eq_true] at hvalid
    rw [Subgraph.ids, Id.unbroken_append] at hids
    have hbody := Statement.lays_renderAll hpen.inside hvalid.2 hids.2
    rw [Pen.settings_inside] at hbody
    rw [Subgraph.render]
    exact (Subgraph.leads_header hvalid.1).lays_append (Subgraph.closed_header name)
      (Subgraph.oneLine_header hids.1) (hpen.lays_braces hbody)

/-- A statement lays out its lines at the depth at which it stands. -/
lemma Statement.lays_bare {pen : Pen} {depth : Nat} (hpen : pen.At depth) :
    ∀ {s : Statement}, s.isValid = true → Id.Unbroken s.ids →
      Lays pen.settings depth (s.bare pen)
  | .node node attrs, hvalid, hids => by
    simp only [Statement.isValid, Bool.and_eq_true, List.all_eq_true] at hvalid
    rw [Statement.ids, Id.unbroken_append] at hids
    rw [Statement.bare]
    exact (NodeId.lays_render hvalid.1.1 hids.1).append (pen.breaks_attributes attrs)
      (pen.lays_attributes hids.2 hvalid.1.2)
  | .edge chain attrs, hvalid, hids => by
    have hsep : pen.oneLine.settings.Separates := hpen.separates
    have hwrites := (Statement.writes_bare hsep hvalid).1
    have hline := Statement.oneLine_bare pen.inline_oneLine hids
    simp only [Statement.isValid, Bool.and_eq_true, decide_eq_true_eq, List.all_eq_true] at hvalid
    rw [Statement.ids, Id.unbroken_append] at hids
    rw [Statement.bare, hpen.inline]
    simp only [Bool.false_eq_true, if_false, Pen.fit]
    split
    -- on one line the bodies inside the chain have no lines
    · exact hwrites.lays (Statement.closed_tokens _ _) hline
    · exact pen.lays_chain hids.2 hvalid.2 (Vertex.lays_renderAll hpen hvalid.1.2 hids.1)
  | .subgraph group, hvalid, hids => by
    rw [Statement.isValid] at hvalid
    rw [Statement.ids] at hids
    rw [Statement.bare]
    exact Subgraph.lays_render hpen hvalid hids
  | .assign attr, hvalid, hids => by
    rw [Statement.isValid] at hvalid
    rw [Statement.ids] at hids
    rw [Statement.bare]
    exact Attribute.lays_render hvalid hids
  | .defaults target attrs, hvalid, hids => by
    simp only [Statement.isValid, List.all_eq_true] at hvalid
    rw [Statement.ids] at hids
    rw [Statement.bare]
    have hplain := isPlain_keyword target.keyword
    have hword : Lays pen.settings depth target.word :=
      (writes_word hplain).lays (Token.closed_singleton rfl) (oneLine_of_isPlain hplain)
    exact hword.append rfl (pen.lays_brackets hids hvalid)

lemma Statement.lays_renderAll {pen : Pen} {depth : Nat} (hpen : pen.At depth) :
    ∀ {body : List Statement}, Statement.areValid body = true →
      Id.Unbroken (Statement.idsAll body) →
      ∀ t ∈ Statement.renderAll pen body, StartsDark t ∧ Lays pen.settings depth t
  | [], _, _ => by simp [Statement.renderAll]
  | s :: rest, hvalid, hids => by
    simp only [Statement.areValid, Bool.and_eq_true] at hvalid
    rw [Statement.idsAll, Id.unbroken_append] at hids
    rw [Statement.renderAll, List.forall_mem_cons]
    have hfirst := pen.lays_terminate s (Statement.lays_bare hpen hvalid.1 hids.1)
    exact ⟨⟨pen.startsDark_terminate s (Statement.startsDark_bare pen hvalid.1), hfirst⟩,
      Statement.lays_renderAll hpen hvalid.2 hids.2⟩

lemma Vertex.lays_renderAll {pen : Pen} {depth : Nat} (hpen : pen.At depth) :
    ∀ {chain : List Vertex}, Vertex.areValid chain = true → Id.Unbroken (Vertex.idsAll chain) →
      ∀ t ∈ Vertex.renderAll pen chain, Lays pen.settings depth t
  | [], _, _ => by simp [Vertex.renderAll]
  | .node node :: rest, hvalid, hids => by
    simp only [Vertex.areValid, Vertex.isValid, Bool.and_eq_true] at hvalid
    rw [Vertex.idsAll, Vertex.ids, Id.unbroken_append] at hids
    rw [Vertex.renderAll, Vertex.render, List.forall_mem_cons]
    exact ⟨NodeId.lays_render hvalid.1 hids.1, Vertex.lays_renderAll hpen hvalid.2 hids.2⟩
  | .subgraph group :: rest, hvalid, hids => by
    simp only [Vertex.areValid, Vertex.isValid, Bool.and_eq_true] at hvalid
    rw [Vertex.idsAll, Vertex.ids, Id.unbroken_append] at hids
    rw [Vertex.renderAll, Vertex.render, List.forall_mem_cons]
    exact ⟨Subgraph.lays_render hpen hvalid.1 hids.1, Vertex.lays_renderAll hpen hvalid.2 hids.2⟩

end

/-! ## Whole documents -/

lemma Pen.at_start {settings : Settings} (directed : Bool) (hinline : settings.alwaysInline = false)
    (hlines : settings.lineSeparator = ['\n']) (hstep : 0 ≤ settings.indentStep)
    (hstart : 0 ≤ settings.currentIndent) : (Pen.start settings directed).At 0 where
  inline := hinline
  lines := hlines
  step_nonneg := hstep
  start_nonneg := hstart
  indent := by simp [Pen.start, Settings.indentAt]

lemma Graph.closed_header (graph : Graph) :
    Closed ((if graph.strict then [.word Keyword.strict.word] else []) ++
      .word graph.kind.word :: (graph.id.map Token.id).toList) := by
  refine Token.closed_of_forall ?_
  cases graph.strict <;> cases graph.id <;> simp [Token.isBrace, Token.word]

/-- The lines of a document are indented for the bodies that are open before them. -/
lemma Graph.laid_print {graph : Graph} {settings : Settings} (hvalid : graph.isValid = true)
    (hids : Id.Unbroken graph.ids) (hlines : settings.lineSeparator = ['\n'])
    (hstep : 0 ≤ settings.indentStep) (hstart : 0 ≤ settings.currentIndent) :
    Laid settings 0 (graph.print settings) := by
  simp only [Graph.isValid, Bool.and_eq_true] at hvalid
  cases hinline : settings.alwaysInline with
  | true =>
    -- there is no second line
    intro before line heq
    exact absurd (by simp [heq]) (Graph.oneLine_print hinline hids)
  | false =>
    rw [Graph.ids, Id.unbroken_append] at hids
    have hpen := Pen.at_start graph.directed hinline hlines hstep hstart
    have hbody := Statement.lays_renderAll hpen.inside hvalid.2 hids.2
    rw [Pen.settings_inside] at hbody
    have hlays := (Graph.leads_header hvalid.1).lays_append graph.closed_header
      (Graph.oneLine_header hids.1) (hpen.lays_braces hbody)
    have hempty : Laid settings 0 [] := by
      intro before line heq
      simp at heq
    have hall := hlays [] rfl hempty
    rwa [List.append_nil] at hall

/-- Every line of a document but the first is indented by two steps for each body that is open
where it starts, not counting one that the line closes at once. -/
theorem Graph.print_indentation {graph : Graph} {settings : Settings}
    (hvalid : graph.isValid = true) (hids : ∀ name ∈ graph.ids, '\n' ∉ name.value)
    (hlines : settings.lineSeparator = ['\n']) (hstep : 0 ≤ settings.indentStep)
    (hstart : 0 ≤ settings.currentIndent) {before line : Text}
    (hprint : graph.print settings = before ++ '\n' :: line) :
    ∃ (toks : List Token) (width : Nat) (c : Char) (rest : Text), Splits before toks ∧
      line = List.replicate width ' ' ++ c :: rest ∧ isSpace c = false ∧
      (width : ℤ) = settings.currentIndent +
        2 * settings.indentStep * (Token.surplus toks - if c = '}' then 1 else 0) := by
  have hlaid := Graph.laid_print hvalid hids hlines hstep hstart
  obtain ⟨toks, htoks, width, c, rest, hline, hc, hwidth⟩ := hlaid before line hprint
  rw [Int.zero_add] at hwidth
  exact ⟨toks, width, c, rest, htoks.splits, hline, hc, hwidth⟩

/-- A line that closes one body of a chain and opens the next, behind two names with braces in
them. -/
theorem Graph.print_indentation_reopened :
    ∃ (toks : List Token) (width : Nat) (c : Char) (rest : Text),
      Splits "digraph \x7b\n     subgraph \x7b\n       \"\x7d\"\n       <\x7b>".toList toks ∧
      "     \x7d -> subgraph \x7b\n       b\n     \x7d \n   \x7d".toList =
        List.replicate width ' ' ++ c :: rest ∧ isSpace c = false ∧
      (width : ℤ) = 3 + 2 * 1 * (Token.surplus toks - if c = '}' then 1 else 0) := by
  refine @Graph.print_indentation
    ⟨false, true, none, [.edge [
      .subgraph (.mk none [.node ⟨⟨.quoted, ['}']⟩, none⟩ [], .node ⟨⟨.html, ['{']⟩, none⟩ []]),
      .subgraph (.mk none [.node ⟨⟨.plain, ['b']⟩, none⟩ []])] []]⟩
    ⟨1, 3, ['\n'], false, false, 0⟩ ?_ ?_ ?_ ?_ ?_ _ _ ?_ <;> decide +kernel

end DotNotation
