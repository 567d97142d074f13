/-
# Vocabularies

The attributes of graph documents take their values from fixed vocabularies: shapes, styles,
arrow types, colours and so on; the layout tool has vocabularies for its engines and output
formats.  Each member of a vocabulary has a name and a value.
-/
import DotNotation.Syntax.Statement

namespace DotNotation

/-- The vocabularies. -/
inductive Vocabulary where
  | idKind
  | compassPoint
  | attributeTarget
  | layout
  | format
  | shape
  | style
  | rankDir
  | arrowType
  | dir
  | color
deriving DecidableEq, Repr

/-- The value of a member: a number or a word. -/
inductive MemberValue where
  | number (n : Nat)
  | word (t : Text)
deriving DecidableEq, Repr

/-- A member of a vocabulary. -/
structure Member where
  /-- The vocabulary. -/
  vocabulary : Vocabulary
  /-- The name of the member. -/
  name : Text
  /-- Its value. -/
  value : MemberValue
deriving DecidableEq, Repr

namespace Vocabulary

/-- All vocabularies. -/
def all : List Vocabulary :=
  [idKind, compassPoint, attributeTarget, layout, format, shape, style, rankDir, arrowType, dir,
    color]

/-- The name of a vocabulary. -/
def name : Vocabulary → Text
  | idKind => "IdKind".toList
  | compassPoint => "CompassPoint".toList
  | attributeTarget => "AttributeTarget".toList
  | layout => "Layout".toList
  | format => "Format".toList
  | shape => "Shape".toList
  | style => "Style".toList
  | rankDir => "RankDir".toList
  | arrowType => "ArrowType".toList
  | dir => "Dir".toList
  | color => "Color".toList

/-- The members of a vocabulary of words, each by name and word, in the order in which they
are listed. -/
def wordTable : Vocabulary → List (String × String)
  | idKind => []
  | compassPoint =>
    [("N", "n"), ("NE", "ne"), ("E", "e"), ("SE", "se"), ("S", "s"), ("SW", "sw"), ("W", "w"),
      ("NW", "nw"), ("C", "c"), ("Any", "_")]
  | attributeTarget =>
    [("Graph", "graph"), ("Node", "node"), ("Edge", "edge")]
  | layout =>
    [("Dot", "dot"), ("Neato", "neato"), ("Twopi", "twopi"), ("Circo", "circo"), ("Fdp", "fdp"),
      ("Osage", "osage"), ("Patchwork", "patchwork"), ("Sfdp", "sfdp")]
  | format =>
    [("Bmp", "bmp"), ("Canon", "canon"), ("Dot", "dot"), ("Gv", "gv"), ("Xdot", "xdot"),
      ("Xdot12", "xdot1.2"), ("Xdot14", "xdot1.4"), ("Eps", "eps"), ("Fig", "fig"),
      ("Gif", "gif"), ("Ico", "ico"), ("Cmap", "cmap"), ("Cmapx", "cmapx"),
      ("CmapxNp", "cmapx_np"), ("Imap", "imap"), ("ImapNp", "imap_np"), ("Ismap", "ismap"),
      ("Jpg", "jpg"), ("Jpeg", "jpeg"), ("Json", "json"), ("Json0", "json0"),
      ("DotJson", "dot_json"), ("XdotJson", "xdot_json"), ("Pdf", "pdf"), ("Pic", "pic"),
      ("Plain", "plain"), ("PlainExt", "plain-ext"), ("Png", "png"), ("Ps", "ps"), ("Ps2", "ps2"),
      ("Svg", "svg"), ("Svgz", "svgz"), ("Tif", "tif"), ("Tiff", "tiff"), ("Vml", "vml"),
      ("Webp", "webp")]
  | shape =>
    [("Box", "box"), ("Polygon", "polygon"), ("Ellipse", "ellipse"), ("Oval", "oval"),
      ("Circle", "circle"), ("Point", "point"), ("Egg", "egg"), ("Triangle", "triangle"),
      ("Plaintext", "plaintext"), ("Plain", "plain"), ("Diamond", "diamond"),
      ("Trapezium", "trapezium"), ("Parallelogram", "parallelogram"), ("House", "house"),
      ("Hexagon", "hexagon"), ("Octagon", "octagon"), ("DoubleCircle", "doublecircle"),
      ("Rect", "rect"), ("Square", "square"), ("Star", "star"), ("None_", "none"),
      ("Underline", "underline"), ("Cylinder", "cylinder"), ("Note", "note"), ("Tab", "tab"),
      ("Folder", "folder"), ("Box3d", "box3d"), ("Component", "component"), ("Record", "record"),
      ("Mrecord", "Mrecord")]
  | style =>
    [("Solid", "solid"), ("Dashed", "dashed"), ("Dotted", "dotted"), ("Bold", "bold"),
      ("Rounded", "rounded"), ("Diagonals", "diagonals"), ("Filled", "filled"),
      ("Striped", "striped"), ("Wedged", "wedged"), ("Invis", "invis")]
  | rankDir =>
    [("TB", "TB"), ("LR", "LR"), ("BT", "BT"), ("RL", "RL")]
  | arrowType =>
    [("Normal", "normal"), ("Inv", "inv"), ("Dot", "dot"), ("InvDot", "invdot"),
      ("ODot", "odot"), ("InvODot", "invodot"), ("None_", "none"), ("Tee", "tee"),
      ("Empty", "empty"), ("InvEmpty", "invempty"), ("Diamond", "diamond"),
      ("ODiamond", "odiamond"), ("EDiamond", "ediamond"), ("Crow", "crow"), ("Box", "box"),
      ("OBox", "obox"), ("Open", "open"), ("HalfOpen", "halfopen"), ("Vee", "vee")]
  | dir =>
    [("Forward", "forward"), ("Back", "back"), ("Both", "both"), ("None_", "none")]
  | color =>
    [("Black", "black"), ("White", "white"), ("Red", "red"), ("Green", "green"),
      ("Blue", "blue"), ("Yellow", "yellow"), ("Orange", "orange"), ("Purple", "purple"),
      ("Gray", "gray"), ("LightGray", "lightgray"), ("LightBlue", "lightblue"),
      ("LightYellow", "lightyellow"), ("Transparent", "transparent")]

/-- The members of a vocabulary, in the order in which they are listed. -/
def members (v : Vocabulary) : List Member :=
  match v with
  | idKind =>
    [⟨v, "Plain".toList, .number 1⟩, ⟨v, "Quoted".toList, .number 2⟩,
      ⟨v, "Html".toList, .number 3⟩]
  | _ => v.wordTable.map fun entry => ⟨v, entry.1.toList, .word entry.2.toList⟩

/-- The member with the given name. -/
def memberNamed? (v : Vocabulary) (name : Text) : Option Member := v.members.find? (·.name == name)

/-- The member with the given word for its value. -/
def memberOf? (v : Vocabulary) (word : Text) : Option Member :=
  v.members.find? (·.value == .word word)

/-- The words of a vocabulary. -/
def words (v : Vocabulary) : List Text := v.wordTable.map fun entry => entry.2.toList

/-- The vocabulary with the given name. -/
def ofName? (name : Text) : Option Vocabulary := all.find? (·.name == name)

end Vocabulary

namespace Member

/-- The text of the value of a member. -/
def valueText (m : Member) : Text :=
  match m.value with
  | .number n => Text.ofNat n
  | .word t => t

/-- The way to write an identifier that a member stands for. -/
def idKind? (m : Member) : Option IdKind :=
  match m.vocabulary, m.value with
  | .idKind, .number 1 => some .plain
  | .idKind, .number 2 => some .quoted
  | .idKind, .number 3 => some .html
  | _, _ => none

/-- The compass point that a member stands for. -/
def compass? (m : Member) : Option Compass :=
  if m.vocabulary = .compassPoint then Compass.ofWord? m.valueText else none

/-- The target that a member stands for. -/
def target? (m : Member) : Option Target :=
  if m.vocabulary = .attributeTarget then Target.ofWord? m.valueText else none

end Member

end DotNotation
