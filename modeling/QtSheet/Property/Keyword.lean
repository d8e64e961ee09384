namespace QtSheet

/-!
# Keywords

The words that the values of Qt style sheets are made of. Words are compared in
lower case.
-/

namespace Keyword

/-- Where something is placed in a rectangle. -/
def alignments : List String :=
  ["top", "bottom", "left", "right", "center"]

/-- Whether a background moves with the contents. -/
def attachments : List String :=
  ["scroll", "fixed"]

/-- Truth values. -/
def booleans : List String :=
  ["true", "false", "0", "1"]

/-- How the line of a border is drawn. -/
def borderStyles : List String :=
  ["dashed", "dot-dash", "dot-dot-dash", "dotted", "double", "groove", "inset", "outset",
   "ridge", "solid", "none"]

/-- Words that may stand in front of the size of a font. -/
def fontFlags : List String :=
  ["normal", "italic", "oblique", "bold", "bolder", "lighter", "small-caps"]

/-- The slant of a font. -/
def fontStyles : List String :=
  ["normal", "italic", "oblique"]

/-- The weight of a font. -/
def fontWeights : List String :=
  ["normal", "bold", "bolder", "lighter", "100", "200", "300", "400", "500", "600", "700",
   "800", "900"]

/-- The rectangle of a widget that a position refers to. -/
def origins : List String :=
  ["margin", "border", "padding", "content"]

/-- How an offset is meant. -/
def positions : List String :=
  ["relative", "absolute"]

/-- How an image fills its rectangle. -/
def repeats : List String :=
  ["repeat-x", "repeat-y", "repeat", "no-repeat"]

/-- Lines that go with a text. -/
def textDecorations : List String :=
  ["none", "underline", "overline", "line-through"]

/-- The colors that have a name. -/
def colors : List String :=
  ["aliceblue", "antiquewhite", "aqua", "aquamarine", "azure", "beige", "bisque", "black",
   "blanchedalmond", "blue", "blueviolet", "brown", "burlywood", "cadetblue", "chartreuse",
   "chocolate", "coral", "cornflowerblue", "cornsilk", "crimson", "cyan", "darkblue",
   "darkcyan", "darkgoldenrod", "darkgray", "darkgreen", "darkgrey", "darkkhaki",
   "darkmagenta", "darkolivegreen", "darkorange", "darkorchid", "darkred", "darksalmon",
   "darkseagreen", "darkslateblue", "darkslategray", "darkslategrey", "darkturquoise",
   "darkviolet", "deeppink", "deepskyblue", "dimgray", "dimgrey", "dodgerblue", "firebrick",
   "floralwhite", "forestgreen", "fuchsia", "gainsboro", "ghostwhite", "gold", "goldenrod",
   "gray", "grey", "green", "greenyellow", "honeydew", "hotpink", "indianred", "indigo",
   "ivory", "khaki", "lavender", "lavenderblush", "lawngreen", "lemonchiffon", "lightblue",
   "lightcoral", "lightcyan", "lightgoldenrodyellow", "lightgray", "lightgreen",
   "lightgrey", "lightpink", "lightsalmon", "lightseagreen", "lightskyblue",
   "lightslategray", "lightslategrey", "lightsteelblue", "lightyellow", "lime", "limegreen",
   "linen", "magenta", "maroon", "mediumaquamarine", "mediumblue", "mediumorchid",
   "mediumpurple", "mediumseagreen", "mediumslateblue", "mediumspringgreen",
   "mediumturquoise", "mediumvioletred", "midnightblue", "mintcream", "mistyrose",
   "moccasin", "navajowhite", "navy", "oldlace", "olive", "olivedrab", "orange",
   "orangered", "orchid", "palegoldenrod", "palegreen", "paleturquoise", "palevioletred",
   "papayawhip", "peachpuff", "peru", "pink", "plum", "powderblue", "purple", "red",
   "rosybrown", "royalblue", "saddlebrown", "salmon", "sandybrown", "seagreen", "seashell",
   "sienna", "silver", "skyblue", "slateblue", "slategray", "slategrey", "snow",
   "springgreen", "steelblue", "tan", "teal", "thistle", "tomato", "transparent",
   "turquoise", "violet", "wheat", "white", "whitesmoke", "yellow", "yellowgreen"]

/-- The roles of the colors of a palette. -/
def paletteRoles : List String :=
  ["alternate-base", "base", "bright-text", "button", "button-text", "dark", "highlight",
   "highlighted-text", "light", "link", "link-visited", "mid", "midlight",
   "placeholder-text", "shadow", "text", "tool-tip-base", "tool-tip-text", "window",
   "window-text", "accent"]

end Keyword

end QtSheet
