import QtSheet.Property.Keyword
import QtSheet.Text.Lowercase

namespace QtSheet

/-!
# Properties

The properties of Qt style sheets and the shape of the value of each. Names of
properties are compared in lower case. A name that begins with `qproperty-`
sets a property of the widget itself, of which nothing is known.
-/

/-- The shape of the value of a property. -/
inductive Shape where
  /-- A color: a name, a hexadecimal number or a call. -/
  | color
  /-- A color, a gradient or a role of the palette. -/
  | brush
  /-- One to four brushes. -/
  | colors
  /-- A length. -/
  | length
  /-- One to four lengths. -/
  | box
  /-- Widths, styles and brushes in any order. -/
  | border
  /-- Flags, a size with a possible line height, and families. -/
  | font
  /-- Families with commas between them. -/
  | fontFamily
  /-- A reference to a file. -/
  | url
  /-- A number or a percentage. -/
  | number
  /-- Some of the given words, the given number at most. -/
  | keyword (words : List String) (most : Int)
  /-- Anything. -/
  | any
  deriving Repr, DecidableEq

namespace Shape

/-- One of the given words. -/
def oneOf (words : List String) : Shape :=
  .keyword words 1

/-- A truth value. -/
def flag : Shape :=
  .oneOf Keyword.booleans

end Shape

namespace Property

/-- One property for each side of a rectangle. -/
def sides (front back : String) (shape : Shape) : List (String × Shape) :=
  ["top", "right", "bottom", "left"].map fun side => (front ++ side ++ back, shape)

/-- One property for each corner of a rectangle. -/
def corners (front back : String) (shape : Shape) : List (String × Shape) :=
  ["top-left", "top-right", "bottom-left", "bottom-right"].map fun corner =>
    (front ++ corner ++ back, shape)

/-- One property for each icon of a widget. -/
def icons (front : String) (names : List String) : List (String × Shape) :=
  names.map fun name => (front ++ name ++ "-icon", .url)

/-- The icons of the buttons of a dialog. -/
def dialogIcons : List String :=
  ["apply", "cancel", "close", "discard", "help", "no", "ok", "open", "reset", "save",
   "yes"]

/-- The icons of the buttons of a title bar. -/
def titleBarIcons : List String :=
  ["close", "contexthelp", "maximize", "menu", "minimize", "normal", "shade", "unshade"]

/-- All properties, each with the shape of its value. -/
def table : List (String × Shape) :=
  [[("alternate-background-color", .brush),
    ("background", .any),
    ("background-color", .brush),
    ("background-image", .url),
    ("background-repeat", .oneOf Keyword.repeats),
    ("background-position", .keyword Keyword.alignments 2),
    ("background-attachment", .oneOf Keyword.attachments),
    ("background-clip", .oneOf Keyword.origins),
    ("background-origin", .oneOf Keyword.origins),
    ("border", .border)],
   sides "border-" "" .border,
   [("border-color", .colors)],
   sides "border-" "-color" .brush,
   [("border-image", .any),
    ("border-radius", .box)],
   corners "border-" "-radius" .box,
   [("border-style", .keyword Keyword.borderStyles 4)],
   sides "border-" "-style" (.oneOf Keyword.borderStyles),
   [("border-width", .box)],
   sides "border-" "-width" .length,
   [("bottom", .length),
    ("button-layout", .number),
    ("color", .brush),
    ("dialogbuttonbox-buttons-have-icons", .flag),
    ("font", .font),
    ("font-family", .fontFamily),
    ("font-size", .length),
    ("font-style", .oneOf Keyword.fontStyles),
    ("font-weight", .oneOf Keyword.fontWeights),
    ("gridline-color", .color),
    ("height", .length),
    ("icon", .any),
    ("icon-size", .box),
    ("image", .url),
    ("image-position", .keyword Keyword.alignments 2),
    ("left", .length),
    ("lineedit-password-character", .number),
    ("lineedit-password-mask-delay", .number),
    ("margin", .box)],
   sides "margin-" "" .length,
   [("max-height", .length),
    ("max-width", .length),
    ("messagebox-text-interaction-flags", .number),
    ("min-height", .length),
    ("min-width", .length),
    ("opacity", .number),
    ("outline", .border),
    ("outline-color", .color),
    ("outline-offset", .length),
    ("outline-style", .oneOf Keyword.borderStyles),
    ("outline-radius", .box)],
   corners "outline-" "-radius" .box,
   [("padding", .box)],
   sides "padding-" "" .length,
   [("paint-alternating-row-colors-for-empty-area", .flag),
    ("placeholder-text-color", .brush),
    ("position", .oneOf Keyword.positions),
    ("right", .length),
    ("selection-background-color", .brush),
    ("selection-color", .brush),
    ("show-decoration-selected", .flag),
    ("spacing", .length),
    ("subcontrol-origin", .oneOf Keyword.origins),
    ("subcontrol-position", .keyword Keyword.alignments 2),
    ("text-align", .keyword Keyword.alignments 2),
    ("text-decoration", .oneOf Keyword.textDecorations),
    ("titlebar-show-tooltips-on-buttons", .flag),
    ("top", .length),
    ("widget-animation-duration", .number),
    ("width", .length),
    ("-qt-background-role", .oneOf Keyword.paletteRoles),
    ("-qt-style-features", .any),
    ("activate-on-singleclick", .flag),
    ("combobox-list-mousetracking", .flag),
    ("combobox-popup", .flag),
    ("menu-scrollable", .flag),
    ("menubar-altkey-navigation", .flag),
    ("scrollview-frame-around-contents", .flag),
    ("spinbox-click-autorepeat-rate", .number),
    ("tabbar-elide-mode", .number),
    ("tabbar-prefer-no-arrows", .flag),
    ("toolbutton-popup-delay", .number)],
   icons "dialog-" dialogIcons,
   icons "dockwidget-" ["close", "float"],
   icons "messagebox-" ["critical", "information", "question", "warning"],
   icons "titlebar-" titleBarIcons,
   [("lineedit-clear-button-icon", .url)]].flatten

/-- What the names of the properties of the widget itself begin with. -/
def dynamicMark : String :=
  "qproperty-"

/-- Whether a name in lower case sets a property of the widget itself. -/
def isDynamic (name : String) : Bool :=
  dynamicMark.toList.isPrefixOf name.toList && dynamicMark.length < name.length

/-- The shape of the value of a property, by its name in any case. -/
def shape? (name : String) : Option Shape :=
  let key := Text.lowercase name
  if isDynamic key then
    some .any
  else
    table.lookup key

end Property

end QtSheet
