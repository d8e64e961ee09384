namespace QtSheet

/-!
# Widgets

What selectors may say about widgets: the states they can be in, and the parts
(sub-controls) that the widgets of each class have. The states do not depend on
the class. The class of a widget is compared as it is written, and a class that
is not in the table may be a custom one with any of the parts.
-/

namespace Widget

/-- The states of widgets. -/
def pseudoStates : List String :=
  ["active", "adjoins-item", "alternate", "bottom", "checked", "closable", "closed",
   "default", "disabled", "editable", "edit-focus", "enabled", "exclusive", "first", "flat",
   "floatable", "focus", "has-children", "has-siblings", "horizontal", "hover",
   "indeterminate", "last", "left", "maximized", "middle", "minimized", "movable",
   "no-frame", "non-exclusive", "off", "on", "only-one", "open", "next-selected", "pressed",
   "previous-selected", "read-only", "right", "selected", "top", "unchecked", "vertical",
   "window"]

/-- The parts that show a direction. -/
def arrows : List String :=
  ["up-arrow", "down-arrow", "left-arrow", "right-arrow"]

/-- The parts of a field with a value that can be stepped. -/
def spinParts : List String :=
  ["up-button", "down-button", "up-arrow", "down-arrow"]

/-- The parts of a button that can be checked. -/
def checkableParts : List String :=
  ["indicator"]

/-- The parts of the widgets of each class. -/
def subControlTable : List (String × List String) :=
  [("QAbstractScrollArea", ["corner"]),
   ("QCheckBox", checkableParts),
   ("QColumnView", ["item"]),
   ("QComboBox", ["drop-down", "down-arrow"]),
   ("QDateEdit", spinParts),
   ("QDateTimeEdit", spinParts),
   ("QDockWidget", ["title", "close-button", "float-button"]),
   ("QDoubleSpinBox", spinParts),
   ("QGroupBox", ["title", "indicator"]),
   ("QHeaderView", ["section", "up-arrow", "down-arrow"]),
   ("QListView", ["item", "indicator"]),
   ("QListWidget", ["item", "indicator"]),
   ("QMenu", ["item", "indicator", "separator", "right-arrow", "scroller", "tearoff",
     "icon"]),
   ("QMenuBar", ["item"]),
   ("QProgressBar", ["chunk"]),
   ("QPushButton", ["menu-indicator"]),
   ("QRadioButton", checkableParts),
   ("QScrollBar", ["add-line", "add-page", "sub-line", "sub-page", "handle", "groove"] ++
     arrows),
   ("QSlider", ["groove", "handle", "add-page", "sub-page"]),
   ("QSpinBox", spinParts),
   ("QSplitter", ["handle"]),
   ("QStatusBar", ["item"]),
   ("QTabBar", ["tab", "tear", "scroller", "close-button"]),
   ("QTabWidget", ["pane", "tab-bar", "left-corner", "right-corner"]),
   ("QTableView", ["item", "indicator"]),
   ("QTableWidget", ["item", "indicator"]),
   ("QTimeEdit", spinParts),
   ("QToolBar", ["handle", "separator"]),
   ("QToolBox", ["tab"]),
   ("QToolButton", ["menu-arrow", "menu-button", "menu-indicator"]),
   ("QTreeView", ["branch", "item", "indicator"]),
   ("QTreeWidget", ["branch", "item", "indicator"])]

/-- The parts of widgets of any class. -/
def allSubControls : List String :=
  (subControlTable.flatMap (fun entry => entry.2) ++
    ["text", "icon", "close-button", "right-corner", "left-corner"]).eraseDups

/-- The states that a selector of a class may name. -/
def pseudoStatesOf (_className? : Option String) : List String :=
  pseudoStates

/--
The parts that a selector of a class may name. No class at all, and any class,
have all parts.
-/
def subControlsOf (className? : Option String) : List String :=
  (className?.bind fun className => subControlTable.lookup className).getD allSubControls

end Widget

end QtSheet
