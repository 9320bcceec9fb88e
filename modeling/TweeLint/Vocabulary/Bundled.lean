import TweeLint.NameSet

/-!
# The bundled vocabulary

The names and aliases that the Harlowe reference manual lists. They are used when no other
reference is given.
-/

namespace TweeLint.Vocabulary

/-- The names in the list of the reference manual, sorted. -/
def bundledNames : List String :=
  ["2bind", "a", "abs", "action", "after", "after-error", "alert", "align", "all-pass", "altered",
   "animate", "append", "append-with", "array", "assert", "assert-exists", "b4r", "b4r-color",
   "b4r-colour", "b4r-size", "background", "bg", "bind", "border", "border-color",
   "border-colour", "border-size", "box", "button", "ceil", "change", "char-style", "checkbox",
   "checkbox-fullscreen", "click", "click-append", "click-goto", "click-prepend",
   "click-redirect", "click-replace", "click-rerun", "click-undo", "collapse", "color", "colour",
   "complement", "cond", "confirm", "corner-radius", "cos", "count", "css", "current-date",
   "current-time", "cycling-link", "data-entries", "data-names", "data-values", "dataentries",
   "datamap", "datanames", "datapattern", "dataset", "datatype", "datavalues", "debug", "dialog",
   "digit-format", "display", "dm", "dm-altered", "dm-entries", "dm-names", "dm-values",
   "dropdown", "ds", "either", "else", "else-if", "elseif", "enchant", "enchant-in", "error",
   "event", "exclusivity", "exp", "find", "float-box", "floor", "folded", "font", "for",
   "force-input", "force-input-box", "forget-undos", "forget-visits", "go-to", "goto", "goto-url",
   "gradient", "hidden", "hide", "history", "hook", "hooks-named", "hover-style", "hsl", "hsla",
   "icon-counter", "icon-fullscreen", "icon-redo", "icon-restart", "icon-undo", "if", "ignore",
   "input", "input-box", "interlaced", "joined", "lch", "lcha", "line-style", "link",
   "link-append", "link-fullscreen", "link-goto", "link-repeat", "link-replace", "link-rerun",
   "link-reveal", "link-reveal-goto", "link-show", "link-storylet", "link-style", "link-undo",
   "live", "load-game", "log", "log10", "log2", "loop", "lowercase", "lowerfirst", "macro", "max",
   "metadata", "meter", "min", "mix", "mock-turns", "mock-visits", "monthday", "more", "mouseout",
   "mouseover", "mouseover-replace", "move", "none-pass", "nth", "num", "number", "opacity",
   "open-storylets", "open-url", "opt", "out", "out-data", "output", "output-data", "p",
   "p-before", "p-either", "p-end", "p-ins", "p-many", "p-not", "p-opt", "p-start", "page-url",
   "palette", "partial", "pass", "passage", "passages", "permutations", "plural", "pow",
   "prepend", "prepend-with", "print", "prompt", "put", "random", "range", "redirect", "reload",
   "repeated", "replace", "replace-with", "replaced", "rerun", "restart", "reversed", "rgb",
   "rgba", "rotated", "rotated-to", "round", "save-game", "saved-games", "screenstate", "scroll",
   "seed", "seq-link", "set", "show", "shuffled", "sign", "sin", "some-pass", "sorted", "source",
   "sqrt", "stop", "storylet", "str", "str-find", "str-nth", "str-repeated", "str-replaced",
   "str-reversed", "string", "string-find", "string-nth", "string-repeated", "string-replaced",
   "string-reversed", "stripes", "subarray", "substring", "t8n", "t8n-arrive", "t8n-delay",
   "t8n-depart", "t8n-skip", "t8n-time", "tan", "test-false", "test-true", "text", "text-color",
   "text-colour", "text-indent", "text-rotate", "text-rotate-x", "text-rotate-y", "text-rotate-z",
   "text-size", "text-style", "time", "transition", "transition-arrive", "transition-delay",
   "transition-depart", "transition-skip", "transition-time", "trimmed", "trunc", "typedvar",
   "undo", "unless", "unpack", "uppercase", "upperfirst", "urgency", "v6m", "v6m-print",
   "v6m-source", "verbatim", "verbatim-print", "verbatim-source", "visited", "weekday", "words"]

/-- The vocabulary of the reference manual. -/
def bundled : NameSet :=
  NameSet.ofList bundledNames

end TweeLint.Vocabulary
