import Simulboot.Client.Strip

/-!
# The headless renderer

It draws nothing and logs a line about the strip whenever that line changes.
-/

set_option autoImplicit false
set_option linter.unusedSectionVars false

namespace Simulboot

open Library

structure HeadlessRenderer where
  lastLog : Option Str
  deriving DecidableEq

variable {F : Type} [Zero F] [One F] [OfNat F 3] [Add F] [Sub F] [Div F] [Max F]
variable [LT F] [LE F] [DecidableLT F] [DecidableLE F]

def Strip.label (strip : Strip F) (s : Surface F) : Str :=
  s.name ++ if strip.focus = some s.id then "*".toList else []

namespace HeadlessRenderer

def new : HeadlessRenderer :=
  ⟨none⟩

/-- The line about a strip; `showScroll` prints the scroll position without decimals, in six
columns. -/
def line (showScroll : F → Str) (strip : Strip F) : Str :=
  let summary := List.intercalate " | ".toList (strip.visible.map strip.label)
  "[".toList ++ showScroll strip.scrollPos ++ "px] ".toList ++ summary

/-- Present the strip: the text that is logged, if any, and the renderer behind it. -/
def present (showScroll : F → Str) (strip : Strip F) (renderer : HeadlessRenderer) :
    Option Str × HeadlessRenderer :=
  let line := line showScroll strip
  if renderer.lastLog ≠ some line then (some ("strip: ".toList ++ line), ⟨some line⟩)
  else (none, renderer)

end HeadlessRenderer

end Simulboot
