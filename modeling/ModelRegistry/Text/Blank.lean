import ModelRegistry.Text.CodePoints

/-!
# Blanks around a text

White space is the Unicode property White_Space; `trim` removes it from both ends of a text.
-/

namespace ModelRegistry.Text

def whiteSpace : CodePointSet := [
  ⟨9, 13, 1⟩, ⟨32, 32, 1⟩, ⟨133, 133, 1⟩, ⟨160, 160, 1⟩, ⟨5760, 5760, 1⟩, ⟨8192, 8202, 1⟩,
  ⟨8232, 8233, 1⟩, ⟨8239, 8239, 1⟩, ⟨8287, 8287, 1⟩, ⟨12288, 12288, 1⟩]

def isBlank (c : Char) : Bool :=
  whiteSpace.has c

def trimStart (s : List Char) : List Char :=
  s.dropWhile isBlank

def trim (s : List Char) : List Char :=
  (trimStart (trimStart s).reverse).reverse

end ModelRegistry.Text
