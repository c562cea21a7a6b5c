import ModelRegistry.Text.Alphanumeric
import ModelRegistry.Text.Cased
import ModelRegistry.Text.LowerCase

/-!
# Snake case

The snake case of a name: its words in lower case, joined by underscores. A name is cut into words
at everything that is no letter or digit, between a letter that is not upper case and an upper case
letter after it, and before the last of several upper case letters when a lower case letter follows.
-/

namespace ModelRegistry.Text

/-- The case of the letters read last: none yet, or of no case; lower; upper. -/
inductive CaseMode
  | boundary
  | lower
  | upper
  deriving DecidableEq

def CaseMode.after (mode : CaseMode) (c : Char) : CaseMode :=
  if isLowercase c then .lower else if isUppercase c then .upper else mode

/-- The words of a piece; `word` holds the letters of the current word, last first. -/
def humps (word : List Char) (mode : CaseMode) : List Char → List (List Char)
  | [] => []
  | [c] => [(c :: word).reverse]
  | c :: next :: cs =>
    if mode.after c = .lower ∧ isUppercase next then
      (c :: word).reverse :: humps [] .boundary (next :: cs)
    else if mode = .upper ∧ isUppercase c ∧ isLowercase next then
      word.reverse :: humps [c] .boundary (next :: cs)
    else humps (c :: word) (mode.after c) (next :: cs)

def snakeCase (name : String) : String :=
  let pieces := name.toList.splitOnP fun c => !isAlphanumeric c
  let words := pieces.flatMap (humps [] .boundary)
  String.ofList (['_'].intercalate (words.map lowerWord))

end ModelRegistry.Text
