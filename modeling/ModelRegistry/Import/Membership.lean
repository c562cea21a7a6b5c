import ModelRegistry.Options
import ModelRegistry.Registry.Basic
import ModelRegistry.Text.Affix
import ModelRegistry.Text.Blank
import ModelRegistry.Text.SnakeCase

/-!
# Imports of siblings

An import is a text of one of three forms, blanks around it apart: the file of a model, under the
prefix where model files live, by the name of the model or its snake case and with or without a
source file extension; the name of a unit and of a model in it, with a dot between them; or the bare
name of a model. `Siblings.owns` tells whether an import denotes a model of a given unit. Everything
else is external, even if it looks like the name of a model.
-/

namespace ModelRegistry

/-- The names under which the models of one unit can be imported. -/
structure Siblings where
  unit : String
  names : List String
  stems : List String
  /-- Where model files live; an empty prefix counts as none. -/
  pathPrefix : Option String

namespace Siblings

def ofUnit (unit : String) (models : List Model) (pathPrefix : Option String) : Siblings where
  unit := unit
  names := models.map (·.name)
  stems := models.map fun m => Text.snakeCase m.name
  pathPrefix := pathPrefix.filter (· ≠ "")

def sourceExtensions : List String :=
  [".dart", ".rs", ".ts", ".py", ".java", ".kt", ".swift"]

def stripExtension (path : List Char) : List Char :=
  (sourceExtensions.findSome? fun ext => Text.dropSuffix? ext.toList path).getD path

/-- What follows the path prefix, for an import that starts with it. -/
def underPrefix? (s : Siblings) (name : List Char) : Option (List Char) := do
  Text.dropPrefix? (← s.pathPrefix).toList name

def ownsFile (s : Siblings) (path : List Char) : Bool :=
  let stem := String.ofList (stripExtension path)
  s.names.contains stem || s.stems.contains stem

/-- No part of a path or a scheme. -/
def isPlain (name : List Char) : Bool :=
  !name.contains '/' && !name.contains ':'

def ownsName (s : Siblings) (name : List Char) : Bool :=
  isPlain name && s.names.contains (String.ofList name)

def owns (s : Siblings) (name : String) : Bool :=
  let name := Text.trim name.toList
  match s.underPrefix? name with
  | some path => s.ownsFile path
  | none =>
    match Text.splitLast? '.' name with
    | some (qualifier, name) => qualifier == s.unit.toList && s.ownsName name
    | none => s.ownsName name

end Siblings

end ModelRegistry
