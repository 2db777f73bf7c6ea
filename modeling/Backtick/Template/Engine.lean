import Backtick.Template.Compile
import Backtick.Variables.Store

/-!
# Engines

A compiled template can be evaluated from its tree or by its script.
-/

namespace Backtick

/-- How a template is evaluated: from its tree, or by its script. -/
inductive Engine
  | tree
  | script
deriving DecidableEq, Repr

namespace Engine

def word : Engine -> Bytes
  | .tree => "interp"
  | .script => "expr"

def words : List Bytes :=
  [tree.word, script.word]

def ofWord (w : Bytes) : Engine :=
  if w = ↑"expr" then .script else .tree

def render (engine : Engine) (t : Template) (s : Store) : Traced Bytes :=
  match engine with
  | .tree => t.render s.bindings
  | .script => t.renderScript s.bindings

end Engine

end Backtick
