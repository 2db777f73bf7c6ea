import Backtick.Fault.Snippet
import Backtick.Log.Event
import Backtick.Script.Emit
import Backtick.Script.Run
import Backtick.Token.Scan
import Backtick.Tree.Parse
import Backtick.Tree.Visit

/-!
# Compiling a template

A template is split into tokens, the tokens are made into a tree, and the tree
is checked and written as a script. Each stage reports to the log. What is not
enclosed in backticks compiles to a template that renders nothing.
-/

namespace Backtick

def LexicalError.toFault (e : LexicalError) : Fault :=
  ((Fault.ofKind .lexical).because e.cause.message).withColumn e.column

def SyntaxError.toFault (e : SyntaxError) : Fault :=
  ((Fault.ofKind .grammar).because e.cause.message).withColumn e.column

/-- A compiled template: its tree, the names it asks for, and its script. -/
structure Template where
  file : Option SourceFile
  names : List Bytes
  source : Bytes

namespace Template

/-- The template that renders nothing. -/
def blank (file : Option SourceFile) : Template :=
  ⟨file, [], "\"\""⟩

/-- Checks a tree and makes it a template. -/
def ofFile (file : Option SourceFile) : Except Fault Template :=
  match file with
  | none => .ok (blank none)
  | some tree => do
      let source <- tree.emit
      return ⟨file, tree.names, source⟩

/-- The names asked for, each at its first occurrence. -/
def uniqueNames (t : Template) : List Bytes :=
  t.names.foldl (fun seen name => if seen.contains name then seen else seen ++ [name]) []

def render (fn : Bindings) (t : Template) : Traced Bytes :=
  match t.file with
  | none => pure []
  | some file => file.render fn

def renderScript (fn : Bindings) (t : Template) : Traced Bytes :=
  Script.render fn t.source

end Template

/-- The outcome of a compilation with what it reports to the log. -/
structure Compilation where
  events : List Log.Event
  outcome : Except Fault Template

namespace Compile

def report (template : Bytes) (level : Log.Level) (message : Bytes) (attrs : List Log.Attr) :
    Log.Event :=
  ⟨level, message, ("template_len", .int template.length) :: attrs⟩

def failed (template : Bytes) (message : Bytes) (fault : Fault) : Log.Event :=
  report template .debug message [("error", fault.datum)]

/-- The last stage: from a tree to a template. -/
def check (template : Bytes) (file : SourceFile) : Compilation :=
  match Template.ofFile (some file) with
  | .error fault => ⟨[failed template "transpile failed" fault], .error fault⟩
  | .ok t =>
      ⟨[report template .trace "transpile complete"
          [("variables", .names t.names), ("expr", .text t.source)]], .ok t⟩

/-- The second stage: from tokens to a tree. -/
def arrange (cancelled : Bool) (template : Bytes) (tokens : List Token) : Compilation :=
  match parse template tokens with
  | .error e => ⟨[failed template "parse failed" e.toFault], .error e.toFault⟩
  | .ok file =>
      let note := report template .trace "parse complete"
        [ ("segment_count", .int file.segments.length),
          ("node_count", .int file.nodes.length) ]
      if cancelled then
        ⟨[note], .error (Fault.ofKind .cancelled)⟩
      else
        let rest := check template file
        ⟨note :: rest.events, rest.outcome⟩

end Compile

/--
Compiles a template. A cancelled compilation stops before the first stage that
follows the split into tokens.
-/
def compile (cancelled : Bool) (template : Bytes) : Compilation :=
  match tokenize template with
  | .error e => ⟨[Compile.failed template "tokenize failed" e.toFault], .error e.toFault⟩
  | .ok tokens =>
      let note := Compile.report template .trace "tokenize complete"
        [("token_count", .int tokens.length)]
      if tokens.isEmpty then
        ⟨[note], .ok (Template.blank none)⟩
      else if cancelled then
        ⟨[note], .error (Fault.ofKind .cancelled)⟩
      else
        let rest := Compile.arrange cancelled template tokens
        ⟨note :: rest.events, rest.outcome⟩

end Backtick
