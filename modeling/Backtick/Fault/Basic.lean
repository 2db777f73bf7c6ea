import Backtick.Log.Datum

/-!
# Faults

A fault is a chain of links, the outermost first. A link is raised by a part of
the library, with a kind, a column and attributes for the log, or it only says
something. Kinds are what callers match on; the wording of a whole chain is
`Fault.message`.
-/

namespace Backtick

/-- The part of the library to which a kind of fault belongs. -/
inductive Area
  | template
  | store
  | command
deriving DecidableEq, Repr

inductive FaultKind
  | lexical
  | grammar
  | internal
  | evaluation
  | notSized
  | expression
  | undefined
  | load
  | assignment
  | policy
  | input
  | compile
  | render
  | noTemplate
  | notCanonical
  | marshal
  | writeConfig
  | fileExists
  | outOfBounds
  | editDeclined
  | replNoTemplate
  | cancelled
  | notExist
  | custom (area : Area) (text : Bytes)
deriving DecidableEq, Repr

namespace FaultKind

def text : FaultKind -> Bytes
  | .lexical => "lexical error"
  | .grammar => "syntax error"
  | .internal => "internal error"
  | .evaluation => "evaluation failed"
  | .notSized => "value has no length"
  | .expression => "expression compilation failed"
  | .undefined => "undefined variable"
  | .load => "load variables"
  | .assignment => "invalid assignment"
  | .policy => "invalid missing-variable policy"
  | .input => "read template"
  | .compile => "compile template"
  | .render => "render template"
  | .noTemplate => "input is not a backtick template"
  | .notCanonical => "template is not in canonical form"
  | .marshal => "marshal output"
  | .writeConfig => "write configuration file"
  | .fileExists => "file exists (use --force to overwrite)"
  | .outOfBounds => "index out of range"
  | .editDeclined => "decline edit"
  | .replNoTemplate => "no template given and none evaluated yet"
  | .cancelled => "context canceled"
  | .notExist => "file does not exist"
  | .custom _ text => text

/-- Whether a kind describes itself in the log as a group of attributes. -/
def describesItself : FaultKind -> Bool
  | .outOfBounds | .editDeclined | .replNoTemplate | .cancelled | .notExist => false
  | _ => true

end FaultKind

inductive FaultLink
  | raised (kind : FaultKind) (column : Int) (attrs : List Log.Attr)
  | said (message : Bytes)

/-- A chain of links: the outermost, then what caused it. -/
structure Fault where
  head : FaultLink
  causes : List FaultLink

namespace Fault

/-- A fault of a kind, without a cause, a column or attributes. -/
def ofKind (kind : FaultKind) : Fault :=
  ⟨.raised kind 0 [], []⟩

def saying (message : Bytes) : Fault :=
  ⟨.said message, []⟩

def links (f : Fault) : List FaultLink :=
  f.head :: f.causes

def sayingOf (message : Bytes) (cause : Fault) : Fault :=
  ⟨.said message, cause.links⟩

def wrap (f : Fault) (cause : Option Fault) : Fault :=
  ⟨f.head, cause.elim [] links⟩

def because (f : Fault) (message : Bytes) : Fault :=
  f.wrap (some (saying message))

def withAttrs (f : Fault) (more : List Log.Attr) : Fault :=
  match f.head with
  | .raised kind column attrs => ⟨.raised kind column (attrs ++ more), f.causes⟩
  | .said _ => f

def withColumn (f : Fault) (column : Int) : Fault :=
  match f.head with
  | .raised kind _ attrs => ⟨.raised kind column attrs, f.causes⟩
  | .said _ => f

def messageOf : List FaultLink -> Bytes
  | [] => []
  | .said message :: _ => message
  | .raised kind column _ :: causes =>
      let own : List Bytes := if kind.text.isEmpty then [] else [kind.text]
      let cause : List Bytes := if causes.isEmpty then [] else [messageOf causes]
      let place : Bytes := if 0 < column then " at column " ++ Bytes.ofInt column else []
      Bytes.join ": " (own ++ cause) ++ place

def message (f : Fault) : Bytes :=
  messageOf f.links

/-- The kinds in a fault's chain, the outermost first. -/
def kinds (f : Fault) : List FaultKind :=
  f.links.filterMap fun
    | .raised kind _ _ => some kind
    | .said _ => none

/-- Whether a fault is of a kind or was caused by one that is. -/
def isA (f : Fault) (kind : FaultKind) : Bool :=
  f.kinds.contains kind

/-- The column attached to the outermost link. -/
def ownColumn (f : Fault) : Int :=
  match f.head with
  | .raised _ column _ => column
  | .said _ => 0

/-- The first positive column in a chain of links, or 0. -/
def columnOf : List FaultLink -> Int
  | [] => 0
  | .raised _ column _ :: causes => if 0 < column then column else columnOf causes
  | .said _ :: causes => columnOf causes

def column (f : Fault) : Int :=
  columnOf f.links

def detail (f : Fault) : List Log.Attr :=
  match f.head with
  | .said _ => []
  | .raised kind column attrs =>
      let own : List Log.Attr :=
        if kind.text.isEmpty then [] else [("error", .text kind.text)]
      let cause : List Log.Attr :=
        if f.causes.isEmpty then [] else [("cause", .text (messageOf f.causes))]
      let place : List Log.Attr := if 0 < column then [("column", .int column)] else []
      own ++ cause ++ place ++ attrs.filter fun a => !a.2.isEmptyGroup

def datum (f : Fault) : Log.Datum :=
  match f.head with
  | .said message => .message message
  | .raised kind _ _ =>
      if kind.describesItself then .failure f.message f.detail else .message f.message

end Fault

end Backtick
