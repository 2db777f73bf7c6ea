import Backtick.Command.Arguments
import Backtick.Template.Engine
import Backtick.Variables.Load

/-!
# Invocations

An invocation is what the command line and the configuration files ask for
together. A flag on the command line wins over the configuration, and the
configuration over the flag's first value.
-/

namespace Backtick

/-- Where a template comes from: the command line, a file, or standard input. -/
structure TemplateSource where
  text : Bytes
  file : Bytes

inductive Command
  | render (source : TemplateSource) (sources : VariableSources) (engine : Engine)
      (newline : Bool)
  | vars (source : TemplateSource) (unique : Bool)
  | tokens (source : TemplateSource) (format : Bytes) (indent : Int)
  | ast (source : TemplateSource) (format : Bytes) (indent : Int)
  | emit (source : TemplateSource) (verify : Bool)
  | fmt (source : TemplateSource) (check : Bool)
  | repl (sources : VariableSources) (engine : Engine)
  | init (force : Bool)

structure LogFlags where
  level : Bytes
  format : Bytes
  layout : Bytes
  caller : Bool
  pretty : Bool

structure Invocation where
  log : LogFlags
  command : Command

structure Configurations where
  yaml : Configuration
  json : Fields Value

namespace Configurations

def resolve (c : Configurations) (flag : Bytes) : Value :=
  match c.yaml.resolve flag with
  | .null => Configuration.resolveJson c.json flag
  | v => v

end Configurations

namespace Invocation

open Arguments (wrong)

/-- The texts of a list, if it has nothing else in it. -/
def textsOf? : List Value -> Option (List Bytes)
  | [] => some []
  | .string s :: rest => (textsOf? rest).map (s :: ·)
  | .null :: rest => (textsOf? rest).map ([] :: ·)
  | _ => none

def settingOfValue (fs : FileSystem) (flag : Flag) (v : Value) : Except Fault Setting :=
  let refuse : Except Fault Setting := .error (wrong ("--" ++ flag.name ++ ": wrong value"))
  match flag.form, v with
  | _, .string s => Arguments.settingOf fs flag none s
  | .switch _, .bool b => .ok (.switch b)
  | .texts, .list items =>
      match textsOf? items with
      | some texts => .ok (.texts texts)
      | none => refuse
  | .number, .integer _ n => .ok (.number n)
  | .number, .double (.finite negative units _) =>
      let size : Int := Precision.roundQuotient units Binary64.oneUnits
      let n := if negative then -size else size
      if Int.bmod n (Nat.pow 2 64) = n then .ok (.number n) else refuse
  | _, _ => refuse

abbrev Settings := List (Bytes × Setting)

def settle (fs : FileSystem) (c : Configurations) (a : Arguments)
    (owner : Option CommandName) : List Flag -> Except Fault Settings
  | [] => .ok []
  | flag :: rest => do
      let own <-
        match a.setting? owner flag.name with
        | some s => .ok s
        | none =>
            match c.resolve flag.name with
            | .null => .ok flag.initial
            | v => settingOfValue fs flag v
      let others <- settle fs c a owner rest
      return (flag.name, own) :: others

def fits (flag : Flag) (s : Setting) : Bool :=
  match flag.form, s with
  | .choice texts, .text t => texts.contains t
  | _, _ => true

def allFit (flags : List Flag) (settings : Settings) : Bool :=
  flags.all fun flag => (settings.lookup flag.name).all (fits flag)

namespace Settings

def switch (s : Settings) (name : Bytes) : Bool :=
  match s.lookup name with
  | some (.switch on) => on
  | _ => false

def text (s : Settings) (name : Bytes) : Bytes :=
  match s.lookup name with
  | some (.text t) => t
  | _ => []

def number (s : Settings) (name : Bytes) : Int :=
  match s.lookup name with
  | some (.number n) => n
  | _ => 0

def texts (s : Settings) (name : Bytes) : List Bytes :=
  match s.lookup name with
  | some (.texts items) => items
  | _ => []

def policy (s : Settings) (name : Bytes) : Policy :=
  match s.lookup name with
  | some (.policy p) => p
  | _ => .error

def sources (s : Settings) : VariableSources :=
  ⟨s.switch "sample", s.texts "vars", s.texts "set", s.policy "missing"⟩

def engine (s : Settings) : Engine :=
  .ofWord (s.text "engine")

def logFlags (s : Settings) : LogFlags :=
  ⟨s.text "log-level", s.text "log-format", s.text "log-time-layout", s.switch "log-caller",
    s.switch "log-pretty"⟩

def command (s : Settings) (template : Bytes) : CommandName -> Command
  | .render => .render ⟨template, s.text "file"⟩ s.sources s.engine (!s.switch "no-newline")
  | .vars => .vars ⟨template, s.text "file"⟩ (s.switch "unique")
  | .tokens => .tokens ⟨template, s.text "file"⟩ (s.text "format") (s.number "indent")
  | .ast => .ast ⟨template, s.text "file"⟩ (s.text "format") (s.number "indent")
  | .emit => .emit ⟨template, s.text "file"⟩ (s.switch "verify")
  | .fmt => .fmt ⟨template, s.text "file"⟩ (s.switch "check")
  | .repl => .repl s.sources s.engine
  | .init => .init (s.switch "force")

end Settings

inductive Reading
  | help
  | wrong (fault : Fault)
  | run (invocation : Invocation)

def settleAll (fs : FileSystem) (c : Configurations) (a : Arguments) :
    Except Fault Invocation := do
  let name := a.command.getD .render
  let shared <- settle fs c a none Flag.shared
  let own <- settle fs c a (some name) name.flags
  let fit := allFit Flag.shared shared && allFit name.flags own &&
    a.given.all fun g => fits g.flag g.setting
  if fit then
    return ⟨Settings.logFlags shared, Settings.command own (a.template.getD []) name⟩
  else
    .error (wrong "a value is not one of its choices")

def read (fs : FileSystem) (c : Configurations) (words : List Bytes) : Reading :=
  match Arguments.read fs false .done .start words with
  | .error f => .wrong f
  | .ok a =>
      match a.setting? none "help" with
      | some (.switch true) => .help
      | _ =>
          match settleAll fs c a with
          | .error f => .wrong f
          | .ok i => .run i

end Invocation

end Backtick
