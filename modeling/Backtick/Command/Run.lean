import Backtick.Command.Invocation
import Backtick.Command.LogScan
import Backtick.Program
import Backtick.Token.Listing
import Backtick.Tree.Canonical
import Backtick.Tree.Outline

/-!
# Running commands

A command reads its template and its variables from where it runs, and answers with
what it prints, what it reports to the log, and the fault that stopped it.
-/

namespace Backtick

structure Outcome where
  stdout : Bytes
  stderr : Bytes
  events : List Log.Event
  fault : Option Fault
  /-- A file to be written. -/
  written : Option (Bytes × Bytes)
  /-- An interactive session to be started. -/
  session : Option (Store × Engine)

namespace Outcome

def silent : Outcome := ⟨[], [], [], none, none, none⟩

def prints (text : Bytes) (events : List Log.Event) : Outcome :=
  { silent with stdout := text, events := events }

def fails (f : Fault) (events : List Log.Event) : Outcome :=
  { silent with fault := some f, events := events }

def after (events : List Log.Event) (o : Outcome) : Outcome :=
  { o with events := events ++ o.events }

end Outcome

namespace TemplateSource

/-- A text without line breaks at its end. -/
def trimBreaks (text : Bytes) : Bytes :=
  (text.reverse.dropWhile fun b => b = '\r'.toUInt8 || b = '\n'.toUInt8).reverse

def read (s : TemplateSource) (fs : FileSystem) (stdin : Bytes) : Except Fault Bytes :=
  if !s.text.isEmpty then
    if s.file.isEmpty then .ok s.text
    else
      .error ((Fault.ofKind .input).because
        "template argument and --file are mutually exclusive")
  else if s.file.isEmpty || s.file = ↑"-" then
    .ok (trimBreaks stdin)
  else
    match fs.read s.file with
    | .ok text => .ok (trimBreaks text)
    | .error f =>
        .error (((Fault.ofKind .input).wrap (some f)).withAttrs [("file", .text s.file)])

end TemplateSource

namespace Command

def named (command : Bytes) (e : Log.Event) : Log.Event :=
  { e with attrs := ("command", .text command) :: e.attrs }

/-- Reads and compiles a template, and goes on with it and its text. -/
def withTemplate (env : Environment) (stdin command : Bytes) (source : TemplateSource)
    (next : Template -> Bytes -> Outcome) : Outcome :=
  match source.read env.files stdin with
  | .error f => .fails f []
  | .ok text =>
      let c := compile false text
      let events := c.events.map (named command)
      match c.outcome with
      | .ok t => (next t text).after events
      | .error f =>
          let fault := ((Fault.ofKind .compile).wrap (some f)).withAttrs
            [("column", .int f.column)]
          { Outcome.fails fault events with stderr := f.snippet text }

def line (text : Bytes) : Bytes := text ++ "\n"

def runRender (env : Environment) (stdin : Bytes) (source : TemplateSource)
    (sources : VariableSources) (engine : Engine) (newline : Bool) : Outcome :=
  withTemplate env stdin "render" source fun t text =>
    let (events, built) := sources.build env
    let events := events.map (named "render")
    match built with
    | .error f => .fails f events
    | .ok s =>
        let traced := engine.render t s
        let events := events ++ (s.reports traced.calls).map (named "render")
        match traced.outcome with
        | .error f =>
            .fails (((Fault.ofKind .render).wrap (some f)).withAttrs
              [("template", .text text), ("engine", .text engine.word)]) events
        | .ok out =>
            let note : Log.Event :=
              ⟨.debug, "rendered",
                [ ("engine", .text engine.word), ("variables", .value (.strings t.uniqueNames)),
                  ("length", .int out.length) ]⟩
            .prints (if newline then line out else out) (events ++ [named "render" note])

def runVars (env : Environment) (stdin : Bytes) (source : TemplateSource) (unique : Bool) :
    Outcome :=
  withTemplate env stdin "vars" source fun t _ =>
    let names := if unique then t.uniqueNames else t.names
    if names.isEmpty then .silent else .prints (line (Bytes.join "\n" names)) []

def runTokens (env : Environment) (stdin : Bytes) (source : TemplateSource) (format : Bytes)
    (indent : Int) : Outcome :=
  match source.read env.files stdin with
  | .error f => .fails f []
  | .ok text =>
      match tokenize text with
      | .error e =>
          { Outcome.fails ((Fault.ofKind .compile).wrap (some e.toFault)) [] with
            stderr := e.toFault.snippet text }
      | .ok found =>
          let note : Log.Event := ⟨.debug, "tokenized", [("count", .int found.length)]⟩
          let out : Bytes :=
            if format = ↑"json" then line ((Token.documents found).json indent)
            else if format = ↑"yaml" then (Token.documents found).yaml indent
            else Token.table found
          .prints out [named "tokens" note]

def withTree (t : Template) (next : SourceFile -> Outcome) : Outcome :=
  match t.file with
  | some file => next file
  | none => .fails (Fault.ofKind .noTemplate) []

def runAst (env : Environment) (stdin : Bytes) (source : TemplateSource) (format : Bytes)
    (indent : Int) : Outcome :=
  withTemplate env stdin "ast" source fun t _ =>
    withTree t fun file =>
      let out : Bytes :=
        if format = ↑"json" then line ((Document.ofValue .json file.outline).json indent)
        else (Document.ofValue .yaml file.outline).yaml indent
      .prints out []

def runEmit (env : Environment) (stdin : Bytes) (source : TemplateSource) (verify : Bool) :
    Outcome :=
  withTemplate env stdin "emit" source fun t _ =>
    if verify && (Script.read? t.source).isNone then
      .fails ((Fault.ofKind .compile).wrap (some (Fault.ofKind .expression))) []
    else
      .prints (line t.source) []

/-- Prints a template in canonical form, or checks that it has that form. -/
def runFmt (env : Environment) (stdin : Bytes) (source : TemplateSource) (check : Bool) :
    Outcome :=
  withTemplate env stdin "fmt" source fun t text =>
    withTree t fun file =>
      let canonical := file.canonical
      if !check then
        .prints (line canonical) []
      else if canonical = text then
        .silent
      else
        .fails ((Fault.ofKind .notCanonical).withAttrs
          [("template", .text text), ("canonical", .text canonical)]) []

/-- Builds the variables of an interactive session. -/
def runRepl (env : Environment) (sources : VariableSources) (engine : Engine) : Outcome :=
  let (events, built) := sources.build env
  let events := events.map (named "repl")
  match built with
  | .error f => .fails f events
  | .ok s => { Outcome.silent with events := events, session := some (s, engine) }

def configurationText (log : LogFlags) : Bytes :=
  let values : List (Bytes × Value) :=
    [ ("log-caller", .bool log.caller), ("log-format", .string log.format),
      ("log-level", .string log.level), ("log-pretty", .bool log.pretty),
      ("log-time-layout", .string log.layout) ]
  let kept := values.filterMap fun (name, v) =>
    (Configuration.written? v).map fun w => (name, Document.ofValue .yaml w)
  (Document.map kept).yaml 2

def runInit (env : Environment) (log : LogFlags) (force : Bool) : Outcome :=
  let path := env.configFile
  if (env.files.entry? path).isSome && !force then
    let fault := ((Fault.ofKind .writeConfig).withAttrs
      [("file", .text path), ("exists", .flag true)]).wrap (some (Fault.ofKind .fileExists))
    .fails fault []
  else
    let note : Log.Event := ⟨.debug, "initialized configuration file", [("path", .text path)]⟩
    { Outcome.prints (line path) [note] with written := some (path, configurationText log) }

def run (env : Environment) (stdin : Bytes) (log : LogFlags) : Command -> Outcome
  | .render source sources engine newline =>
      runRender env stdin source sources engine newline
  | .vars source unique => runVars env stdin source unique
  | .tokens source format indent => runTokens env stdin source format indent
  | .ast source format indent => runAst env stdin source format indent
  | .emit source verify => runEmit env stdin source verify
  | .fmt source check => runFmt env stdin source check
  | .repl sources engine => runRepl env sources engine
  | .init force => runInit env log force

end Command

inductive Ending
  | help
  | misuse (fault : Fault)
  | failed (fault : Fault)
  | done

structure Report where
  ending : Ending
  outcome : Outcome
  /-- What was reported, each time with the logger as it was then set up. -/
  records : List (Log.Logger × Log.Event)

namespace Program

def loggerOf (base : Log.Logger) (f : LogFlags) : Log.Logger :=
  base.wrap
    ⟨some (.parse f.level), some (.parse f.format), some f.layout, some f.pretty⟩

def loggerNote (f : LogFlags) : Log.Event :=
  ⟨.debug, "logger initialized",
    [ ("level", .text f.level), ("format", .text f.format), ("time", .text f.layout),
      ("caller", .flag f.caller), ("pretty", .flag f.pretty) ]⟩

def failureNote (f : Fault) : Log.Event :=
  ⟨.error, "run failed", [("error", .message f.message)]⟩

def content? (fs : FileSystem) (path : Bytes) : Except Fault (Option Bytes) :=
  if (fs.entry? path).isNone then .ok none else (fs.read path).map some

/-- What a YAML configuration says; one that cannot be read is reported and ignored. -/
def yamlSettings (text : Bytes) : Configuration × List Log.Event :=
  if (Text.trim text).isEmpty then
    ([], [])
  else
    match Configuration.read? text with
    | some c => (c, [])
    | none =>
        ([], [⟨.warn, "ignoring invalid configuration",
          [("error", .text "not a mapping of flags")]⟩])

def jsonSettings (text : Bytes) : Except Fault (Fields Value) :=
  match Configuration.readJson? text with
  | some fields => .ok fields
  | none => .error (Fault.saying "invalid configuration")

/-- The configurations, and what is reported on reading them. -/
def configurations (env : Environment) : Except Fault (Configurations × List Log.Event) := do
  let json <- content? env.files (env.configFile ++ ".json")
  let values <- json.elim (.ok []) jsonSettings
  let yaml <- content? env.files env.configFile
  let (settings, events) := yaml.elim ([], []) yamlSettings
  return (⟨settings, values⟩, events)

def runInvocation (env : Environment) (stdin : Bytes) (base : Log.Logger) (i : Invocation) :
    Report :=
  let logger := loggerOf base i.log
  let outcome := i.command.run env stdin i.log
  let stopped : Log.Event := ⟨.trace, "logger stopped", []⟩
  let events := loggerNote i.log :: outcome.events ++ [stopped]
  let (ending, last) : Ending × List Log.Event :=
    match outcome.fault with
    | none => (.done, [])
    | some f => (.failed f, [failureNote f])
  ⟨ending, outcome, (events ++ last).map (logger, ·)⟩

def run (env : Environment) (stdin : Bytes) (logger : Log.Logger) (words : List Bytes) :
    Report :=
  let base := ((LogScan.start logger).words none words).logger
  match configurations env with
  | .error f => ⟨.failed f, .silent, [(base, failureNote f)]⟩
  | .ok (found, warnings) =>
      let early := warnings.map (base, ·)
      match Invocation.read env.files found words with
      | .help => ⟨.help, .silent, early⟩
      | .wrong f => ⟨.misuse f, .silent, early⟩
      | .run i =>
          let r := runInvocation env stdin base i
          { r with records := early ++ r.records }

end Program

end Backtick
