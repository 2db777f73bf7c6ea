import Backtick.Variables.Assign
import Backtick.Variables.Search
import Backtick.Yaml.Read

/-!
# Loading variables

Variable files hold a mapping in YAML. A store is built from the sample values,
then the files, then single assignments; what comes later wins.
-/

namespace Backtick

def decodeVariables (text : Bytes) : Except Fault (Fields Value) :=
  if (Text.trim text).isEmpty then
    .ok []
  else
    match Yaml.read? text with
    | some fields => .ok fields
    | none => .error (Fault.saying "not a mapping of variables")

def loadVariables (text : Bytes) : Except Fault (Fields Value) :=
  match decodeVariables text with
  | .ok fields => .ok fields
  | .error f => .error ((Fault.ofKind .load).wrap (some f))

def FileSystem.loadVariables (fs : FileSystem) (path : Bytes) : Except Fault (Fields Value) :=
  match fs.read path with
  | .error f => .error (((Fault.ofKind .load).wrap (some f)).withAttrs [("path", .text path)])
  | .ok text =>
      match decodeVariables text with
      | .ok fields => .ok fields
      | .error f =>
          .error (((Fault.ofKind .load).wrap
            (some (Fault.sayingOf (path ++ ": " ++ f.message) f))).withAttrs
              [("path", .text path)])

/-- A store under way: what it holds so far, what it reported, and the fault that stopped it. -/
structure Loading where
  store : Store
  events : List Log.Event
  fault : Option Fault

namespace Environment

/-- Merges variable files into a store, in order, up to the first fault. -/
def loadInto (env : Environment) (s : Store) : List Bytes -> Loading
  | [] => ⟨s, [], none⟩
  | name :: rest =>
      match env.resolve name with
      | .error f => ⟨s, [], some f⟩
      | .ok path =>
          match env.files.loadVariables path with
          | .error f => ⟨s, [], some f⟩
          | .ok fields =>
              let note : Log.Event :=
                ⟨.debug, "loaded variables",
                  [("path", .text path), ("count", .int fields.length)]⟩
              let more := env.loadInto (s.merge fields) rest
              ⟨more.store, note :: more.events, more.fault⟩

/-- The paths of variable files, up to the first that is not found. -/
def resolveAll (env : Environment) : List Bytes -> Except Fault (List Bytes)
  | [] => .ok []
  | name :: rest =>
      match env.resolve name with
      | .error f => .error f
      | .ok path => (env.resolveAll rest).map (path :: ·)

end Environment

def Store.assignAll (s : Store) : List Bytes -> Except Fault Store
  | [] => .ok s
  | text :: rest =>
      match s.assign text with
      | .error f => .error f
      | .ok s => s.assignAll rest

/-- Where the variables of a run come from. -/
structure VariableSources where
  sample : Bool
  files : List Bytes
  assignments : List Bytes
  missing : Policy

def VariableSources.build (v : VariableSources) (env : Environment) :
    List Log.Event × Except Fault Store :=
  let start := Store.empty v.missing
  let start := if v.sample then start.merge Store.sampleValues else start
  match env.resolveAll v.files with
  | .error f => ([], .error f)
  | .ok paths =>
      let loading := env.loadInto start (env.files.distinct paths)
      match loading.fault with
      | some f => (loading.events, .error f)
      | none =>
          match loading.store.assignAll v.assignments with
          | .error f => (loading.events, .error f)
          | .ok s =>
              let note : Log.Event :=
                ⟨.debug, "variables ready",
                  [("count", .int s.names.length), ("missing", .text s.policy.name)]⟩
              (loading.events ++ [note], .ok s)

end Backtick
