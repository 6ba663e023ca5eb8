import Workflow.Branch.Path
import Workflow.Config
import Workflow.Text.Split

/-!
# Command line arguments

Arguments are taken apart into uses of switches and settings and into operands, and these make up
an invocation.  A setting takes the rest of its argument as its value or else the next argument; a
double dash makes operands of all that follows it.  The first thing that does not fit makes the
whole line unusable.
-/

namespace Workflow
namespace CommandLine

/-- An option without a value. -/
inductive Switch where
  | verbose
  | noValidate
  | help
  | version
  deriving DecidableEq

/-- An option with a value. -/
inductive Setting where
  | config
  | matching
  deriving DecidableEq

/-- An option. -/
inductive Flag where
  | switch (switch : Switch)
  | setting (setting : Setting)

def longNames : List (String × Flag) :=
  [("verbose", .switch .verbose), ("no-validate", .switch .noValidate), ("help", .switch .help),
    ("version", .switch .version), ("config", .setting .config), ("matching", .setting .matching)]

def letters : List (Char × Flag) :=
  [('v', .switch .verbose), ('h', .switch .help), ('V', .switch .version),
    ('c', .setting .config), ('m', .setting .matching)]

/-- A part of the arguments. -/
inductive Use where
  | switch (switch : Switch)
  | setting (setting : Setting) (value : String)
  | operand (text : String)
  | endOfOptions
  | invalid

/-- Whether an argument may be the value of a setting: it is a lone dash or starts with none. -/
def isValue (argument : String) : Bool :=
  argument = "-" || !"-".toList.isPrefixOf argument.toList

/-- What a group of letters behind one dash uses, and the setting at its end that still needs a
value.  The rest of the group behind a setting is its value, perhaps after an equals sign. -/
def ofLetters : List Char → List Use × Option Setting
  | [] => ([], none)
  | c :: rest =>
      match letters.lookup c with
      | none => ([.invalid], none)
      | some (.switch s) =>
          let (uses, pending) := ofLetters rest
          (.switch s :: uses, pending)
      | some (.setting s) =>
          match rest with
          | [] => ([], some s)
          | '=' :: value => ([.setting s (String.ofList value)], none)
          | value => ([.setting s (String.ofList value)], none)

/-- What an argument behind two dashes uses, and the setting that still needs a value. -/
def ofLongName (text : List Char) : List Use × Option Setting :=
  let (name, value?) :=
    match Text.cutFirst '=' text with
    | some (name, value) => (name, some (String.ofList value))
    | none => (text, none)
  match longNames.lookup (String.ofList name), value? with
  | some (.switch s), none => ([.switch s], none)
  | some (.setting s), some value => ([.setting s value], none)
  | some (.setting s), none => ([], some s)
  | _, _ => ([.invalid], none)

/-- What one argument uses, and the setting that still needs a value. -/
def ofArgument (argument : String) : List Use × Option Setting :=
  match argument.toList with
  | '-' :: '-' :: name => ofLongName name
  | '-' :: c :: cs => ofLetters (c :: cs)
  | _ => ([.operand argument], none)

/-- The parts of the arguments. -/
def uses : List String → List Use
  | [] => []
  | argument :: rest =>
      if argument = "--" then
        .endOfOptions :: rest.map .operand
      else
        match ofArgument argument with
        | (found, none) => found ++ uses rest
        | (found, some setting) =>
            match rest with
            | value :: rest =>
                if isValue value then found ++ .setting setting value :: uses rest
                else found ++ [.invalid]
            | [] => found ++ [.invalid]

/-- What the program can be told to do. -/
inductive Command where
  | validate (flow : String)
  | render (flow node : String) (check : Bool)
  | listVariables (flow node : String)
  | parallel (branches : String) (matching? : Option Branch.PathMatching)
  | name (flow proposed : String)
  deriving DecidableEq

/-- What the program is told: a command, and perhaps a file with a configuration. -/
structure Invocation where
  config? : Option String
  command : Command
  deriving DecidableEq

/-- What the arguments ask for. -/
inductive Request where
  | run (invocation : Invocation)
  | help
  | unusable
  deriving DecidableEq

/-- The names of the commands. -/
inductive CommandName where
  | validate
  | render
  | listVariables
  | parallel
  | name
  deriving DecidableEq

def commandNames : List (String × CommandName) :=
  [("validate", .validate), ("render", .render), ("variables", .listVariables),
    ("parallel", .parallel), ("name", .name)]

/-- What has been said about a command. -/
structure Draft where
  config? : Option String := none
  matching? : Option Branch.PathMatching := none
  noValidate : Bool := false
  operands : List String := []

/-- The command of a draft, if its operands are complete. -/
def Draft.command? (draft : Draft) : CommandName → Option Command
  | .validate =>
      match draft.operands with
      | [flow] => some (.validate flow)
      | _ => none
  | .render =>
      match draft.operands with
      | [flow, node] => some (.render flow node !draft.noValidate)
      | _ => none
  | .listVariables =>
      match draft.operands with
      | [flow, node] => some (.listVariables flow node)
      | _ => none
  | .parallel =>
      match draft.operands with
      | [branches] => some (.parallel branches draft.matching?)
      | _ => none
  | .name =>
      match draft.operands with
      | [flow, proposed] => some (.name flow proposed)
      | _ => none

def CommandName.arity : CommandName → Nat
  | .validate => 1
  | .render => 2
  | .listVariables => 2
  | .parallel => 1
  | .name => 2

/-- Takes the parts behind the name of a command.  No switch but the one for more talk and no
setting may be given twice; a configuration given here takes the place of one given before. -/
def ofCommandUses (outer? : Option String) (asked : CommandName) : Draft → List Use → Request
  | draft, [] =>
      match draft.command? asked with
      | some command => .run { config? := draft.config?.or outer?, command }
      | none => .unusable
  | draft, .switch .verbose :: rest => ofCommandUses outer? asked draft rest
  | _, .switch .help :: _ => .help
  | draft, .switch .noValidate :: rest =>
      if asked = .render ∧ draft.noValidate = false then
        ofCommandUses outer? asked { draft with noValidate := true } rest
      else .unusable
  | draft, .setting .config value :: rest =>
      if draft.config?.isNone then
        ofCommandUses outer? asked { draft with config? := some value } rest
      else .unusable
  | draft, .setting .matching value :: rest =>
      match Branch.PathMatching.names.lookup value with
      | some matching =>
          if asked = .parallel ∧ draft.matching?.isNone then
            ofCommandUses outer? asked { draft with matching? := some matching } rest
          else .unusable
      | none => .unusable
  | draft, .operand text :: rest =>
      if draft.operands.length < asked.arity then
        ofCommandUses outer? asked { draft with operands := draft.operands ++ [text] } rest
      else .unusable
  | draft, .endOfOptions :: rest => ofCommandUses outer? asked draft rest
  | _, .switch .version :: _ => .unusable
  | _, .invalid :: _ => .unusable

/-- Takes the parts that name the commands one wants help on. -/
def ofHelpUses : List Use → Request
  | [] => .help
  | .operand name :: _ =>
      if name = "help" ∨ (commandNames.lookup name).isSome then .help else .unusable
  | _ => .unusable

/-- Takes the parts from the first on, up to the name of a command. -/
def ofUses : (config? : Option String) → List Use → Request
  | _, [] => .unusable
  | config?, .switch .verbose :: rest => ofUses config? rest
  | _, .switch .help :: _ => .help
  | _, .switch .version :: _ => .help
  | config?, .setting .config value :: rest =>
      if config?.isNone then ofUses (some value) rest else .unusable
  | config?, .operand text :: rest =>
      match commandNames.lookup text with
      | some asked => ofCommandUses config? asked {} rest
      | none => if text = "help" then ofHelpUses rest else .unusable
  | _, _ => .unusable

/-- What some arguments ask for. -/
def Request.ofArguments (arguments : List String) : Request :=
  ofUses none (uses arguments)

end CommandLine
end Workflow
