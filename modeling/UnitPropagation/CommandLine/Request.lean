import UnitPropagation.CommandLine.Options

namespace UnitPropagation.CommandLine

/-! Reading the arguments of the command line.

Arguments are read from left to right, and each is checked when it is met.  A command word
hands the arguments after it to that command, which has options of its own; what stood
before it must be right but does not matter to the command. -/

/-- A place in the arguments, which decides what may stand there. -/
inductive Scope where
  /-- Before any command word. -/
  | outer
  | file
  | text
  | completions
deriving DecidableEq, Repr

namespace Scope

def settings : Scope → List Setting
  | .outer => Setting.shared ++ [.version, .help]
  | .file => Setting.shared ++ [.path, .help]
  | .text => Setting.shared ++ [.input, .help]
  | .completions => [.help]

def long? (scope : Scope) (name : String) : Option Setting :=
  scope.settings.find? (·.long = name)

def short? (scope : Scope) (letter : Char) : Option Setting :=
  scope.settings.find? (·.short? = some letter)

/-- The scope that a command word opens. -/
def command? : Scope → String → Option Scope
  | .outer, "file" => some .file
  | .outer, "text" => some .text
  | .outer, "completions" => some .completions
  | _, _ => none

def shells : List String := ["bash", "elvish", "fish", "powershell", "zsh"]

/-- Whether a word that belongs to no option may stand in a scope. -/
def admits : Scope → String → Bool
  | .outer, word => !word.isEmpty
  | .file, _ => false
  | .text, _ => false
  | .completions, word => shells.contains word

end Scope

/-- Why the arguments are not read to their end. -/
inductive Stop where
  | misuse
  | version
  | help
deriving DecidableEq, Repr

/-- How reading the arguments of a scope ends. -/
inductive Ending where
  | complete (draft : Draft)
  /-- A command word was met. -/
  | command (scope : Scope) (rest : List String)
  /-- The word that asks for help was met in the place of a command word. -/
  | helpOn (words : List String)
deriving DecidableEq, Repr

def enter (draft : Draft) (setting : Setting) (value : String) : Except Stop Draft :=
  match draft.enter? setting value with
  | some draft => .ok draft
  | none => .error .misuse

/-- Takes an option that has no value. -/
def enterFlag (draft : Draft) : Setting → Except Stop Draft
  | .version => .error .version
  | .help => .error .help
  | setting => enter draft setting ""

/-- Takes a word that belongs to no option; there may be one only. -/
def enterWord (scope : Scope) (draft : Draft) (word : String) : Except Stop Draft :=
  if draft.word.isNone && scope.admits word then .ok { draft with word := some word }
  else .error .misuse

/-- Reads the letters of short options written together.  The rest of the letters, less an
equals sign before them, is the value of an option that takes one; if there is no rest, the
option is given back to wait for its value. -/
def readShort (scope : Scope) : List Char → Draft → Except Stop (Draft × Option Setting)
  | [], draft => .ok (draft, none)
  | letter :: rest, draft =>
      match scope.short? letter with
      | none => .error .misuse
      | some setting =>
          if setting.takesValue then
            match rest with
            | [] => .ok (draft, some setting)
            | '=' :: value => (enter draft setting (String.ofList value)).map (·, none)
            | value => (enter draft setting (String.ofList value)).map (·, none)
          else
            match enterFlag draft setting with
            | .ok draft => readShort scope rest draft
            | .error stop => .error stop

/-- Reads a long option, which may have its value after an equals sign.  An option whose
value is not there is given back to wait for it. -/
def readLong (scope : Scope) (text : List Char) (draft : Draft) :
    Except Stop (Draft × Option Setting) :=
  let name := text.takeWhile (· ≠ '=')
  let value? := (text.dropWhile (· ≠ '=')).tail?
  match scope.long? (String.ofList name) with
  | none => .error .misuse
  | some setting =>
      match setting.takesValue, value? with
      | true, some value => (enter draft setting (String.ofList value)).map (·, none)
      | true, none => .ok (draft, some setting)
      | false, some _ => .error .misuse
      | false, none => (enterFlag draft setting).map (·, none)

/-- Whether an argument is written like an option. -/
def looksLikeOption (argument : String) : Bool :=
  match argument.toList with
  | '-' :: _ :: _ => true
  | _ => false

/-- Reads the arguments of a scope.  `waiting` is an option whose value comes next; a value
written like an option is refused, but an assumption may have a minus sign. -/
def readArguments (scope : Scope) :
    List String → Option Setting → Draft → Except Stop Ending
  | [], none, draft => .ok (.complete draft)
  | [], some _, _ => .error .misuse
  | argument :: rest, some setting, draft =>
      if looksLikeOption argument && setting ≠ .assume then .error .misuse
      else
        match enter draft setting argument with
        | .ok draft => readArguments scope rest none draft
        | .error stop => .error stop
  | argument :: rest, none, draft =>
      match argument.toList with
      | ['-', '-'] => (rest.foldlM (enterWord scope) draft).map .complete
      | '-' :: '-' :: text =>
          match readLong scope text draft with
          | .ok (draft, waiting) => readArguments scope rest waiting draft
          | .error stop => .error stop
      | '-' :: letter :: letters =>
          match readShort scope (letter :: letters) draft with
          | .ok (draft, waiting) => readArguments scope rest waiting draft
          | .error stop => .error stop
      | _ =>
          if scope = .outer && argument = "help" then .ok (.helpOn rest)
          else
            match scope.command? argument with
            | some command => .ok (.command command rest)
            | none =>
                match enterWord scope draft argument with
                | .ok draft => readArguments scope rest none draft
                | .error stop => .error stop

inductive Request where
  /-- Nothing, because they are wrong. -/
  | misuse
  | version
  | help
  | completions (shell : String)
  /-- Nothing: neither a path nor a command is there. -/
  | nothing
  /-- A file, or all files of a directory. -/
  | path (path : String) (options : Options)
  | file (path : String) (options : Options)
  /-- A formula given on the command line. -/
  | text (input : String) (options : Options)
deriving DecidableEq, Repr

/-- What a scope's arguments ask for, once they have been read. -/
def Draft.request (draft : Draft) : Scope → Request
  | .outer =>
      match draft.word with
      | some path => .path path draft.options
      | none => .nothing
  | .file =>
      match draft.path with
      | some path => .file path draft.options
      | none => .misuse
  | .text =>
      match draft.input with
      | some input => .text input draft.options
      | none => .misuse
  | .completions =>
      match draft.word with
      | some shell => .completions shell
      | none => .misuse

def Stop.request : Stop → Request
  | .misuse => .misuse
  | .version => .version
  | .help => .help

namespace Request

/-- What the words after `help` ask for: help on everything or on one command.  They are
command words and nothing else, even if they are written like options. -/
def ofHelp : List String → Request
  | [] => .help
  | [word] => if word = "help" || (Scope.outer.command? word).isSome then .help else .misuse
  | _ => .misuse

def ofCommand (scope : Scope) (arguments : List String) : Request :=
  match readArguments scope arguments none .blank with
  | .ok (.complete draft) => draft.request scope
  | .ok _ => .misuse
  | .error stop => stop.request

def ofArguments (arguments : List String) : Request :=
  match readArguments .outer arguments none .blank with
  | .ok (.complete draft) => draft.request .outer
  | .ok (.command scope rest) => ofCommand scope rest
  | .ok (.helpOn words) => ofHelp words
  | .error stop => stop.request

end Request

end UnitPropagation.CommandLine
