import UnitPropagation.Branching
import UnitPropagation.Propagator
import UnitPropagation.Text.Numeral

namespace UnitPropagation.CommandLine

/-! The options of the command line and the values that they take. -/

/-- How a formula is to be propagated and what is to be shown of it. -/
structure Options where
  debug : Bool
  stats : Bool
  propagator : PropagatorKind
  assumptions : List Int
  output : Option String
  printRebase : Bool
  suggest : Option BranchingKind
  seed : Nat
deriving DecidableEq, Repr

def Options.standard : Options where
  debug := false
  stats := true
  propagator := .standard
  assumptions := []
  output := none
  printRebase := false
  suggest := none
  seed := Branching.standardSeed

/-- An option as it is named on the command line. -/
inductive Setting where
  | debug
  | stats
  | propagator
  | assume
  | output
  | printRebase
  | suggest
  | seed
  | path
  | input
  | version
  | help
deriving DecidableEq, Repr

namespace Setting

def long : Setting → String
  | .debug => "debug"
  | .stats => "stats"
  | .propagator => "propagator"
  | .assume => "assume"
  | .output => "output"
  | .printRebase => "print-rebase"
  | .suggest => "suggest"
  | .seed => "seed"
  | .path => "path"
  | .input => "input"
  | .version => "version"
  | .help => "help"

def short? : Setting → Option Char
  | .debug => some 'd'
  | .assume => some 'a'
  | .output => some 'o'
  | .input => some 'i'
  | .version => some 'V'
  | .help => some 'h'
  | _ => none

def takesValue : Setting → Bool
  | .debug | .printRebase | .version | .help => false
  | _ => true

/-- The options that every way of naming a formula shares. -/
def shared : List Setting :=
  [.debug, .stats, .propagator, .assume, .output, .printRebase, .suggest, .seed]

end Setting

/-- What has been read of the arguments. -/
structure Draft where
  options : Options
  /-- Options that were met, of which most may be met once only. -/
  met : List Setting
  path : Option String
  input : Option String
  /-- The argument that belongs to no option. -/
  word : Option String
deriving DecidableEq, Repr

namespace Draft

def blank : Draft := ⟨.standard, [], none, none, none⟩

def nonempty? (value : String) : Option String := if value.isEmpty then none else some value

def flag? : String → Option Bool
  | "true" => some true
  | "false" => some false
  | _ => none

/-- Gives an option its value; a flag takes none. -/
def assignValue? (draft : Draft) (setting : Setting) (value : String) : Option Draft :=
  let options := draft.options
  match setting with
  | .debug => some { draft with options := { options with debug := true } }
  | .printRebase => some { draft with options := { options with printRebase := true } }
  | .stats => (flag? value).map fun stats => { draft with options := { options with stats } }
  | .propagator =>
      (PropagatorKind.ofName value false).toOption.map fun propagator =>
        { draft with options := { options with propagator } }
  | .assume =>
      (Text.int32? value.toList).map fun number =>
        { draft with options := { options with assumptions := options.assumptions ++ [number] } }
  | .output =>
      (nonempty? value).map fun path =>
        { draft with options := { options with output := some path } }
  | .suggest =>
      (BranchingKind.ofName value false).toOption.map fun kind =>
        { draft with options := { options with suggest := some kind } }
  | .seed =>
      (Text.word64? value.toList).map fun seed => { draft with options := { options with seed } }
  | .path => (nonempty? value).map fun path => { draft with path := some path }
  | .input => some { draft with input := some value }
  | .version | .help => some draft

/-- Enters an option that was met; all but assumptions may be met once only. -/
def enter? (draft : Draft) (setting : Setting) (value : String) : Option Draft :=
  if setting ≠ .assume ∧ setting ∈ draft.met then none
  else { draft with met := setting :: draft.met }.assignValue? setting value

end Draft

end UnitPropagation.CommandLine
