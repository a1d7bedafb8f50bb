import GridSecurity.Config
import GridSecurity.FileTree
import GridSecurity.Toml.Document

/-!
# Reading a configuration

A record is written as a table with the values of its fields by name, or as an
array with the values of the first fields in order.  Fields that are left out
have their usual values, and what belongs to no field is passed over.
-/

namespace GridSecurity

namespace Config

/-- Finds the value of a field by its position and its name. -/
abbrev Fields := Nat → String → Option Toml.Value

/-- The fields of a record.  A moment counts as a record without fields. -/
def fieldsOf? (value : Toml.Value) : Option Fields :=
  match value.entries?, value.items?, value with
  | some entries, _, _ => some fun _ name => Toml.Value.lookup name entries
  | none, some items, _ => some fun position _ => items[position]?
  | none, none, .moment _ => some fun _ _ => none
  | none, none, _ => none

/-- The value of a field, or its usual value when it is left out. -/
def field {α : Type} (fields : Fields) (position : Nat) (name : String) (usual : α)
    (read : Toml.Value → Option α) : Option α :=
  match fields position name with
  | none => some usual
  | some value => read value

def flagOf? : Toml.Value → Option Bool
  | .boolean value => some value
  | _ => none

def textOf? : Toml.Value → Option String
  | .string text => some text
  | _ => none

def countOf? : Toml.Value → Option Nat
  | .integer value => if value < 0 then none else some value.toNat
  | _ => none

def isHollow (value : Toml.Value) : Bool :=
  match value.entries?, value.items? with
  | some entries, _ => entries.isEmpty
  | none, some items => items.isEmpty
  | none, none => false

/-- A name out of several: a text, or the only name in a table, which stands
before something that holds nothing. -/
def choiceOf? {α : Type} (choices : List (String × α)) (value : Toml.Value) : Option α :=
  match value, value.entries? with
  | .string name, _ => choices.lookup name
  | _, some [(name, inner)] => if isHollow inner then choices.lookup name else none
  | _, _ => none

def strategies : List (String × ResolutionStrategy) :=
  [("proxy_aware", .proxyAware), ("basic_constraints_scan", .basicConstraintsScan)]

def modes : List (String × ValidationMode) :=
  [("strict", .strict), ("lenient", .lenient)]

def identityOf? (value : Toml.Value) : Option IdentityResolver := do
  let fields ← fieldsOf? value
  let usual : IdentityResolver := {}
  let strategy ← field fields 0 "proxy_resolution" usual.strategy (choiceOf? strategies)
  let sortsChain ← field fields 1 "sort_chain" usual.sortsChain flagOf?
  return { strategy, sortsChain }

def attributesOf? (value : Toml.Value) : Option AttributeConfig := do
  let fields ← fieldsOf? value
  let usual : AttributeConfig := {}
  let enabled ← field fields 0 "enabled" usual.enabled flagOf?
  let mode ← field fields 1 "mode" usual.mode (choiceOf? modes)
  let allowsUnverified ←
    field fields 2 "allow_unverified_attributes" usual.allowsUnverified flagOf?
  let directory ← field fields 3 "voms_dir" usual.directory textOf?
  let refreshSeconds ←
    field fields 4 "refresh_interval_secs" usual.refreshSeconds countOf?
  return { enabled, mode, allowsUnverified, directory, refreshSeconds }

def ofValue? (value : Toml.Value) : Option Config := do
  let fields ← fieldsOf? value
  let usual : Config := {}
  let identity ← field fields 0 "identity" usual.identity identityOf?
  let attributes ← field fields 1 "attributes" usual.attributes attributesOf?
  return { identity, attributes }

def ofText (text : String) : Except SecurityError Config := do
  match Toml.parse text >>= ofValue? with
  | none => .error (.unreadableConfig "not a configuration")
  | some config =>
      config.validate
      return config

def ofFile (files : FileTree) (path : String) : Except SecurityError Config := do
  ofText (← (files.readText path).mapError .io)

end Config

end GridSecurity
