import Schemata.Pipeline.Plugin

/-!
# The registry of plugins

A registry holds, for each role, factories under names, the instances they made, and aliases. An
instance is made when its name is first asked for and is handed out from then on, until another
factory takes the name. An alias leads to another name, which may be an alias again; a chain of
aliases that comes back to itself leads nowhere.
-/

namespace Schemata

/-- What makes the instances of a plugin. The number tells registrations apart. -/
structure Factory (π : Type) where
  number : Nat
  plugin : π

/-- A plugin that was made. The identity tells instances apart. -/
structure Instance (π : Type) where
  identity : Nat
  /-- The number of the factory that made it, none if it was not made by one. -/
  maker? : Option Nat := none
  plugin : π

/-- A plugin that is asked for by a name, or handed over. -/
inductive Reference (role : Role) where
  | named (name : String)
  | direct (plugin : Instance (Plugin role))

/-- The plugins of one role. -/
structure Shelf (π : Type) where
  factories : Keyed (Factory π) := .empty
  loaded : Keyed (Instance π) := .empty
  aliases : Keyed String := .empty

/-- Factories, instances and aliases of both roles. -/
structure Registry where
  parsers : Shelf Parser := {}
  producers : Shelf Producer := {}
  /-- The number of the next registration. -/
  nextNumber : Nat := 0
  /-- The identity of the next instance. -/
  nextIdentity : Nat := 0
  /-- The numbers of the factories that were run, the latest first. -/
  runs : List Nat := []

/-- Why a name does not lead to a plugin. -/
inductive Unresolved where
  /-- The name is not an identifier. -/
  | malformed
  /-- Its aliases come back to themselves. -/
  | cycle
  /-- There is no factory under the name that it leads to. -/
  | unregistered (name : String)
  deriving DecidableEq, Repr

namespace Unresolved

/-- The message of a reason. -/
def message : Unresolved → String
  | malformed => "malformed plugin identifier"
  | cycle => "alias cycle"
  | unregistered name => "no plugin registered as '" ++ name ++ "'"

/-- The error for an identifier that was asked for. -/
def error (role : Role) (identifier : String) (reason : Unresolved) : PipelineError :=
  .configuration role identifier reason.message

end Unresolved

namespace Role

/-- The full name of an identifier that is well formed. -/
def fullName? (role : Role) (identifier : String) : Option String :=
  if Identifier.isWellFormed identifier then some (role.qualify identifier) else none

end Role

namespace Registry

/-- The plugins of a role. -/
def shelf (registry : Registry) : (role : Role) → Shelf (Plugin role)
  | .parser => registry.parsers
  | .producer => registry.producers

/-- Put other plugins in place of those of a role. -/
def withShelf (registry : Registry) : (role : Role) → Shelf (Plugin role) → Registry
  | .parser, shelf => { registry with parsers := shelf }
  | .producer, shelf => { registry with producers := shelf }

/-- Put a factory under a full name. What was made under the name before is not handed out any
more. -/
def put (registry : Registry) (role : Role) (name : String) (plugin : Plugin role) : Registry :=
  let shelf := registry.shelf role
  { registry.withShelf role
      { shelf with
        factories := shelf.factories.set name { number := registry.nextNumber, plugin }
        loaded := shelf.loaded.erase name } with
    nextNumber := registry.nextNumber + 1 }

/-- No plugins. -/
def empty : Registry := {}

/-- The plugins that pass on what they are given. -/
def builtin : Registry :=
  (empty.put .parser (Role.parser.qualify "identity") identityParser).put
    .producer (Role.producer.qualify "identity") identityProducer

/-- Register a factory under a short or a full name. -/
def register (registry : Registry) (role : Role) (name : String) (plugin : Plugin role) :
    Progress PipelineError Registry :=
  match role.fullName? name with
  | none => .fail registry (Unresolved.malformed.error role name)
  | some full =>
    .step (registry.put role full plugin)
      { level := .debug, message := "registering " ++ role.name, fields := [("binding", full)] }

/-- Make a name lead to another. -/
def registerAlias (registry : Registry) (role : Role) (name target : String) :
    Progress PipelineError Registry :=
  match role.fullName? name, role.fullName? target with
  | none, _ => .fail registry (Unresolved.malformed.error role name)
  | some _, none => .fail registry (Unresolved.malformed.error role target)
  | some full, some fullTarget =>
    let shelf := registry.shelf role
    .step (registry.withShelf role { shelf with aliases := shelf.aliases.set full fullTarget })
      { level := .debug
        message := "registering alias"
        fields := [("role", role.name), ("alias", full), ("target", fullTarget)] }

/-- The entry for an alias that is followed. -/
def following (role : Role) (name target : String) : Event :=
  { level := .trace
    message := "following alias"
    fields := [("role", role.name), ("alias", name), ("target", target)] }

/-- Follow aliases from a full name to one that is no alias; `none` when they come back to a name in
`seen`. The journal names each alias that was followed. -/
def follow (role : Role) (aliases : Keyed String) : Nat → List String → String → Journal × Option String
  | 0, _, _ => ([], none)
  | fuel + 1, seen, name =>
    match aliases.get? name with
    | none => ([], some name)
    | some target =>
      if seen.contains name then ([], none)
      else
        let (journal, reached) := follow role aliases fuel (name :: seen) target
        (following role name target :: journal, reached)

/-- The name that an identifier leads to. -/
def canonical (registry : Registry) (role : Role) (identifier : String) :
    Journal × Except Unresolved String :=
  match role.fullName? identifier with
  | none => ([], .error .malformed)
  | some full =>
    let aliases := (registry.shelf role).aliases
    match follow role aliases (aliases.size + 1) [] full with
    | (journal, none) => (journal, .error .cycle)
    | (journal, some name) => (journal, .ok name)

/-- Give an identity to a plugin that was not made by a factory. -/
def adopt {π : Type} (registry : Registry) (plugin : π) : Instance π × Registry :=
  ({ identity := registry.nextIdentity, plugin },
   { registry with nextIdentity := registry.nextIdentity + 1 })

/-- What asking for a plugin leaves behind. -/
structure Answer (role : Role) where
  registry : Registry
  journal : Journal := []
  result : Except PipelineError (Instance (Plugin role))

/-- The instance under a name that is no alias, made now if there is none. The journal says when there
was one. -/
def load (registry : Registry) (role : Role) (name : String) :
    Registry × Journal × Except Unresolved (Instance (Plugin role)) :=
  let shelf := registry.shelf role
  match shelf.loaded.get? name with
  | some made =>
    (registry,
      [{ level := .trace
         message := "plugin already loaded"
         fields := [("role", role.name), ("binding", name)] }],
      .ok made)
  | none =>
    match shelf.factories.get? name with
    | none => (registry, [], .error (.unregistered name))
    | some factory =>
      let made : Instance (Plugin role) :=
        { identity := registry.nextIdentity, maker? := some factory.number, plugin := factory.plugin }
      ({ registry.withShelf role { shelf with loaded := shelf.loaded.set name made } with
          nextIdentity := registry.nextIdentity + 1
          runs := factory.number :: registry.runs },
        [], .ok made)

/-- Find the plugin of an identifier. -/
def resolveName (registry : Registry) (role : Role) (identifier : String) : Answer role :=
  match registry.canonical role identifier with
  | (journal, .error reason) =>
    { registry, journal, result := .error (reason.error role identifier) }
  | (journal, .ok name) =>
    match registry.load role name with
    | (after, loading, .error reason) =>
      { registry := after, journal := journal ++ loading,
        result := .error (reason.error role identifier) }
    | (after, loading, .ok made) =>
      { registry := after
        journal := journal ++ loading ++
          [{ level := .debug
             message := "resolved plugin"
             fields := [("role", role.name), ("identifier", identifier), ("binding", name)] }]
        result := .ok made }

/-- Find the plugin of a reference. -/
def resolve (registry : Registry) (role : Role) : Reference role → Answer role
  | .named identifier => registry.resolveName role identifier
  | .direct plugin =>
    { registry
      journal :=
        [{ level := .debug
           message := "using directly supplied plugin"
           fields := [("role", role.name)] }]
      result := .ok plugin }

/-- Whether an identifier leads to a plugin. -/
def contains (registry : Registry) (role : Role) (identifier : String) : Bool :=
  match (registry.canonical role identifier).2 with
  | .ok name => (registry.shelf role).factories.contains name
  | .error _ => false

/-- The journal of asking whether an identifier leads to a plugin. -/
def containsJournal (registry : Registry) (role : Role) (identifier : String) : Journal :=
  (registry.canonical role identifier).1

/-- The full names that have factories, in ascending order. -/
def names (registry : Registry) (role : Role) : List String :=
  (registry.shelf role).factories.keys

/-- The aliases and what they lead to, in ascending order. -/
def aliases (registry : Registry) (role : Role) : List (String × String) :=
  (registry.shelf role).aliases.entries

open Text (Outline)

/-- The registry as a diagnostic shows it. -/
def outline (registry : Registry) : Outline :=
  .record "PluginRegistry"
    [("parsers", .list ((registry.names .parser).map .text)),
     ("producers", .list ((registry.names .producer).map .text))] true

end Registry

end Schemata
