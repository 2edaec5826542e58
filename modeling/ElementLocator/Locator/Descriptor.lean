import ElementLocator.Config
import ElementLocator.Document
import ElementLocator.Locator.Error

/-!
# Descriptors

A descriptor is a node with the attribute values that were chosen to describe it. The attribute `class` offers each
of its words, any other attribute its whole value, and an empty value is not offered. Names stand in the order in
which they were first chosen, and so do the values of each name.
-/

namespace ElementLocator.Locator

/-- Attribute names, each with some of its values. -/
abbrev AttributeValues := List (String × List String)

/-- The values that an attribute of a node offers. -/
def candidateValues (d : Document) (n : NodeId) (name : String) : List String :=
  if Text.equalIgnoringCase name "class" then d.classList n
  else ((d.attribute? n (Text.lower name)).filter (· != "")).toList

/-- The allowed attributes of a node with the values they offer, in the order of the node's attributes. -/
def availableAttributes (d : Document) (n : NodeId) (config : Config) : AttributeValues :=
  (d.attributes n).filterMap fun (name, _) =>
    let values := candidateValues d n name
    if config.allows name ∧ !values.isEmpty then some (name, values) else none

/-- The values with one more under the given name, behind the others unless it is there already. -/
def AttributeValues.add (name value : String) : AttributeValues → AttributeValues
  | [] => [(name, [value])]
  | (key, values) :: rest =>
    if key = name then (key, if value ∈ values then values else values ++ [value]) :: rest
    else (key, values) :: AttributeValues.add name value rest

/-- The values with one taken away under the given name; a name without values goes too. -/
def AttributeValues.remove (name value : String) : AttributeValues → AttributeValues
  | [] => []
  | (key, values) :: rest =>
    if key = name then
      let kept := values.filter (· != value)
      if kept.isEmpty then rest else (key, kept) :: rest
    else (key, values) :: AttributeValues.remove name value rest

/-- Choosing a value under the given name, or taking it away there, changes something. -/
def AttributeValues.changes (name value : String) (included : Bool) : AttributeValues → Bool
  | [] => included
  | (key, values) :: rest =>
    if key = name then
      if included then !values.contains value else (values.filter (· != value)).length != values.length
    else AttributeValues.changes name value included rest

/-- A node and the attribute values that describe it. -/
structure Descriptor where
  node : NodeId
  attributes : AttributeValues := []
  deriving Repr, DecidableEq

namespace Descriptor

/-- The chosen values of an attribute. -/
def values (descriptor : Descriptor) (name : String) : List String :=
  (descriptor.attributes.lookup name).getD []

/-- A value of an attribute is chosen. -/
def includes (descriptor : Descriptor) (name value : String) : Bool := (descriptor.values name).contains value

/-- Some value is chosen. -/
def isRefined (descriptor : Descriptor) : Bool := !descriptor.attributes.isEmpty

/-- The descriptor with a value of an attribute chosen, or no longer chosen. The attribute must be allowed and
present, and the value one that it offers. -/
def setIncluded (descriptor : Descriptor) (d : Document) (config : Config) (name value : String)
    (included : Bool) : Except Error Descriptor :=
  let name := Text.lower name
  if !config.allows name || !d.hasAttribute descriptor.node name then .error (.attributeNotAllowed name)
  else if value ∉ candidateValues d descriptor.node name then .error (.valueNotPresent name value)
  else
    let change := if included then AttributeValues.add else AttributeValues.remove
    .ok { descriptor with attributes := change name value descriptor.attributes }

/-- The descriptor with a value chosen, or no longer chosen, and whether that changed anything. -/
def toggle (descriptor : Descriptor) (d : Document) (config : Config) (name value : String) (included : Bool) :
    Except Error (Bool × Descriptor) := do
  let refined ← descriptor.setIncluded d config name value included
  .ok (descriptor.attributes.changes (Text.lower name) value included, refined)

end Descriptor

end ElementLocator.Locator
