import Holarchy.Collection
/-!
# The content of a holon and its edits

Transient and staged holons carry the same content, properties and relationships, and take the same five edits.
-/
namespace Holarchy

inductive ValidationState where
  | noDescriptor
  | required
  | validated
  | invalid
  deriving DecidableEq

def ValidationState.toString : ValidationState → String
  | .noDescriptor => "NoDescriptor"
  | .required => "ValidationRequired"
  | .validated => "Validated"
  | .invalid => "Invalid"

/-- What a holon that can still change holds. -/
structure Content where
  properties : PropertyMap
  relationships : RelationshipMap
  deriving DecidableEq

inductive Edit where
  | setProperty (name : PropertyName) (value : Option Value)
  /-- Takes a property away altogether. -/
  | removeProperty (name : PropertyName)
  | updateProperties (properties : PropertyMap)
  /-- Relates holons under a name, each under a key if it has one. -/
  | addRelated (relationship : RelationshipName) (batch : List (Reference × Option String))
  | removeRelated (relationship : RelationshipName) (references : List Reference)
  deriving DecidableEq

/-- The outcome of an edit and the content after it.  New collections start in the given state. -/
def Edit.apply (e : Edit) (state : CollectionState) (c : Content) : Except Refusal Unit × Content :=
  match e with
  | .setProperty name value => (.ok (), { c with properties := c.properties.insert name value })
  | .removeProperty name => (.ok (), { c with properties := c.properties.erase name })
  | .updateProperties properties => (.ok (), { c with properties := c.properties.merge properties })
  | .addRelated name batch =>
    let (outcome, relationships) := c.relationships.addRelated name batch state
    (outcome, { c with relationships })
  | .removeRelated name references =>
    match c.relationships.removeRelated name references with
    | .ok relationships => (.ok (), { c with relationships })
    | .error err => (.error err, c)

end Holarchy
