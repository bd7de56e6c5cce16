import Holarchy.Dance.Request
/-!
# Orders

What a request asks a server to do, once its name, kind and body have been found to fit together.
-/
namespace Holarchy

inductive Order where
  | newHolon (properties : PropertyMap)
  | stage (holon : Holon)
  | stageTransient (target : TransientReference)
  | withProperties (target : StagedReference) (properties : PropertyMap)
  /-- Removes the properties that the map names, whatever their values. -/
  | removeProperties (target : StagedReference) (named : PropertyMap)
  | addRelated (target : StagedReference) (relationship : RelationshipName) (holons : List Reference)
  | removeRelated (target : StagedReference) (relationship : RelationshipName) (holons : List Reference)
  | abandon (target : StagedReference)
  | commitAll
  | commitOne (target : StagedReference)
  | getAll
  | getById (id : HolonId)
  /-- Finds the staged holon with the key of these properties. -/
  | getStagedByKey (properties : PropertyMap)
  | clone (source : Reference)
  | newVersion (id : HolonId)
  | delete (id : LocalId)
  | query (sources : NodeCollection) (query : QueryExpression)
  | load (content : ContentSet)
  deriving DecidableEq

namespace DanceRequest

/-- The order that a kind and a body make under a name, `none` under a name nobody knows. -/
def orderNamed? (kind : DanceType) (body : RequestBody) : String → Option (Option Order)
  | "new_holon" => some <| match kind, body with
    | .standalone, .parameterValues p => some (.newHolon p)
    | _, _ => none
  | "stage_new_holon" => some <| match kind, body with
    | .standalone, .holon h => some (.stage h)
    | .standalone, .transientReference r => some (.stageTransient r)
    | _, _ => none
  | "with_properties" => some <| match kind, body with
    | .command target, .parameterValues p => some (.withProperties target p)
    | _, _ => none
  | "remove_properties" => some <| match kind, body with
    | .command target, .parameterValues p => some (.removeProperties target p)
    | _, _ => none
  | "add_related_holons" => some <| match kind, body with
    | .command target, .targetHolons relationship holons => some (.addRelated target relationship holons)
    | _, _ => none
  | "remove_related_holons" => some <| match kind, body with
    | .command target, .targetHolons relationship holons => some (.removeRelated target relationship holons)
    | _, _ => none
  | "abandon_staged_changes" => some <| match kind, body with
    | .command target, .none => some (.abandon target)
    | _, _ => none
  | "commit" => some <| match kind, body with
    | .standalone, .none => some .commitAll
    | .command target, .none => some (.commitOne target)
    | _, _ => none
  | "get_all_holons" => some <| match kind, body with
    | .standalone, .none => some .getAll
    | _, _ => none
  | "get_holon_by_id" => some <| match kind, body with
    | .standalone, .holonId id => some (.getById id)
    | _, _ => none
  | "get_staged_holon_by_key" => some <| match kind, body with
    | .standalone, .parameterValues p => some (.getStagedByKey p)
    | _, _ => none
  | "stage_new_from_clone" => some <| match kind, body with
    | .clone source, .none => some (.clone source)
    | _, _ => none
  | "stage_new_version" => some <| match kind, body with
    | .newVersion id, .none => some (.newVersion id)
    | _, _ => none
  | "delete_holon" => some <| match kind, body with
    | .delete id, .none => some (.delete id)
    | _, _ => none
  | "query_relationships" => some <| match kind, body with
    | .query sources, .queryExpression q => some (.query sources q)
    | _, _ => none
  | "load_holons" => some <| match kind, body with
    | .standalone, .loadHolons content => some (.load content)
    | _, _ => none
  | _ => none

/-- The order that a request makes, as a server of the given space understands it. -/
def order (r : DanceRequest) (space : SpaceId) : Except Refusal Order :=
  match orderNamed? r.kind r.body r.name with
  | some (some order) => .ok order
  | some none =>
    .error (.invalidParameter
      (r.name ++ " does not accept " ++ r.kind.toString ++ " with " ++ r.body.toString ++ " body in " ++ space.text))
  | none => .error (.notImplemented ("dance " ++ r.name))

end DanceRequest

end Holarchy
