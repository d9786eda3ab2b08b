import QuorumWarden.Catalog.Member
import QuorumWarden.Json.Reader
import QuorumWarden.Json.Writer

/-! Members as JSON records. The reader takes the fields in any order, or an array of
all five in the writer's order. -/

namespace QuorumWarden

/-- A role by its exact lower-case name, or as an object with that key and null. -/
def Role.decoder : Json.Decoder Role
  | .text (some name) => named name
  | .object [(some name, .null)] => named name
  | _ => none
where
  named : String → Option Role
    | "primary" => some .primary
    | "standby" => some .standby
    | "unknown" => some .unknown
    | _ => none

namespace Member

def decoder : Json.Decoder Member := fun value => do
  match ← Json.fields? ["id", "hostname", "region", "active", "role"] value with
  | [id, hostname, region, active, role] =>
    some {
      id := ← id.required .int32
      hostname := ← hostname.required .text
      region := ← region.required .text
      active := ← active.required .bool
      role := ← role.required Role.decoder }
  | _ => none

def ofJson? (text : String) : Option Member := Json.decode? decoder text

def toJson (member : Member) : String :=
  Json.object [
    Json.field "id" (toString member.id),
    Json.field "hostname" (Json.quoted member.hostname),
    Json.field "region" (Json.quoted member.region),
    Json.field "active" (Json.bool member.active),
    Json.field "role" (Json.quoted member.role.text)]

end Member

end QuorumWarden
