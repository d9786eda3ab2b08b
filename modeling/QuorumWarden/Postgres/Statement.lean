import QuorumWarden.Port

/-! The statements that calls on a session send to a database server. -/

namespace QuorumWarden.Postgres

inductive Parameter where
  | int (value : Int)
  | text (value : String)
  deriving DecidableEq, Repr

/-- A statement with its parameters. One that returns no rows is sent as it is, without
being prepared. -/
structure Statement where
  text : String
  parameters : List Parameter := []
  prepared : Bool := true
  deriving DecidableEq, Repr

/-- Quotes inside an identifier are doubled. -/
def doubled : List Char → List Char
  | [] => []
  | '"' :: rest => '"' :: '"' :: doubled rest
  | c :: rest => c :: doubled rest

/-- The name as one identifier. -/
def quoteIdentifier (name : String) : String := "\"" ++ String.ofList (doubled name.toList) ++ "\""

def memberColumns : String := "n.node_id, n.node_name, n.location, n.active, n.type"

def flagValue (enabled : Bool) : String := if enabled then "on" else "off"

def setReadonly (database : String) (enabled : Bool) : String :=
  "ALTER DATABASE " ++ quoteIdentifier database ++ " SET default_transaction_read_only = " ++ flagValue enabled

/-- What a call on a session sends, and what it is called in failures. Other calls send
nothing. Several active primaries may be listed; the first by number counts. -/
def statement? : Call → Option (Statement × String)
  | .listMembers _ =>
    some (Statement.mk ("SELECT " ++ memberColumns ++ " FROM repmgr.nodes n ORDER BY n.node_id") [] true,
      "query repmgr.nodes")
  | .primaryMember _ =>
    some (Statement.mk ("SELECT " ++ memberColumns ++ " FROM repmgr.nodes n " ++
      "WHERE n.type = 'primary' AND n.active = true ORDER BY n.node_id LIMIT 1") [] true, "query primary member")
  | .unregister _ member =>
    some (Statement.mk "DELETE FROM repmgr.nodes WHERE node_id = $1" [.int member.id] true,
      "unregister member " ++ toString member.id ++ " (" ++ member.hostname ++ ")")
  | .slots _ =>
    some (Statement.mk ("SELECT slot_name::text, active, " ++
      "COALESCE(pg_wal_lsn_diff(pg_current_wal_lsn(), restart_lsn), 0)::bigint " ++
      "FROM pg_replication_slots WHERE slot_type = 'physical'") [] true, "query pg_replication_slots")
  | .dropSlot _ name =>
    some (Statement.mk "SELECT pg_drop_replication_slot($1)" [.text name] true, "drop replication slot " ++ name)
  | .databases _ =>
    some (Statement.mk "SELECT datname::text FROM pg_database WHERE datistemplate = false ORDER BY datname" [] true,
      "query pg_database")
  | .setReadonly _ database enabled =>
    some (Statement.mk (setReadonly database enabled) [] false,
      "set default_transaction_read_only=" ++ flagValue enabled ++ " on " ++ database)
  | .readonly _ database =>
    some (Statement.mk ("SELECT unnest(s.setconfig) FROM pg_db_role_setting s " ++
      "JOIN pg_database d ON d.oid = s.setdatabase WHERE d.datname = $1 AND s.setrole = 0") [.text database] true,
      "read database settings for " ++ database)
  | _ => none

end QuorumWarden.Postgres
