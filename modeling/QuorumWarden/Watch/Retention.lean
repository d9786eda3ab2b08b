import QuorumWarden.Node

/-! The watch of a primary over its backup archive: what has outlived the retention policy
is pruned. -/

namespace QuorumWarden.Retention

/-- One pass; says whether it pruned. -/
def prune (host : String) : Action Bool := do
  let role ← Action.guarded (Node.role host)
  if role != .primary then return false
  Action.guarded Backup.prune
  Procedure.count .retentionRuns
  return true

end QuorumWarden.Retention
