import QuorumWarden.Proofs.ActionRules
import QuorumWarden.Watch.Clocks

/-! Rules for passes among surroundings. What is asserted of a result or of a failure may speak of the clocks, since
a pass that fails leaves clocks all the same. -/

namespace QuorumWarden.Pass

variable {σ α β : Type} {law : Law Request Request.Reply σ} {asks : Request → σ → Prop}

/-- `good` is true of every result with the clocks beside it, and `bad` of every failure with its clocks. -/
structure Holds (law : Law Request Request.Reply σ) (asks : Request → σ → Prop) (good : α → Clocks → σ → Prop)
    (bad : Failure → Clocks → σ → Prop) (pass : Pass α) (clocks : Clocks) (state : σ) : Prop where
  run : Program.Holds law asks (fun ended after =>
    match ended.1 with
    | .ok value => good value ended.2 after
    | .error failure => bad failure ended.2 after) (pass.runFrom clocks) state

variable {good : α → Clocks → σ → Prop} {bad : Failure → Clocks → σ → Prop} {clocks : Clocks} {state : σ}

theorem Holds.imp {pass : Pass α} {better : α → Clocks → σ → Prop} (holds : Holds law asks good bad pass clocks state)
    (implies : ∀ value clocks state, good value clocks state → better value clocks state) :
    Holds law asks better bad pass clocks state := by
  refine ⟨Program.Holds.mono holds.run (fun _ _ asked => asked) fun ended after held => ?_⟩
  obtain ⟨outcome, clocks⟩ := ended
  cases outcome with
  | ok value => exact implies value clocks after held
  | error failure => exact held

theorem Holds.pure {value : α} (ended : good value clocks state) :
    Holds law asks good bad (pure value) clocks state := ⟨ended⟩

theorem Holds.bind {pass : Pass β} {next : β → Pass α}
    (holds : Holds law asks (fun value => Holds law asks good bad (next value)) bad pass clocks state) :
    Holds law asks good bad (pass >>= next) clocks state := by
  refine ⟨Program.Holds.bind (Program.Holds.mono holds.run (fun _ _ asked => asked) fun ended after held => ?_)⟩
  obtain ⟨outcome, clocks⟩ := ended
  cases outcome with
  | ok value => exact Holds.run held
  | error failure => exact held

theorem Holds.andThen {pass : Pass β} {next : β → Pass α} {middle : β → Clocks → σ → Prop}
    (first : Holds law asks middle bad pass clocks state)
    (onward : ∀ value clocks state, middle value clocks state → Holds law asks good bad (next value) clocks state) :
    Holds law asks good bad (pass >>= next) clocks state := Holds.bind (first.imp onward)

theorem Holds.act {action : Action α}
    (holds : Action.Holds law asks (fun value => good value clocks) (fun failure => bad failure clocks) action state) :
    Holds law asks good bad (act action) clocks state := by
  refine ⟨Program.Holds.bind (Program.Holds.mono holds.run (fun _ _ asked => asked) fun outcome after held => ?_)⟩
  cases outcome with
  | ok value => exact held
  | error failure => exact held

theorem Holds.update {change : Clocks → Clocks} {good : Unit → Clocks → σ → Prop}
    (ended : good () (change clocks) state) : Holds law asks good bad (update change) clocks state := ⟨ended⟩

theorem Holds.read {good : Clocks → Clocks → σ → Prop} (ended : good clocks clocks state) :
    Holds law asks good bad Pass.clocks clocks state := ⟨ended⟩

end QuorumWarden.Pass
