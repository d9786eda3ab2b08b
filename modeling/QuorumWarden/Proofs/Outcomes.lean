import Mathlib.Data.List.Forall2
import QuorumWarden.Failure

/-! Steps taken one after another, each of which may fail. They succeed together only if each of them does. -/

namespace QuorumWarden

variable {α β : Type} {step : α → Outcome β}

theorem bind_eq_ok_iff {ε : Type} {first : Except ε α} {next : α → Except ε β} {result : β} :
    first >>= next = .ok result ↔ ∃ value, first = .ok value ∧ next value = .ok result := by
  cases first <;> simp [bind, Except.bind]

theorem mapM_eq_ok_iff {inputs : List α} {results : List β} :
    inputs.mapM step = .ok results ↔ List.Forall₂ (fun input result => step input = .ok result) inputs results := by
  induction inputs generalizing results with
  | nil => cases results <;> simp [pure, Except.pure]
  | cons input inputs ih =>
    rw [List.mapM_cons]
    cases first : step input with
    | error failure => cases results <;> simp [bind, Except.bind, first]
    | ok result =>
      cases rest : inputs.mapM step <;> cases results <;>
        simp [bind, Except.bind, pure, Except.pure, first, ← ih, rest]

theorem mapM_succeeds_iff {inputs : List α} :
    (∃ results, inputs.mapM step = .ok results) ↔ ∀ input ∈ inputs, ∃ result, step input = .ok result := by
  simp only [mapM_eq_ok_iff]
  induction inputs with
  | nil => exact ⟨fun _ => nofun, fun _ => ⟨[], .nil⟩⟩
  | cons input inputs ih =>
    rw [List.forall_mem_cons, ← ih]
    constructor
    · rintro ⟨_, _ | ⟨first, rest⟩⟩
      exact ⟨⟨_, first⟩, _, rest⟩
    · rintro ⟨⟨result, first⟩, results, rest⟩
      exact ⟨result :: results, .cons first rest⟩

theorem exists_of_mapM_eq_error {inputs : List α} {failure : Failure} (failed : inputs.mapM step = .error failure) :
    ∃ input ∈ inputs, step input = .error failure := by
  induction inputs with
  | nil => cases failed
  | cons input inputs ih =>
    rw [List.mapM_cons] at failed
    cases first : step input with
    | error cause =>
      rw [first] at failed
      cases failed
      exact ⟨input, List.mem_cons_self, first⟩
    | ok result =>
      cases rest : inputs.mapM step with
      | error cause =>
        rw [first, rest] at failed
        cases failed
        obtain ⟨other, member, same⟩ := ih rest
        exact ⟨other, List.mem_cons_of_mem _ member, same⟩
      | ok results =>
        rw [first, rest] at failed
        cases failed

end QuorumWarden
