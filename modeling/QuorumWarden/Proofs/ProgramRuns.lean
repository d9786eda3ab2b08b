import QuorumWarden.Program

/-! Runs of a program among surroundings that may answer each request in several ways. A run
stops anywhere; `Holds` follows the program's own tree, so what it asserts is true of every
request that a run comes to and of every result. -/

namespace QuorumWarden

structure Program.Event {Request : Type} (Reply : Request → Type) where
  request : Request
  reply : Reply request

/-- How a request may be answered: in which state, by which reply, and what state that leaves. -/
abbrev Law (Request : Type) (Reply : Request → Type) (σ : Type) :=
  (request : Request) → σ → Reply request → σ → Prop

/-- The same surroundings while nothing but such events occurs. -/
def Law.restrict {Request : Type} {Reply : Request → Type} {σ : Type} (law : Law Request Reply σ)
    (admits : Program.Event Reply → Prop) : Law Request Reply σ :=
  fun request before reply after => law request before reply after ∧ admits ⟨request, reply⟩

/-- There is an answer to the request. -/
def Law.Answers {Request : Type} {Reply : Request → Type} {σ : Type} (law : Law Request Reply σ) (request : Request)
    (state : σ) : Prop := ∃ reply after, law request state reply after

namespace Program

variable {Request : Type} {Reply : Request → Type} {σ α β : Type}

inductive Steps (law : Law Request Reply σ) :
    Program Request Reply α → σ → List (Event Reply) → Program Request Reply α → σ → Prop where
  | refl {program state} : Steps law program state [] program state
  | ask {request next before reply between trace rest after}
      (answered : law request before reply between) (more : Steps law (next reply) between trace rest after) :
      Steps law (.ask request next) before (⟨request, reply⟩ :: trace) rest after

abbrev Runs (law : Law Request Reply σ) (program : Program Request Reply α) (before : σ)
    (trace : List (Event Reply)) (value : α) (after : σ) : Prop :=
  Steps law program before trace (.done value) after

variable {law : Law Request Reply σ} {program : Program Request Reply α} {next : α → Program Request Reply β}
  {before between after : σ}

theorem Steps.of_done {value : α} {rest : Program Request Reply α} {trace : List (Event Reply)}
    (steps : Steps law (.done value) before trace rest after) : trace = [] ∧ rest = .done value ∧ after = before := by
  cases steps
  exact ⟨rfl, rfl, rfl⟩

theorem Steps.of_nil {rest : Program Request Reply α} (steps : Steps law program before [] rest after) :
    rest = program ∧ after = before := by
  cases steps
  exact ⟨rfl, rfl⟩

/-- A sequence stops in its first part, or has been through it. -/
theorem Steps.of_bind {rest : Program Request Reply β} {trace : List (Event Reply)}
    (steps : Steps law (program >>= next) before trace rest after) :
    (∃ middle, rest = middle >>= next ∧ Steps law program before trace middle after) ∨
      ∃ value between first second, trace = first ++ second ∧
        Runs law program before first value between ∧ Steps law (next value) between second rest after := by
  induction program generalizing before trace with
  | done value => exact Or.inr ⟨value, before, [], trace, rfl, .refl, steps⟩
  | ask request remaining ih =>
    rw [ask_bind] at steps
    cases steps with
    | refl => exact Or.inl ⟨_, rfl, .refl⟩
    | ask answered more =>
      rcases ih _ more with ⟨middle, same, inside⟩ | ⟨value, between, first, second, rfl, ended, onward⟩
      · exact Or.inl ⟨middle, same, .ask answered inside⟩
      · exact Or.inr ⟨value, between, _ :: first, second, rfl, .ask answered ended, onward⟩

theorem Runs.of_bind {value : β} {trace : List (Event Reply)}
    (ran : Runs law (program >>= next) before trace value after) :
    ∃ middle between first second, trace = first ++ second ∧
      Runs law program before first middle between ∧ Runs law (next middle) between second value after := by
  rcases Steps.of_bind ran with ⟨middle, same, inside⟩ | through
  · cases middle with
    | done middle =>
      rw [done_bind] at same
      exact ⟨middle, after, trace, [], by simp, inside, same ▸ .refl⟩
    | ask request remaining => cases same
  · exact through

theorem Steps.trans {middle rest : Program Request Reply α} {first second : List (Event Reply)}
    (steps : Steps law program before first middle between) (onward : Steps law middle between second rest after) :
    Steps law program before (first ++ second) rest after := by
  induction steps with
  | refl => exact onward
  | ask answered _ ih => exact .ask answered (ih onward)

theorem Steps.bind_left {middle : Program Request Reply α} {trace : List (Event Reply)}
    (steps : Steps law program before trace middle after) (next : α → Program Request Reply β) :
    Steps law (program >>= next) before trace (middle >>= next) after := by
  induction steps with
  | refl => exact .refl
  | ask answered _ ih => exact .ask answered ih

theorem Runs.bind {value : α} {rest : Program Request Reply β} {first second : List (Event Reply)}
    (ran : Runs law program before first value between) (onward : Steps law (next value) between second rest after) :
    Steps law (program >>= next) before (first ++ second) rest after :=
  (Steps.bind_left ran next).trans onward

theorem Steps.mono {rest : Program Request Reply α} {trace : List (Event Reply)} {wider : Law Request Reply σ}
    (steps : Steps law program before trace rest after)
    (within : ∀ request before reply after, law request before reply after → wider request before reply after) :
    Steps wider program before trace rest after := by
  induction steps with
  | refl => exact .refl
  | ask answered _ ih => exact .ask (within _ _ _ _ answered) ih

theorem Steps.restrict {rest : Program Request Reply α} {trace : List (Event Reply)}
    (steps : Steps law program before trace rest after) {admits : Event Reply → Prop}
    (admitted : ∀ event ∈ trace, admits event) : Steps (law.restrict admits) program before trace rest after := by
  induction steps with
  | refl => exact .refl
  | ask answered _ ih =>
    exact .ask ⟨answered, admitted _ (by simp)⟩ (ih fun event member => admitted event (by simp [member]))

theorem Steps.admitted {rest : Program Request Reply α} {trace : List (Event Reply)} {admits : Event Reply → Prop}
    (steps : Steps (law.restrict admits) program before trace rest after) :
    Steps law program before trace rest after ∧ ∀ event ∈ trace, admits event := by
  induction steps with
  | refl => exact ⟨.refl, by simp⟩
  | ask answered _ ih => exact ⟨.ask answered.1 ih.1, List.forall_mem_cons.mpr ⟨answered.2, ih.2⟩⟩

def pending : Program Request Reply α → Option Request
  | .done _ => none
  | .ask request _ => some request

theorem pending_bind {rest : Program Request Reply α} {request : Request} (pending : request ∈ rest.pending)
    (next : α → Program Request Reply β) : request ∈ (rest >>= next).pending := by
  cases rest with
  | done value => cases pending
  | ask asked remaining => exact pending

/-- `asks` is true whenever a run comes to a request, and `post` of every result. -/
def Holds (law : Law Request Reply σ) (asks : Request → σ → Prop) (post : α → σ → Prop) :
    Program Request Reply α → σ → Prop
  | .done value, state => post value state
  | .ask request next, state =>
    asks request state ∧ ∀ reply after, law request state reply after → Holds law asks post (next reply) after

variable {asks : Request → σ → Prop} {post : α → σ → Prop}

theorem Holds.steps {rest : Program Request Reply α} {trace : List (Event Reply)}
    (holds : Holds law asks post program before) (steps : Steps law program before trace rest after) :
    Holds law asks post rest after := by
  induction steps with
  | refl => exact holds
  | ask answered _ ih => exact ih (holds.2 _ _ answered)

theorem Holds.pending {state : σ} (holds : Holds law asks post program state) :
    ∀ request ∈ program.pending, asks request state := by
  cases program with
  | done value => exact fun _ none => nomatch none
  | ask request next =>
    intro _ same
    cases same
    exact holds.1

/-- What is true of the state both at every request and at the end is true all along. -/
theorem Holds.throughout {rest : Program Request Reply α} {trace : List (Event Reply)}
    (holds : Holds law asks post program before) (stands : σ → Prop) (asked : ∀ request state, asks request state → stands state)
    (ended : ∀ value state, post value state → stands state) (steps : Steps law program before trace rest after) :
    stands after := by
  have left := holds.steps steps
  cases rest with
  | done value => exact ended value after left
  | ask request next => exact asked request after left.1

/-- Every request on the way was asked in a state where it may be. -/
theorem Holds.asked {rest : Program Request Reply α} {trace : List (Event Reply)}
    (holds : Holds law asks post program before) (steps : Steps law program before trace rest after) :
    ∀ event ∈ trace, ∃ state, asks event.request state := by
  induction steps with
  | refl => simp
  | ask answered _ ih => exact List.forall_mem_cons.mpr ⟨⟨_, holds.1⟩, ih (holds.2 _ _ answered)⟩

theorem Holds.mono {other : Request → σ → Prop} {weaker : α → σ → Prop} {state : σ}
    (holds : Holds law asks post program state) (asked : ∀ request state, asks request state → other request state)
    (implies : ∀ value state, post value state → weaker value state) : Holds law other weaker program state := by
  induction program generalizing state with
  | done value => exact implies value state holds
  | ask request remaining ih =>
    exact ⟨asked request state holds.1, fun reply after answered => ih reply (holds.2 reply after answered)⟩

theorem Holds.bind {post : β → σ → Prop} {state : σ}
    (holds : Holds law asks (fun value after => Holds law asks post (next value) after) program state) :
    Holds law asks post (program >>= next) state := by
  induction program generalizing state with
  | done value => exact holds
  | ask request remaining ih => exact ⟨holds.1, fun reply after answered => ih reply (holds.2 reply after answered)⟩

/-- A program that gets an answer to all it asks for can be run to its end from wherever it has come to. -/
theorem Holds.completes {state : σ} (holds : Holds law law.Answers post program state) :
    ∃ trace value after, Runs law program state trace value after := by
  induction program generalizing state with
  | done value => exact ⟨[], value, state, .refl⟩
  | ask request remaining ih =>
    obtain ⟨⟨reply, between, answered⟩, onward⟩ := holds
    obtain ⟨trace, value, after, ran⟩ := ih reply (onward reply between answered)
    exact ⟨_, value, after, .ask answered ran⟩

/-- Answers every request the same way, until the program ends or comes to one that gets no answer. -/
def play (answer : (request : Request) → σ → Option (Reply request × σ)) :
    Program Request Reply α → σ → List (Event Reply) × Program Request Reply α × σ
  | .done value, state => ([], .done value, state)
  | .ask request next, state =>
    match answer request state with
    | none => ([], .ask request next, state)
    | some (reply, after) =>
      let (trace, left) := play answer (next reply) after
      (⟨request, reply⟩ :: trace, left)

theorem play_steps {answer : (request : Request) → σ → Option (Reply request × σ)}
    (lawful : ∀ request before reply after, answer request before = some (reply, after) → law request before reply after)
    (program : Program Request Reply α) (state : σ) :
    Steps law program state (program.play answer state).1 (program.play answer state).2.1
      (program.play answer state).2.2 := by
  induction program generalizing state with
  | done value => exact .refl
  | ask request remaining ih =>
    rw [play]
    split
    next => exact .refl
    next reply after answered => exact .ask (lawful request state reply after answered) (ih reply after)

end Program

end QuorumWarden
