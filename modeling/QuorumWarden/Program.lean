/-! Programs that ask their surroundings for every effect. A program is the tree of
its requests with one branch per possible reply, so a suspended program is its own
remainder and dropping it is a crash. -/

namespace QuorumWarden

inductive Program (Request : Type) (Reply : Request → Type) (α : Type) where
  | done (value : α)
  | ask (request : Request) (next : Reply request → Program Request Reply α)

namespace Program

variable {Request : Type} {Reply : Request → Type} {α β γ : Type}

def bind : Program Request Reply α → (α → Program Request Reply β) → Program Request Reply β
  | .done value, next => next value
  | .ask request rest, next => .ask request fun reply => (rest reply).bind next

instance : Monad (Program Request Reply) where
  pure := .done
  bind := bind

/-- The program that makes one request and returns its reply. -/
def perform (request : Request) : Program Request Reply (Reply request) := .ask request .done

theorem bind_done (program : Program Request Reply α) : program.bind .done = program := by
  induction program with
  | done value => rfl
  | ask request rest ih => simp only [bind, ih]

theorem bind_assoc (program : Program Request Reply α) (first : α → Program Request Reply β)
    (second : β → Program Request Reply γ) :
    (program.bind first).bind second = program.bind fun value => (first value).bind second := by
  induction program with
  | done value => rfl
  | ask request rest ih => simp only [bind, ih]

instance : LawfulMonad (Program Request Reply) :=
  LawfulMonad.mk' _ bind_done (fun _ _ => rfl) bind_assoc

@[simp] theorem pure_eq (value : α) : (pure value : Program Request Reply α) = .done value := rfl

@[simp] theorem done_bind (value : α) (next : α → Program Request Reply β) :
    (Program.done value : Program Request Reply α) >>= next = next value := rfl

@[simp] theorem ask_bind (request : Request) (rest : Reply request → Program Request Reply α)
    (next : α → Program Request Reply β) :
    (Program.ask request rest) >>= next = .ask request fun reply => rest reply >>= next := rfl

/-- Runs a program in a monad that answers its requests. -/
def runIn {m : Type → Type} [Monad m] (answer : (request : Request) → m (Reply request)) :
    Program Request Reply α → m α
  | .done value => pure value
  | .ask request rest => do runIn answer (rest (← answer request))

theorem runIn_bind {m : Type → Type} [Monad m] [LawfulMonad m] (answer : (request : Request) → m (Reply request))
    (program : Program Request Reply α) (next : α → Program Request Reply β) :
    (program >>= next).runIn answer = program.runIn answer >>= fun value => (next value).runIn answer := by
  induction program with
  | done value => rw [done_bind, runIn, pure_bind]
  | ask request rest ih => simp only [ask_bind, runIn, ih, LawfulMonad.bind_assoc]

end Program

end QuorumWarden
