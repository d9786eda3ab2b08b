import QuorumWarden.Proofs.TaskRuns
import QuorumWarden.Simulation.Stage

/-! Surroundings in which time passes and somebody sets a frequency. Time may pass before any answer, and the frequency
may change or its sender be gone; what has been sent and not been seen ends a wait for news. -/

namespace QuorumWarden

namespace Frequency

variable {frequency : Frequency} {seen : Nat}

theorem news?_eq_none_iff : frequency.news? seen = none ↔ frequency.version = seen ∧ frequency.live = true := by
  rw [news?]
  split
  next unseen => exact iff_of_false nofun fun same => unseen same.1
  next same =>
    split
    next live => exact iff_of_true rfl ⟨Classical.not_not.mp same, live⟩
    next gone => exact iff_of_false nofun fun still => gone still.2

theorem news?_of_ne (unseen : frequency.version ≠ seen) : frequency.news? seen = some (.changed frequency.version) :=
  if_pos unseen

end Frequency

/-- What can be read outside: the time, and the frequency as its sender has set it. -/
structure Bulletin where
  now : Nat
  frequency : Frequency

namespace Bulletin

/-- Time passes, such frequencies are sent, and the sender may be gone in the end. -/
inductive Changes : Bulletin → List Duration → Bulletin → Prop where
  | refl {bulletin} : Changes bulletin [] bulletin
  | pass {now frequency sent after} {time : Nat} (onward : now ≤ time) (more : Changes ⟨time, frequency⟩ sent after) :
      Changes ⟨now, frequency⟩ sent after
  | send {now frequency sent after} (value : Duration) (live : frequency.live = true)
      (more : Changes ⟨now, frequency.send value⟩ sent after) : Changes ⟨now, frequency⟩ (value :: sent) after
  | close {now frequency sent after} (more : Changes ⟨now, { frequency with live := false }⟩ sent after) :
      Changes ⟨now, frequency⟩ sent after

def Later (before after : Bulletin) : Prop := ∃ sent, before.Changes sent after

variable {before between after : Bulletin} {sent further : List Duration}

theorem Changes.trans (one : before.Changes sent between) (two : between.Changes further after) :
    before.Changes (sent ++ further) after := by
  induction one with
  | refl => exact two
  | pass onward _ ih => exact .pass onward (ih two)
  | send value live _ ih => exact .send value live (ih two)
  | close _ ih => exact .close (ih two)

theorem Later.refl (bulletin : Bulletin) : bulletin.Later bulletin := ⟨[], .refl⟩

theorem Later.trans (one : before.Later between) (two : between.Later after) : before.Later after := by
  obtain ⟨sent, one⟩ := one
  obtain ⟨further, two⟩ := two
  exact ⟨sent ++ further, one.trans two⟩

theorem Changes.now_le (changes : before.Changes sent after) : before.now ≤ after.now := by
  induction changes with
  | refl => exact Nat.le_refl _
  | pass onward _ ih => exact Nat.le_trans onward ih
  | send _ _ _ ih => exact ih
  | close _ ih => exact ih

theorem Changes.live (changes : before.Changes sent after) (live : after.frequency.live = true) :
    before.frequency.live = true := by
  induction changes with
  | refl => exact live
  | pass _ _ ih => exact ih live
  | send _ now _ _ => exact now
  | close _ ih => exact absurd (ih live) Bool.false_ne_true

/-- The version counts what was sent. -/
theorem Changes.version (changes : before.Changes sent after) :
    after.frequency.version = before.frequency.version + sent.length := by
  induction changes with
  | refl => rfl
  | pass _ _ ih => exact ih
  | send _ live _ ih =>
    rw [ih, Frequency.send, if_pos live, List.length_cons]
    exact Nat.add_right_comm _ _ _
  | close _ ih => exact ih

theorem Changes.value (changes : before.Changes sent after) :
    after.frequency.value = sent.getLast?.getD before.frequency.value := by
  induction changes with
  | refl => rfl
  | pass _ _ ih => exact ih
  | send _ live _ ih =>
    rw [ih, Frequency.send, if_pos live, List.getLast?_cons]
    rfl
  | close _ ih => exact ih

theorem Later.now_le (later : before.Later after) : before.now ≤ after.now := by
  obtain ⟨sent, changes⟩ := later
  exact changes.now_le

/-- What is the same at the end was the same all along. -/
theorem Later.frequency_eq (one : before.Later between) (two : between.Later after)
    (same : after.frequency = before.frequency) : between.frequency = before.frequency := by
  obtain ⟨sent, first⟩ := one
  obtain ⟨further, second⟩ := two
  have counted := second.version
  rw [same, first.version] at counted
  obtain rfl : sent = [] := List.eq_nil_of_length_eq_zero (by omega)
  have version : between.frequency.version = before.frequency.version := first.version
  have value : between.frequency.value = before.frequency.value := first.value
  have live : between.frequency.live = before.frequency.live := by
    refine Bool.eq_iff_iff.mpr ⟨first.live, fun live => second.live ?_⟩
    rw [same, live]
  calc between.frequency = ⟨_, _, _⟩ := rfl
    _ = before.frequency := by rw [version, value, live]

/-- What the prompt shows is what there is at the time. -/
def Shows (bulletin : Bulletin) : (asked : Prompt) → asked.Reply → Prop
  | .timer, time => time = bulletin.now
  | .frequency, value => value = bulletin.frequency.value
  | _, _ => True

/-- A wait on the timer ends at its time or later. A wait for news ends with them, if there are any. -/
def Ends (bulletin : Bulletin) : (wait : Wait) → wait.Reply → Prop
  | .sleepUntil time, _ => time ≤ bulletin.now
  | .frequencyNews seen deadline, reply =>
    (bulletin.frequency.news? seen).elim (reply = .elapsed ∧ deadline ≤ bulletin.now) (reply = ·)
  | _, _ => True

def Answers (bulletin : Bulletin) : (request : Request) → request.Reply → Prop
  | .prompt asked, reply => bulletin.Shows asked reply
  | .await wait, reply => bulletin.Ends wait reply
  | .awaitOrStop wait, some reply => bulletin.Ends wait reply
  | .awaitOrStop _, none => True

/-- A schedule whose calls are answered by anything and whose stop may come at any time. -/
def law : Law Request Request.Reply Bulletin := fun request before reply after =>
  before.Later after ∧ after.Answers request reply

variable {α : Type} {procedure rest : Procedure α} {trace : List (Program.Event Request.Reply)}

theorem steps_later (steps : Program.Steps law procedure before trace rest after) : before.Later after := by
  induction steps with
  | refl => exact .refl _
  | ask answered _ ih => exact answered.1.trans ih

theorem steps_of_later (later : before.Later between) {event : Program.Event Request.Reply}
    (steps : Program.Steps law procedure between (event :: trace) rest after) :
    Program.Steps law procedure before (event :: trace) rest after := by
  cases steps with
  | ask answered more => exact .ask ⟨later.trans answered.1, answered.2⟩ more

/-- What was read was there at some time on the way. -/
theorem steps_read (steps : Program.Steps law procedure before trace rest after) {value : Duration}
    (read : ⟨.prompt .frequency, value⟩ ∈ trace) :
    ∃ there, before.Later there ∧ there.Later after ∧ value = there.frequency.value := by
  induction steps with
  | refl => cases read
  | ask answered more ih =>
    rcases List.mem_cons.mp read with same | read
    · cases same
      exact ⟨_, answered.1, steps_later more, answered.2⟩
    · obtain ⟨there, reached, left, same⟩ := ih read
      exact ⟨there, answered.1.trans reached, left, same⟩

/-- A run takes no time where everything is answered at once. -/
theorem steps_atOnce {start ended : Unit} (steps : Program.Steps Law.free procedure start trace rest ended)
    {bulletin : Bulletin} (answered : ∀ event ∈ trace, bulletin.Answers event.request event.reply) :
    Program.Steps law procedure bulletin trace rest bulletin := by
  induction steps with
  | refl => exact .refl
  | ask _ _ ih =>
    obtain ⟨now, answered⟩ := List.forall_mem_cons.mp answered
    exact .ask ⟨.refl _, now⟩ (ih answered)

end Bulletin

theorem Laps.later {τ : Type} {round : τ → Procedure (Round τ)} {state last : τ} {begun after : Bulletin}
    (laps : Laps Bulletin.law round state begun last after) : begun.Later after := by
  obtain ⟨rounds, laps⟩ := laps
  induction laps with
  | start => exact .refl _
  | again _ ran ih => exact ih.trans (Bulletin.steps_later ran)

end QuorumWarden
