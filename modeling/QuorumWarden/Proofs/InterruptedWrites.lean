import QuorumWarden.Proofs.MarkerDirectory

/-! Writes of markers that fail or are never finished. All that is seen of a write is seen when the temporary file is
moved, so a marker reads as it did before or as it was meant to. -/

namespace QuorumWarden

open Program (Steps Runs Holds)

/-- What there may be of an order that was not carried out to its end. Bytes are written from the first to the last, but
a directory is made and a file is moved or removed in a single step. -/
inductive FileOrder.Begun (before : FileTree) : FileOrder → FileTree → Prop where
  | untouched {order} : Begun before order before
  | bytes {path bytes written after} (ahead : written <+: bytes) (done : before.writeAt path written = .ok after) :
      Begun before (.writeFile path bytes) after

/-- An order is carried out, or it fails, for whatever reason, once it is begun. -/
def FileOrder.law : Law FileOrder FileOrder.Reply FileTree := fun order before reply after =>
  match reply with
  | .ok () => order.change before = .ok after
  | .error _ => order.Begun before after

/-- What a program leaves when it dies. The order that it waits for may be begun, or carried out unheard. -/
def FileProgram.Abandoned {α : Type} (left : FileProgram α) (state after : FileTree) : Prop :=
  after = state ∨ ∃ order ∈ left.pending, order.Begun state after ∨ order.change state = .ok after

namespace FileProgram

variable {α : Type} {stands : FileTree → Prop} {post : Outcome α → FileTree → Prop} {state : FileTree}

/-- Whatever comes of an order, the tree is left as it may be. -/
def Bears (stands : FileTree → Prop) (order : FileOrder) (state : FileTree) : Prop :=
  ∀ after, order.Begun state after ∨ order.change state = .ok after → stands after

section

variable {ε : Type} {asks : FileOrder → FileTree → Prop}

theorem holds_bind {β : Type} {first : ExceptT ε FileProgram α} {next : α → ExceptT ε FileProgram β}
    {post : Except ε β → FileTree → Prop}
    (holds : Holds FileOrder.law asks (fun outcome after => match outcome with
      | .ok value => Holds FileOrder.law asks post (next value).run after
      | .error error => post (.error error) after) first.run state) :
    Holds FileOrder.law asks post (first >>= next).run state := by
  rw [ExceptT.run_bind]
  refine Holds.bind (holds.mono (fun _ _ asked => asked) fun outcome after ended => ?_)
  cases outcome <;> exact ended

theorem holds_tryCatch {first : ExceptT ε FileProgram α} {handle : ε → ExceptT ε FileProgram α}
    {post : Except ε α → FileTree → Prop}
    (holds : Holds FileOrder.law asks (fun outcome after => match outcome with
      | .ok value => post (.ok value) after
      | .error error => Holds FileOrder.law asks post (handle error).run after) first.run state) :
    Holds FileOrder.law asks post (tryCatch first handle).run state := by
  rw [run_tryCatch]
  refine Holds.bind (holds.mono (fun _ _ asked => asked) fun outcome after ended => ?_)
  cases outcome <;> exact ended

/-- Which activity it was that failed shows in the failure only. -/
theorem holds_during {activity : String} {action : ExceptT FileError FileProgram α}
    (holds : Holds FileOrder.law asks (fun outcome after => match outcome with
      | .ok value => post (.ok value) after
      | .error _ => ∀ failure, post (.error failure) after) action.run state) :
    Holds FileOrder.law asks post (Filing.during activity action).run state := by
  change Holds FileOrder.law asks post (action.run >>= _) state
  refine Holds.bind (holds.mono (fun _ _ asked => asked) fun outcome after ended => ?_)
  cases outcome with
  | ok value => exact ended
  | error error => exact ended _

end

theorem holds_give {order : FileOrder} {post : Except FileError Unit → FileTree → Prop}
    (begun : ∀ after, order.Begun state after → stands after ∧ ∀ error, post (.error error) after)
    (done : ∀ after, order.change state = .ok after → stands after ∧ post (.ok ()) after) :
    Holds FileOrder.law (Bears stands) post order.give.run state := by
  refine ⟨fun after came => came.elim (fun start => (begun after start).1) fun whole => (done after whole).1, ?_⟩
  intro reply after answered
  cases reply with
  | ok reply => exact (done after answered).2
  | error error => exact (begun after answered).2 error

/-- What no directory undoes when it is made is there at any time while those that are missing are made. -/
theorem holds_makeMissing {paths : List String} {kept : FileTree → Prop}
    (keeps : ∀ path ∈ paths, ∀ before after, kept before → before.makeDirectoryAt path = .ok after → kept after)
    (held : kept state) : Holds FileOrder.law (Bears kept) (fun _ after => kept after)
      (Filing.makeMissing (fun path => FileOrder.give (.makeDirectory path)) paths).run state := by
  have given {path : String} (member : path ∈ paths) {before : FileTree} (held : kept before) :
      Holds FileOrder.law (Bears kept) (fun _ after => kept after) (FileOrder.give (.makeDirectory path)).run before := by
    refine holds_give (fun after begun => ?_) fun after made => ?_
    · cases begun
      exact ⟨held, fun _ => held⟩
    · have later := keeps path member _ _ held made
      exact ⟨later, later⟩
  induction paths generalizing state with
  | nil => exact held
  | cons path above ih =>
    have onward {before : FileTree} (held : kept before) := @ih before
      (fun path member => keeps path (List.mem_cons_of_mem _ member)) held
      fun member => given (List.mem_cons_of_mem _ member)
    refine holds_tryCatch ((given List.mem_cons_self held).mono (fun _ _ asked => asked) fun outcome between later => ?_)
    cases outcome with
    | ok => exact later
    | error error =>
      dsimp only
      split
      · exact later
      · refine holds_bind ((onward later).mono (fun _ _ asked => asked) fun outcome after last => ?_)
        cases outcome with
        | ok => exact given List.mem_cons_self last
        | error error => exact last

theorem abandoned_of_holds {program left : FileProgram (Outcome α)} {before after : FileTree}
    {trace : List (Program.Event FileOrder.Reply)}
    (holds : Holds FileOrder.law (Bears stands) post program before)
    (ended : ∀ outcome after, post outcome after → stands after)
    (steps : Steps FileOrder.law program before trace left state) (abandoned : Abandoned left state after) :
    stands after := by
  have there := holds.steps steps
  rcases abandoned with rfl | ⟨order, pending, came⟩
  · cases left with
    | done outcome => exact ended outcome _ there
    | ask order rest => exact there.1 _ (.inl .untouched)
  · exact there.pending order pending after came

/-- What the orders of a program make of a tree is one of the things that may come of them. -/
theorem onTree_lawful (program : ExceptT Failure FileProgram α) (before : FileTree) :
    ∃ trace, Runs FileOrder.law program.run before trace ((onTree program).run before).1
      ((onTree program).run before).2 := by
  suffices lawful : ∀ program : FileProgram (Outcome α), ∃ trace, Runs FileOrder.law program before trace
      ((onTree (ExceptT.mk program)).run before).1 ((onTree (ExceptT.mk program)).run before).2 from lawful program.run
  intro program
  induction program generalizing before with
  | done outcome => exact ⟨[], .refl⟩
  | ask order rest ih =>
    cases came : order.change before with
    | ok after =>
      have answered : FileOrder.law order before (.ok ()) after := came
      rw [onTree_ask (Filing.once_ok came)]
      obtain ⟨trace, onward⟩ := ih (.ok ()) after
      exact ⟨_, .ask answered onward⟩
    | error error =>
      have answered : FileOrder.law order before (.error error) before := FileOrder.Begun.untouched
      rw [onTree_ask (Filing.once_error came)]
      obtain ⟨trace, onward⟩ := ih (.error error) before
      exact ⟨_, .ask answered onward⟩

end FileProgram

namespace MarkerFiles

variable {files : MarkerFiles} {marker : Marker} {before after : FileTree}

/-- A marker shows in a directory that is made as little as in one that is missing. -/
theorem read_makeDirectory {target : String} (onTheWay : Path.components target <+: Path.components files.directory)
    (straight : before.Straight (Path.components files.directory)) (made : before.makeDirectoryAt target = .ok after) :
    files.read after = files.read before ∧ after.Straight (Path.components files.directory) := by
  rcases FileTree.of_makeDirectoryAt made with rfl | ⟨lost, grows⟩
  · exact ⟨rfl, straight⟩
  refine ⟨funext fun marker => read_congr ?_, straight.grown grows⟩
  have lost : before.follow [] (Path.components files.directory) = .error .notFound := by
    obtain ⟨rest, whole⟩ := onTheWay
    rw [← whole, FileTree.follow_append, lost]
    rfl
  cases accepted : FileTree.accept (files.path marker.fileName) with
  | error error =>
    rw [path] at accepted
    rw [entry, entry, FileTree.within, FileTree.within, accepted]
    rfl
  | ok =>
    rw [entry_of_lost accepted lost]
    rcases grows.follow_of_lost straight lost with lost | ⟨reached, followed, created⟩
    · exact entry_of_lost accepted lost
    · rw [entry_of_liesAt accepted followed, ← FileTree.look_eq_error_iff]
      exact FileTree.look_empty_append created _

/-- Where a temporary file could be written, the directory stays what it is. -/
theorem exists_of_writeTemporary {bytes : List UInt8}
    (done : before.writeAt (files.path marker.temporaryName) bytes = .ok after) :
    FileTree.accept (files.path marker.temporaryName) = .ok () ∧
      ∃ way, files.LiesAt before way ∧ files.LiesAt after way ∧
        before.writeFile (way ++ [marker.temporaryName]) bytes = .ok after := by
  rw [path, FileTree.writeAt_join marker.isName_temporaryName marker.isPlain_temporaryName] at done
  obtain ⟨location, found, written⟩ := bind_eq_ok_iff.mp done
  obtain ⟨accepted, way, lies, rfl⟩ := FileTree.exists_of_within found
  obtain ⟨there, spares⟩ := FileTree.spares_writeFile written
  exact ⟨accepted, way, lies, spares.follow lies there, written⟩

/-- Temporary files do not show, whatever is in them. -/
theorem read_writeTemporary {bytes : List UInt8}
    (done : before.writeAt (files.path marker.temporaryName) bytes = .ok after) :
    files.read after = files.read before := by
  obtain ⟨-, way, liesBefore, liesAfter, written⟩ := exists_of_writeTemporary done
  funext other
  apply read_congr
  exact entry_congr liesBefore liesAfter
    ((FileTree.find_writeFile written _).trans (if_neg (other.fileName_ne_temporaryName marker)))

theorem read_replaced {text : String}
    (held : files.entry before marker.temporaryName = .ok (.file (Text.encode text)))
    (done : before.renameAt (files.path marker.temporaryName) (files.path marker.fileName) = .ok after) :
    files.read after = Function.update (files.read before) marker (.ok (some text)) := by
  have different := (marker.fileName_ne_temporaryName marker).symm
  rw [path, path, FileTree.renameAt_join marker.isName_temporaryName marker.isPlain_temporaryName _ _
    marker.isName_fileName marker.isPlain_fileName] at done
  obtain ⟨source, found, seeks⟩ := bind_eq_ok_iff.mp done
  obtain ⟨target, targeted, moves⟩ := bind_eq_ok_iff.mp seeks
  obtain ⟨-, way, liesBefore, rfl⟩ := FileTree.exists_of_within found
  obtain ⟨accepted, _, lies, rfl⟩ := FileTree.exists_of_within targeted
  cases Except.ok.inj (liesBefore.symm.trans lies)
  rw [entry, found] at held
  obtain ⟨there, spares⟩ := FileTree.spares_rename different moves
  have liesAfter : files.LiesAt after way := spares.follow lies there
  have moved (other : Marker) := (FileTree.find_rename held different moves other.fileName).trans
    (if_neg (other.fileName_ne_temporaryName marker))
  funext other
  by_cases here : other = marker
  · rw [here, Function.update_self]
    refine read_file ((entry_of_liesAt accepted liesAfter).trans ?_)
    exact (here ▸ moved other).trans (if_pos rfl)
  · rw [Function.update_of_ne here]
    exact read_congr (entry_congr liesBefore liesAfter
      ((moved other).trans (if_neg (Marker.fileName_injective.ne here))))

variable (files marker)

/-- What a write that was begun may leave. -/
def Unharmed (text : String) (before after : FileTree) : Prop :=
  files.read after = files.read before ∨ files.read after = Function.update (files.read before) marker (.ok (some text))

theorem holds_writing (text : String) (before : FileTree) (straight : before.Straight (Path.components files.directory)) :
    Holds FileOrder.law (FileProgram.Bears (files.Unharmed marker text before))
      (fun outcome after => files.read after = match outcome with
        | .ok () => Function.update (files.read before) marker (.ok (some text))
        | .error _ => files.read before) (files.writing marker text).run before := by
  simp only [writing, replacing, temporary_eq]
  let kept (tree : FileTree) : Prop :=
    files.read tree = files.read before ∧ tree.Straight (Path.components files.directory)
  have making : Holds FileOrder.law (FileProgram.Bears kept) (fun _ after => kept after)
      (FileOrder.makeDirectories files.directory).run before := by
    refine FileProgram.holds_makeMissing (fun path member between after held made => ?_) ⟨rfl, straight⟩
    have onTheWay : Path.components path <+: Path.components files.directory := by
      rcases List.mem_cons.mp member with rfl | above
      · exact List.prefix_rfl
      · exact Path.components_prefix_of_mem_ancestors above
    obtain ⟨same, straight⟩ := read_makeDirectory onTheWay held.2 made
    exact ⟨same.trans held.1, straight⟩
  refine FileProgram.holds_bind (FileProgram.holds_during (making.mono ?_ fun outcome ready held => ?_))
  · exact fun order state bears after came => .inl (bears after came).1
  obtain ⟨shown, -⟩ := held
  cases outcome with
  | error error => exact fun _ => shown
  | ok =>
    refine FileProgram.holds_bind (FileProgram.holds_during (FileProgram.holds_give ?_ ?_))
    · intro after begun
      have same : files.read after = files.read before := by
        cases begun with
        | untouched => exact shown
        | bytes ahead done => exact (read_writeTemporary done).trans shown
      exact ⟨.inl same, fun _ _ => same⟩
    intro written done
    have same : files.read written = files.read before := (read_writeTemporary done).trans shown
    refine ⟨.inl same, FileProgram.holds_during (FileProgram.holds_give ?_ ?_)⟩
    · intro after begun
      cases begun
      exact ⟨.inl same, fun _ _ => same⟩
    · intro after moved
      obtain ⟨accepted, way, -, lies, put⟩ := exists_of_writeTemporary done
      have held : files.entry written marker.temporaryName = .ok (.file (Text.encode text)) :=
        (entry_of_liesAt accepted lies).trans ((FileTree.find_writeFile put _).trans (if_pos rfl))
      have replaced := same ▸ read_replaced held moved
      exact ⟨.inr replaced, replaced⟩

theorem holds_removing (before : FileTree) :
    Holds FileOrder.law (fun _ _ => True)
      (fun outcome after => ∀ failure, outcome = .error failure → files.read after = files.read before)
      (files.removing marker).run before := by
  refine ⟨trivial, fun reply after answered => ?_⟩
  cases reply with
  | ok reply => exact fun _ failed => nomatch failed
  | error error =>
    cases answered
    cases error <;> exact fun _ _ => rfl

/-- It makes no difference to a write whether a temporary file was left behind. -/
theorem write_removeTemporary {dirty clean : FileTree} (text : String)
    (removed : dirty.removeFileAt (files.path marker.temporaryName) = .ok clean) :
    (files.write marker text).run dirty = (files.write marker text).run clean := by
  rw [path, FileTree.removeFileAt_join marker.isName_temporaryName marker.isPlain_temporaryName] at removed
  obtain ⟨location, reached, removed⟩ := bind_eq_ok_iff.mp removed
  obtain ⟨accepted, way, followed, rfl⟩ := FileTree.exists_of_within reached
  have lies : files.LiesAt dirty way := followed
  obtain ⟨found, child, there, directory, updated, rfl⟩ := FileTree.find_of_change removed
  have gone : child = none ∧ FileTree.isReplaceable (found.child? marker.temporaryName) = true := by
    revert updated
    rcases found.child? marker.temporaryName with _ | _ | _ <;> intro updated <;> cases updated
    exact ⟨rfl, rfl⟩
  obtain ⟨rfl, free⟩ := gone
  have emptied := FileTree.find_graft there (found.setChild marker.temporaryName none)
  have ready := FileTree.isDirectory_setChild found marker.temporaryName none
  have vacant : FileTree.isReplaceable
      ((found.setChild marker.temporaryName none).child? marker.temporaryName) = true := by
    rw [FileTree.child?_setChild_self]
    rfl
  have liesClean := lies.graft there directory (FileTree.spares_setChild directory free none)
  rw [write_run accepted text (makeDirectories_of_liesAt accepted lies there directory) lies there directory free,
    write_run accepted text (makeDirectories_of_liesAt accepted liesClean emptied ready) liesClean emptied ready vacant]
  simp only [FileTree.graft_graft, FileTree.setChild_setChild]

/-- A write that fails or dies leaves all markers as they were or the one that is written as it was meant to be, if the
names behind the first one that is missing on the way to the directory are plain. What it puts down beside the marker is
never read and makes no difference to a later write. -/
theorem writing_all_or_nothing (text : String) (before : FileTree)
    (straight : before.Straight (Path.components files.directory)) :
    (∀ trace left state after, Steps FileOrder.law (files.writing marker text).run before trace left state →
      FileProgram.Abandoned left state after → files.read after = files.read before ∨
        files.read after = Function.update (files.read before) marker (.ok (some text))) ∧
    (∀ trace outcome after, Runs FileOrder.law (files.writing marker text).run before trace outcome after →
      files.read after = match outcome with
        | .ok () => Function.update (files.read before) marker (.ok (some text))
        | .error _ => files.read before) ∧
    (∀ (other : Marker) bytes after, before.writeAt (files.path other.temporaryName) bytes = .ok after →
      files.read after = files.read before) ∧
    (∀ clean, before.removeFileAt (files.path marker.temporaryName) = .ok clean →
      (files.write marker text).run before = (files.write marker text).run clean) ∧
    (∀ trace failure after, Runs FileOrder.law (files.removing marker).run before trace (.error failure) after →
      files.read after = files.read before) := by
  have holds := files.holds_writing marker text before straight
  refine ⟨fun trace left state after steps abandoned => ?_, fun trace outcome after runs => holds.steps runs,
    fun other bytes after done => read_writeTemporary done,
    fun clean removed => files.write_removeTemporary marker text removed,
    fun trace failure after runs => (files.holds_removing marker before).steps runs failure rfl⟩
  refine FileProgram.abandoned_of_holds holds (fun outcome after ended => ?_) steps abandoned
  cases outcome with
  | ok value => exact .inr ended
  | error failure => exact .inl ended

/-- A zombie lock in its directory, beside other files. -/
def lockedBeside (others : List (String × FileTree)) : FileTree :=
  .directory [("data", .directory (others ++ [("zombie.lock", .file (Text.encode "node-1"))]))]

/-- A host of which only a part was written is read by nobody. -/
theorem torn_write_unread : (lockedBeside []).Straight (Path.components "data") ∧ ∃ trace left after,
    Steps FileOrder.law (writing ⟨"data"⟩ .zombieLock "node-2").run (lockedBeside []) trace left (lockedBeside []) ∧
      FileProgram.Abandoned left (lockedBeside []) after ∧ after.textAt "data/zombie.tmp" = .ok "nod" ∧
      read ⟨"data"⟩ after .zombieLock = .ok (some "node-1") := by
  have straight : (lockedBeside []).Straight (Path.components "data") := by
    have names : Path.components "data" = ["data"] := by rfl
    refine FileTree.straight_of_plain fun name member => ?_
    rw [names] at member
    rw [List.mem_singleton.mp member]
    exact ⟨by decide, by decide⟩
  have answered : FileOrder.law (.makeDirectory "data") (lockedBeside []) (.ok ()) (lockedBeside []) := by rfl
  have written : (lockedBeside []).writeAt (path ⟨"data"⟩ "zombie.tmp") (Text.encode "nod") =
      .ok (lockedBeside [("zombie.tmp", .file (Text.encode "nod"))]) := by rfl
  have torn : (FileOrder.writeFile (path ⟨"data"⟩ "zombie.tmp") (Text.encode "node-2")).Begun (lockedBeside [])
      (lockedBeside [("zombie.tmp", .file (Text.encode "nod"))]) := .bytes ⟨Text.encode "e-2", by rfl⟩ written
  have steps : Steps FileOrder.law (writing ⟨"data"⟩ .zombieLock "node-2").run (lockedBeside []) [⟨_, .ok ()⟩] _
      (lockedBeside []) := .ask answered .refl
  refine ⟨straight, _, _, _, steps, .inr ⟨_, rfl, .inl torn⟩, by rfl, ?_⟩
  rcases (writing_all_or_nothing ⟨"data"⟩ .zombieLock "node-2" (lockedBeside []) straight).1 _ _ _ _ steps
    (.inr ⟨_, rfl, .inl torn⟩) with same | replaced
  · rw [same]
    rfl
  · have told : (.ok (some "node-1") : Outcome (Option String)) = .ok (some "node-2") := congrFun replaced .zombieLock
    simp at told

end MarkerFiles

end QuorumWarden
