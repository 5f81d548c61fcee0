import DesignGraph.Proofs.FileTree
import DesignGraph.Template.Skeleton

/-!
# Filling in skeletons

A step on a file tree that is known to succeed is done with, and so is a file of a skeleton whose
template renders and whose directory is there.
-/

namespace DesignGraph

/-- The characters of a text of lines are told line by line. -/
theorem Text.toList_ofLines (lines : List String) :
    (Text.ofLines lines).toList = lines.flatMap fun line => line.toList ++ ['\n'] := by
  unfold Text.ofLines
  induction lines with
  | nil => rfl
  | cons line lines ih => simp [String.join_cons, ih]

namespace Disk

theorem run_bind {α β : Type} {step : Disk α} {next : α → Disk β} {before between : FileTree}
    {a : α} (first : step.run.run before = (.ok a, between)) :
    (step >>= next).run.run before = (next a).run.run between := by
  change ExceptT.bindCont next (StateT.run (ExceptT.run step) before).1
    (StateT.run (ExceptT.run step) before).2 = _
  rw [first]
  rfl

/-- A fault ends the steps. -/
theorem run_bind_error {α β : Type} {step : Disk α} {next : α → Disk β}
    {before between : FileTree} {fault : Fault}
    (first : step.run.run before = (.error fault, between)) :
    (step >>= next).run.run before = (.error fault, between) := by
  change ExceptT.bindCont next (StateT.run (ExceptT.run step) before).1
    (StateT.run (ExceptT.run step) before).2 = _
  rw [first]
  rfl

theorem exists_of_run_bind {α β : Type} {step : Disk α} {next : α → Disk β}
    {before after : FileTree} {b : β} (ran : (step >>= next).run.run before = (.ok b, after)) :
    ∃ a between, step.run.run before = (.ok a, between) ∧
      (next a).run.run between = (.ok b, after) := by
  rcases ending : step.run.run before with ⟨fault | a, between⟩
  · rw [run_bind_error ending] at ran
    cases ran
  · rw [run_bind ending] at ran
    exact ⟨a, between, rfl, ran⟩

/-- The fault that ends two steps is that of one of them. -/
theorem of_run_bind_error {α β : Type} {step : Disk α} {next : α → Disk β}
    {before after : FileTree} {fault : Fault}
    (ran : (step >>= next).run.run before = (.error fault, after)) :
    step.run.run before = (.error fault, after) ∨
      ∃ a between, step.run.run before = (.ok a, between) ∧
        (next a).run.run between = (.error fault, after) := by
  rcases ending : step.run.run before with ⟨other | a, between⟩
  · rw [run_bind_error ending] at ran
    cases ran
    exact .inl rfl
  · rw [run_bind ending] at ran
    exact .inr ⟨a, between, rfl, ran⟩

/-- A fault that ends the steps on a list is that of the step on one item, after all steps on the
items before it. -/
theorem exists_of_run_mapM_error {α β : Type} {step : α → Disk β} {items : List α}
    {before after : FileTree} {fault : Fault}
    (ran : (items.mapM step).run.run before = (.error fault, after)) :
    ∃ front item back answers between, items = front ++ item :: back ∧
      (front.mapM step).run.run before = (.ok answers, between) ∧
      (step item).run.run between = (.error fault, after) := by
  induction items generalizing before with
  | nil =>
    rw [List.mapM_nil] at ran
    cases ran
  | cons item items ih =>
    rw [List.mapM_cons] at ran
    rcases of_run_bind_error ran with refused | ⟨answer, _, first, ran⟩
    · exact ⟨[], item, items, [], before, rfl, rfl, refused⟩
    · rcases of_run_bind_error ran with refused | ⟨_, _, _, ran⟩
      · obtain ⟨front, last, back, answers, between, rfl, early, refused⟩ := ih refused
        refine ⟨item :: front, last, back, answer :: answers, between, rfl, ?_, refused⟩
        rw [List.mapM_cons, run_bind first, run_bind early]
        rfl
      · cases ran

theorem run_mapM_error {α β : Type} {step : α → Disk β} {front : List α} {answers : List β}
    {item : α} {before between after : FileTree} {fault : Fault}
    (early : (front.mapM step).run.run before = (.ok answers, between))
    (refused : (step item).run.run between = (.error fault, after)) (back : List α) :
    ((front ++ item :: back).mapM step).run.run before = (.error fault, after) := by
  rw [List.mapM_append, run_bind early, List.mapM_cons]
  exact run_bind_error (run_bind_error refused)

theorem run_ofExcept_ok {α : Type} (a : α) (tree : FileTree) :
    (Disk.ofExcept (.ok a)).run.run tree = (.ok a, tree) :=
  rfl

theorem of_run_ofExcept {α : Type} {result : Except Fault α} {a : α} {before after : FileTree}
    (ran : (Disk.ofExcept result).run.run before = (.ok a, after)) :
    result = .ok a ∧ after = before := by
  cases result <;> cases ran
  exact ⟨rfl, rfl⟩

theorem run_change {step : FileTree → Except FileTree.Refusal FileTree}
    {before after : FileTree} (changed : step before = .ok after) :
    (Disk.change step).run.run before = (.ok (), after) := by
  change StateT.run (ExceptT.run (Disk.refusable (step before) >>= fun tree => set tree)) before = _
  rw [changed]
  rfl

theorem of_run_change {step : FileTree → Except FileTree.Refusal FileTree}
    {before after : FileTree} (ran : (Disk.change step).run.run before = (.ok (), after)) :
    step before = .ok after := by
  change StateT.run (ExceptT.run (Disk.refusable (step before) >>= fun tree => set tree)) before = _
    at ran
  cases changed : step before with
  | error refusal =>
    rw [changed] at ran
    cases ran
  | ok tree =>
    rw [changed] at ran
    cases ran
    rfl

/-- Making directories leaves what is made, or what was made before the refusal. -/
theorem run_makeDirectories_eq (path : Path) (before : FileTree) :
    (Disk.makeDirectories path).run.run before =
      match before.makeDirectoriesTo path path.parts.length with
      | .ok made => (.ok (), made)
      | .error (refusal, left) => (.error (.ofRefusal refusal), left) := by
  change StateT.run (ExceptT.run (Disk.leave (before.makeDirectoriesTo path _))) before = _
  cases before.makeDirectoriesTo path path.parts.length <;> rfl

theorem run_makeDirectories {path : Path} {before after : FileTree}
    (made : before.makeDirectories path = .ok after) :
    (Disk.makeDirectories path).run.run before = (.ok (), after) := by
  rw [run_makeDirectories_eq, FileTree.makeDirectories_eq_ok_iff.mp made]

theorem of_run_makeDirectories {path : Path} {before after : FileTree}
    (ran : (Disk.makeDirectories path).run.run before = (.ok (), after)) :
    before.makeDirectories path = .ok after := by
  rw [run_makeDirectories_eq] at ran
  rw [FileTree.makeDirectories_eq_ok_iff]
  split at ran
  · next made =>
    cases ran
    exact made
  · cases ran

theorem run_writeText {path : Path} {text : String} {before after : FileTree}
    (written : before.write path text.toUTF8 = .ok after) :
    (Disk.writeText path text).run.run before = (.ok (), after) :=
  run_change written

/-- A tree that is changed at once, or not at all. -/
def outcome {α : Type} (before : FileTree) (answer : α) :
    Except Fault FileTree → Except Fault α × FileTree
  | .error fault => (.error fault, before)
  | .ok after => (.ok answer, after)

theorem outcome_eq_ok_iff {α : Type} {before after : FileTree} {answer a : α}
    {result : Except Fault FileTree} :
    outcome before answer result = (.ok a, after) ↔ answer = a ∧ result = .ok after := by
  cases result <;> simp [outcome]

theorem outcome_eq_error_iff {α : Type} {before after : FileTree} {answer : α} {fault : Fault}
    {result : Except Fault FileTree} :
    outcome before answer result = (.error fault, after) ↔
      before = after ∧ result = .error fault := by
  cases result <;> simp [outcome, and_comm]

theorem run_change_pure {α : Type} (step : FileTree → Except FileTree.Refusal FileTree) (answer : α)
    (before : FileTree) : (do Disk.change step; pure answer : Disk α).run.run before =
      outcome before answer ((step before).mapError Fault.ofRefusal) := by
  cases changed : step before with
  | error refusal =>
    have refused : (Disk.change step).run.run before = (.error (.ofRefusal refusal), before) := by
      change StateT.run (ExceptT.run (Disk.refusable (step before) >>= fun tree => set tree))
        before = _
      rw [changed]
      rfl
    exact run_bind_error refused
  | ok after => exact run_bind (run_change changed)

theorem run_read_eq (path : Path) (before : FileTree) :
    (Disk.read path).run.run before = ((before.read path).mapError Fault.ofRefusal, before) := by
  change StateT.run (ExceptT.run (Disk.refusable (before.read path))) before = _
  cases before.read path <;> rfl

end Disk

namespace Template

variable {source content : String} {data : List (String × Value)}

theorem renderAt_eq_ok {path : Path} (rendered : render source data = .ok content) :
    renderAt path (some source) data = .ok content := by
  simp only [renderAt, rendered]

/-- A template is filled in below a directory that is there already. -/
theorem Piece.fill_template {piece : Piece} {destination : Path} {before after : FileTree}
    {name : String} (isTemplate : piece.isTemplate = true) (sourced : piece.text = some source)
    (named : renderText piece.name data = .ok name)
    (made : before.makeDirectories (destination.joinText name).parent = .ok before)
    (rendered : render source data = .ok content)
    (written : before.write (destination.joinText name).withoutSuffix content.toUTF8 = .ok after) :
    (piece.fill destination data).run.run before =
      (.ok (destination.joinText name).withoutSuffix, after) := by
  have text_eq : piece.source = pure source := by
    unfold Piece.source
    rw [sourced]
  have content_eq : renderAt piece.origin (some source) data = .ok content :=
    renderAt_eq_ok rendered
  unfold Piece.fill
  rw [named, Disk.run_bind (Disk.run_ofExcept_ok name before)]
  dsimp only
  rw [Disk.run_bind (Disk.run_makeDirectories made), if_pos isTemplate, text_eq, pure_bind,
    content_eq, Disk.run_bind (Disk.run_ofExcept_ok content before),
    Disk.run_bind (Disk.run_writeText written)]
  rfl

end Template

end DesignGraph
