import DesignGraph.Compile.Compiler

/-!
# Successful steps

A compilation step either faults or answers with a value, and in both cases leaves a compiler
behind. `Yields` is the second outcome. The lemmas take a successful step apart into the successful
steps that it is made of, so no later proof opens the layers of the state and of the faults.
-/

namespace DesignGraph.Compilation

variable {α β : Type}

/-- How a step ends: its answer or its fault, and the compiler that it leaves. -/
def outcome (step : Compilation α) (before : Compiler) : Except Fault α × Compiler :=
  Id.run (StateT.run (ExceptT.run step) before)

/-- The step succeeds from `before` with an answer and leaves `after`. -/
def Yields (step : Compilation α) (before : Compiler) (answer : α) (after : Compiler) : Prop :=
  outcome step before = (.ok answer, after)

theorem yields_outcome {step : Compilation α} {before : Compiler} {answer : α}
    (success : (outcome step before).1 = .ok answer) :
    Yields step before answer (outcome step before).2 :=
  Prod.ext success rfl

theorem yields_of_isOk {step : Compilation Unit} {before : Compiler}
    (succeeds : (outcome step before).1.isOk = true) :
    Yields step before () (outcome step before).2 := by
  refine yields_outcome ?_
  cases ending : (outcome step before).1 with
  | error fault => simp [ending, Except.isOk, Except.toBool] at succeeds
  | ok answer => rfl

/-- A step ends in one way. -/
theorem Yields.unique {step : Compilation α} {before after other : Compiler} {answer again : α}
    (first : Yields step before answer after) (second : Yields step before again other) :
    again = answer ∧ other = after := by
  unfold Yields at first second
  rw [first] at second
  obtain ⟨answered, rfl⟩ := Prod.mk.inj second
  exact ⟨(Except.ok.inj answered).symm, rfl⟩

theorem yields_pure {a answer : α} {before after : Compiler} :
    Yields (pure a) before answer after ↔ answer = a ∧ after = before := by
  change (Except.ok a, before) = (Except.ok answer, after) ↔ _
  simp only [Prod.mk.injEq, Except.ok.injEq, eq_comm]

theorem outcome_bind (step : Compilation α) (next : α → Compilation β) (before : Compiler) :
    outcome (step >>= next) before =
      match outcome step before with
      | (.ok a, between) => outcome (next a) between
      | (.error fault, between) => (.error fault, between) := by
  unfold outcome
  change ExceptT.bindCont next (StateT.run (ExceptT.run step) before).1
    (StateT.run (ExceptT.run step) before).2 = _
  rcases StateT.run (ExceptT.run step) before with ⟨fault | a, between⟩ <;> rfl

theorem outcome_get_bind (next : Compiler → Compilation α) (before : Compiler) :
    outcome (get >>= next) before = outcome (next before) before := by
  rw [outcome_bind]
  rfl

/-- A step on the file tree ends as it does there. -/
theorem outcome_onDisk (step : Disk α) (before : Compiler) :
    outcome (onDisk step) before =
      ((step.run.run before.tree).1, { before with tree := (step.run.run before.tree).2 }) := by
  unfold onDisk
  rw [outcome_get_bind]
  rcases step.run.run before.tree with ⟨fault | a, tree⟩ <;> rfl

theorem yields_bind {step : Compilation α} {next : α → Compilation β} {before after : Compiler}
    {answer : β} :
    Yields (step >>= next) before answer after ↔
      ∃ a between, Yields step before a between ∧ Yields (next a) between answer after := by
  unfold Yields
  rw [outcome_bind]
  rcases outcome step before with ⟨fault | a, between⟩
  · simp
  · constructor
    · intro success
      exact ⟨a, between, rfl, success⟩
    · rintro ⟨b, middle, first, rest⟩
      cases first
      exact rest

theorem yields_throw {fault : Fault} {before after : Compiler} {answer : α} :
    ¬ Yields (throw fault) before answer after := by
  intro success
  cases success

theorem yields_get {before after answer : Compiler} :
    Yields get before answer after ↔ answer = before ∧ after = before := by
  change (Except.ok before, before) = (Except.ok answer, after) ↔ _
  simp only [Prod.mk.injEq, Except.ok.injEq, eq_comm]

theorem yields_get_bind {next : Compiler → Compilation α} {before after : Compiler} {answer : α} :
    Yields (get >>= next) before answer after ↔ Yields (next before) before answer after := by
  unfold Yields
  rw [outcome_get_bind]

theorem yields_modify {change : Compiler → Compiler} {before after : Compiler} {answer : Unit} :
    Yields (modify change) before answer after ↔ after = change before := by
  change (Except.ok (), change before) = (Except.ok answer, after) ↔ _
  simp only [Prod.mk.injEq, true_and, eq_comm]

theorem yields_set {compiler before after : Compiler} {answer : PUnit} :
    Yields (set compiler) before answer after ↔ after = compiler := by
  change (Except.ok PUnit.unit, compiler) = (Except.ok answer, after) ↔ _
  simp only [Prod.mk.injEq, true_and, eq_comm]

theorem yields_ofExcept {result : Except Fault α} {before after : Compiler} {answer : α} :
    Yields (ofExcept result) before answer after ↔ result = .ok answer ∧ after = before := by
  cases result with
  | error fault =>
    have never : ¬ Yields (ofExcept (.error fault)) before answer after := yields_throw
    simp [never]
  | ok a =>
    change Yields (pure a) before answer after ↔ _
    simp only [yields_pure, Except.ok.injEq, eq_comm]

theorem yields_ofExcept_bind {result : Except Fault α} {next : α → Compilation β}
    {before after : Compiler} {answer : β} :
    Yields (ofExcept result >>= next) before answer after ↔
      ∃ a, result = .ok a ∧ Yields (next a) before answer after := by
  simp only [yields_bind, yields_ofExcept]
  constructor
  · rintro ⟨a, _, ⟨same, rfl⟩, success⟩
    exact ⟨a, same, success⟩
  · rintro ⟨a, same, success⟩
    exact ⟨a, before, ⟨same, rfl⟩, success⟩

theorem yields_onDisk_iff {step : Disk α} {before after : Compiler} {answer : α} :
    Yields (onDisk step) before answer after ↔
      ∃ tree, step.run.run before.tree = (.ok answer, tree) ∧
        after = { before with tree := tree } := by
  simp only [onDisk, yields_bind, yields_get, and_assoc, exists_and_left, exists_eq_left]
  split
  next result tree ran =>
  simp only [yields_bind, yields_set, yields_ofExcept]
  constructor
  · rintro ⟨_, _, rfl, rfl, rfl⟩
    exact ⟨tree, ran, rfl⟩
  · rintro ⟨_, again, rfl⟩
    obtain ⟨rfl, rfl⟩ := Prod.mk.inj (ran.symm.trans again)
    exact ⟨⟨⟩, _, rfl, rfl, rfl⟩

/-- A step on the file tree leaves the rest of the compiler as it is. -/
theorem yields_onDisk {step : Disk α} {before after : Compiler} {answer : α}
    (success : Yields (onDisk step) before answer after) :
    ∃ tree, after = { before with tree := tree } := by
  obtain ⟨tree, -, left⟩ := yields_onDisk_iff.mp success
  exact ⟨tree, left⟩

theorem yields_warn {warning : Warning} {before after : Compiler} {answer : Unit} :
    Yields (warn warning) before answer after ↔
      after = { before with warnings := before.warnings ++ [warning] } :=
  yields_modify

theorem yields_changeOutput {change : Output → Output} {before after : Compiler} {answer : Unit} :
    Yields (changeOutput change) before answer after ↔
      after = { before with output := change before.output } :=
  yields_modify

theorem yields_mapM_nil {step : α → Compilation β} {before after : Compiler} {answers : List β} :
    Yields ([].mapM step) before answers after ↔ answers = [] ∧ after = before := by
  rw [List.mapM_nil, yields_pure]

theorem yields_mapM_cons {step : α → Compilation β} {a : α} {items : List α}
    {before after : Compiler} {answers : List β} :
    Yields ((a :: items).mapM step) before answers after ↔
      ∃ head between rest, Yields (step a) before head between ∧
        Yields (items.mapM step) between rest after ∧ answers = head :: rest := by
  simp only [List.mapM_cons, yields_bind, yields_pure]
  constructor
  · rintro ⟨head, between, first, rest, final, others, same, rfl⟩
    exact ⟨head, between, rest, first, others, same⟩
  · rintro ⟨head, between, rest, first, others, same⟩
    exact ⟨head, between, first, rest, after, others, same, rfl⟩

theorem yields_forM_nil {step : α → Compilation PUnit} {before after : Compiler}
    {answer : PUnit} : Yields ([].forM step) before answer after ↔ after = before := by
  change Yields (pure ⟨⟩) before answer after ↔ _
  rw [yields_pure]
  simp

theorem yields_forM_cons {step : α → Compilation PUnit} {a : α} {items : List α}
    {before after : Compiler} {answer : PUnit} :
    Yields ((a :: items).forM step) before answer after ↔
      ∃ between, Yields (step a) before ⟨⟩ between ∧
        Yields (items.forM step) between answer after := by
  change Yields (step a >>= fun _ => items.forM step) before answer after ↔ _
  rw [yields_bind]
  constructor
  · rintro ⟨⟨⟩, between, first, rest⟩
    exact ⟨between, first, rest⟩
  · rintro ⟨between, first, rest⟩
    exact ⟨⟨⟩, between, first, rest⟩

end DesignGraph.Compilation
