import DesignGraph.Compile.Run
import DesignGraph.Proofs.Compile.Representative

/-!
# Runs

A run begins from the program at hand and an empty output, whatever the compiler has put together
before. `begun` is that beginning, and a successful run is a walk from it and a package after that.
-/

namespace DesignGraph.Compilation

variable {setup : Setup} {before after : Compiler}

/-- How a run on a program begins. -/
def begun (setup : Setup) (program : Program) (compiler : Compiler) : Compiler :=
  { compiler with
    program := program
    output := setup.target.seed setup.installed
    warnings := []
    isRunning := true }

/-- The end of a run is that of its steps, except that it is no longer under way. -/
theorem outcome_run (program? : Option Program) (before : Compiler) :
    outcome (run setup program?) before =
      let ending := outcome (runCleared setup)
        (begun setup (program?.getD before.program) before)
      (ending.1, { ending.2 with isRunning := false }) := by
  have last : ∀ (compiler : Compiler), outcome (do
        let result ← ExceptT.lift (ExceptT.run (runCleared setup))
        setRunning false
        ofExcept result) compiler =
      ((outcome (runCleared setup) compiler).1,
        { (outcome (runCleared setup) compiler).2 with isRunning := false }) := by
    intro compiler
    have lifted : outcome (ExceptT.lift (ExceptT.run (runCleared setup))) compiler =
        (.ok (outcome (runCleared setup) compiler).1, (outcome (runCleared setup) compiler).2) :=
      rfl
    rw [outcome_bind, lifted]
    rcases outcome (runCleared setup) compiler with ⟨fault | result, ended⟩ <;> rfl
  cases program? with
  | none => exact last _
  | some program => exact last _

theorem run_yields {program? : Option Program} {result : CompilationResult} :
    (run setup program?).Yields before result after ↔
      ∃ walked package final,
        (walkRoots setup).Yields (begun setup (program?.getD before.program) before) () walked ∧
        (writePackage setup).Yields walked package final ∧
        result = ⟨setup.sdkRoot, package.files, final.warnings, package.data⟩ ∧
        after = { final with isRunning := false } := by
  have cleared : ∀ ended, (runCleared setup).Yields
      (begun setup (program?.getD before.program) before) result ended ↔
        ∃ walked,
          (walkRoots setup).Yields (begun setup (program?.getD before.program) before) () walked ∧
          ∃ package, (writePackage setup).Yields walked package ended ∧
            result = ⟨setup.sdkRoot, package.files, ended.warnings, package.data⟩ := by
    intro ended
    simp only [runCleared, yields_bind, yields_get, yields_pure, and_assoc, exists_and_left,
      exists_eq_left]
    constructor
    · rintro ⟨_, walked, walking, package, _, written, rfl, rfl⟩
      exact ⟨walked, walking, package, written, rfl⟩
    · rintro ⟨walked, walking, package, written, rfl⟩
      exact ⟨(), walked, walking, package, _, written, rfl, rfl⟩
  rw [Yields, outcome_run]
  rcases ending : outcome (runCleared setup)
    (begun setup (program?.getD before.program) before) with ⟨answer, ended⟩
  constructor
  · intro success
    cases success
    obtain ⟨walked, walking, package, written, answered⟩ := (cleared ended).mp ending
    exact ⟨walked, package, ended, walking, written, answered, rfl⟩
  · rintro ⟨walked, package, final, walking, written, answered, rfl⟩
    have steps := (cleared final).mpr ⟨walked, walking, package, written, answered⟩
    obtain ⟨rfl, rfl⟩ := Prod.mk.inj (ending.symm.trans steps)
    rfl

end DesignGraph.Compilation
