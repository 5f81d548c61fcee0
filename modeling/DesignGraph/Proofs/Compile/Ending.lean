import DesignGraph.Proofs.Compile.Success

/-!
# How steps end

`Alike` says three things of two steps that begin in the same surroundings: they end in the same
way, they leave the surroundings as they are, and the answer or the fault is an expected one. With
one step for both it is a rule about that step; with two it says besides that what differs between
them does not show. The lemmas put steps together, so no later proof opens the layers of the state
and of the faults.
-/

namespace DesignGraph

/-- What an asset binder may look at in a compiler. -/
def Setup.surroundings (setup : Setup) (compiler : Compiler) : Surroundings :=
  ⟨setup.target, compiler.tree, compiler.program, compiler.hotUrl⟩

namespace Compilation

variable {α β : Type}

/-- An ending with an expected answer or an expected fault, in the same surroundings. -/
structure Expected (setup : Setup) (around : Surroundings) (faults : Fault → Prop)
    (answers : α → Prop) (ending : Except Fault α × Compiler) : Prop where
  surroundings_eq : setup.surroundings ending.2 = around
  answered : ∀ {answer : α}, ending.1 = .ok answer → answers answer
  faulted : ∀ {fault : Fault}, ending.1 = .error fault → faults fault

/-- From these surroundings both steps end in the same way, which is an expected one. -/
def Alike (setup : Setup) (around : Surroundings) (faults : Fault → Prop) (answers : α → Prop)
    (step other : Compilation α) : Prop :=
  ∀ compiler : Compiler, setup.surroundings compiler = around →
    outcome other compiler = outcome step compiler ∧
      Expected setup around faults answers (outcome step compiler)

variable {setup : Setup} {around : Surroundings} {faults : Fault → Prop} {answers : α → Prop}

theorem alike_pure {a : α} (expected : answers a) :
    Alike setup around faults answers (pure a) (pure a) := by
  intro compiler same
  refine ⟨rfl, same, ?_, ?_⟩
  · rintro _ ⟨⟩
    exact expected
  · rintro _ ⟨⟩

theorem alike_throw {fault : Fault} (expected : faults fault) :
    Alike setup around faults answers (throw fault) (throw fault) := by
  intro compiler same
  refine ⟨rfl, same, ?_, ?_⟩
  · rintro _ ⟨⟩
  · rintro _ ⟨⟩
    exact expected

theorem alike_get : Alike setup around faults
    (fun compiler => setup.surroundings compiler = around) get get := by
  intro compiler same
  refine ⟨rfl, same, ?_, ?_⟩
  · rintro _ ⟨⟩
    exact same
  · rintro _ ⟨⟩

theorem alike_modify {change : Compiler → Compiler}
    (keeps : ∀ compiler, setup.surroundings (change compiler) = setup.surroundings compiler) :
    Alike setup around faults (fun _ => True) (modify change) (modify change) := by
  intro compiler same
  refine ⟨rfl, (keeps compiler).trans same, fun _ => trivial, ?_⟩
  rintro _ ⟨⟩

theorem alike_warn (warning : Warning) :
    Alike setup around faults (fun _ => True) (warn warning) (warn warning) :=
  alike_modify fun _ => rfl

theorem alike_changeOutput (change : Output → Output) :
    Alike setup around faults (fun _ => True) (changeOutput change) (changeOutput change) :=
  alike_modify fun _ => rfl

theorem alike_ofExcept {result : Except Fault α}
    (expected : ∀ fault, result = .error fault → faults fault) :
    Alike setup around faults (fun a => result = .ok a) (ofExcept result) (ofExcept result) := by
  cases result with
  | error fault => exact alike_throw (expected fault rfl)
  | ok a =>
    intro compiler same
    refine ⟨rfl, same, fun answered => answered, ?_⟩
    rintro _ ⟨⟩

/-- Two steps in a row: the second may rely on an expected answer of the first. -/
theorem Alike.bind {expected : β → Prop} {step other : Compilation α}
    {next following : α → Compilation β} (head : Alike setup around faults answers step other)
    (tail : ∀ a, answers a → Alike setup around faults expected (next a) (following a)) :
    Alike setup around faults expected (step >>= next) (other >>= following) := by
  intro compiler same
  obtain ⟨equal, kept, answered, faulted⟩ := head compiler same
  rw [outcome_bind, outcome_bind, equal]
  rcases ending : outcome step compiler with ⟨fault | a, between⟩
  · rw [ending] at kept faulted
    refine ⟨rfl, kept, ?_, ?_⟩
    · rintro _ ⟨⟩
    · rintro _ ⟨⟩
      exact faulted rfl
  · rw [ending] at kept answered
    exact tail a (answered rfl) between kept

theorem alike_mapM {step other : α → Compilation β} {items : List α}
    (each : ∀ a ∈ items, Alike setup around faults (fun _ => True) (step a) (other a)) :
    Alike setup around faults (fun _ => True) (items.mapM step) (items.mapM other) := by
  induction items with
  | nil =>
    rw [List.mapM_nil, List.mapM_nil]
    exact alike_pure trivial
  | cons a rest ih =>
    rw [List.mapM_cons, List.mapM_cons]
    refine (each a List.mem_cons_self).bind fun _ _ => ?_
    refine (ih fun b member => each b (List.mem_cons_of_mem a member)).bind fun _ _ => ?_
    exact alike_pure trivial

theorem alike_forM {step other : α → Compilation PUnit} {items : List α}
    (each : ∀ a ∈ items, Alike setup around faults (fun _ => True) (step a) (other a)) :
    Alike setup around faults (fun _ => True) (items.forM step) (items.forM other) := by
  induction items with
  | nil => exact alike_pure trivial
  | cons a rest ih =>
    exact (each a List.mem_cons_self).bind fun _ _ =>
      ih fun b member => each b (List.mem_cons_of_mem a member)

end Compilation

end DesignGraph
