import DesignGraph.Export
import Mathlib.Data.List.Basic

/-!
# Commands in order

The steps of an export run commands and end with the first that fails. `RunsInOrder` says this of
how a step has ended: how many of its planned commands were run follows from the answers alone, and
so does whether the step came to its end. Steps that run their commands in order do so one after the
other.
-/

namespace DesignGraph

def CommandAnswer.succeeds : CommandAnswer → Bool
  | .finished _ _ status => status = 0
  | _ => false

/-- What a command says, without blanks at either end. -/
def CommandAnswer.text : CommandAnswer → String
  | .finished output _ _ => Text.trimmed output
  | _ => ""

/-- The answer to the command that is run after `n` others. -/
def Transcript.answer (t : Transcript) (n : Nat) : CommandAnswer :=
  t.answers[n]?.getD (.finished "" "" 0)

/-- The transcript after one more command. -/
def Transcript.noted (t : Transcript) (args : List String) : Transcript :=
  { t with answers := t.answers.tail, calls := t.calls ++ [args] }

def Transcript.reported (t : Transcript) (message : String) : Transcript :=
  { t with progress := t.progress ++ [message] }

@[simp] theorem Transcript.calls_noted (t : Transcript) (args : List String) :
    (t.noted args).calls = t.calls ++ [args] := rfl

@[simp] theorem Transcript.answers_noted (t : Transcript) (args : List String) :
    (t.noted args).answers = t.answers.drop 1 :=
  List.drop_one.symm

@[simp] theorem Transcript.calls_reported (t : Transcript) (message : String) :
    (t.reported message).calls = t.calls := rfl

@[simp] theorem Transcript.answer_reported (t : Transcript) (message : String) (n : Nat) :
    (t.reported message).answer n = t.answer n := rfl

/-- The answers are used up from the front. -/
theorem Transcript.answer_of_drop {before after : Transcript} {count : Nat}
    (dropped : after.answers = before.answers.drop count) (n : Nat) :
    after.answer n = before.answer (count + n) := by
  rw [answer, dropped, List.getElem?_drop, answer]

namespace Exporting

variable {α β : Type} {before : Transcript}

/-- How a step ends: its answer or its fault, and the transcript that it leaves. -/
def outcome (step : Exporting α) (before : Transcript) : Except Fault α × Transcript :=
  Id.run (StateT.run (ExceptT.run step) before)

theorem outcome_bind (step : Exporting α) (next : α → Exporting β) (before : Transcript) :
    outcome (step >>= next) before =
      match outcome step before with
      | (.ok a, between) => outcome (next a) between
      | (.error fault, between) => (.error fault, between) := by
  unfold outcome
  change ExceptT.bindCont next (StateT.run (ExceptT.run step) before).1
    (StateT.run (ExceptT.run step) before).2 = _
  rcases StateT.run (ExceptT.run step) before with ⟨fault | a, between⟩ <;> rfl

@[simp] theorem outcome_pure (a : α) (before : Transcript) :
    outcome (pure a) before = (.ok a, before) := rfl

@[simp] theorem outcome_throw (fault : Fault) (before : Transcript) :
    outcome (throw fault : Exporting α) before = (.error fault, before) := rfl

@[simp] theorem outcome_fail (message : String) (before : Transcript) :
    outcome (fail message : Exporting α) before = (.error (.exporter (.tool message)), before) :=
  rfl

@[simp] theorem outcome_ofExcept (result : Except Fault α) (before : Transcript) :
    outcome (ofExcept result) before = (result, before) := by
  cases result <;> rfl

theorem outcome_report_bind (message : String) (next : Unit → Exporting α) (before : Transcript) :
    outcome (report message >>= next) before = outcome (next ()) (before.reported message) := by
  rw [outcome_bind]
  rfl

theorem outcome_nextAnswer (args : List String) (before : Transcript) :
    outcome (nextAnswer args) before = (.ok (before.answer 0), before.noted args) := by
  rw [Transcript.answer, ← List.head?_eq_getElem?]
  rfl

theorem outcome_runCommand_of_succeeds (succeeds : (before.answer 0).succeeds = true)
    (args : List String) (timeout : String) :
    outcome (runCommand args timeout) before = (.ok (before.answer 0).text, before.noted args) := by
  simp only [runCommand, outcome_bind, outcome_nextAnswer]
  cases answered : before.answer 0 with
  | notFound | timedOut =>
    rw [answered] at succeeds
    cases succeeds
  | finished output errors status =>
    have zero : status = 0 := by simpa [answered, CommandAnswer.succeeds] using succeeds
    simp [zero, CommandAnswer.text]

/-- Whatever the reason for which a command fails, the fault is one of its tool. -/
theorem outcome_runCommand_of_fails (fails : (before.answer 0).succeeds = false)
    (args : List String) (timeout : String) :
    ∃ message, outcome (runCommand args timeout) before =
      (.error (.exporter (.tool message)), before.noted args) := by
  simp only [runCommand, outcome_bind, outcome_nextAnswer]
  cases answered : before.answer 0 with
  | notFound | timedOut => exact ⟨_, rfl⟩
  | finished output errors status =>
    have notZero : status ≠ 0 := by simpa [answered, CommandAnswer.succeeds] using fails
    simp only [if_neg notZero]
    exact ⟨_, rfl⟩

/-! ## Steps that run planned commands -/

/-- How a step has ended that runs planned commands one after the other and stops at the first that
fails: `count` of them were run. -/
structure RunsInOrder (planned : List (List String)) (before : Transcript)
    (ending : Except Fault α × Transcript) (count : Nat) : Prop where
  calls : ending.2.calls = before.calls ++ planned.take count
  answers : ending.2.answers = before.answers.drop count
  within : count ≤ planned.length
  /-- A command is run exactly if all before it succeed. -/
  reaches : ∀ n < planned.length, n < count ↔ ∀ m < n, (before.answer m).succeeds = true
  returns : ending.1.isOk = true ↔ ∀ n < planned.length, (before.answer n).succeeds = true
  fails : ∀ fault, ending.1 = .error fault → ∃ message, fault = .exporter (.tool message)

/-- A step that returns has run all of its commands. -/
theorem RunsInOrder.count_of_returns {planned : List (List String)}
    {ending : Except Fault α × Transcript} {count : Nat}
    (inOrder : RunsInOrder planned before ending count) (returned : ending.1.isOk = true) :
    count = planned.length := by
  have all := inOrder.returns.mp returned
  rcases Nat.lt_or_ge count planned.length with short | enough
  · exact absurd ((inOrder.reaches count short).mpr fun m before => all m (by omega))
      (Nat.lt_irrefl count)
  · exact Nat.le_antisymm inOrder.within enough

theorem runsInOrder_pure (a : α) (before : Transcript) :
    RunsInOrder [] before (outcome (pure a) before) 0 := by
  constructor <;> simp [Except.isOk, Except.toBool]

theorem exists_runsInOrder_runCommand (args : List String) (timeout : String)
    (before : Transcript) :
    ∃ count, RunsInOrder [args] before (outcome (runCommand args timeout) before) count := by
  refine ⟨1, ?_⟩
  cases answered : (before.answer 0).succeeds with
  | true =>
    rw [outcome_runCommand_of_succeeds answered]
    constructor <;> simp [answered, Except.isOk, Except.toBool]
  | false =>
    obtain ⟨message, ending⟩ := outcome_runCommand_of_fails answered args timeout
    rw [ending]
    constructor <;> simp [answered, Except.isOk, Except.toBool]

/-- What is reported is no command. -/
theorem exists_runsInOrder_report_bind {planned : List (List String)} {next : Unit → Exporting α}
    (message : String) (inOrder : ∀ between, between.answers = before.answers →
      ∃ count, RunsInOrder planned between (outcome (next ()) between) count) :
    ∃ count, RunsInOrder planned before (outcome (report message >>= next) before) count := by
  rw [outcome_report_bind]
  obtain ⟨count, calls, answers, within, reaches, returns, fails⟩ :=
    inOrder (before.reported message) rfl
  exact ⟨count, calls, answers, within, reaches, returns, fails⟩

/-- Two steps one after the other run the commands of both. -/
theorem exists_runsInOrder_bind {first second : List (List String)} {step : Exporting α}
    {next : α → Exporting β}
    (begins : ∃ count, RunsInOrder first before (outcome step before) count)
    (goesOn : ∀ a between, outcome step before = (.ok a, between) →
      ∃ count, RunsInOrder second between (outcome (next a) between) count) :
    ∃ count, RunsInOrder (first ++ second) before (outcome (step >>= next) before) count := by
  obtain ⟨count, begins⟩ := begins
  rw [outcome_bind]
  rcases ending : outcome step before with ⟨fault | a, between⟩ <;> rw [ending] at begins
  · -- The first step has ended with a command that failed, so no command of the second is reached.
    have failed : ¬ ∀ n < first.length, (before.answer n).succeeds = true := by
      rw [← begins.returns]
      simp [Except.isOk, Except.toBool]
    have within := begins.within
    refine ⟨count, ?_, begins.answers, ?_, fun n reached => ?_, ?_, fun other failing => ?_⟩
    · rw [List.take_append_of_le_length within]
      exact begins.calls
    · rw [List.length_append]
      omega
    · rcases Nat.lt_or_ge n first.length with early | late
      · exact begins.reaches n early
      · exact iff_of_false (by omega) fun all => failed fun m early => all m (by omega)
    · refine iff_of_false (by simp [Except.isOk, Except.toBool]) fun all => failed fun n early => ?_
      exact all n (by rw [List.length_append]; omega)
    · exact begins.fails other (congrArg Except.error (Except.error.inj failing))
  · obtain ⟨more, goesOn⟩ := goesOn a between ending
    obtain rfl : count = first.length := begins.count_of_returns rfl
    have succeeded := begins.returns.mp rfl
    have answer_eq := Transcript.answer_of_drop begins.answers
    have all_iff : ∀ n, (∀ m < first.length + n, (before.answer m).succeeds = true) ↔
        ∀ m < n, (between.answer m).succeeds = true := by
      intro n
      constructor
      · intro all m before_n
        rw [answer_eq]
        exact all _ (by omega)
      · intro all m before_n
        rcases Nat.lt_or_ge m first.length with early | late
        · exact succeeded m early
        · obtain ⟨k, rfl⟩ := Nat.exists_eq_add_of_le late
          rw [← answer_eq]
          exact all k (by omega)
    refine ⟨first.length + more, ?_, ?_, ?_, fun n reached => ?_, ?_, goesOn.fails⟩
    · rw [goesOn.calls, begins.calls, List.take_length, List.take_length_add_append,
        List.append_assoc]
    · rw [goesOn.answers, begins.answers, List.drop_drop]
    · have within := goesOn.within
      rw [List.length_append]
      omega
    · rcases Nat.lt_or_ge n first.length with early | late
      · exact iff_of_true (by omega) fun m before_n => succeeded m (by omega)
      · obtain ⟨k, rfl⟩ := Nat.exists_eq_add_of_le late
        rw [all_iff, ← goesOn.reaches k (by rw [List.length_append] at reached; omega)]
        omega
    · rw [goesOn.returns, List.length_append, all_iff]

/-- A step for each of several items, each with a command of its own. -/
theorem exists_runsInOrder_forM {step : α → Exporting Unit} {command : α → List String}
    (each : ∀ item before,
      ∃ count, RunsInOrder [command item] before (outcome (step item) before) count)
    (items : List α) (before : Transcript) :
    ∃ count, RunsInOrder (items.map command) before (outcome (items.forM step) before) count := by
  induction items generalizing before with
  | nil => exact ⟨0, runsInOrder_pure () before⟩
  | cons item items ih =>
    rw [List.map_cons, ← List.singleton_append]
    exact exists_runsInOrder_bind (each item before) fun _ between _ => ih between

end Exporting

end DesignGraph
