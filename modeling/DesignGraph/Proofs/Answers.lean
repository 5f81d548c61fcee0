import Mathlib.Data.List.Forall2
import Mathlib.Tactic.SplitIfs

/-!
# Answers on lists

A step that is taken on every item of a list, and does not fail, has an answer for each item in the
order of the items. `List.Forall₂` pairs the two lists.
-/

namespace DesignGraph.Answers

variable {α β ε : Type} {items : List α} {answers : List β} {related : α → β → Prop}

theorem exists_answer (paired : List.Forall₂ related items answers) {item : α}
    (member : item ∈ items) : ∃ answer ∈ answers, related item answer := by
  induction paired with
  | nil => cases member
  | cons first _ ih =>
    rcases List.mem_cons.mp member with rfl | member
    · exact ⟨_, List.mem_cons_self, first⟩
    · obtain ⟨answer, listed, found⟩ := ih member
      exact ⟨answer, List.mem_cons_of_mem _ listed, found⟩

theorem exists_item (paired : List.Forall₂ related items answers) {answer : β}
    (member : answer ∈ answers) : ∃ item ∈ items, related item answer :=
  exists_answer (List.Forall₂.flip (R := flip related) paired) member

/-- The answer to an item comes after those to the items before it. -/
theorem exists_split {front back : List α} {item : α}
    (paired : List.Forall₂ related (front ++ item :: back) answers) :
    ∃ early answer late, answers = early ++ answer :: late ∧
      List.Forall₂ related front early ∧ related item answer ∧
      List.Forall₂ related back late := by
  induction front generalizing answers with
  | nil =>
    obtain ⟨answer, late, first, others, rfl⟩ := List.forall₂_cons_left_iff.mp paired
    exact ⟨[], answer, late, rfl, .nil, first, others⟩
  | cons other front ih =>
    obtain ⟨head, rest, first, others, rfl⟩ := List.forall₂_cons_left_iff.mp paired
    obtain ⟨early, answer, late, rfl, before, here, after⟩ := ih others
    exact ⟨head :: early, answer, late, rfl, .cons first before, here, after⟩

theorem mapM_eq_some_iff {step : α → Option β} :
    items.mapM step = some answers ↔
      List.Forall₂ (fun item answer => step item = some answer) items answers := by
  induction items generalizing answers with
  | nil => simp [eq_comm]
  | cons item rest ih =>
    simp only [List.mapM_cons, Option.pure_def, Option.bind_eq_bind, Option.bind_eq_some_iff,
      Option.some.injEq, List.forall₂_cons_left_iff, ih]
    constructor
    · rintro ⟨head, first, tail, others, rfl⟩
      exact ⟨head, tail, first, others, rfl⟩
    · rintro ⟨head, tail, first, others, rfl⟩
      exact ⟨head, first, tail, others, rfl⟩

theorem bind_eq_ok_iff {γ : Type} {first : Except ε α} {next : α → Except ε γ} {answer : γ} :
    first >>= next = .ok answer ↔ ∃ a, first = .ok a ∧ next a = .ok answer := by
  cases first with
  | error fault =>
    constructor
    · rintro ⟨⟩
    · rintro ⟨_, ⟨⟩, _⟩
  | ok a =>
    constructor
    · exact fun answered => ⟨a, rfl, answered⟩
    · rintro ⟨_, ⟨⟩, answered⟩
      exact answered

/-- A step that comes after a check. -/
theorem unless_eq_ok_iff {refused : Prop} [Decidable refused] {fault : ε} {γ δ : Type}
    {rest : Except ε δ} {answer : δ} :
    (if refused then (throw fault : Except ε γ) >>= fun _ => rest else rest) = .ok answer ↔
      ¬ refused ∧ rest = .ok answer := by
  split_ifs with holds
  · constructor
    · intro answered
      cases answered
    · rintro ⟨absurd, -⟩
      exact (absurd holds).elim
  · exact (and_iff_right holds).symm

theorem eq_ok_of_isOk {answer : Except ε α} (default : α) (succeeds : answer.isOk = true) :
    answer = .ok (answer.toOption.getD default) := by
  cases answer with
  | error _ => cases succeeds
  | ok a => rfl

theorem mapM_eq_ok_iff {step : α → Except ε β} :
    items.mapM step = .ok answers ↔
      List.Forall₂ (fun item answer => step item = .ok answer) items answers := by
  induction items generalizing answers with
  | nil =>
    rw [List.mapM_nil, List.forall₂_nil_left_iff]
    exact ⟨fun answered => (Except.ok.inj answered).symm, fun empty => empty ▸ rfl⟩
  | cons item rest ih =>
    simp only [List.mapM_cons, bind_eq_ok_iff, List.forall₂_cons_left_iff, ih]
    constructor
    · rintro ⟨head, first, tail, others, ⟨⟩⟩
      exact ⟨head, tail, first, others, rfl⟩
    · rintro ⟨head, tail, first, others, rfl⟩
      exact ⟨head, first, tail, others, rfl⟩

theorem exists_mapM_eq_ok {step : α → Except ε β}
    (each : ∀ item ∈ items, ∃ answer, step item = .ok answer) :
    ∃ answers, items.mapM step = .ok answers := by
  induction items with
  | nil => exact ⟨[], rfl⟩
  | cons item rest ih =>
    obtain ⟨answer, first⟩ := each item List.mem_cons_self
    obtain ⟨answers, others⟩ := ih fun item member => each item (List.mem_cons_of_mem _ member)
    refine ⟨answer :: answers, ?_⟩
    rw [mapM_eq_ok_iff] at others ⊢
    exact .cons first others

end DesignGraph.Answers
