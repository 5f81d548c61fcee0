import DesignGraph.Proofs.Answers
import DesignGraph.Proofs.OrderedMap
import DesignGraph.Template.Render

/-!
# Templates that render

A template fails at the data it is given: at a part of what is undefined, at elements of what has
none, at a pattern with another number of names. A check on the template rules this out from what is
known of the data, each name with a kind (`Kind`). A template that passes renders for all data of
these kinds, whatever else they hold.
-/

namespace DesignGraph.Template

/-- What is known of a datum. -/
inductive Kind
  | anything
  | defined
  /-- A value that can stand in a script. -/
  | script
  | mapping
  /-- A method of a mapping. -/
  | method (name : String)
  /-- Two values in a row. -/
  | pair
  | list (element : Kind)
  /-- Something with a part of a kind. -/
  | record (field : String) (part : Kind)

abbrev Kinds := List (String × Kind)

namespace Kind

def Holds : Kind → Datum → Prop
  | anything, _ => True
  | defined, d => d.isUndefined = false
  | script, d => ∃ v s, d = .value v ∧ Script.encode v = .ok s
  | mapping, d => ∃ entries, d = .value (.map entries)
  | method name, d => ∃ entries, d = .method (.map entries) name
  | pair, d => ∃ v w, d.elements = .ok [.value v, .value w]
  | list element, d => ∃ ds, d.elements = .ok ds ∧ ∀ e ∈ ds, element.Holds e
  | record field part, d => d.isUndefined = false ∧ ∃ e, d.field field = .ok e ∧ part.Holds e

/-- The kind of a part named after a dot. -/
def part? (name : String) : Kind → Option Kind
  | defined => some anything
  | script => some anything
  | mapping => some (if Datum.mappingMethods.contains name then method name else anything)
  | record field part => some (if name = field then part else anything)
  | _ => none

/-- The kind of what a call without arguments answers. -/
def answer? : Kind → Option Kind
  | method "items" => some (list pair)
  | method "keys" => some (list defined)
  | _ => none

def element? : Kind → Option Kind
  | list element => some element
  | mapping => some defined
  | _ => none

def filtered? (name : String) (count : Nat) (kind : Kind) : Option Kind :=
  match name with
  | "join" => if count ≤ 1 then kind.element?.map fun _ => defined else none
  | "tojson" => match kind with
      | script => some defined
      | _ => none
  | _ => none

/-- The kinds of the names of a pattern, the innermost name first. -/
def named? (kind : Kind) : Pattern → Option Kinds
  | .one name => some [(name, kind)]
  | .each [first, second] => match kind with
      | pair => some [(second, defined), (first, defined)]
      | _ => none
  | .each _ => none

end Kind

mutual

/-- The kind of an expression that has a value. -/
def kindOf? (known : Kinds) : Expression → Option Kind
  | .literal _ => some .defined
  | .name s => some ((known.lookup s).getD .anything)
  | .field owner name => (kindOf? known owner).bind (Kind.part? name)
  | .call callee args => if args.isEmpty then (kindOf? known callee).bind Kind.answer? else none
  | .filter name input args named =>
      if named.isEmpty && haveKinds known args then
        (kindOf? known input).bind (Kind.filtered? name args.length)
      else none
  | .negation e => (kindOf? known e).map fun _ => .defined
  | .joined items => if haveKinds known items then some .defined else none
  | .choice condition positive negative =>
      if (kindOf? known condition).isSome && (kindOf? known positive).isSome &&
          otherwiseHasKind known negative then
        some .anything
      else none
  | _ => none

def otherwiseHasKind (known : Kinds) : Option Expression → Bool
  | none => true
  | some e => (kindOf? known e).isSome

def haveKinds (known : Kinds) : List Expression → Bool
  | [] => true
  | e :: es => (kindOf? known e).isSome && haveKinds known es

end

mutual

/-- Whether statements render, and assign nothing. -/
def areSafe (known : Kinds) : List Statement → Bool
  | [] => true
  | s :: rest => isSafe known s && areSafe known rest

def isSafe (known : Kinds) : Statement → Bool
  | .text _ => true
  | .print e => (kindOf? known e).isSome
  | .choice branches otherwise => areSafeBranches known branches && areSafe known otherwise
  | .loop pattern source condition body otherwise =>
      match condition, ((kindOf? known source).bind Kind.element?).bind (·.named? pattern) with
      | none, some names =>
          areSafe (names ++ ("loop", .defined) :: known) body && areSafe known otherwise
      | _, _ => false
  | .assign _ _ => false
  | .capture _ _ => false

def areSafeBranches (known : Kinds) : List (Expression × List Statement) → Bool
  | [] => true
  | (condition, body) :: rest =>
      (kindOf? known condition).isSome && areSafe known body && areSafeBranches known rest

end

/-- The names of a scope are of the kinds that are known. -/
def Fits (known : Kinds) (scope : Scope) : Prop :=
  ∀ name kind, known.lookup name = some kind → kind.Holds (scope.find name)

namespace Kind

variable {kind inner : Kind} {d : Datum} {name : String}

theorem Holds.defined (holds : kind.Holds d) (given : kind.part? name = some inner) :
    d.isUndefined = false := by
  cases kind with
  | defined => exact holds
  | script =>
    obtain ⟨v, _, rfl, _⟩ := holds
    rfl
  | mapping =>
    obtain ⟨entries, rfl⟩ := holds
    rfl
  | record field part => exact holds.1
  | _ => cases given

/-- Whatever is defined has parts, undefined ones if need be. -/
theorem exists_field (defined : d.isUndefined = false) (name : String) :
    ∃ e, d.field name = .ok e := by
  cases d with
  | undefined => cases defined
  | value v =>
    simp only [Datum.field]
    split <;> exact ⟨_, rfl⟩
  | _ => exact ⟨_, rfl⟩

theorem Holds.part (holds : kind.Holds d) (given : kind.part? name = some inner) :
    ∃ e, d.field name = .ok e ∧ inner.Holds e := by
  obtain ⟨e, found⟩ := exists_field (holds.defined given) name
  cases kind with
  | mapping =>
    obtain ⟨entries, rfl⟩ := holds
    simp only [part?, Option.some.injEq] at given
    split_ifs at given with isMethod
    · subst given
      refine ⟨.method (.map entries) name, ?_, entries, rfl⟩
      exact if_pos isMethod
    · subst given
      exact ⟨e, found, trivial⟩
  | record field part =>
    simp only [part?, Option.some.injEq] at given
    split_ifs at given with same
    · subst given same
      exact holds.2
    · subst given
      exact ⟨e, found, trivial⟩
  | defined =>
    cases given
    exact ⟨e, found, trivial⟩
  | script =>
    cases given
    exact ⟨e, found, trivial⟩
  | _ => cases given

theorem Holds.answer (holds : kind.Holds d) (given : kind.answer? = some inner) :
    ∃ e, d.call [] = .ok e ∧ inner.Holds e := by
  unfold answer? at given
  split at given
  · cases given
    obtain ⟨entries, rfl⟩ := holds
    refine ⟨.pairs entries, rfl, _, rfl, ?_⟩
    simp only [List.mem_map]
    rintro _ ⟨⟨k, v⟩, -, rfl⟩
    exact ⟨k, v, rfl⟩
  · cases given
    obtain ⟨entries, rfl⟩ := holds
    refine ⟨_, rfl, _, rfl, ?_⟩
    simp only [List.mem_map]
    rintro _ ⟨_, -, rfl⟩
    rfl
  · cases given

theorem Holds.elements (holds : kind.Holds d) (given : kind.element? = some inner) :
    ∃ ds, d.elements = .ok ds ∧ ∀ e ∈ ds, inner.Holds e := by
  cases kind with
  | list element =>
    cases given
    exact holds
  | mapping =>
    cases given
    obtain ⟨entries, rfl⟩ := holds
    refine ⟨_, rfl, ?_⟩
    simp only [List.mem_map]
    rintro _ ⟨_, -, rfl⟩
    rfl
  | _ => cases given

theorem Holds.filtered {args : List Datum} (holds : kind.Holds d)
    (given : kind.filtered? name args.length = some inner) :
    ∃ e, Filter.apply name d args [] = .ok e ∧ inner.Holds e := by
  unfold filtered? at given
  split at given
  · split_ifs at given with short
    obtain ⟨element, known, rfl⟩ := Option.map_eq_some_iff.mp given
    obtain ⟨ds, found, -⟩ := holds.elements known
    have noKey : Filter.argument? 1 "attribute" args [] = none := by
      simp [Filter.argument?, short]
    obtain ⟨s, joined⟩ : ∃ s, Filter.joined d args [] = .ok s := by
      simp only [Filter.joined, noKey, Datum.joinTexts, found]
      exact ⟨_, rfl⟩
    refine ⟨.ofText s, ?_, rfl⟩
    simp only [Filter.apply, joined]
    rfl
  · split at given
    · cases given
      obtain ⟨v, s, rfl, encoded⟩ := holds
      refine ⟨.ofText s, ?_, rfl⟩
      simp only [Filter.apply, Filter.toScript, encoded]
      rfl
    · cases given
  · cases given

end Kind

variable {known : Kinds} {scope : Scope}

theorem Fits.bind {name : String} {kind : Kind} {d : Datum} (fits : Fits known scope)
    (holds : kind.Holds d) : Fits ((name, kind) :: known) (scope.bind name d) := by
  intro other expected found
  unfold Scope.find Scope.bind
  rw [List.lookup_cons] at found ⊢
  cases same : other == name with
  | true =>
    simp only [same, Option.some.injEq] at found
    subst found
    exact holds
  | false =>
    simp only [same] at found
    exact fits other expected found

theorem Fits.bindPattern {pattern : Pattern} {kind : Kind} {names : Kinds} {d : Datum}
    (fits : Fits known scope) (holds : kind.Holds d) (given : kind.named? pattern = some names) :
    ∃ inner, scope.bindPattern pattern d = .ok inner ∧ Fits (names ++ known) inner := by
  unfold Kind.named? at given
  split at given
  · cases given
    exact ⟨_, rfl, fits.bind holds⟩
  · split at given
    · cases given
      obtain ⟨v, w, elements⟩ := holds
      refine ⟨_, ?_, (fits.bind (d := .value v) ?_).bind (d := .value w) ?_⟩
      · simp only [Scope.bindPattern, elements]
        rfl
      · rfl
      · rfl
    · cases given
  · cases given

/-! ## Expressions -/

mutual

/-- An expression with a kind has a value of this kind. -/
theorem evaluate_holds (fits : Fits known scope) : (e : Expression) → {kind : Kind} →
    kindOf? known e = some kind → ∃ d, evaluate scope e = .ok d ∧ kind.Holds d
  | .literal v, _, given => by
    cases given
    exact ⟨.value v, rfl, rfl⟩
  | .name s, kind, given => by
    refine ⟨scope.find s, rfl, ?_⟩
    cases found : known.lookup s with
    | none =>
      simp only [kindOf?, found, Option.getD_none, Option.some.injEq] at given
      subst given
      trivial
    | some expected =>
      simp only [kindOf?, found, Option.getD_some, Option.some.injEq] at given
      subst given
      exact fits s expected found
  | .field owner name, kind, given => by
    simp only [kindOf?, Option.bind_eq_some_iff] at given
    obtain ⟨_, ownKind, given⟩ := given
    obtain ⟨d, evaluated, holds⟩ := evaluate_holds fits owner ownKind
    obtain ⟨e, found, partHolds⟩ := holds.part given
    refine ⟨e, ?_, partHolds⟩
    simp only [evaluate, Answers.bind_eq_ok_iff]
    exact ⟨d, evaluated, found⟩
  | .call callee args, kind, given => by
    simp only [kindOf?] at given
    split_ifs at given with noArgs
    obtain rfl := List.isEmpty_iff.mp noArgs
    rw [Option.bind_eq_some_iff] at given
    obtain ⟨_, calleeKind, given⟩ := given
    obtain ⟨d, evaluated, holds⟩ := evaluate_holds fits callee calleeKind
    obtain ⟨e, answered, answerHolds⟩ := holds.answer given
    refine ⟨e, ?_, answerHolds⟩
    simp only [evaluate, evaluateAll, Answers.bind_eq_ok_iff]
    exact ⟨d, evaluated, [], rfl, answered⟩
  | .filter name input args named, kind, given => by
    simp only [kindOf?] at given
    split_ifs at given with plain
    obtain ⟨noNames, argKinds⟩ := Bool.and_eq_true_iff.mp plain
    obtain rfl := List.isEmpty_iff.mp noNames
    rw [Option.bind_eq_some_iff] at given
    obtain ⟨_, inputKind, given⟩ := given
    obtain ⟨d, evaluated, holds⟩ := evaluate_holds fits input inputKind
    obtain ⟨ds, evaluatedArgs, sameLength⟩ := evaluateAll_ok fits args argKinds
    rw [← sameLength] at given
    obtain ⟨e, applied, resultHolds⟩ := holds.filtered given
    refine ⟨e, ?_, resultHolds⟩
    simp only [evaluate, evaluateNamed, Answers.bind_eq_ok_iff]
    exact ⟨d, evaluated, ds, evaluatedArgs, [], rfl, applied⟩
  | .negation e, kind, given => by
    simp only [kindOf?, Option.map_eq_some_iff] at given
    obtain ⟨_, innerKind, rfl⟩ := given
    obtain ⟨d, evaluated, -⟩ := evaluate_holds fits e innerKind
    refine ⟨.value (.bool !d.isTruthy), ?_, rfl⟩
    simp only [evaluate, Answers.bind_eq_ok_iff]
    exact ⟨d, evaluated, rfl⟩
  | .joined items, kind, given => by
    simp only [kindOf?] at given
    split_ifs at given with kinds
    cases given
    obtain ⟨ds, evaluated, -⟩ := evaluateAll_ok fits items kinds
    refine ⟨.ofText (String.join (ds.map Datum.text)), ?_, rfl⟩
    simp only [evaluate, Answers.bind_eq_ok_iff]
    exact ⟨ds, evaluated, rfl⟩
  | .choice condition positive negative, kind, given => by
    simp only [kindOf?] at given
    split_ifs at given with kinds
    cases given
    simp only [Bool.and_eq_true_iff, Option.isSome_iff_exists] at kinds
    obtain ⟨⟨⟨_, conditionKind⟩, _, positiveKind⟩, otherwise⟩ := kinds
    obtain ⟨chosen, evaluated, -⟩ := evaluate_holds fits condition conditionKind
    obtain ⟨first, isFirst, -⟩ := evaluate_holds fits positive positiveKind
    obtain ⟨second, isSecond⟩ := evaluate_otherwise fits negative otherwise
    cases truthy : chosen.isTruthy with
    | true =>
      refine ⟨first, ?_, trivial⟩
      cases negative <;> simp only [evaluate, Answers.bind_eq_ok_iff] <;>
      exact ⟨chosen, evaluated, (if_pos truthy).trans isFirst⟩
    | false =>
      refine ⟨second, ?_, trivial⟩
      cases negative <;> simp only [evaluate, Answers.bind_eq_ok_iff] <;>
      exact ⟨chosen, evaluated, (if_neg (by simp [truthy])).trans isSecond⟩
  | .list _, _, given | .tuple _, _, given | .mapping _, _, given | .item _ _, _, given
  | .test _ _ _, _, given | .opposite _, _, given | .arithmetic _ _ _, _, given
  | .conjunction _ _, _, given | .disjunction _ _, _, given | .comparison _ _, _, given => by
    simp [kindOf?] at given

theorem evaluate_otherwise (fits : Fits known scope) : (negative : Option Expression) →
    otherwiseHasKind known negative = true →
      ∃ d, (match negative with
        | some e => evaluate scope e
        | none => pure .undefined : Except Failure Datum) = .ok d
  | none, _ => ⟨.undefined, rfl⟩
  | some e, given => by
    obtain ⟨_, kind⟩ := Option.isSome_iff_exists.mp given
    obtain ⟨d, evaluated, -⟩ := evaluate_holds fits e kind
    exact ⟨d, evaluated⟩

theorem evaluateAll_ok (fits : Fits known scope) : (es : List Expression) →
    haveKinds known es = true →
      ∃ ds, evaluateAll scope es = .ok ds ∧ ds.length = es.length
  | [], _ => ⟨[], rfl, rfl⟩
  | e :: es, given => by
    simp only [haveKinds, Bool.and_eq_true_iff, Option.isSome_iff_exists] at given
    obtain ⟨⟨_, kind⟩, rest⟩ := given
    obtain ⟨d, evaluated, -⟩ := evaluate_holds fits e kind
    obtain ⟨ds, others, sameLength⟩ := evaluateAll_ok fits es rest
    refine ⟨d :: ds, ?_, congrArg (· + 1) sameLength⟩
    simp only [evaluateAll, Answers.bind_eq_ok_iff]
    exact ⟨d, evaluated, ds, others, rfl⟩

end

/-! ## Statements -/

/-- One pass of a loop. -/
def renderPass (scope : Scope) (pattern : Pattern) (body : List Statement) (length : Nat)
    (entry : Datum × Nat) : Except Failure String := do
  let state : LoopState := ⟨entry.2, length, scope.depth + 1⟩
  let inner : Scope := { scope with depth := scope.depth + 1 }
  let inner ← (inner.bind "loop" (.loop state)).bindPattern pattern entry.1
  pure (← renderAll inner body).1

theorem renderOne_loop (scope : Scope) (pattern : Pattern) (source : Expression)
    (body otherwise : List Statement) :
    renderOne scope (.loop pattern source none body otherwise) = (do
      let ds ← (← evaluate scope source).elements
      if ds.isEmpty then
        pure ((← renderAll scope otherwise).1, scope)
      else
        pure (String.join (← ds.zipIdx.mapM (renderPass scope pattern body ds.length)),
          scope)) := by
  simp only [renderOne, admitted]
  rfl

mutual

/-- Statements that are safe have a text, and leave the scope as it is. -/
theorem renderAll_safe : (statements : List Statement) → {known : Kinds} → {scope : Scope} →
    Fits known scope → areSafe known statements = true →
      ∃ text, renderAll scope statements = .ok (text, scope)
  | [], _, _, _, _ => ⟨"", rfl⟩
  | s :: rest, _, _, fits, safe => by
    obtain ⟨first, others⟩ := Bool.and_eq_true_iff.mp safe
    obtain ⟨head, rendered⟩ := renderOne_safe s fits first
    obtain ⟨tail, renderedRest⟩ := renderAll_safe rest fits others
    refine ⟨head ++ tail, ?_⟩
    simp only [renderAll, Answers.bind_eq_ok_iff]
    exact ⟨_, rendered, _, renderedRest, rfl⟩

theorem renderOne_safe : (statement : Statement) → {known : Kinds} → {scope : Scope} →
    Fits known scope → isSafe known statement = true →
      ∃ text, renderOne scope statement = .ok (text, scope)
  | .text s, _, _, _, _ => ⟨s, rfl⟩
  | .print e, _, _, fits, safe => by
    obtain ⟨_, kind⟩ := Option.isSome_iff_exists.mp safe
    obtain ⟨d, evaluated, -⟩ := evaluate_holds fits e kind
    refine ⟨d.text, ?_⟩
    simp only [renderOne, Answers.bind_eq_ok_iff]
    exact ⟨d, evaluated, rfl⟩
  | .choice branches otherwise, _, _, fits, safe => by
    obtain ⟨branchesSafe, otherwiseSafe⟩ := Bool.and_eq_true_iff.mp safe
    obtain ⟨chosen, found, kept⟩ := renderBranch_safe branches fits branchesSafe
    cases chosen with
    | none =>
      obtain ⟨text, rendered⟩ := renderAll_safe otherwise fits otherwiseSafe
      refine ⟨text, ?_⟩
      simp only [renderOne, Answers.bind_eq_ok_iff]
      exact ⟨none, found, rendered⟩
    | some result =>
      obtain ⟨text, after⟩ := result
      obtain rfl := kept text after rfl
      refine ⟨text, ?_⟩
      simp only [renderOne, Answers.bind_eq_ok_iff]
      exact ⟨_, found, rfl⟩
  | .loop pattern source condition body otherwise, known, scope, fits, safe => by
    unfold isSafe at safe
    split at safe
    · next names given =>
      obtain ⟨bodySafe, otherwiseSafe⟩ := Bool.and_eq_true_iff.mp safe
      simp only [Option.bind_eq_some_iff] at given
      obtain ⟨element, ⟨kind, sourceKind, isElement⟩, named⟩ := given
      obtain ⟨d, evaluated, holds⟩ := evaluate_holds fits source sourceKind
      obtain ⟨ds, elements, each⟩ := holds.elements isElement
      rw [renderOne_loop]
      simp only [Answers.bind_eq_ok_iff, evaluated, elements, Except.ok.injEq, exists_eq_left']
      cases empty : ds.isEmpty with
      | true =>
        obtain ⟨text, rendered⟩ := renderAll_safe otherwise fits otherwiseSafe
        refine ⟨text, ?_⟩
        rw [if_pos rfl, Answers.bind_eq_ok_iff]
        exact ⟨_, rendered, rfl⟩
      | false =>
        have passes : ∀ entry ∈ ds.zipIdx,
            ∃ text, renderPass scope pattern body ds.length entry = .ok text := by
          intro entry member
          have counted : Kind.defined.Holds (.loop ⟨entry.2, ds.length, scope.depth + 1⟩) := rfl
          have deeper : Fits known { scope with depth := scope.depth + 1 } := fits
          have elementHolds := each entry.1 (List.fst_mem_of_mem_zipIdx member)
          obtain ⟨inner, bound, innerFits⟩ :=
            (Fits.bind deeper counted).bindPattern elementHolds named
          obtain ⟨text, rendered⟩ := renderAll_safe body innerFits bodySafe
          refine ⟨text, ?_⟩
          simp only [renderPass, Answers.bind_eq_ok_iff]
          exact ⟨inner, bound, _, rendered, rfl⟩
        obtain ⟨texts, rendered⟩ := Answers.exists_mapM_eq_ok passes
        refine ⟨String.join texts, ?_⟩
        rw [if_neg Bool.false_ne_true, Answers.bind_eq_ok_iff]
        exact ⟨texts, rendered, rfl⟩
    · cases safe
  | .assign _ _, _, _, _, safe | .capture _ _, _, _, _, safe => by cases safe

theorem renderBranch_safe : (branches : List (Expression × List Statement)) → {known : Kinds} →
    {scope : Scope} → Fits known scope → areSafeBranches known branches = true →
      ∃ chosen, renderBranch scope branches = .ok chosen ∧
        ∀ text after, chosen = some (text, after) → after = scope
  | [], _, _, _, _ => ⟨none, rfl, by simp⟩
  | (condition, body) :: rest, _, _, fits, safe => by
    simp only [areSafeBranches, Bool.and_eq_true_iff, Option.isSome_iff_exists] at safe
    obtain ⟨⟨⟨_, conditionKind⟩, bodySafe⟩, restSafe⟩ := safe
    obtain ⟨d, evaluated, -⟩ := evaluate_holds fits condition conditionKind
    cases truthy : d.isTruthy with
    | true =>
      obtain ⟨text, rendered⟩ := renderAll_safe body fits bodySafe
      refine ⟨some (text, _), ?_, fun _ _ same => (Prod.mk.inj (Option.some.inj same)).2.symm⟩
      simp only [renderBranch, Answers.bind_eq_ok_iff]
      refine ⟨d, evaluated, ?_⟩
      rw [if_pos truthy, Answers.bind_eq_ok_iff]
      exact ⟨_, rendered, rfl⟩
    | false =>
      obtain ⟨chosen, found, kept⟩ := renderBranch_safe rest fits restSafe
      refine ⟨chosen, ?_, kept⟩
      simp only [renderBranch, Answers.bind_eq_ok_iff]
      exact ⟨d, evaluated, (if_neg (by simp [truthy])).trans found⟩

end

/-! ## Texts in a row -/

/-- Statements that leave the scope as it is have their texts in a row. -/
theorem renderAll_of_forall₂ {statements : List Statement} {texts : List String}
    (each : List.Forall₂ (fun statement text => renderOne scope statement = .ok (text, scope))
      statements texts) :
    renderAll scope statements = .ok (String.join texts, scope) := by
  induction each with
  | nil => rfl
  | cons first _ ih =>
    rw [renderAll, Answers.bind_eq_ok_iff]
    exact ⟨_, first, Answers.bind_eq_ok_iff.mpr ⟨_, ih, by rw [String.join_cons]; rfl⟩⟩

theorem renderOne_print {e : Expression} {d : Datum} (evaluated : evaluate scope e = .ok d) :
    renderOne scope (.print e) = .ok (d.text, scope) := by
  rw [renderOne, evaluated]
  rfl

theorem renderPass_of_forall₂ {inner : Scope} {pattern : Pattern} {body : List Statement}
    {length : Nat} {entry : Datum × Nat} {texts : List String}
    (bound : (Scope.bind { scope with depth := scope.depth + 1 } "loop"
      (.loop ⟨entry.2, length, scope.depth + 1⟩)).bindPattern pattern entry.1 = .ok inner)
    (each : List.Forall₂ (fun statement text => renderOne inner statement = .ok (text, inner))
      body texts) :
    renderPass scope pattern body length entry = .ok (String.join texts) := by
  rw [renderPass, Answers.bind_eq_ok_iff]
  refine ⟨inner, bound, ?_⟩
  rw [renderAll_of_forall₂ each]
  rfl

/-- The passes of a loop over a list have their texts in a row. -/
theorem renderOne_loop_of_passes {pattern : Pattern} {source : Expression}
    {body : List Statement} {items : List Value} {texts : List String}
    (evaluated : evaluate scope source = .ok (.value (.list items)))
    (passes : List.Forall₂
      (fun entry text => renderPass scope pattern body items.length entry = .ok text)
      (items.map Datum.value).zipIdx texts) :
    renderOne scope (.loop pattern source none body []) = .ok (String.join texts, scope) := by
  have elements : Datum.elements (.value (.list items)) = .ok (items.map Datum.value) := rfl
  rw [renderOne_loop, evaluated, Answers.bind_eq_ok_iff]
  refine ⟨_, rfl, ?_⟩
  rw [elements, Answers.bind_eq_ok_iff]
  refine ⟨_, rfl, ?_⟩
  split_ifs with empty
  · rw [List.isEmpty_iff.mp empty] at passes
    cases passes
    rfl
  · rw [List.length_map, Answers.bind_eq_ok_iff]
    exact ⟨texts, Answers.mapM_eq_ok_iff.mpr passes, rfl⟩

/-- The passes of a loop over images of a list, if no pass looks at the state of the loop. -/
theorem renderOne_loop_of_map {α : Type} {pattern : Pattern} {source : Expression}
    {body : List Statement} {items : List α} {image : α → Value} {text : α → String}
    (evaluated : evaluate scope source = .ok (.value (.list (items.map image))))
    (pass : ∀ a length index,
      renderPass scope pattern body length (.value (image a), index) = .ok (text a)) :
    renderOne scope (.loop pattern source none body []) =
      .ok (String.join (items.map text), scope) := by
  have texts_eq : items.map text = items.zipIdx.map (text ∘ Prod.fst) := by
    rw [← List.map_map, List.zipIdx_map_fst]
  refine renderOne_loop_of_passes evaluated ?_
  rw [texts_eq, List.map_map, List.zipIdx_map, List.forall₂_map_left_iff,
    List.forall₂_map_right_iff, List.forall₂_same]
  exact fun entry _ => pass entry.1 _ entry.2

/-- A template is parsed by its tokens. -/
theorem parse_of_tokens {source : String} {ts rest : List Token} {statements : List Statement}
    (cut : tokens source = .ok ts)
    (read : (Parser.statements (20 * ts.length + 20) []).run ts = .ok (statements, rest)) :
    parse source = .ok statements := by
  simp only [parse, cut, read, bind, Except.bind]
  rfl

/-- A template whose statements have a text renders to it. -/
theorem render_of_parse {source text : String} {statements : List Statement}
    {data : List (String × Value)} (parsed : parse source = .ok statements)
    (notSelf : data.lookup "self" = none)
    (rendered : renderAll (Scope.ofData data) statements = .ok (text, Scope.ofData data)) :
    render source data = .ok text := by
  simp only [render, Answers.bind_eq_ok_iff, parsed]
  refine ⟨statements, rfl, ?_⟩
  rw [notSelf, if_neg (by simp), Answers.bind_eq_ok_iff]
  exact ⟨_, rendered, rfl⟩

/-! ## Templates -/

/-- The data have the kinds that are known of them. -/
def DataFit (known : Kinds) (data : List (String × Value)) : Prop :=
  ∀ entry ∈ known, ∃ v, data.lookup entry.1 = some v ∧ entry.2.Holds (.value v)

/-- A name stands for what the data have under it. -/
theorem Scope.find_ofData {data : List (String × Value)} {name : String} {v : Value}
    (given : data.lookup name = some v) : (Scope.ofData data).find name = .value v := by
  have listed : (data.map fun entry => (entry.1, Datum.value entry.2)).lookup name =
      some (.value v) := by
    have mapped := OrderedMap.get?_map Datum.value (⟨data⟩ : OrderedMap String Value) name
    exact mapped.trans (congrArg (Option.map Datum.value) given)
  simp only [Scope.find, Scope.ofData, List.lookup_append, listed, Option.some_or,
    Option.getD_some]

theorem DataFit.fits {data : List (String × Value)} (fit : DataFit known data) :
    Fits known (Scope.ofData data) := by
  intro name kind found
  have listed : (name, kind) ∈ (⟨known⟩ : OrderedMap String Kind).entries :=
    OrderedMap.mem_entries_of_get? found
  obtain ⟨v, given, holds⟩ := fit (name, kind) listed
  rw [Scope.find_ofData given]
  exact holds

/-- Whether a text is a template that is safe. -/
def isSafeText (known : Kinds) (source : String) : Bool :=
  (parse source).toOption.any (areSafe known)

/-- A safe template renders for all data of the kinds that it is safe for. -/
theorem exists_render {source : String} {data : List (String × Value)}
    (safe : isSafeText known source = true) (fit : DataFit known data)
    (notSelf : data.lookup "self" = none) : ∃ text, render source data = .ok text := by
  unfold isSafeText at safe
  cases parsed : parse source with
  | error reason =>
    rw [parsed] at safe
    cases safe
  | ok statements =>
    rw [parsed] at safe
    obtain ⟨text, rendered⟩ := renderAll_safe statements fit.fits safe
    refine ⟨text, ?_⟩
    simp only [render, Answers.bind_eq_ok_iff, parsed]
    refine ⟨statements, rfl, ?_⟩
    rw [notSelf, if_neg (by simp)]
    simp only [Answers.bind_eq_ok_iff]
    exact ⟨_, rendered, rfl⟩

end DesignGraph.Template
