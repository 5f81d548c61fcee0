import DesignGraph.Proofs.Compile.Steps
import DesignGraph.Proofs.Text.NumberLiteral

/-!
# Whole numbers in Swift

The literal of a value that is declared as a whole number is the text of the integer that the value
is read as, whatever the size of it. So it is a literal of the number that the value stands for, and
one that fits, exactly if the value is read as that number and the number fits
(`int_literal_is_exact_and_fits_iff`).
-/

namespace DesignGraph

open Compilation (propertyOf Yields)

namespace Value

variable {v : Value} {n : Int}

/-- The integer that a value stands for. A float stands for the number that it is, and a text for
the number that it denotes. -/
inductive StandsFor : Value → Int → Prop
  | int (n : Int) : StandsFor (int n) n
  | float {x : Binary64} {n : Int} (whole : x.whole? = some n) : StandsFor (float x) n
  | text {s : String} {n : Int} (denotes : Numeral.Denotes s n) : StandsFor (text s) n

/-- The integer that a value is read as. The number of a text is rounded first. -/
inductive ReadsAs : Value → Int → Prop
  | int (n : Int) : ReadsAs (int n) n
  | float {x : Binary64} {n : Int} (whole : x.whole? = some n) : ReadsAs (float x) n
  | text {s : String} {x : Binary64} {n : Int} (read : Numeral.read? s = some x)
      (whole : x.whole? = some n) : ReadsAs (text s) n

theorem StandsFor.unique {m : Int} (first : StandsFor v m) (second : StandsFor v n) : m = n := by
  cases first with
  | int => cases second; rfl
  | float whole =>
    cases second with
    | float wholeToo => exact Option.some.inj (whole.symm.trans wholeToo)
  | text denotes =>
    cases second with
    | text denotesToo => exact denotes.unique denotesToo

/-- The integers of Swift's `Int`. -/
def FitsInt (n : Int) : Prop := -2 ^ 63 ≤ n ∧ n < 2 ^ 63

/-- What stands for an integer that fits is read as some integer, if not as that one. -/
theorem StandsFor.exists_readsAs (stands : StandsFor v n) (fits : FitsInt n) :
    ∃ m, ReadsAs v m := by
  cases stands with
  | int => exact ⟨n, .int n⟩
  | float whole => exact ⟨n, .float whole⟩
  | text denotes =>
    obtain ⟨negative, read, -⟩ := denotes.read
    obtain tooGreat | ⟨m, whole, -⟩ := Binary64.exists_whole_of_ofQuotient negative n.natAbs
    · -- An integer that fits is far from what rounding cannot keep finite.
      have great := Binary64.ofQuotient_eq_infinite_iff.mp tooGreat
      have above : 2 ^ 64 ≤ n.natAbs := (Binary64.pow_le_limit (by decide)).trans great
      unfold FitsInt at fits
      omega
    · exact ⟨_, .text read whole⟩

/-- Where whole numbers are asked for, the number of a value is the integer that it is read as. -/
theorem coerceNumber_integral_eq_some_iff {q : Quantum} :
    v.coerceNumber true = some q ↔ ∃ n, ReadsAs v n ∧ q = .whole n := by
  have collapsed (x : Binary64) :
      Quantum.ofBinary64? true x = some q ↔ ∃ n, x.whole? = some n ∧ q = .whole n := by
    unfold Quantum.ofBinary64?
    cases whole : x.whole? with
    | none => simp
    | some n => simp [Binary64.isFinite_of_whole? whole, eq_comm]
  cases v with
  | int m =>
    simp only [coerceNumber, Option.some.injEq]
    constructor
    · rintro rfl
      exact ⟨m, .int m, rfl⟩
    · rintro ⟨_, ⟨⟩, rfl⟩
      rfl
  | float x =>
    refine (collapsed x).trans (exists_congr fun n => and_congr_left' ⟨.float, ?_⟩)
    rintro ⟨⟩
    assumption
  | text s =>
    simp only [coerceNumber, Option.bind_eq_some_iff, collapsed]
    constructor
    · rintro ⟨x, read, n, whole, rfl⟩
      exact ⟨n, .text read whole, rfl⟩
    · rintro ⟨n, reads, rfl⟩
      cases reads with
      | text read whole => exact ⟨_, read, n, whole, rfl⟩
  | _ =>
    constructor
    · intro accepted
      cases accepted
    · rintro ⟨n, ⟨⟩, -⟩

/-- A value has a literal exactly if it is read as an integer, and that is the text of it. -/
theorem literal?_int_eq_some_iff {t : String} :
    Target.literal? .ios "int" v = some t ↔ ∃ n, ReadsAs v n ∧ t = toString n := by
  change (v.coerceNumber true).map Quantum.text = some t ↔ _
  simp only [Option.map_eq_some_iff, coerceNumber_integral_eq_some_iff]
  constructor
  · rintro ⟨_, ⟨n, reads, rfl⟩, rfl⟩
    exact ⟨n, reads, rfl⟩
  · rintro ⟨n, reads, rfl⟩
    exact ⟨_, ⟨n, reads, rfl⟩, rfl⟩

/-- The literal of a value declared as a whole number is the text of the integer that the value is
read as. A value that is read as none is left out with a warning. The literals are those of the
integers that values stand for and that fit, exactly for the values that are read as nothing
else. -/
theorem int_literal_is_exact_and_fits_iff (v : Value) :
    (∀ t, Target.literal? .ios "int" v = some t ↔ ∃ n, ReadsAs v n ∧ t = toString n) ∧
    (∀ setup visit parent declaration before, setup.target = .ios → declaration.type = "int" →
      before.program.graph.isComponent "int" = false → (∀ n, ¬ ReadsAs v n) →
      (propertyOf setup visit parent declaration 0 v).Yields before none
        { before with warnings := before.warnings ++ [.notRepresentable "int" v] }) ∧
    ((∀ t, Target.literal? .ios "int" v = some t ↔
        ∃ n, StandsFor v n ∧ FitsInt n ∧ t = toString n) ↔
      ∀ n, ReadsAs v n → StandsFor v n ∧ FitsInt n) := by
  refine ⟨fun t => literal?_int_eq_some_iff, ?_, ?_⟩
  · intro setup visit parent declaration before ios isInt primitive unread
    have none : Target.literal? .ios "int" v = none := by
      rw [Option.eq_none_iff_forall_ne_some]
      intro t found
      obtain ⟨n, reads, -⟩ := literal?_int_eq_some_iff.mp found
      exact unread n reads
    have refused : Target.primitive .ios "int" v = .error (.notRepresentable "int" v) := by
      have known : Primitive.ofName? "int" = some .int := by decide
      simp only [Target.primitive, known, none]
    rw [← isInt] at primitive
    refine (Compilation.yields_propertyOf_primitive primitive).mpr (.inr ⟨_, ?_, rfl, rfl⟩)
    rw [ios, isInt, refused]
  · constructor
    · intro exact n reads
      obtain ⟨m, stands, fits, same⟩ :=
        (exact (toString n)).mp (literal?_int_eq_some_iff.mpr ⟨n, reads, rfl⟩)
      obtain rfl := Numeral.toString_int_inj same
      exact ⟨stands, fits⟩
    · intro each t
      rw [literal?_int_eq_some_iff]
      constructor
      · rintro ⟨n, reads, rfl⟩
        obtain ⟨stands, fits⟩ := each n reads
        exact ⟨n, stands, fits, rfl⟩
      · rintro ⟨n, stands, fits, rfl⟩
        -- What it is read as is what it stands for, since it can stand for one integer only.
        obtain ⟨m, reads⟩ := stands.exists_readsAs fits
        obtain rfl := (each m reads).1.unique stands
        exact ⟨m, reads, rfl⟩

theorem thousand_fits_and_null_is_omitted :
    Target.literal? .ios "int" (text "1e3") = some "1000" ∧
    ∀ visit : Instance → Reference → Compilation Spec, ∀ program tree,
      program.graph.isComponent "int" = false →
      (propertyOf ⟨.ios, ⟨[]⟩, ⟨"/", []⟩, .ok "localhost", "Site", ⟨"/", ["build"]⟩⟩ visit "Page"
        ⟨"size", "int", 0⟩ 0 null).Yields { program, tree } none
        { program, tree, warnings := [.notRepresentable "int" null] } := by
  have denotes : Numeral.Denotes "1e3" 1000 := ⟨false, 1, 3, 1000, by decide, rfl, rfl⟩
  constructor
  · refine ((int_literal_is_exact_and_fits_iff (text "1e3")).2.2.mpr ?_ "1000").mpr
      ⟨1000, .text denotes, by unfold FitsInt; decide, rfl⟩
    intro n reads
    cases reads with
    | text read whole =>
      have known : Numeral.read? "1e3" = some (.finite false 8796093022208000 (-43)) := by
        decide +kernel
      obtain rfl := Option.some.inj (read.symm.trans known)
      obtain rfl : n = 1000 := Option.some.inj (whole.symm.trans (by decide +kernel))
      exact ⟨.text denotes, by unfold FitsInt; decide⟩
  · intro visit program tree primitive
    exact (int_literal_is_exact_and_fits_iff null).2.1 _ visit "Page" ⟨"size", "int", 0⟩ _ rfl rfl
      primitive nofun

/-- The first integer beyond the limit has a literal all the same. -/
theorem integer_beyond_limit_is_written :
    Target.literal? .ios "int" (int 9223372036854775808) = some "9223372036854775808" ∧
      ∀ n, StandsFor (int 9223372036854775808) n → ¬ FitsInt n := by
  refine ⟨by decide +kernel, ?_⟩
  rintro n ⟨⟩
  unfold FitsInt
  decide

end Value

end DesignGraph
