import DesignGraph.Proofs.Compile.IosNames
import DesignGraph.Proofs.Text.ScriptLiteral
import Mathlib.Data.Bool.AllAny

/-!
# What string literals denote

Both targets write a string in the notation of JSON. Scripts read it as it was meant, whatever the
string. Swift shares the notation but for most of the controls, and knows nothing of the others.
-/

namespace DesignGraph.Target

open Text

theorem literal?_string (target : Target) (s : String) :
    target.literal? Primitive.string.name (.text s) = some (quoted target.alphabet s) := by
  rw [literal?, if_pos rfl]
  rfl

/-- The literal of a string in a script is printable ASCII between two quotes, of which the second
is the first that is not escaped. Read as JSON it gives the string back, and as a script it denotes
the string and no other, so no other string has this literal. -/
theorem web_literal_round_trips (s : String) : ∃ literal,
    web.literal? Primitive.string.name (.text s) = some literal ∧
    (∀ c ∈ literal.toList, IsPrintable c) ∧
    (∃ body, literal.toList = '"' :: body ++ ['"'] ∧ afterQuote? (body ++ ['"']) = some []) ∧
    Json.read literal = .ok (.text s) ∧
    (∀ t, Script.IsLiteral literal t ↔ t = s) ∧
    ∀ t, web.literal? Primitive.string.name (.text t) = some literal → t = s := by
  refine ⟨quoted .ascii s, literal?_string web s, fun c => isPrintable_of_mem_quoted,
    ⟨_, toList_quoted .ascii s, afterQuote?_encoded s.toList []⟩, Json.read_quoted s,
    fun t => Script.isLiteral_quoted_iff, ?_⟩
  intro t given
  have same : quoted .ascii t = quoted .ascii s :=
    Option.some.inj ((literal?_string web t).symm.trans given)
  have again := Json.read_quoted t
  rw [same, Json.read_quoted s] at again
  cases again
  rfl

/-- A supplementary character is a pair of escapes. -/
example : web.literal? "string" (.text "né 🎨") = some "\"n\\u00e9 \\ud83c\\udfa8\"" := by
  decide

/-- The literal of a string in Swift code, alone or in the construction of a file, denotes the
string if it has no control but line feeds, carriage returns and tabs. Otherwise it is no literal at
all. -/
theorem ios_literal_denotes_iff (s : String) : ∃ literal,
    ios.literal? Primitive.string.name (.text s) = some literal ∧
    (∀ installed inst spec, inst.values.get? "src" = some (.text s) →
      Resolution.constructionOf? .ios (Ios.bindings installed) "File" inst spec =
        some ("File(withSrc: " ++ literal ++ ")")) ∧
    ∀ t, Swift.IsLiteral literal t ↔ t = s ∧ ∀ c ∈ s.toList, Swift.IsShared c := by
  refine ⟨quoted .plain s, literal?_string ios s, ?_, fun t => Swift.isLiteral_quoted_iff⟩
  intro installed inst spec value
  exact Ios.constructionOf?_file installed (.inl rfl) value spec

/-- Line breaks, quotes and what begins an interpolation are escaped. -/
theorem ios_literal_denotes_lines : ∃ literal,
    ios.literal? Primitive.string.name (.text "\"Tea\"\n\\(price) é") = some literal ∧
    ∀ t, Swift.IsLiteral literal t ↔ t = "\"Tea\"\n\\(price) é" := by
  obtain ⟨literal, given, -, denotes⟩ := ios_literal_denotes_iff "\"Tea\"\n\\(price) é"
  have shared : ∀ c ∈ "\"Tea\"\n\\(price) é".toList, Swift.IsShared c :=
    List.all_iff_forall_prop.mp (by decide)
  exact ⟨literal, given, fun t => (denotes t).trans (and_iff_left shared)⟩

/-- The literal of a text with a form feed denotes nothing, in the construction of a file too. -/
theorem form_feed_has_no_ios_literal : ∃ literal,
    ios.literal? Primitive.string.name (.text "Chapter 1\x0cChapter 2") = some literal ∧
    (∀ installed spec, Resolution.constructionOf? .ios (Ios.bindings installed) "File"
      ⟨"book", "File", ⟨[("src", .text "Chapter 1\x0cChapter 2")]⟩⟩ spec =
        some ("File(withSrc: " ++ literal ++ ")")) ∧
    ∀ t, ¬ Swift.IsLiteral literal t := by
  refine ⟨_, literal?_string ios _,
    fun installed => Ios.constructionOf?_file installed (.inl rfl) rfl, fun t denotes => ?_⟩
  have control : ¬ ∀ c ∈ "Chapter 1\x0cChapter 2".toList, Swift.IsShared c :=
    mt List.all_iff_forall_prop.mpr (by decide)
  exact control (Swift.isLiteral_quoted_iff.mp denotes).2

end DesignGraph.Target
