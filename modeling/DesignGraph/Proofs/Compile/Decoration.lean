import DesignGraph.Proofs.Compile.Visits
import DesignGraph.Proofs.FileTree
import DesignGraph.Proofs.Style.Color

/-!
# What asset binders can add

The prefab types have asset binders, and each reads the values of an instance once more, whatever
has become of them as properties. Here is for each binder what values it takes to add something to
the package (`CanBeAdded`); files of the project are always added, and with names that stay inside
the package.
-/

namespace DesignGraph

/-! ## Files of the project -/

/-- Where a file of the project is found, with every link followed. -/
def projectFile (tree : FileTree) (root : Path) (source : String) : Path :=
  tree.realPath ((tree.realPath root).joinText source)

/-- A text that names a regular file of the project and does not lead upwards. -/
structure IsProjectFile (tree : FileTree) (root : Path) (source : String) : Prop where
  isGiven : source ≠ ""
  isRelative : (Path.ofString source).isAbsolute = false
  isWellFormed : (Path.ofString source).isMalformed = false
  staysBelow : ".." ∉ (Path.ofString source).parts
  isInside : (tree.realPath root).covers (projectFile tree root source) = true
  isFile : tree.isFile (projectFile tree root source) = true

/-- The source of an instance, if it is given, is a file of the project. -/
def HasProjectSource (tree : FileTree) (root : Path) (inst : Instance) : Prop :=
  ∀ value, inst.values.get? "src" = some value →
    ∃ source, value = .text source ∧ IsProjectFile tree root source

section source

variable {tree : FileTree} {root : Path} {source : String} {inst : Instance}

/-- What is located is a regular file, and its real path leads on from that of the root. -/
theorem locate_eq_ok_iff {path : Path} : Asset.locate tree root source = .ok path ↔
    (Path.ofString source).isAbsolute = false ∧ (Path.ofString source).isMalformed = false ∧
    ∃ realRoot, tree.resolve root = .ok realRoot ∧
      tree.resolve (realRoot.joinText source) = .ok path ∧
      realRoot.covers path = true ∧ tree.isFile path = true := by
  simp only [Asset.locate, Answers.unless_eq_ok_iff, Answers.bind_eq_ok_iff, Bool.not_eq_true,
    Bool.not_eq_true', Bool.not_eq_false]
  constructor
  · rintro ⟨relative, realRoot, rootResolves, wellFormed, _, resolves, inside, _, isFile, rfl, ⟨⟩⟩
    exact ⟨relative, wellFormed, realRoot, rootResolves, resolves, inside,
      FileTree.ask_isFile_iff.mp isFile⟩
  · rintro ⟨relative, wellFormed, realRoot, rootResolves, resolves, inside, isFile⟩
    exact ⟨relative, realRoot, rootResolves, wellFormed, path, resolves, inside, true,
      FileTree.ask_isFile_iff.mpr isFile, rfl, rfl⟩

theorem IsProjectFile.locate_eq (file : IsProjectFile tree root source) :
    Asset.locate tree root source = .ok (projectFile tree root source) := by
  obtain ⟨place, content, found⟩ := FileTree.isFile_iff.mp file.isFile
  refine locate_eq_ok_iff.mpr ⟨file.isRelative, file.isWellFormed, tree.realPath root, ?_, ?_,
    file.isInside, file.isFile⟩
  · exact FileTree.resolve_of_lookup_ne
      (FileTree.lookup_ne_tooManyLinks_of_covers file.isInside found)
  · exact FileTree.resolve_of_lookup_ne (found ▸ by simp)

theorem HasProjectSource.sourceOf?_eq (sourced : HasProjectSource tree root inst) :
    (Asset.sourceOf? inst = .ok none ∧ inst.values.get? "src" = none) ∨
      ∃ source, Asset.sourceOf? inst = .ok (some source) ∧
        inst.values.get? "src" = some (.text source) ∧ IsProjectFile tree root source := by
  unfold Asset.sourceOf?
  cases given : inst.values.get? "src" with
  | none => exact .inl ⟨rfl, rfl⟩
  | some value =>
    obtain ⟨source, rfl, file⟩ := sourced value given
    have isGiven : (Value.text source).isTruthy = true := by
      simp [Value.isTruthy, file.isGiven]
    refine .inr ⟨source, ?_, rfl, file⟩
    simp only [isGiven, Bool.not_true, Bool.false_eq_true, if_false]

theorem IsProjectFile.isInside_self (file : IsProjectFile tree root source) :
    Compilation.isInside source = true := by
  have below := file.staysBelow
  simp [Compilation.isInside, file.isRelative, below]

end source

/-- What is put behind a text without slashes changes its last segment only. -/
theorem Text.cutAt_append {separator : Char} (front back : List Char)
    (plain : separator ∉ back) :
    ∃ segments last, Text.cutAt separator front = segments ++ [last] ∧
      Text.cutAt separator (front ++ back) = segments ++ [last ++ back] := by
  induction front with
  | nil =>
    refine ⟨[], [], rfl, ?_⟩
    induction back with
    | nil => rfl
    | cons c back ih =>
      obtain ⟨other, rest⟩ := not_or.mp (mt List.mem_cons.mpr plain)
      have cut : Text.cutAt separator back = [back] := ih rest
      simp [Text.cutAt, Ne.symm other, cut]
  | cons c front ih =>
    obtain ⟨segments, last, cut, cutBoth⟩ := ih
    by_cases same : c = separator
    · refine ⟨[] :: segments, last, ?_, ?_⟩
      · simp [Text.cutAt, same, cut]
      · simp [Text.cutAt, same, cutBoth]
    · cases segments with
      | nil =>
        refine ⟨[], c :: last, ?_, ?_⟩
        · simp only [Text.cutAt, if_neg same, cut, List.nil_append]
        · simp only [List.cons_append, Text.cutAt, if_neg same, cutBoth, List.nil_append]
      | cons first segments =>
        refine ⟨(c :: first) :: segments, last, ?_, ?_⟩
        · simp only [Text.cutAt, if_neg same, cut, List.cons_append]
        · simp only [List.cons_append, Text.cutAt, if_neg same, cutBoth]

theorem IsProjectFile.isInside_page {tree : FileTree} {root : Path} {source : String}
    (file : IsProjectFile tree root source) :
    Compilation.isInside (source ++ ".html") = true := by
  obtain ⟨segments, last, cut, cutBoth⟩ :=
    Text.cutAt_append source.toList ".html".toList (by decide : '/' ∉ _)
  have relative : (Path.ofString (source ++ ".html")).isAbsolute = false := by
    have isRelative := file.isRelative
    have given : source.toList ≠ [] := by simpa using file.isGiven
    obtain ⟨first, rest, split⟩ := List.exists_cons_of_ne_nil given
    have notSlash : first ≠ '/' := by
      rintro rfl
      simp only [Path.isAbsolute, Path.ofString, split] at isRelative
      unfold Path.anchorOf at isRelative
      split at isRelative <;> simp_all
    simp [Path.isAbsolute, Path.ofString, split, Path.anchorOf, notSlash]
  have below : ".." ∉ (Path.ofString (source ++ ".html")).parts := by
    have staysBelow := file.staysBelow
    simp only [Path.ofString, String.toList_append, cut, cutBoth, List.mem_map,
      List.mem_filter, List.mem_append, List.mem_singleton] at staysBelow ⊢
    rintro ⟨segment, ⟨earlier | rfl, given⟩, same⟩
    · exact staysBelow ⟨segment, ⟨.inl earlier, given⟩, same⟩
    · have tooLong := congrArg (·.toList.length) same
      simp at tooLong
  simp [Compilation.isInside, relative, below]

/-! ## The binders -/

/-- An effect that stays inside the package. -/
def Effect.StaysInside : Effect → Prop
  | .asset name _ => Compilation.isInside name = true
  | _ => True

namespace Web

/-- A font whose name and file are known to the style sheets. -/
def HasFace (graph : Graph) (font : Instance) : Prop :=
  ∃ fileValue file source name, font.values.get? "file" = some fileValue ∧
    graph.instance? fileValue = some file ∧ file.values.get? "src" = some (.text source) ∧
    font.values.get? "name" = some name ∧ (name.literal? .ascii).isSome = true ∧
    name.isKey = true

/-- The classes of a color, which show the variable of the given name. -/
def colorClasses (token : String) : List (String × StyleRules) :=
  let use := "var(--" ++ token ++ ")"
  [(token ++ "-color", ⟨[("color", use)]⟩),
    (token ++ "-background-color", ⟨[("background-color", use)]⟩)]

/-- What the class of a typograph says of the size. -/
def sizeRules (typograph : Instance) : List (String × String) :=
  match typograph.values.get? "fontSize" with
  | some v => [("font-size", v.plain ++ "px")]
  | none => []

/-- What the class of a typograph says of the color. -/
def ColorRules (graph : Graph) (typograph : Instance) (rules : List (String × String)) : Prop :=
  (typograph.values.get? "color" = none ∧ rules = []) ∨
    ∃ colorValue color css, typograph.values.get? "color" = some colorValue ∧
      graph.instance? colorValue = some color ∧ Style.colorCss color.values = .ok css ∧
      rules = [("color", css)]

/-- A typograph whose font has a name, and whose color is one if it is given. -/
def HasRules (graph : Graph) (typograph : Instance) : Prop :=
  (∃ fontValue font name, typograph.values.get? "font" = some fontValue ∧
    graph.instance? fontValue = some font ∧ font.values.get? "name" = some name ∧
    (name.literal? .ascii).isSome = true) ∧
  ∀ colorValue, typograph.values.get? "color" = some colorValue →
    ∃ color, graph.instance? colorValue = some color ∧ Style.IsColor color.values

end Web

/-- What a visit takes for its decorations. Colors and typographs are decorations of the property
that holds them, so a root needs none. -/
def CanBeAdded (around : Surroundings) (visited : Visit) : Prop :=
  match around.target with
  | .web =>
      (visited.inst.type = "Color" → visited.reference.isSome = true →
        Style.IsColor visited.inst.values) ∧
      (visited.inst.type = "Font" → Web.HasFace around.program.graph visited.inst) ∧
      (visited.inst.type = "Typograph" → visited.reference.isSome = true →
        Web.HasRules around.program.graph visited.inst)
  | .ios =>
      visited.inst.type = "SVG" → ∀ source, visited.inst.values.get? "src" = some (.text source) →
        ∃ drawing, Ios.readDrawing around.tree
          (projectFile around.tree around.program.projectRoot source) = .ok drawing

section binders

variable {around : Surroundings} {inst : Instance} {reference : Option Reference}
  {effects : List Effect}

theorem given_eq_ok {name : String} {value : Value} :
    Asset.given inst name = .ok value ↔ inst.values.get? name = some value := by
  unfold Asset.given
  cases inst.values.get? name <;> simp

theorem fileBinder_eq_ok_iff : Asset.fileBinder around inst reference = .ok effects ↔
    (Asset.sourceOf? inst = .ok none ∧ effects = []) ∨
      ∃ source path, Asset.sourceOf? inst = .ok (some source) ∧
        Asset.locate around.tree around.program.projectRoot source = .ok path ∧
        effects = [.asset source (.copyOf path.toText)] := by
  simp only [Asset.fileBinder, Answers.bind_eq_ok_iff]
  constructor
  · rintro ⟨none | source, given, answered⟩
    · cases answered
      exact .inl ⟨given, rfl⟩
    · obtain ⟨path, located, ⟨⟩⟩ := Answers.bind_eq_ok_iff.mp answered
      exact .inr ⟨source, path, given, located, rfl⟩
  · rintro (⟨given, rfl⟩ | ⟨source, path, given, located, rfl⟩)
    · exact ⟨none, given, rfl⟩
    · exact ⟨some source, given, Answers.bind_eq_ok_iff.mpr ⟨path, located, rfl⟩⟩

theorem svgBinder_eq_ok_iff : Ios.svgBinder around inst reference = .ok effects ↔
    (Asset.sourceOf? inst = .ok none ∧ effects = []) ∨
      ∃ source path drawing, Asset.sourceOf? inst = .ok (some source) ∧
        Asset.locate around.tree around.program.projectRoot source = .ok path ∧
        Ios.readDrawing around.tree path = .ok drawing ∧
        effects = [.asset (source ++ ".html") (.text (Ios.page drawing))] := by
  simp only [Ios.svgBinder, Answers.bind_eq_ok_iff]
  constructor
  · rintro ⟨none | source, given, answered⟩
    · cases answered
      exact .inl ⟨given, rfl⟩
    · obtain ⟨path, located, answered⟩ := Answers.bind_eq_ok_iff.mp answered
      obtain ⟨drawing, read, ⟨⟩⟩ := Answers.bind_eq_ok_iff.mp answered
      exact .inr ⟨source, path, drawing, given, located, read, rfl⟩
  · rintro (⟨given, rfl⟩ | ⟨source, path, drawing, given, located, read, rfl⟩)
    · exact ⟨none, given, rfl⟩
    · refine ⟨some source, given, Answers.bind_eq_ok_iff.mpr ⟨path, located, ?_⟩⟩
      exact Answers.bind_eq_ok_iff.mpr ⟨drawing, read, rfl⟩

theorem fileBinder_ok (reference : Option Reference)
    (sourced : HasProjectSource around.tree around.program.projectRoot inst) :
    ∃ effects, Asset.fileBinder around inst reference = .ok effects ∧
      ∀ effect ∈ effects, effect.StaysInside := by
  rcases sourced.sourceOf?_eq with ⟨none, -⟩ | ⟨source, given, -, file⟩
  · exact ⟨[], fileBinder_eq_ok_iff.mpr (.inl ⟨none, rfl⟩), by simp⟩
  · refine ⟨_, fileBinder_eq_ok_iff.mpr (.inr ⟨source, _, given, file.locate_eq, rfl⟩), ?_⟩
    simpa [Effect.StaysInside] using file.isInside_self

theorem svgBinder_ok_iff
    (sourced : HasProjectSource around.tree around.program.projectRoot inst) :
    (∃ effects, Ios.svgBinder around inst reference = .ok effects) ↔
      ∀ source, inst.values.get? "src" = some (.text source) →
        ∃ drawing, Ios.readDrawing around.tree
          (projectFile around.tree around.program.projectRoot source) = .ok drawing := by
  simp only [svgBinder_eq_ok_iff]
  rcases sourced.sourceOf?_eq with ⟨none, absent⟩ | ⟨source, given, value, file⟩
  · simp [none, absent]
  · simp only [given, value, Option.some.injEq, Value.text.injEq, forall_eq', Except.ok.injEq]
    constructor
    · rintro ⟨_, ⟨⟨⟩, -⟩ | ⟨_, path, drawing, rfl, located, read, -⟩⟩
      rw [file.locate_eq] at located
      cases located
      exact ⟨drawing, read⟩
    · rintro ⟨drawing, read⟩
      exact ⟨_, .inr ⟨source, _, drawing, rfl, file.locate_eq, read, rfl⟩⟩

theorem colorBinder_ok_iff (isWeb : around.target = .web) :
    (∃ effects, Web.colorBinder around inst reference = .ok effects) ↔
      (reference.isSome = true → Style.IsColor inst.values) := by
  have allowed : Web.requireStyles around = .ok () := if_pos isWeb
  cases reference with
  | none => simp [Web.colorBinder, pure, Except.pure]
  | some reference =>
    simp only [Web.colorBinder, allowed, Answers.bind_eq_ok_iff, Option.isSome_some,
      forall_const, ← Style.exists_colorCss_iff]
    constructor
    · rintro ⟨_, css, shown, -⟩
      exact ⟨css, shown⟩
    · rintro ⟨css, shown⟩
      exact ⟨_, css, shown, (), trivial, rfl⟩

theorem quotedValue_eq_ok {value : Value} {s : String} :
    Web.quotedValue value = .ok s ↔ value.literal? .ascii = some s := by
  unfold Web.quotedValue
  cases value.literal? .ascii <;> simp

theorem quotedValue_ok_iff {value : Value} :
    (∃ s, Web.quotedValue value = .ok s) ↔ (value.literal? .ascii).isSome = true := by
  simp only [quotedValue_eq_ok, Option.isSome_iff_exists]

theorem instanceOf_ok_iff {graph : Graph} {value : Value} :
    graph.instanceOf value = .ok inst ↔ graph.instance? value = some inst := by
  unfold Graph.instanceOf
  cases graph.instance? value <;> simp

theorem fontBinder_ok_iff (isWeb : around.target = .web) :
    (∃ effects, Web.fontBinder around inst reference = .ok effects) ↔
      Web.HasFace around.program.graph inst := by
  have allowed : Web.requireStyles around = .ok () := if_pos isWeb
  simp only [Web.fontBinder, allowed, Answers.bind_eq_ok_iff, given_eq_ok, instanceOf_ok_iff]
  constructor
  · rintro ⟨effects, fileValue, hasFile, file, isFile, name, named, family, quoted, source,
      hasSource, answered⟩
    cases source with
    | text src =>
      refine ⟨fileValue, file, src, name, hasFile, isFile, hasSource, named,
        quotedValue_ok_iff.mp ⟨family, quoted⟩, ?_⟩
      cases isKey : name.isKey with
      | true => rfl
      | false =>
        simp only [isKey] at answered
        cases answered
    | _ => cases answered
  · rintro ⟨fileValue, file, source, name, hasFile, isFile, hasSource, named, quoted, isKey⟩
    obtain ⟨family, quoted⟩ := quotedValue_ok_iff.mpr quoted
    refine ⟨[.font name ⟨[("font-family", family), ("src", Web.assetUrl around.hotUrl source)]⟩],
      fileValue, hasFile, file, isFile, name, named, family, quoted, _, hasSource, ?_⟩
    simp only [isKey]
    rfl

theorem typographBinder_ok_iff (isWeb : around.target = .web) :
    (∃ effects, Web.typographBinder around inst reference = .ok effects) ↔
      (reference.isSome = true → Web.HasRules around.program.graph inst) := by
  have allowed : Web.requireStyles around = .ok () := if_pos isWeb
  cases reference with
  | none => simp [Web.typographBinder, pure, Except.pure]
  | some reference =>
    simp only [Web.typographBinder, allowed, Answers.bind_eq_ok_iff, given_eq_ok,
      instanceOf_ok_iff, Option.isSome_some, forall_const, Web.HasRules,
      ← Style.exists_colorCss_iff]
    constructor
    · rintro ⟨effects, fontValue, hasFont, font, isFont, name, named, family, quoted, answered⟩
      refine ⟨⟨fontValue, font, name, hasFont, isFont, named,
        quotedValue_ok_iff.mp ⟨family, quoted⟩⟩, ?_⟩
      intro colorValue hasColor
      simp only [hasColor, Answers.bind_eq_ok_iff, instanceOf_ok_iff] at answered
      obtain ⟨color, isColor, css, shown, -⟩ := answered
      exact ⟨color, isColor, css, shown⟩
    · rintro ⟨⟨fontValue, font, name, hasFont, isFont, named, quoted⟩, colored⟩
      obtain ⟨family, quoted⟩ := quotedValue_ok_iff.mpr quoted
      rw [exists_comm]
      refine ⟨fontValue, ?_⟩
      simp only [hasFont, isFont, named, quoted, true_and, Option.some.injEq, exists_eq_left',
        Except.ok.injEq]
      cases hasColor : inst.values.get? "color" with
      | none => exact ⟨_, rfl⟩
      | some colorValue =>
        obtain ⟨color, isColor, css, shown⟩ := colored colorValue hasColor
        simp only [instanceOf_ok_iff.mpr isColor, bind, Except.bind, shown]
        exact ⟨_, rfl⟩

theorem staysInside_of_svgBinder
    (sourced : HasProjectSource around.tree around.program.projectRoot inst)
    (answered : Ios.svgBinder around inst reference = .ok effects) :
    ∀ effect ∈ effects, effect.StaysInside := by
  obtain ⟨-, rfl⟩ | ⟨source, _, _, given, -, -, rfl⟩ := svgBinder_eq_ok_iff.mp answered
  · simp
  · rcases sourced.sourceOf?_eq with ⟨none, -⟩ | ⟨_, same, -, file⟩
    · rw [given] at none
      cases none
    · rw [given] at same
      cases same
      simpa [Effect.StaysInside] using file.isInside_page

theorem effects_of_fileBinder (answered : Asset.fileBinder around inst reference = .ok effects) :
    ∀ effect ∈ effects, ∃ name asset, effect = .asset name asset := by
  obtain ⟨-, rfl⟩ | ⟨_, _, -, -, rfl⟩ := fileBinder_eq_ok_iff.mp answered
  · simp
  · simp

theorem effects_of_colorBinder (answered : Web.colorBinder around inst reference = .ok effects) :
    (reference = none ∧ effects = []) ∨
      ∃ holder css, reference = some holder ∧ Style.colorCss inst.values = .ok css ∧
        effects = .styleVariable (Style.tokenName holder.parentType holder.name) css ::
          (Web.colorClasses (Style.tokenName holder.parentType holder.name)).map
            fun group => .ruleGroup group.1 group.2 := by
  cases reference with
  | none =>
    cases answered
    exact .inl ⟨rfl, rfl⟩
  | some holder =>
    simp only [Web.colorBinder, Answers.bind_eq_ok_iff] at answered
    obtain ⟨css, shown, -, -, answered⟩ := answered
    cases answered
    exact .inr ⟨holder, css, rfl, shown, rfl⟩

/-- A font adds one face, with the literal of its name as the family and the address of its
file. -/
theorem face_of_fontBinder (answered : Web.fontBinder around inst reference = .ok effects) :
    ∃ fileValue file source name family, inst.values.get? "file" = some fileValue ∧
      around.program.graph.instance? fileValue = some file ∧
      file.values.get? "src" = some (.text source) ∧ inst.values.get? "name" = some name ∧
      name.literal? .ascii = some family ∧
      effects = [.font name
        ⟨[("font-family", family), ("src", Web.assetUrl around.hotUrl source)]⟩] := by
  simp only [Web.fontBinder, Answers.bind_eq_ok_iff, given_eq_ok, instanceOf_ok_iff,
    quotedValue_eq_ok] at answered
  obtain ⟨fileValue, hasFile, file, isFile, name, named, family, quoted, source, hasSource,
    answered⟩ := answered
  cases source with
  | text src =>
    cases isKey : name.isKey with
    | true =>
      simp only [isKey, Answers.bind_eq_ok_iff] at answered
      obtain ⟨_, ⟨⟩, -, -, ⟨⟩⟩ := answered
      exact ⟨fileValue, file, src, name, family, hasFile, isFile, hasSource, named, quoted, rfl⟩
    | false =>
      simp only [isKey, Answers.bind_eq_ok_iff] at answered
      obtain ⟨_, -, -, -, ⟨⟩⟩ := answered
  | _ => cases answered

theorem effects_of_fontBinder (answered : Web.fontBinder around inst reference = .ok effects) :
    ∃ fileValue file source name family, inst.values.get? "file" = some fileValue ∧
      around.program.graph.instance? fileValue = some file ∧
      file.values.get? "src" = some (.text source) ∧
      effects = [.font name
        ⟨[("font-family", family), ("src", Web.assetUrl around.hotUrl source)]⟩] := by
  obtain ⟨fileValue, file, source, name, family, hasFile, isFile, hasSource, -, -, rfl⟩ :=
    face_of_fontBinder answered
  exact ⟨fileValue, file, source, name, family, hasFile, isFile, hasSource, rfl⟩

/-- A typograph that a property holds adds one class, with the literal of the name of its font as
the family, its size and its color. -/
theorem class_of_typographBinder
    (answered : Web.typographBinder around inst reference = .ok effects) :
    (reference = none ∧ effects = []) ∨
      ∃ holder fontValue font name family color, reference = some holder ∧
        inst.values.get? "font" = some fontValue ∧
        around.program.graph.instance? fontValue = some font ∧
        font.values.get? "name" = some name ∧ name.literal? .ascii = some family ∧
        Web.ColorRules around.program.graph inst color ∧
        effects = [.ruleGroup (Style.tokenName holder.parentType holder.name)
          ⟨("font-family", family) :: Web.sizeRules inst ++ color⟩] := by
  cases reference with
  | none =>
    cases answered
    exact .inl ⟨rfl, rfl⟩
  | some holder =>
    simp only [Web.typographBinder, Answers.bind_eq_ok_iff, given_eq_ok, instanceOf_ok_iff,
      quotedValue_eq_ok] at answered
    obtain ⟨fontValue, hasFont, font, isFont, name, named, family, quoted, answered⟩ := answered
    cases hasColor : inst.values.get? "color" with
    | none =>
      simp only [hasColor, Answers.bind_eq_ok_iff] at answered
      obtain ⟨_, ⟨⟩, -, -, answered⟩ := answered
      cases answered
      exact .inr ⟨holder, fontValue, font, name, family, [], rfl, hasFont, isFont, named, quoted,
        .inl ⟨hasColor, rfl⟩, rfl⟩
    | some colorValue =>
      simp only [hasColor, Answers.bind_eq_ok_iff, instanceOf_ok_iff] at answered
      obtain ⟨color, isColor, css, shown, _, ⟨⟩, -, -, answered⟩ := answered
      cases answered
      exact .inr ⟨holder, fontValue, font, name, family, _, rfl, hasFont, isFont, named, quoted,
        .inr ⟨colorValue, color, css, hasColor, isColor, shown, rfl⟩, rfl⟩

theorem effects_of_typographBinder
    (answered : Web.typographBinder around inst reference = .ok effects) :
    effects = [] ∨ ∃ name rules, effects = [.ruleGroup name rules] := by
  obtain ⟨-, rfl⟩ | ⟨_, _, _, _, _, _, -, -, -, -, -, -, rfl⟩ := class_of_typographBinder answered
  · exact .inl rfl
  · exact .inr ⟨_, _, rfl⟩

end binders

namespace Compilation

variable {setup : Setup} {around : Surroundings} {visited : Visit}

/-- The types whose instances are files of the project. -/
def fileTypes : List String := ["File", "SVG"]

def prefabNames : List String := ["File", "SVG", "Color", "Font", "Typograph"]

/-- The asset binder of a prefab type. -/
def prefabBinder? : Target → String → Option AssetBinder
  | .web, "File" => some Asset.fileBinder
  | .web, "SVG" => some Asset.fileBinder
  | .web, "Color" => some Web.colorBinder
  | .web, "Font" => some Web.fontBinder
  | .web, "Typograph" => some Web.typographBinder
  | .ios, "File" => some Asset.fileBinder
  | .ios, "SVG" => some Ios.svgBinder
  | _, _ => none

theorem prefabBinder?_eq_none (target : Target) {type : String} (other : type ∉ prefabNames) :
    prefabBinder? target type = none := by
  simp only [prefabNames, List.mem_cons, List.not_mem_nil, or_false, not_or] at other
  obtain ⟨file, svg, color, font, typograph⟩ := other
  unfold prefabBinder?
  split <;> first | contradiction | rfl

theorem assets_bindings (target : Target) (installed : Path) (type : String) :
    ((target.bindings installed).get? type).bind Binding.assets = prefabBinder? target type := by
  have keys_eq : (target.bindings installed).keys = prefabNames := by cases target <;> rfl
  by_cases prefab : type ∈ prefabNames
  · simp only [prefabNames, List.mem_cons, List.not_mem_nil, or_false] at prefab
    rcases prefab with rfl | rfl | rfl | rfl | rfl <;> cases target <;> rfl
  · rw [prefabBinder?_eq_none target prefab]
    rw [← keys_eq, OrderedMap.mem_keys] at prefab
    rw [Option.not_isSome_iff_eq_none.mp prefab]
    rfl

section shipped

variable (shipped : setup.bindings = setup.target.bindings setup.installed)

include shipped

theorem added_visit : added setup around (.visit visited) =
    match prefabBinder? setup.target (around.program.graph.componentName visited.inst) with
    | none => .ok []
    | some binder => binder around visited.inst visited.reference := by
  cases bound : prefabBinder? setup.target (around.program.graph.componentName visited.inst) with
  | none => simp only [added, shipped, assets_bindings, bound]
  | some binder => simp only [added, shipped, assets_bindings, bound]

variable (named : around.program.graph.componentName visited.inst = visited.inst.type)
  (target_eq : around.target = setup.target)
  (sourced : visited.inst.type ∈ fileTypes →
    HasProjectSource around.tree around.program.projectRoot visited.inst)

include named target_eq sourced

/-- What comes of a visit with the bindings that come with the library. -/
theorem added_ok_iff :
    (∃ effects, added setup around (.visit visited) = .ok effects) ↔ CanBeAdded around visited := by
  rw [added_visit shipped, named]
  unfold CanBeAdded
  by_cases prefab : visited.inst.type ∈ prefabNames
  · simp only [prefabNames, List.mem_cons, List.not_mem_nil, or_false] at prefab
    cases target : setup.target with
    | web =>
      have isWeb : around.target = .web := target_eq.trans target
      rw [isWeb]
      rcases prefab with type | type | type | type | type
      · obtain ⟨effects, answered, -⟩ := fileBinder_ok visited.reference
          (sourced (by simp [fileTypes, type]))
        simp [type, prefabBinder?, answered]
      · obtain ⟨effects, answered, -⟩ := fileBinder_ok visited.reference
          (sourced (by simp [fileTypes, type]))
        simp [type, prefabBinder?, answered]
      · simp [type, prefabBinder?, colorBinder_ok_iff isWeb]
      · simp [type, prefabBinder?, fontBinder_ok_iff isWeb]
      · simp [type, prefabBinder?, typographBinder_ok_iff isWeb]
    | ios =>
      rw [target_eq.trans target]
      rcases prefab with type | type | type | type | type
      · obtain ⟨effects, answered, -⟩ := fileBinder_ok visited.reference
          (sourced (by simp [fileTypes, type]))
        simp [type, prefabBinder?, answered]
      · simp [type, prefabBinder?, svgBinder_ok_iff (sourced (by simp [fileTypes, type]))]
      · simp [type, prefabBinder?]
      · simp [type, prefabBinder?]
      · simp [type, prefabBinder?]
  · rw [prefabBinder?_eq_none setup.target prefab]
    simp only [prefabNames, List.mem_cons, List.not_mem_nil, or_false, not_or] at prefab
    cases around.target <;> simp [prefab]

omit target_eq in
/-- Whatever is added stays inside the package. -/
theorem staysInside_of_added {effects : List Effect}
    (answered : added setup around (.visit visited) = .ok effects) :
    ∀ effect ∈ effects, effect.StaysInside := by
  rw [added_visit shipped, named] at answered
  by_cases prefab : visited.inst.type ∈ prefabNames
  · have ofFile (isFile : visited.inst.type ∈ fileTypes)
        (answered : Asset.fileBinder around visited.inst visited.reference = .ok effects) :
        ∀ effect ∈ effects, effect.StaysInside := by
      obtain ⟨added, same, inside⟩ := fileBinder_ok visited.reference
        (sourced isFile)
      rwa [← Except.ok.inj (same.symm.trans answered)]
    simp only [prefabNames, List.mem_cons, List.not_mem_nil, or_false] at prefab
    cases target : setup.target with
    | web =>
      rcases prefab with type | type | type | type | type <;>
        simp only [target, type, prefabBinder?] at answered
      · exact ofFile (by simp [fileTypes, type]) answered
      · exact ofFile (by simp [fileTypes, type]) answered
      · obtain ⟨-, rfl⟩ | ⟨_, _, -, -, rfl⟩ := effects_of_colorBinder answered
        · simp
        · simp [Effect.StaysInside, Web.colorClasses]
      · obtain ⟨_, _, _, _, _, -, -, -, rfl⟩ := effects_of_fontBinder answered
        simp [Effect.StaysInside]
      · obtain rfl | ⟨_, _, rfl⟩ := effects_of_typographBinder answered
        · simp
        · simp [Effect.StaysInside]
    | ios =>
      rcases prefab with type | type | type | type | type <;>
        simp only [target, type, prefabBinder?] at answered
      · exact ofFile (by simp [fileTypes, type]) answered
      · exact staysInside_of_svgBinder (sourced (by simp [fileTypes, type])) answered
      all_goals
        cases answered
        simp
  · rw [prefabBinder?_eq_none setup.target prefab] at answered
    cases answered
    simp

end shipped

end Compilation

end DesignGraph
