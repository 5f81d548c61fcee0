import DesignGraph.Proofs.Stock

/-!
# The texts of style sheets

Both style sheets are text templates: the font faces, the variables and the classes, each
declaration on a line of its own. Here are the texts that they render to.
-/

namespace DesignGraph.Style

open Template

/-! ## Texts -/

def ruleLine (rule : String × String) : String := String.join ["  ", rule.1, ": ", rule.2, ";\n"]

def rulesText (rules : StyleRules) : String := String.join (rules.entries.map ruleLine)

def faceText (rules : StyleRules) : String :=
  String.join ["@font-face \x7b\n", rulesText rules, "\x7d\n\n"]

def classText (group : String × StyleRules) : String :=
  String.join ["\n.", group.1, " \x7b\n", rulesText group.2, "\x7d\n"]

/-- The line of a variable. Only style sheets that are not preprocessed give numbers a unit. -/
def variableLine (language : String) (v : Variable) : String :=
  if language = "css" then
    String.join ["  --", v.name, ": ", v.value, if v.isNumber then "px" else "", ";\n"]
  else String.join ["$", v.name, ": ", v.value, ";\n"]

/-- The text of a style sheet. -/
def Tokens.sheet (tokens : Tokens) (language : String) : String :=
  let faces := String.join (tokens.fonts.map faceText)
  let lines := String.join (tokens.styleVariables.map (variableLine language))
  let classes := String.join (tokens.ruleGroups.map classText)
  if language = "css" then String.join [faces, ":root \x7b\n", lines, "\x7d\n", classes]
  else String.join [faces, lines, classes]

/-- A value that the style sheets declare: that of a variable, or of a rule of a font face or a
class. -/
inductive Tokens.Declares (tokens : Tokens) : String → Prop
  | ofVariable {v : Variable} (listed : v ∈ tokens.styleVariables) : Declares tokens v.value
  | ofFace {rules : StyleRules} {rule : String × String} (listed : rules ∈ tokens.fonts)
      (given : rule ∈ rules.entries) : Declares tokens rule.2
  | ofClass {group : String × StyleRules} {rule : String × String}
      (listed : group ∈ tokens.ruleGroups) (given : rule ∈ group.2.entries) :
      Declares tokens rule.2

theorem infix_join {part : String} {parts : List String} (member : part ∈ parts) :
    part.toList <:+: (String.join parts).toList := by
  rw [String.toList_join, List.flatMap_def]
  exact List.infix_of_mem_flatten (List.mem_map_of_mem member)

/-- The value of a declaration stands behind its name and a colon. -/
theorem infix_declaration (start name value : String) (rest : List String) :
    (": " ++ value).toList <:+: (String.join (start :: name :: ": " :: value :: rest)).toList := by
  refine ⟨(start ++ name).toList, (String.join rest).toList, ?_⟩
  simp only [String.join_cons, String.toList_append, List.append_assoc]

theorem infix_variableLine (language : String) (v : Variable) :
    (": " ++ v.value).toList <:+: (variableLine language v).toList := by
  by_cases css : language = "css"
  · rw [variableLine, if_pos css]
    exact infix_declaration _ _ _ _
  · rw [variableLine, if_neg css]
    exact infix_declaration _ _ _ _

theorem infix_rulesText {rules : StyleRules} {rule : String × String}
    (given : rule ∈ rules.entries) : (": " ++ rule.2).toList <:+: (rulesText rules).toList :=
  (infix_declaration "  " rule.1 rule.2 [";\n"]).trans (infix_join (List.mem_map_of_mem given))

/-- The parts of a style sheet stand in it. -/
theorem infix_sheet {tokens : Tokens} {language part : String}
    (member : part ∈ tokens.fonts.map faceText ∨
      part ∈ tokens.styleVariables.map (variableLine language) ∨
      part ∈ tokens.ruleGroups.map classText) :
    part.toList <:+: (tokens.sheet language).toList := by
  unfold Tokens.sheet
  dsimp only
  rcases member with face | line | group
  · split_ifs
    all_goals exact (infix_join face).trans (infix_join (by simp))
  · split_ifs
    all_goals exact (infix_join line).trans (infix_join (by simp))
  · split_ifs
    all_goals exact (infix_join group).trans (infix_join (by simp))

/-- Every value that is declared stands in both style sheets. -/
theorem infix_sheet_of_declares {tokens : Tokens} {value : String}
    (declares : tokens.Declares value) (language : String) :
    (": " ++ value).toList <:+: (tokens.sheet language).toList := by
  cases declares with
  | @ofVariable v listed =>
    exact (infix_variableLine language v).trans
      (infix_sheet (.inr (.inl (List.mem_map_of_mem listed))))
  | @ofFace rules rule listed given =>
    have inFace : (rulesText rules).toList <:+: (faceText rules).toList := infix_join (by simp)
    exact ((infix_rulesText given).trans inFace).trans
      (infix_sheet (.inl (List.mem_map_of_mem listed)))
  | @ofClass group rule listed given =>
    have inClass : (rulesText group.2).toList <:+: (classText group).toList :=
      infix_join (by simp)
    exact ((infix_rulesText given).trans inClass).trans
      (infix_sheet (.inr (.inr (List.mem_map_of_mem listed))))

/-! ## The templates -/

def ruleStatements : List Statement := [
  .text "  ", .print (.name "key"), .text ": ", .print (.name "value"), .text ";\n"]

def rulesLoop (rules : Expression) : Statement :=
  .loop (.each ["key", "value"]) rules none ruleStatements []

def facesLoop : Statement :=
  .loop (.one "font") (.name "style_fonts") none
    [.text "@font-face \x7b\n", rulesLoop (.name "font"), .text "\x7d\n\n"] []

def classesLoop : Statement :=
  .loop (.one "group") (.name "style_rule_groups") none
    [.text "\n.", .print (.field (.name "group") "name"), .text " \x7b\n",
      rulesLoop (.field (.name "group") "rules"), .text "\x7d\n"] []

def cssVariablesLoop : Statement :=
  .loop (.one "variable") (.name "style_variables") none
    [.text "  --", .print (.field (.name "variable") "name"), .text ": ",
      .print (.field (.name "variable") "value"),
      .print (.choice (.field (.name "variable") "is_number") (.literal (.text "px"))
        (some (.literal (.text "")))), .text ";\n"] []

def scssVariablesLoop : Statement :=
  .loop (.one "variable") (.name "style_variables") none
    [.text "$", .print (.field (.name "variable") "name"), .text ": ",
      .print (.field (.name "variable") "value"), .text ";\n"] []

def cssStatements : List Statement :=
  [facesLoop, .text ":root \x7b\n", cssVariablesLoop, .text "\x7d\n", classesLoop]

def scssStatements : List Statement := [facesLoop, scssVariablesLoop, classesLoop]

/-! The same as tokens. -/

def endTokens : List Token := [.blockStart, .word "endfor", .blockEnd]

def printTokens (e : List Token) : List Token := .printStart :: e ++ [.printEnd]

def fieldTokens (owner name : String) : List Token := [.word owner, .symbol ".", .word name]

def loopTokens (names source body : List Token) : List Token :=
  .blockStart :: .word "for" :: names ++ .word "in" :: source ++ .blockEnd :: body ++ endTokens

def rulesTokens (rules : List Token) : List Token :=
  loopTokens [.word "key", .symbol ",", .word "value"] rules
    (.text "  " :: printTokens [.word "key"] ++ .text ": " :: printTokens [.word "value"] ++
      [.text ";\n"])

def facesTokens : List Token :=
  loopTokens [.word "font"] [.word "style_fonts"]
    (.text "@font-face \x7b\n" :: rulesTokens [.word "font"] ++ [.text "\x7d\n\n"])

def classesTokens : List Token :=
  loopTokens [.word "group"] [.word "style_rule_groups"]
    (.text "\n." :: printTokens (fieldTokens "group" "name") ++
      .text " \x7b\n" :: rulesTokens (fieldTokens "group" "rules") ++ [.text "\x7d\n"])

/-- The loop over the variables, with what stands before a name and behind a value. -/
def variablesTokens (mark : String) (unit : List Token) : List Token :=
  loopTokens [.word "variable"] [.word "style_variables"]
    (.text mark :: printTokens (fieldTokens "variable" "name") ++
      .text ": " :: printTokens (fieldTokens "variable" "value") ++ unit ++ [.text ";\n"])

def unitTokens : List Token :=
  printTokens (.string "px" :: .word "if" :: fieldTokens "variable" "is_number" ++
    [.word "else", .string ""])

def cssTokens : List Token :=
  facesTokens ++ .text ":root \x7b\n" :: variablesTokens "  --" unitTokens ++
    .text "\x7d\n" :: classesTokens

def scssTokens : List Token := facesTokens ++ variablesTokens "$" [] ++ classesTokens

theorem tokens_css : Template.tokens Stock.Web.css = .ok cssTokens := by
  unfold Template.tokens Stock.Web.css
  simp only [Text.toList_ofLines, List.flatMap_cons, List.flatMap_nil]
  repeat rw [String.toList_ofList]
  decide +kernel

theorem tokens_scss : Template.tokens Stock.Web.scss = .ok scssTokens := by
  unfold Template.tokens Stock.Web.scss
  simp only [Text.toList_ofLines, List.flatMap_cons, List.flatMap_nil]
  repeat rw [String.toList_ofList]
  decide +kernel

set_option maxRecDepth 4000 in
theorem parse_css : parse Stock.Web.css = .ok cssStatements := parse_of_tokens tokens_css rfl

set_option maxRecDepth 4000 in
theorem parse_scss : parse Stock.Web.scss = .ok scssStatements := parse_of_tokens tokens_scss rfl

/-! ## Rendering -/

variable {scope : Scope}

theorem renderPass_rule (rule : String × String) (length index : Nat) :
    renderPass scope (.each ["key", "value"]) ruleStatements length
      (.value (.list [.text rule.1, .text rule.2]), index) = .ok (ruleLine rule) :=
  renderPass_of_forall₂ rfl (.cons rfl (.cons (renderOne_print (d := .ofText rule.1) rfl)
    (.cons rfl (.cons (renderOne_print (d := .ofText rule.2) rfl) (.cons rfl .nil)))))

theorem renderOne_rules {e : Expression} {rules : StyleRules}
    (evaluated : evaluate scope e = .ok (.value (rulesValue rules))) :
    renderOne scope (rulesLoop e) = .ok (rulesText rules, scope) :=
  renderOne_loop_of_map evaluated renderPass_rule

theorem renderOne_faces {fonts : List StyleRules}
    (given : scope.find "style_fonts" = .value (.list (fonts.map rulesValue))) :
    renderOne scope facesLoop = .ok (String.join (fonts.map faceText), scope) := by
  refine renderOne_loop_of_map (by rw [evaluate, given]) fun rules length index => ?_
  exact renderPass_of_forall₂ rfl (.cons rfl (.cons (renderOne_rules rfl) (.cons rfl .nil)))

/-- What the templates receive of a class. -/
def groupEntry (group : String × StyleRules) : Value :=
  .map [(.text "name", .text group.1), (.text "rules", rulesValue group.2)]

theorem renderOne_classes {groups : List (String × StyleRules)}
    (given : scope.find "style_rule_groups" = .value (.list (groups.map groupEntry))) :
    renderOne scope classesLoop = .ok (String.join (groups.map classText), scope) := by
  refine renderOne_loop_of_map (by rw [evaluate, given]) fun group length index => ?_
  exact renderPass_of_forall₂ rfl (.cons rfl (.cons (renderOne_print (d := .ofText group.1) rfl)
    (.cons rfl (.cons (@renderOne_rules _ _ group.2 rfl) (.cons rfl .nil)))))

/-- What the templates receive of a variable. -/
def variableEntry (v : Variable) : Value :=
  .map [(.text "name", .text v.name), (.text "value", .text v.value),
    (.text "is_number", .bool v.isNumber)]

theorem renderOne_cssVariables {vs : List Variable}
    (given : scope.find "style_variables" = .value (.list (vs.map variableEntry))) :
    renderOne scope cssVariablesLoop =
      .ok (String.join (vs.map (variableLine "css")), scope) := by
  refine renderOne_loop_of_map (by rw [evaluate, given]) fun v length index => ?_
  refine renderPass_of_forall₂ rfl (.cons rfl (.cons (renderOne_print (d := .ofText v.name) rfl)
    (.cons rfl (.cons (renderOne_print (d := .ofText v.value) rfl)
      (.cons (renderOne_print (d := .ofText (if v.isNumber then "px" else "")) ?_)
        (.cons rfl .nil))))))
  obtain ⟨name, value, isNumber⟩ := v
  cases isNumber with
  | true => rfl
  | false => rfl

theorem renderOne_scssVariables {vs : List Variable}
    (given : scope.find "style_variables" = .value (.list (vs.map variableEntry))) :
    renderOne scope scssVariablesLoop =
      .ok (String.join (vs.map (variableLine "scss")), scope) := by
  refine renderOne_loop_of_map (by rw [evaluate, given]) fun v length index => ?_
  exact renderPass_of_forall₂ rfl (.cons rfl (.cons (renderOne_print (d := .ofText v.name) rfl)
    (.cons rfl (.cons (renderOne_print (d := .ofText v.value) rfl) (.cons rfl .nil)))))

/-- The templates spell the style sheets. -/
theorem render_css (tokens : Tokens) :
    Template.render Stock.Web.css tokens.data = .ok (tokens.sheet "css") :=
  render_of_parse parse_css rfl (renderAll_of_forall₂ (.cons (renderOne_faces rfl) (.cons rfl
    (.cons (renderOne_cssVariables rfl) (.cons rfl (.cons (renderOne_classes rfl) .nil))))))

theorem render_scss (tokens : Tokens) :
    Template.render Stock.Web.scss tokens.data = .ok (tokens.sheet "scss") :=
  render_of_parse parse_scss rfl (renderAll_of_forall₂ (.cons (renderOne_faces rfl)
    (.cons (renderOne_scssVariables rfl) (.cons (renderOne_classes rfl) .nil))))

theorem render_sheet (installed : Path) {language : String}
    (listed : language ∈ Stock.styleLanguages) (tokens : Tokens) :
    Stock.render installed .web ("styles." ++ language ++ ".j2") tokens.data =
      .ok (tokens.sheet language) := by
  obtain ⟨css, scss⟩ := Stock.lookup_styleSheets
  simp only [Stock.styleLanguages, List.mem_cons, List.not_mem_nil, or_false] at listed
  rcases listed with rfl | rfl
  · exact Stock.render_of_stocked installed (Stock.templateName?_eq "styles.css.j2" (by simp)) css
      (render_css tokens)
  · exact Stock.render_of_stocked installed (Stock.templateName?_eq "styles.scss.j2" (by simp)) scss
      (render_scss tokens)

/-! ## The two sheets -/

theorem variableLine_css (v : Variable) :
    variableLine "css" v =
      "  --" ++ v.name ++ ": " ++ v.value ++ (if v.isNumber then "px" else "") ++ ";\n" := by
  simp only [variableLine, if_true, String.join_cons, String.join_nil, String.append_empty,
    String.append_assoc]

theorem variableLine_scss (v : Variable) :
    variableLine "scss" v = "$" ++ v.name ++ ": " ++ v.value ++ ";\n" := by
  simp only [variableLine, String.reduceEq, if_false, String.join_cons, String.join_nil,
    String.append_empty, String.append_assoc]

theorem Tokens.sheet_css (tokens : Tokens) :
    tokens.sheet "css" = String.join (tokens.fonts.map faceText) ++
      (":root \x7b\n" ++ String.join (tokens.styleVariables.map (variableLine "css")) ++
        "\x7d\n") ++
        String.join (tokens.ruleGroups.map classText) := by
  simp only [sheet, if_true, String.join_cons, String.join_nil, String.append_empty,
    String.append_assoc]

theorem Tokens.sheet_scss (tokens : Tokens) :
    tokens.sheet "scss" = String.join (tokens.fonts.map faceText) ++
      String.join (tokens.styleVariables.map (variableLine "scss")) ++
        String.join (tokens.ruleGroups.map classText) := by
  simp only [sheet, String.reduceEq, if_false, String.join_cons, String.join_nil,
    String.append_empty, String.append_assoc]

/-- The two style sheets of the same tokens agree. Both begin with the font faces and end with the
classes, in the same words. In between they list the variables in the same order, a line for each:
one of the preprocessed sheet has the name and the value, one of the other also the unit if the
variable is a number, inside the block of the root. -/
theorem style_sheets_agree (installed : Path) (tokens : Tokens) :
    let faces := String.join (tokens.fonts.map faceText)
    let classes := String.join (tokens.ruleGroups.map classText)
    let cssLine (v : Variable) :=
      "  --" ++ v.name ++ ": " ++ v.value ++ (if v.isNumber then "px" else "") ++ ";\n"
    let scssLine (v : Variable) := "$" ++ v.name ++ ": " ++ v.value ++ ";\n"
    Stock.render installed .web "styles.css.j2" tokens.data =
        .ok (faces ++ (":root \x7b\n" ++ String.join (tokens.styleVariables.map cssLine) ++
          "\x7d\n") ++ classes) ∧
      Stock.render installed .web "styles.scss.j2" tokens.data =
        .ok (faces ++ String.join (tokens.styleVariables.map scssLine) ++ classes) := by
  intro faces classes cssLine scssLine
  have cssLines : variableLine "css" = cssLine := funext variableLine_css
  have scssLines : variableLine "scss" = scssLine := funext variableLine_scss
  have css := render_sheet installed List.mem_cons_self tokens
  have scss := render_sheet installed (List.mem_cons_of_mem _ List.mem_cons_self) tokens
  rw [tokens.sheet_css, cssLines] at css
  rw [tokens.sheet_scss, scssLines] at scss
  exact ⟨css, scss⟩

end DesignGraph.Style
