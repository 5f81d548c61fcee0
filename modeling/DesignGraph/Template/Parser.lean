import DesignGraph.Template.Token

/-!
# From tokens to templates

Expressions bind, from loose to tight: the choice with `if`, `or`, `and`, `not`, comparisons, `+`
and `-`, `~`, products, powers, the sign, and then parts, calls, filters and tests.

The recursion is bounded by the number of tokens.
-/

namespace DesignGraph.Template

abbrev Parser := StateT (List Token) (Except Malformed)

namespace Parser

def fail {α : Type} (what : String) : Parser α := throw (.unexpected what)

def peek : Parser (Option Token) := do pure (← get).head?

def next : Parser Unit := modify List.tail

def isSymbol (s : String) : Parser Bool := do pure ((← peek) = some (.symbol s))

def isWord (s : String) : Parser Bool := do pure ((← peek) = some (.word s))

/-- Pass a token if it comes next. -/
def accept (t : Token) : Parser Bool := do
  if (← peek) = some t then next; pure true else pure false

def expect (t : Token) (what : String) : Parser Unit := do
  if !(← accept t) then fail ("no " ++ what)

def word : Parser String := do
  match ← peek with
  | some (.word s) => next; pure s
  | _ => fail "no name"

def comparisonSymbols : List (String × Comparison) :=
  [("==", .equal), ("!=", .unequal), ("<", .less), ("<=", .lessOrEqual), (">", .greater),
    (">=", .greaterOrEqual)]

def comparison? : Parser (Option Comparison) := do
  match ← get with
  | .symbol s :: _ => match comparisonSymbols.lookup s with
      | some c => next; pure (some c)
      | none => pure none
  | .word "in" :: _ => next; pure (some .member)
  | .word "not" :: .word "in" :: _ => next; next; pure (some .nonMember)
  | _ => pure none

def additive? : Parser (Option Operator) := do
  if ← accept (.symbol "+") then pure (some .plus)
  else if ← accept (.symbol "-") then pure (some .minus)
  else pure none

def multiplicative? : Parser (Option Operator) := do
  if ← accept (.symbol "*") then pure (some .times)
  else if ← accept (.symbol "/") then pure (some .quotient)
  else if ← accept (.symbol "//") then pure (some .floor)
  else if ← accept (.symbol "%") then pure (some .remainder)
  else pure none

/-- Words that end an argument of a test rather than begin it. -/
def isEndWord (s : String) : Bool := ["else", "or", "and", "is", "if"].contains s

/-- Whether an argument of a test without brackets comes next. -/
def startsArgument : Parser Bool := do
  match ← peek with
  | some (.word s) => pure (!isEndWord s)
  | some (.string _) => pure true
  | some (.int _) => pure true
  | some (.float _) => pure true
  | some (.symbol s) => pure (s = "(" || s = "[" || s = "\x7b")
  | _ => pure false

def constant (s : String) : Expression :=
  match s with
  | "true" => .literal (.bool true)
  | "True" => .literal (.bool true)
  | "false" => .literal (.bool false)
  | "False" => .literal (.bool false)
  | "none" => .literal .null
  | "None" => .literal .null
  | s => .name s

/-- Whether the items of an unbracketed list end here. -/
def atItemsEnd (ends : List String) : Parser Bool := do
  match ← peek with
  | some (.symbol s) => pure (s = ")")
  | some (.word s) => pure (ends.contains s)
  | some .printEnd => pure true
  | some .blockEnd => pure true
  | none => pure true
  | _ => pure false

mutual

def expression (bound : Nat) : Parser Expression :=
  match bound with
  | 0 => fail "a long expression"
  | bound + 1 => do
      let e ← disjunction bound
      choices bound e

def choices (bound : Nat) (e : Expression) : Parser Expression :=
  match bound with
  | 0 => fail "a long expression"
  | bound + 1 => do
      if ← accept (.word "if") then
        let condition ← disjunction bound
        let negative ← if ← accept (.word "else") then do pure (some (← expression bound))
          else pure none
        choices bound (.choice condition e negative)
      else pure e

def disjunction (bound : Nat) : Parser Expression :=
  match bound with
  | 0 => fail "a long expression"
  | bound + 1 => do
      let e ← conjunction bound
      if ← accept (.word "or") then pure (.disjunction e (← disjunction bound)) else pure e

def conjunction (bound : Nat) : Parser Expression :=
  match bound with
  | 0 => fail "a long expression"
  | bound + 1 => do
      let e ← negation bound
      if ← accept (.word "and") then pure (.conjunction e (← conjunction bound)) else pure e

def negation (bound : Nat) : Parser Expression :=
  match bound with
  | 0 => fail "a long expression"
  | bound + 1 => do
      if ← accept (.word "not") then pure (.negation (← negation bound)) else compared bound

def compared (bound : Nat) : Parser Expression :=
  match bound with
  | 0 => fail "a long expression"
  | bound + 1 => do
      let first ← sum bound
      let others ← comparisons bound
      pure (if others.isEmpty then first else .comparison first others)

def comparisons (bound : Nat) : Parser (List (Comparison × Expression)) :=
  match bound with
  | 0 => fail "a long expression"
  | bound + 1 => do
      match ← comparison? with
      | some c => do
          let e ← sum bound
          pure ((c, e) :: (← comparisons bound))
      | none => pure []

def sum (bound : Nat) : Parser Expression :=
  match bound with
  | 0 => fail "a long expression"
  | bound + 1 => do
      let e ← joined bound
      sumRest bound e

def sumRest (bound : Nat) (left : Expression) : Parser Expression :=
  match bound with
  | 0 => fail "a long expression"
  | bound + 1 => do
      match ← additive? with
      | some op => do
          let right ← joined bound
          sumRest bound (.arithmetic op left right)
      | none => pure left

def joined (bound : Nat) : Parser Expression :=
  match bound with
  | 0 => fail "a long expression"
  | bound + 1 => do
      let first ← product bound
      let others ← joinedRest bound
      pure (if others.isEmpty then first else .joined (first :: others))

def joinedRest (bound : Nat) : Parser (List Expression) :=
  match bound with
  | 0 => fail "a long expression"
  | bound + 1 => do
      if ← accept (.symbol "~") then
        let e ← product bound
        pure (e :: (← joinedRest bound))
      else pure []

def product (bound : Nat) : Parser Expression :=
  match bound with
  | 0 => fail "a long expression"
  | bound + 1 => do
      let e ← power bound
      productRest bound e

def productRest (bound : Nat) (left : Expression) : Parser Expression :=
  match bound with
  | 0 => fail "a long expression"
  | bound + 1 => do
      match ← multiplicative? with
      | some op => do
          let right ← power bound
          productRest bound (.arithmetic op left right)
      | none => pure left

def power (bound : Nat) : Parser Expression :=
  match bound with
  | 0 => fail "a long expression"
  | bound + 1 => do
      let e ← unary bound true
      powerRest bound e

def powerRest (bound : Nat) (left : Expression) : Parser Expression :=
  match bound with
  | 0 => fail "a long expression"
  | bound + 1 => do
      if ← accept (.symbol "**") then
        let right ← unary bound true
        powerRest bound (.arithmetic .power left right)
      else pure left

/-- An operand. Filters behind a sign apply to the signed value. -/
def unary (bound : Nat) (filters : Bool) : Parser Expression :=
  match bound with
  | 0 => fail "a long expression"
  | bound + 1 => do
      let e ←
        if ← accept (.symbol "-") then do pure (.opposite (← unary bound false))
        else if ← accept (.symbol "+") then unary bound false
        else primary bound
      let e ← parts bound e
      if filters then applied bound e else pure e

def primary (bound : Nat) : Parser Expression :=
  match bound with
  | 0 => fail "a long expression"
  | bound + 1 => do
      match ← peek with
      | some (.word s) => next; pure (constant s)
      | some (.string s) => do next; pure (.literal (.text (s ++ (← strings bound))))
      | some (.int n) => next; pure (.literal (.int n))
      | some (.float x) => next; pure (.literal (.float x))
      | some (.symbol "(") => do
          next
          let e ← items bound true []
          expect (.symbol ")") "closing bracket"
          pure e
      | some (.symbol "[") => do
          next
          pure (.list (← listItems bound "]"))
      | some (.symbol "\x7b") => do
          next
          pure (.mapping (← mappingItems bound))
      | _ => fail "no value"

/-- The further parts of a text that is written in several pieces. -/
def strings (bound : Nat) : Parser String :=
  match bound with
  | 0 => fail "a long expression"
  | bound + 1 => do
      match ← peek with
      | some (.string s) => do next; pure (s ++ (← strings bound))
      | _ => pure ""

/-- One expression, or several with commas between them as a tuple. -/
def items (bound : Nat) (bracketed : Bool) (ends : List String) : Parser Expression :=
  match bound with
  | 0 => fail "a long expression"
  | bound + 1 => do
      if ← atItemsEnd ends then
        if bracketed then pure (.tuple []) else fail "no value"
      else
        let first ← expression bound
        if ← isSymbol "," then pure (.tuple (first :: (← moreItems bound ends))) else pure first

def moreItems (bound : Nat) (ends : List String) : Parser (List Expression) :=
  match bound with
  | 0 => fail "a long expression"
  | bound + 1 => do
      if ← accept (.symbol ",") then
        if ← atItemsEnd ends then pure []
        else
          let e ← expression bound
          pure (e :: (← moreItems bound ends))
      else pure []

/-- Items up to their closing bracket. A comma may stand before it. -/
def listItems (bound : Nat) (close : String) : Parser (List Expression) :=
  match bound with
  | 0 => fail "a long expression"
  | bound + 1 => do
      if ← accept (.symbol close) then pure []
      else
        let e ← expression bound
        if ← accept (.symbol ",") then pure (e :: (← listItems bound close))
        else
          expect (.symbol close) "closing bracket"
          pure [e]

def mappingItems (bound : Nat) : Parser (List (Expression × Expression)) :=
  match bound with
  | 0 => fail "a long expression"
  | bound + 1 => do
      if ← accept (.symbol "\x7d") then pure []
      else
        let key ← expression bound
        expect (.symbol ":") "colon"
        let value ← expression bound
        if ← accept (.symbol ",") then pure ((key, value) :: (← mappingItems bound))
        else
          expect (.symbol "\x7d") "closing brace"
          pure [(key, value)]

/-- The arguments of a call, from after its opening bracket. -/
def arguments (bound : Nat) : Parser (List Expression × List (String × Expression)) :=
  match bound with
  | 0 => fail "a long expression"
  | bound + 1 => do
      if ← accept (.symbol ")") then pure ([], [])
      else
        let name ← match ← get with
          | .word s :: .symbol "=" :: _ => do next; next; pure (some s)
          | _ => pure none
        let e ← expression bound
        let (args, named) ← if ← accept (.symbol ",") then arguments bound
          else do expect (.symbol ")") "closing bracket"; pure ([], [])
        match name with
        | some s => if args.isEmpty then pure ([], (s, e) :: named) else fail "a late argument"
        | none => pure (e :: args, named)

/-- Parts and calls behind an operand. -/
def parts (bound : Nat) (e : Expression) : Parser Expression :=
  match bound with
  | 0 => fail "a long expression"
  | bound + 1 => do
      if ← accept (.symbol ".") then
        match ← peek with
        | some (.word s) => next; parts bound (.field e s)
        | some (.int n) => next; parts bound (.item e (.literal (.int n)))
        | _ => fail "no name after a dot"
      else if ← accept (.symbol "[") then
        let key ← items bound false []
        expect (.symbol "]") "closing bracket"
        parts bound (.item e key)
      else if ← isSymbol "(" then
        let e ← called bound e
        parts bound e
      else pure e

def called (bound : Nat) (e : Expression) : Parser Expression :=
  match bound with
  | 0 => fail "a long expression"
  | bound + 1 => do
      next
      let (args, named) ← arguments bound
      if named.isEmpty then pure (.call e args) else fail "a named argument"

/-- Filters, tests and calls behind an operand. -/
def applied (bound : Nat) (e : Expression) : Parser Expression :=
  match bound with
  | 0 => fail "a long expression"
  | bound + 1 => do
      if ← accept (.symbol "|") then
        let name ← word
        let (args, named) ← if ← accept (.symbol "(") then arguments bound else pure ([], [])
        applied bound (.filter name e args named)
      else if ← accept (.word "is") then
        let negated ← accept (.word "not")
        let name ← word
        let args ← testArguments bound
        let e := Expression.test name e args
        applied bound (if negated then .negation e else e)
      else if ← isSymbol "(" then
        let e ← called bound e
        applied bound e
      else pure e

def testArguments (bound : Nat) : Parser (List Expression) :=
  match bound with
  | 0 => fail "a long expression"
  | bound + 1 => do
      if ← accept (.symbol "(") then do pure (← arguments bound).1
      else if ← startsArgument then
        let e ← primary bound
        pure [← parts bound e]
      else pure []

end

/-- The names that a loop or an assignment gives, up to a word or symbol that is not taken. -/
def pattern (bound : Nat) : Parser (List String × Bool) :=
  match bound with
  | 0 => fail "a long list of names"
  | bound + 1 => do
      let name ← word
      if ← accept (.symbol ",") then
        match ← peek with
        | some (.word "in") => pure ([name], true)
        | some (.word _) => do
            let (names, _) ← pattern bound
            pure (name :: names, true)
        | _ => pure ([name], true)
      else pure ([name], false)

def toPattern : List String × Bool → Pattern
  | ([name], false) => .one name
  | (names, _) => .each names

/-- Names, which brackets may surround. -/
def target (bound : Nat) : Parser Pattern := do
  if ← accept (.symbol "(") then
    let names ← pattern bound
    expect (.symbol ")") "closing bracket"
    pure (toPattern names)
  else do pure (toPattern (← pattern bound))

def expectBlockEnd : Parser Unit := expect .blockEnd "end of a statement"

/-- The word of the statement that comes next, if one does. -/
def nextStatement? : Parser (Option String) := do
  match ← get with
  | .blockStart :: .word s :: _ => pure (some s)
  | _ => pure none

mutual

/-- The statements up to the end of the template or to a statement with one of the given words. -/
def statements (bound : Nat) (ends : List String) : Parser (List Statement) :=
  match bound with
  | 0 => fail "a long template"
  | bound + 1 => do
      match ← peek with
      | none => if ends.isEmpty then pure [] else fail "the end of the template in a statement"
      | some (.text s) => do next; pure (.text s :: (← statements bound ends))
      | some .printStart => do
          next
          let e ← items (bound + 1) false []
          expect .printEnd "end of an expression"
          pure (.print e :: (← statements bound ends))
      | some .blockStart => do
          match ← nextStatement? with
          | none => fail "no statement"
          | some s =>
              if ends.contains s then pure []
              else
                next
                let found ← statement bound s
                expectBlockEnd
                pure (found :: (← statements bound ends))
      | some _ => fail "a token outside tags"

/-- The body of a statement, up to and with the word that ends it. -/
def body (bound : Nat) (ends : List String) : Parser (List Statement × String) :=
  match bound with
  | 0 => fail "a long template"
  | bound + 1 => do
      discard (accept (.symbol ":"))
      expectBlockEnd
      let found ← statements bound ends
      next
      pure (found, ← word)

def statement (bound : Nat) (name : String) : Parser Statement :=
  match bound with
  | 0 => fail "a long template"
  | bound + 1 => do
      next
      match name with
      | "for" => do
          let names ← target (bound + 1)
          expect (.word "in") "word in"
          let source ← loopSource bound
          let condition ← if ← accept (.word "if") then do pure (some (← expression (bound + 1)))
            else pure none
          let (found, last) ← body bound ["endfor", "else"]
          let otherwise ← if last = "else" then do pure (← body bound ["endfor"]).1 else pure []
          pure (.loop names source condition found otherwise)
      | "if" => do
          let condition ← items (bound + 1) false []
          branches bound condition []
      | "set" => do
          let names ← target (bound + 1)
          if ← accept (.symbol "=") then
            pure (.assign names (← items (bound + 1) false []))
          else match names with
            | .one name => do pure (.capture name (← body bound ["endset"]).1)
            | .each _ => fail "several names for one text"
      | "print" => do pure (.print (← items (bound + 1) false []))
      | _ => fail "an unknown statement"

/-- What a loop runs over: a choice is none here, because `if` begins the loop's condition. -/
def loopSource (bound : Nat) : Parser Expression :=
  match bound with
  | 0 => fail "a long template"
  | bound + 1 => do
      let first ← disjunction (bound + 1)
      if ← isSymbol "," then
        let rest ← moreItems (bound + 1) []
        pure (.tuple (first :: rest))
      else pure first

/-- The branches of a choice from the condition that has been read. -/
def branches (bound : Nat) (condition : Expression) (done : List (Expression × List Statement)) :
    Parser Statement :=
  match bound with
  | 0 => fail "a long template"
  | bound + 1 => do
      let (found, last) ← body bound ["elif", "else", "endif"]
      let done := done ++ [(condition, found)]
      match last with
      | "elif" => do
          let condition ← items (bound + 1) false []
          branches bound condition done
      | "else" => do pure (.choice done (← body bound ["endif"]).1)
      | _ => pure (.choice done [])

end

end Parser

/-- The statements of a template text. -/
def parse (source : String) : Except Malformed (List Statement) := do
  let ts ← tokens source
  let (found, _) ← (Parser.statements (20 * ts.length + 20) []).run ts
  pure found

end DesignGraph.Template
