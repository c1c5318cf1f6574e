import Phrasing.Text

/-!
# `Phrasing.Template.Rule` — the rules that a template can fall under

Seven rules, in order of precedence: a text falls under the first that fits it. Two of them produce
a sentence, four put variants in its place, and the last drops it.
-/

namespace Phrasing

/-- The rule that applies to a text. -/
inductive Rule
  /-- All of the text is plain characters and slots. -/
  | vanilla
  /-- The text mentions a variable, `$name`. -/
  | reference
  /-- The text holds a choice in round brackets, `(a|b)`. -/
  | round
  /-- The text holds an optional choice in square brackets, `[a|b]`. -/
  | square
  /-- All of the text is a choice without brackets, `a|b`. -/
  | bare
  /-- The text declares synonyms, `name ~ others`. -/
  | synonym
  /-- Nothing else fits. -/
  | unrecognized
deriving Repr, DecidableEq

/-- What becomes of a text. -/
inductive Disposition
  /-- It is a sentence. -/
  | emit
  /-- It gives way to its variants. -/
  | vary
  /-- It is dropped. -/
  | drop
deriving Repr, DecidableEq

namespace Rule

/-- What becomes of a text under a rule. -/
def disposition : Rule → Disposition
  | vanilla => .emit
  | reference => .vary
  | round => .vary
  | square => .vary
  | bare => .vary
  | synonym => .emit
  | unrecognized => .drop

/-- Every rule, in order of precedence. -/
def all : List Rule :=
  [vanilla, reference, round, square, bare, synonym, unrecognized]

/-- Name of a rule in reports. -/
def name : Rule → String
  | vanilla => "vanilla"
  | reference => "variable"
  | round => "round-alternation"
  | square => "optional"
  | bare => "bare-alternation"
  | synonym => "synonym"
  | unrecognized => "unrecognized"

/-- The rule of a name. -/
def ofName? (name : String) : Option Rule := all.find? (·.name == name)

/-- The written form of a construct with the given body: the body with the marks of its rule. -/
def construct (rule : Rule) (body : Text) : Text :=
  match rule with
  | reference => '$' :: body
  | round => '(' :: body ++ [')']
  | square => '[' :: body ++ [']']
  | _ => body

end Rule

/-- Name of a disposition in reports. -/
def Disposition.name : Disposition → String
  | .emit => "emit"
  | .vary => "rewrite"
  | .drop => "drop"

end Phrasing
