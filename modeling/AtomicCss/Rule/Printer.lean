import AtomicCss.AtRule.Condition
import AtomicCss.Rule
import AtomicCss.Text.Lines

/-!
# Printing rules

A minified rule is one line without optional blanks. A pretty rule has one declaration per line,
and every at-rule moves the lines inside it two spaces to the right. A rule without declarations
prints nothing.
-/

namespace AtomicCss

/-- A text between braces, which follow each other directly. -/
def inBraces (inside : Text) : Text :=
  '\x7b' :: inside ++ ['\x7d']

def inBraceLines (inside : Text) : Text :=
  inBraces ('\n' :: inside ++ ['\n'])

def Declaration.print (layout : Layout) (declaration : Declaration) : Text :=
  match layout with
  | .pretty => "  " ++ declaration.property ++ ": " ++ declaration.value.trim ++ ";"
  | .minified => declaration.property ++ ':' :: declaration.value.trim

def AtRule.wrap (layout : Layout) (atRule : AtRule) (inner : Text) : Text :=
  let head := atRule.kind.keyword ++ ' ' :: Condition.format layout atRule.condition
  match layout with
  | .pretty => head ++ ' ' :: inBraceLines (Text.unlines (inner.lines.map (Text.indent 2)))
  | .minified => head ++ inBraces inner

namespace Rule

/-- The selector and the declarations of a rule, without its at-rules. -/
def printBody (layout : Layout) (rule : Rule) : Text :=
  let declarations := rule.declarations.map (Declaration.print layout)
  match layout with
  | .pretty => rule.selector ++ ' ' :: inBraceLines (Text.unlines declarations)
  | .minified => rule.selector ++ inBraces ([';'].intercalate declarations)

/-- The printed rule, if it declares anything. -/
def print? (layout : Layout) (rule : Rule) : Option Text :=
  if rule.declarations.isEmpty then none
  else some (rule.atRules.foldr (AtRule.wrap layout) (rule.printBody layout))

/-- The printed rules one after the other, each on lines of its own in a pretty layout. -/
def printAll (layout : Layout) (rules : List Rule) : Text :=
  let printed := rules.filterMap (print? layout)
  match layout with
  | .pretty => Text.unlines printed
  | .minified => printed.flatten

end Rule

end AtomicCss
