import InkLint.Category
import InkLint.Text.Search

/-!
# Detection rules

Seven rules in three families. A rule looks at the whole text and either fires or does not; it
never counts and never says where. `lintText` runs the rules of a category in their fixed order,
so its result is a sublist of `Rule.forCategory`.
-/

namespace InkLint

/-- A construct that old e-reader browsers mishandle. -/
inductive Rule where
  | asyncAwait
  | arrowFunctions
  | fetchCalls
  | mediaElements
  | viewportMeta
  | modernLayout
  | cssVariables
deriving DecidableEq, Repr

namespace Rule

/-! ## The families -/

/-- The rules for scripts, typed or not. -/
def scriptRules : List Rule :=
  [asyncAwait, arrowFunctions, fetchCalls]

/-- The rules for markup. -/
def markupRules : List Rule :=
  [mediaElements, viewportMeta]

/-- The rules for stylesheets. -/
def stylesheetRules : List Rule :=
  [modernLayout, cssVariables]

/-- Every rule, in order. -/
def all : List Rule :=
  scriptRules ++ markupRules ++ stylesheetRules

/-- The rules that look at files of a category. -/
def forCategory : Category → List Rule
  | .script => scriptRules
  | .typedScript => scriptRules
  | .markup => markupRules
  | .stylesheet => stylesheetRules
  | .unsupported => []

/-! ## What a rule tells -/

/-- The stable identifier of a rule. -/
def id : Rule → String
  | asyncAwait => "KFY-JS-001"
  | arrowFunctions => "KFY-JS-002"
  | fetchCalls => "KFY-JS-003"
  | mediaElements => "KFY-HTML-001"
  | viewportMeta => "KFY-HTML-002"
  | modernLayout => "KFY-CSS-001"
  | cssVariables => "KFY-CSS-002"

/-- The title of a rule. -/
def title : Rule → String
  | asyncAwait => "Async/Await"
  | arrowFunctions => "Arrow Functions"
  | fetchCalls => "Fetch API"
  | mediaElements => "Media Elements"
  | viewportMeta => "Viewport Meta"
  | modernLayout => "Modern Layout"
  | cssVariables => "CSS Variables"

/-- What a rule looks for, in a few words. -/
def description : Rule → String
  | asyncAwait => "Asynchronous functions or await expressions"
  | arrowFunctions => "Concise arrow function syntax"
  | fetchCalls => "Network requests through fetch()"
  | mediaElements => "Embedded video or audio playback"
  | viewportMeta => "Viewport meta tag with initial-scale"
  | modernLayout => "Flexbox or CSS grid layout"
  | cssVariables => "Custom property references via var(--name)"

/-- The category a rule is listed under. -/
def category : Rule → Category
  | asyncAwait | arrowFunctions | fetchCalls => .script
  | mediaElements | viewportMeta => .markup
  | modernLayout | cssVariables => .stylesheet

/-- The advice given when a rule fires. -/
def advice : Rule → String
  | asyncAwait =>
    "Uses async/await → the Kindle WebBrowser JS engine is old; " ++
      "consider callbacks or Promises without async keywords."
  | arrowFunctions =>
    "Arrow functions detected → older WebKit on Kindle may choke; " ++
      "rewrite as function()\x7b\x7d."
  | fetchCalls =>
    "fetch() used → Kindle may not support fetch; consider an XHR fallback."
  | mediaElements =>
    "Media elements → Kindle can't play them; remove or provide a text-only fallback."
  | viewportMeta =>
    "Viewport meta may not behave correctly on Kindle → expect weird zoom behavior."
  | modernLayout =>
    "Modern layout (flex/grid) → Kindle's browser barely supports them; " ++
      "consider floats or table layouts."
  | cssVariables =>
    "CSS variables → unsupported; replace with static values."

/-- The rule with an identifier. -/
def ofId? (s : String) : Option Rule :=
  all.find? (·.id == s)

/-! ## When a rule fires -/

/-- Whether a rule fires on a text. -/
def fires : Rule → List Char → Bool
  | asyncAwait, text =>
    occursSpaced "async".toList "function".toList text || occurs "await".toList text
  | arrowFunctions, text => occurs "=>".toList text
  | fetchCalls, text => occurs "fetch(".toList text
  | mediaElements, text => occurs "<video".toList text || occurs "<audio".toList text
  | viewportMeta, text => occurs "viewport".toList text && occurs "initial-scale".toList text
  | modernLayout, text => occurs "flex".toList text || occurs "grid".toList text
  | cssVariables, text => occurs "var(--".toList text

theorem ofId?_id (r : Rule) : ofId? r.id = some r := by
  cases r <;> decide

end Rule

/-- The rules of the category that fire on a text, in order. -/
def lintText (c : Category) (text : List Char) : List Rule :=
  (Rule.forCategory c).filter (·.fires text)

/-- No category has more than three rules. -/
theorem length_lintText_le (c : Category) (text : List Char) : (lintText c text).length ≤ 3 := by
  refine Nat.le_trans (List.length_filter_le _ _) ?_
  cases c <;> decide

end InkLint
