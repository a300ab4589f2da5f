import InkLint.Path

/-!
# Categories of files

What a file is linted as follows from its extension alone: four extensions are known, letter for
letter, and every other file is left alone.
-/

namespace InkLint

/-- What a file is linted as. -/
inductive Category where
  | script
  | typedScript
  | markup
  | stylesheet
  | unsupported
deriving DecidableEq, Repr

namespace Category

/-- Every category. -/
def all : List Category :=
  [script, typedScript, markup, stylesheet, unsupported]

/-- The category an extension stands for. -/
def ofExtension (ext : Bytes) : Category :=
  if ext = Bytes.ofString "js" then script
  else if ext = Bytes.ofString "ts" then typedScript
  else if ext = Bytes.ofString "html" then markup
  else if ext = Bytes.ofString "css" then stylesheet
  else unsupported

/-- The category of the file at a path. -/
def ofPath (p : Path) : Category :=
  match p.extension? with
  | some ext => ofExtension ext
  | none => unsupported

/-- Whether files of this category are read at all. -/
def isSupported (c : Category) : Bool :=
  c != unsupported

/-- The words shown to a reader. -/
def label : Category → String
  | script => "script"
  | typedScript => "typed script"
  | markup => "markup"
  | stylesheet => "stylesheet"
  | unsupported => "unsupported"

/-- The identifier written into documents. -/
def key : Category → String
  | script => "script"
  | typedScript => "typed_script"
  | markup => "markup"
  | stylesheet => "stylesheet"
  | unsupported => "unsupported"

/-- The category an identifier names. -/
def ofKey? (s : String) : Option Category :=
  all.find? (·.key == s)

theorem ofKey?_key (c : Category) : ofKey? c.key = some c := by
  cases c <;> decide

end Category

end InkLint
