import MdxPress.Text.Basic

/-!
# Directive kinds

The block constructs of a wiki page that have no counterpart in MDX, and the order in which they
are converted.  A construct may hold others (a hint holds code, a tab holds hints), so the inner
kinds come before the kinds that enclose them.
-/

namespace MdxPress

/-- The families of block constructs. -/
inductive DirectiveKind where
  | options
  | preformatted
  | code
  | contentRef
  | embed
  | pageRef
  | hint
  | tabs
  | tab
  | file
  | unknown
  deriving DecidableEq, Repr, Inhabited

namespace DirectiveKind

/-- Every kind, in the order of reports. -/
def all : List DirectiveKind :=
  [options, preformatted, code, contentRef, embed, pageRef, hint, tabs, tab, file, unknown]

/-- The kinds with a pass of their own, inner kinds before the kinds that may enclose them. -/
def conversionOrder : List DirectiveKind :=
  [options, preformatted, code, contentRef, embed, pageRef, hint, tabs]

/-- The name of a kind. -/
def name : DirectiveKind → Text
  | options => "options".toList
  | preformatted => "preformatted".toList
  | code => "code".toList
  | contentRef => "content-ref".toList
  | embed => "embed".toList
  | pageRef => "page-ref".toList
  | hint => "hint".toList
  | tabs => "tabs".toList
  | tab => "tab".toList
  | file => "file".toList
  | unknown => "unknown".toList

/-- The kinds that markers can name. -/
def marked : List DirectiveKind :=
  [code, contentRef, embed, pageRef, hint, tabs, tab, file]

/-- The kind of a marker, whether it opens or closes. -/
def ofMarkerName (name : Text) : DirectiveKind :=
  let base :=
    match Text.dropStart? "end".toList name with
    | some (c :: r) => c :: r
    | _ => name
  (marked.find? fun k => k.name == base).getD unknown

end DirectiveKind
end MdxPress
