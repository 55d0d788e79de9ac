import Warrant.Scope.Error
import Warrant.Text.Blank
import Warrant.Text.Lowercase

/-!
# Scopes

A scope is a path of subjects, each a type with an optional id, such as `org:123:app:456`.  The
empty path is the global scope.  Scopes are written as texts, as flat lists of segments or as
lists of subjects; types and ids are normalised (trimmed and in lowercase), an empty id counts as
none, and an empty type is refused.

**Results.**
* `join_global`: to join the global scope adds nothing.
-/

namespace Warrant

/-- One step of a scope: a type and, where one is given, an id. -/
structure Subject where
  kind : String
  id : Option String
deriving DecidableEq, Inhabited

/-- A path of subjects. -/
structure Scope where
  subjects : List Subject
deriving DecidableEq, Inhabited

/-- The delimiter between the segments of a scope text. -/
def scopeDelimiter : Char := ':'

/-- The segment that stands for any type or any id. -/
def wildcard : String := "*"

/-- A segment without blanks at its ends and in lowercase. -/
def normalizeSegment (s : String) : String :=
  String.ofList (Text.lowercase (Text.trim s.toList))

/-- A normalised id; an empty one is none. -/
def normalizeId (id : Option String) : Option String :=
  (id.map normalizeSegment).filter (· ≠ "")

namespace Scope

/-- The empty path. -/
def global : Scope :=
  ⟨[]⟩

/-- Whether the scope is the empty path. -/
def isGlobal (s : Scope) : Bool :=
  s.subjects.isEmpty

/-- The number of subjects. -/
def length (s : Scope) : Nat :=
  s.subjects.length

/-- The path of the first scope, continued by that of the second. -/
def join (s t : Scope) : Scope :=
  ⟨s.subjects ++ t.subjects⟩

/-- The path without its last subject; the global scope has no parent. -/
def parent? (s : Scope) : Option Scope :=
  if s.subjects.isEmpty then none else some ⟨s.subjects.dropLast⟩

/-- The subjects of a flat list of types and ids.  An odd last type has no id. -/
def subjectsOfSegments : Nat → List String → Except ScopeError (List Subject)
  | _, [] => .ok []
  | position, [kind] =>
      if normalizeSegment kind = "" then .error (.emptyType position)
      else .ok [⟨normalizeSegment kind, none⟩]
  | position, kind :: id :: rest =>
      if normalizeSegment kind = "" then .error (.emptyType position)
      else
        (subjectsOfSegments (position + 2) rest).map
          (⟨normalizeSegment kind, normalizeId (some id)⟩ :: ·)

/-- The scope of a flat list of types and ids. -/
def ofSegments (segments : List String) : Except ScopeError Scope :=
  (subjectsOfSegments 0 segments).map Scope.mk

/-- The segments of a text. -/
def splitSegments (text : List Char) : List String :=
  (text.splitOn scopeDelimiter).map String.ofList

/-- The scope of a text.  A blank text is the global scope. -/
def ofText (text : String) : Except ScopeError Scope :=
  if Text.isAllBlank text.toList then .ok global else ofSegments (splitSegments text.toList)

/-- A subject with normalised parts. -/
def normalizeSubject (s : Subject) : Except ScopeError Subject :=
  if normalizeSegment s.kind = "" then .error .emptySubjectType
  else .ok ⟨normalizeSegment s.kind, normalizeId s.id⟩

/-- The scope of a list of subjects. -/
def ofSubjects (subjects : List Subject) : Except ScopeError Scope :=
  (subjects.mapM normalizeSubject).map Scope.mk

/-- The segments of one subject. -/
def subjectSegments (s : Subject) : List String :=
  s.kind :: s.id.toList

/-- The text of a scope: all its segments, with delimiters between them. -/
def text (s : Scope) : String :=
  String.intercalate ":" (s.subjects.flatMap subjectSegments)

@[simp] theorem join_global (s : Scope) : s.join global = s := by
  simp [join, global]

end Scope
end Warrant
