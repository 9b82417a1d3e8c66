import SmellLint.Keyed
import SmellLint.Syntax.Walk

/-!
# Imported libraries

The imports of a program, the names under which it knows its libraries, and the library that a call
belongs to.
-/

namespace SmellLint

open Syntax (Node)

/-- A library or a part of one, and the name that an import gives it. -/
structure Import where
  library : String
  alias? : Option String
deriving DecidableEq

/-- Libraries in the order of their imports, each with the name it is used under. -/
abbrev LibraryMap := Keyed String

namespace Import

def fullName (library : Option String) (name : String) : String :=
  match library with
  | some l => if l.isEmpty then name else l ++ "." ++ name
  | none => name

/-- The imports that a statement makes. -/
def ofNode : Node → List Import
  | .importStmt _ names => names.filterMap fun
    | .alias _ name asName => some ⟨name, asName⟩
    | _ => none
  | .importFrom _ library names _ => names.filterMap fun
    | .alias _ name asName => some ⟨fullName library name, asName⟩
    | _ => none
  | _ => []

def ofTree (tree : Node) : List Import := tree.walk.flatMap ofNode

/-- The name a library is used under. -/
def usedAs (i : Import) : String :=
  match i.alias? with
  | some a => if a.isEmpty then i.library else a
  | none => i.library

end Import

namespace LibraryMap

/-- The names of libraries; the last import of a library decides. -/
def ofImports (imports : List Import) : LibraryMap :=
  Keyed.ofList (imports.map fun i => (i.library, i.usedAs))

def ofTree (tree : Node) : LibraryMap := ofImports (Import.ofTree tree)

/-- The name under which `library` is used, if it is imported; an empty name counts as none. -/
def nameOf? (m : LibraryMap) (library : String) : Option String :=
  (m.get? library).filter fun name => !name.isEmpty

def libraryNamed? (m : LibraryMap) (name : String) : Option String := m.findKey? (· == name)

/-- What a call without a known library belongs to. -/
def unknown : String := "Unknown"

/-- The library that a call belongs to, by the name in front of it or the name that is called. -/
def libraryOf (m : LibraryMap) : Node → String
  | .call _ (.attribute _ (.name _ base) _) _ _ => (m.libraryNamed? base).getD unknown
  | .call _ (.name _ f) _ _ => (m.libraryNamed? f).getD unknown
  | _ => unknown

/-- The calls of `tree` by their lines, each with the library it belongs to. -/
def callLibraries (m : LibraryMap) (tree : Node) : List (Nat × String) :=
  tree.walk.filterMap fun n =>
    match n with
    | .call .. => some (n.line, m.libraryOf n)
    | _ => none

/-- The attributes of an expression, innermost first, and what they are attributes of. -/
def unwind : Node → Node × List String
  | .attribute _ value attr =>
    let (base, attrs) := unwind value
    (base, attrs ++ [attr])
  | n => (n, [])

/-- The dotted name of the called expression `func`, with the library in place of the name it is
used under.  What is no name is left out. -/
def fullName (m : LibraryMap) (func : Node) : String :=
  let (base, attrs) := unwind func
  match base with
  | .name _ id => ".".intercalate ((m.libraryNamed? id).getD id :: attrs)
  | _ => ".".intercalate attrs

end LibraryMap
end SmellLint
