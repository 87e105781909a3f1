import Bindery.Text.Dotted

/-!
# Names in code

The names that instructions refer to: public names, names inside a package, and names that are
computed when the program runs.
-/

namespace Bindery

/-- A name that an instruction refers to. -/
inductive Name where
  | inPublic (name : String)
  | inPackage (package : String) (name : String)
  /-- The name is the value on top of the stack; used for elements of arrays. -/
  | runtime
deriving Repr, DecidableEq, Inhabited

namespace Name

/-- The name of a class that is given with its package; without a package it is public. -/
def ofQualified (qualified : String) : Name :=
  match Text.packageAndLocal? qualified with
  | some (package, name) => inPackage package name
  | none => inPublic qualified

/-- A name as it is listed; a package is divided from the name by two colons. -/
def text : Name → String
  | inPublic name => name
  | inPackage package name => package ++ "::" ++ name
  | runtime => "[]"

end Name

end Bindery
