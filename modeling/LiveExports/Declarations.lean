/-!
# Declarations

What a module says about its exports and imports, in the order of its text.  An export is either a
binding of the module itself or forwards a name of another module; a *star* forwards every name of
another module but `default`.
-/

namespace LiveExports

/-- The name that stands for a whole module when it is imported or forwarded as one binding. -/
def namespaceName : String := "*"

/-- The name of the default export. -/
def defaultName : String := "default"

/-- A name of the module that a specifier denotes. -/
structure Forward where
  source : String
  name : String
deriving DecidableEq, Repr

/-- An exported name.  Line zero stands for an unknown line. -/
structure ExportDecl where
  name : String
  forward : Option Forward := none
  line : Nat := 0
deriving DecidableEq, Repr

/-- An imported name and the name it is bound to.  The imported name is empty where a module is only
run for its effects. -/
structure ImportDecl where
  source : String
  name : String
  localName : String
  line : Nat := 0
deriving DecidableEq, Repr

namespace ImportDecl

def isSideEffect (decl : ImportDecl) : Bool :=
  decl.name == ""

def isNamespace (decl : ImportDecl) : Bool :=
  decl.name == namespaceName

end ImportDecl

/-- The declarations of one module. -/
structure Declarations where
  exports : List ExportDecl := []
  stars : List String := []
  imports : List ImportDecl := []
deriving DecidableEq, Repr, Inhabited

def Declarations.isEmpty (declarations : Declarations) : Bool :=
  declarations.exports.isEmpty && declarations.stars.isEmpty && declarations.imports.isEmpty

end LiveExports
