import LiveExports.ModuleId

/-!
# Faults

What can go wrong in an analysis.  A fault that concerns one module only is recoverable: it becomes
a diagnostic, and the analysis goes on.  The others stop it.
-/

namespace LiveExports

/-- A fault, by its cause. -/
inductive Fault where
  /-- No candidate for the specifier is a file; `tried` lists them in order. -/
  | unresolvedPath (source : ModuleId) (specifier : String) (tried : List String)
  /-- One module was submitted twice with different declarations. -/
  | duplicateModule (module : ModuleId) (reason : String)
  /-- A graph refers to something it does not hold. -/
  | invalidGraph (reason : String)
  /-- A file could not be read or written. -/
  | io (path : String) (reason : String)
  /-- A source text could not be read; the line is counted from one. -/
  | parse (path : String) (reason : String) (line : Option Nat)
  | cache (reason : String)
  | config (path : String) (reason : String)
  | invalidArgument (reason : String)
deriving DecidableEq, Repr

namespace Fault

/-- The wording shown to the user. -/
def message : Fault → String
  | unresolvedPath source specifier _ => s!"Unresolved import '{specifier}' from {source}"
  | duplicateModule module reason => s!"Duplicate module {module}: {reason}"
  | invalidGraph reason => s!"Invalid graph: {reason}"
  | io path reason => s!"I/O error at {path}: {reason}"
  | parse path reason _ => s!"Parse error in {path}: {reason}"
  | cache reason => s!"Cache error: {reason}"
  | config path reason => s!"Config error at {path}: {reason}"
  | invalidArgument reason => s!"Invalid argument: {reason}"

/-- Can the analysis go on without the module concerned? -/
def isRecoverable : Fault → Bool
  | unresolvedPath .. | duplicateModule .. | parse .. | cache .. => true
  | invalidGraph .. | io .. | config .. | invalidArgument .. => false

/-- The file the fault is about, where it is about one. -/
def path? : Fault → Option String
  | io path _ | parse path _ _ | config path _ => some path
  | _ => none

end Fault

end LiveExports
