import LiveExports.Project.Config

/-!
# Settings

What an analysis is asked to do.  A configuration adds to the settings where they are lists, and
replaces them elsewhere.
-/

namespace LiveExports

structure Settings where
  /-- Entry modules, as specifiers from the root; found out if there are none. -/
  entries : List String := []
  useCache : Bool := true
  /-- Names of folders that are not entered, besides the usual ones. -/
  excluded : List String := []
  /-- Patterns of exports and modules that are not reported. -/
  ignore : List String := []
  extensions : Option (List String) := none
  ignoreCase : Bool := false
  entryExportsUsed : Bool := false
  /-- Does a file that cannot be read stop the analysis? -/
  strict : Bool := false

namespace Settings

/-- The settings with what a configuration sets. -/
def configured (settings : Settings) (config : Config) : Settings :=
  { settings with
    entries := settings.entries ++ config.entries.getD []
    excluded := settings.excluded ++ config.excluded.getD []
    ignore := settings.ignore ++ config.ignore.getD []
    extensions := config.extensions <|> settings.extensions
    ignoreCase := config.ignoreCase.getD settings.ignoreCase
    entryExportsUsed := config.entryExportsUsed.getD settings.entryExportsUsed }

end Settings

/-! ## Patterns -/

/-- Does a name match a pattern?  A star at the end stands for any ending, a star at the head for
any beginning; a pattern without either has to occur in the name.  The empty pattern matches
nothing. -/
def matchesPattern (pattern name : String) : Bool :=
  match pattern.toList, pattern.toList.getLast? with
  | _, none => false
  | chars, some '*' => chars.dropLast.isPrefixOf name.toList
  | '*' :: ending, _ => ending.isSuffixOf name.toList
  | chars, _ => Text.occursIn chars name.toList

/-- Does a name match one of the patterns? -/
def Settings.ignores (settings : Settings) (name : String) : Bool :=
  settings.ignore.any (matchesPattern · name)

end LiveExports
