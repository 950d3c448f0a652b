import ApiPages.Settings.Basic
import ApiPages.Settings.File

/-!
# Reading settings

The statements of a settings file give each setting at most once and nothing else. The least access
level is a choice, so it can also be given by tables, which stand after all other settings.
-/

namespace ApiPages

/-- Why a text gives no settings. -/
inductive SettingsError where
  /-- It is no settings file, or says something that no setting takes. -/
  | malformed
  /-- Links would end with a text that leads into another folder. -/
  | badLinkEnd (ending : String)
deriving DecidableEq, Repr

/-- What is wrong with the settings, where it is more than that they cannot be read. -/
def SettingsError.message? : SettingsError → Option String
  | malformed => none
  | badLinkEnd ending => some ("link ending '" ++ ending ++ "' must not contain '/'")

namespace Settings

open SettingsFile

/-- The table that entries belong to. -/
inductive Scope where
  | root
  /-- The table of the choice of the least access level. -/
  | choice
  /-- The table of a chosen level, which stays empty. -/
  | chosen
deriving DecidableEq, Repr

/-- Settings that are being read. -/
structure Draft where
  settings : Settings
  scope : Scope
  /-- The keys given at the root. -/
  given : List String
  /-- Whether the table of the choice has a head of its own. -/
  hasTable : Bool
  /-- Whether a table chose the least access level. -/
  hasChoice : Bool

/-- The draft before the first statement. -/
def Draft.start : Draft :=
  ⟨.standard, .root, [], false, false⟩

/-- The key of the least access level. -/
def accessKey : String := "min-acl"

/-- The settings with the least access level that a name chooses. -/
def choose? (s : Settings) (name : String) : Option Settings :=
  (Access.ofKeyword? name).map fun level => { s with minAccess := level }

/-- The settings with a value for a key, if there is such a setting and it takes such a value. -/
def set? (s : Settings) (key : String) : Value → Option Settings
  | .text t =>
    if key = accessKey then s.choose? t
    else if key = "module-name" then some { s with moduleName := some t }
    else if key = "link-beginning" then some { s with linkStart := t }
    else if key = "link-ending" then some { s with linkEnd := t }
    else none
  | .switch on =>
    if key = "collapse" then some { s with collapse := on }
    else if key = "table-of-contents" then some { s with contents := on }
    else if key = "collapsible" then some { s with collapsible := on }
    else none
  | .choice name => if key = accessKey then s.choose? name else none
  | .vacant => none

namespace Draft

/-- The draft after an entry at the root. -/
def rootEntry? (d : Draft) (key : Key) (value : Value) : Option Draft :=
  if key.first ∈ d.given then none
  else
    let value? :=
      match key.second, value with
      | none, value => some value
      | some name, .vacant => some (.choice name)
      | some _, _ => none
    value?.bind fun value => (d.settings.set? key.first value).map fun s =>
      { d with settings := s, given := key.first :: d.given }

/-- The draft after a level is chosen in a table. -/
def choose? (d : Draft) (scope : Scope) (name : String) : Option Draft :=
  if d.hasChoice then none
  else (d.settings.choose? name).map fun s =>
    { d with settings := s, scope := scope, hasChoice := true }

/-- The draft after the head of a table. -/
def table? (d : Draft) (key : Key) : Option Draft :=
  if key.first ≠ accessKey ∨ accessKey ∈ d.given then none
  else
    match key.second with
    | none => if d.hasTable then none else some { d with scope := .choice, hasTable := true }
    | some name => d.choose? .chosen name

/-- The draft after a statement. -/
def read? (d : Draft) : Statement → Option Draft
  | .table key => d.table? key
  | .entry key value =>
    match d.scope with
    | .root => d.rootEntry? key value
    | .choice => if key.second = none ∧ value = .vacant then d.choose? .choice key.first else none
    | .chosen => none

/-- The settings of a draft; a table for the choice must choose. -/
def finish? (d : Draft) : Option Settings :=
  if d.hasTable && !d.hasChoice then none else some d.settings

end Draft

/-- The settings that a settings file gives, before it is asked what they are good for. -/
def parse? (file : String) : Option Settings :=
  (SettingsFile.parse? file).bind fun statements =>
    (statements.foldlM Draft.read? Draft.start).bind Draft.finish?

/-- The settings of a settings file. -/
def read (file : String) : Except SettingsError Settings :=
  match parse? file with
  | none => .error .malformed
  | some s => if isLinkEnd s.linkEnd then .ok s else .error (.badLinkEnd s.linkEnd)

end Settings

end ApiPages
