import ApiPages.Command.Arguments
import ApiPages.Command.Workspace
import ApiPages.Documents
import ApiPages.Settings.Reader

/-!
# Running commands

The command that writes pages first settles what is to be written: it reads the settings and the
inventory, and makes all documents. Only then does it touch the output folder. So a run that fails
before that point has changed nothing.
-/

namespace ApiPages

/-- The version of the program. -/
def programVersion : String :=
  "1.0.1"

/-- Why a run fails. -/
inductive Failure where
  /-- The settings file at a path is missing, unreadable or malformed. -/
  | settingsUnreadable (path : String)
  | settingsRefused (path : String) (e : SettingsError)
  | inputUnreadable (path : String)
  | inputRefused (path : String) (e : InventoryError)
  /-- The module's name is asked for, and nothing gives one. -/
  | moduleNameMissing
  /-- The declarations have a fault, although they were read from an inventory. -/
  | declarationFault (f : InventoryFault)
  | notDeleted (path : String)
  | folderNotCreated (path : String)
  | notWritten (path : String)
deriving DecidableEq, Repr

namespace Failure

/-- The failure in words. -/
def message : Failure → String
  | settingsUnreadable path | settingsRefused path _ => "Failed to load config '" ++ path ++ "'"
  | inputUnreadable path => "Failed to read inventory '" ++ path ++ "'"
  | inputRefused path _ => "Failed to load inventory '" ++ path ++ "'"
  | moduleNameMissing =>
    "--include-module-name needs a module name; " ++
      "pass --module-name or name the module in the inventory"
  | declarationFault f => f.inventoryMessage
  | notDeleted path => "Failed to delete '" ++ path ++ "'"
  | folderNotCreated path => "Failed to create directory '" ++ path ++ "'"
  | notWritten path => "Failed to write '" ++ path ++ "'"

/-- What is said of a path with a null character, where a file or folder was to be made. -/
def nullMessage : String :=
  "file name contained an unexpected NUL byte"

/-- The causes of the failure in words, the nearest first, where the program has words for them. A
path with a null character is refused before the file system is asked for anything. -/
def causes? : Failure → Option (List String)
  | settingsRefused _ e => e.message?.map fun m => [m]
  | inputRefused _ (.fault f) => some [f.inventoryMessage, f.message]
  | declarationFault f => some [f.message]
  | moduleNameMissing => some []
  | folderNotCreated path | notWritten path =>
    if Path.hasNull path then some [nullMessage] else none
  | _ => none

end Failure

/-- What a run comes to. -/
inductive Outcome where
  | done
  | failed (f : Failure)
  /-- The arguments were refused. -/
  | refused
deriving DecidableEq, Repr

/-- The exit status that tells of an outcome. -/
def Outcome.status : Outcome → Nat
  | done => 0
  | failed _ => 1
  | refused => 2

/-- What a run says on its output, and what it comes to. -/
structure Report where
  output : String
  outcome : Outcome
deriving DecidableEq, Repr

namespace Command

/-- The line that a command begins to write pages with. -/
def beginning : String := "Generating Markdown documentation...\n"

/-- The line that a command ends well with. -/
def ending : String := "Done 🎉\n"

/-- The usual name of the settings file. -/
def settingsFile : String := "sourcedocs.toml"

/-! ## What is to be written -/

/-- The settings in the file at a path, given what reading it gave. Without a file at the usual
place, nothing is chosen; a path that is given must lead to a file. -/
def settingsFrom (path : Option String) (found : FileRead) : Except Failure Settings :=
  match found, path with
  | .content text, _ =>
    match Settings.read text with
    | .ok settings => .ok settings
    | .error e => .error (.settingsRefused (path.getD settingsFile) e)
  | .absent, none => .ok .standard
  | _, _ => .error (.settingsUnreadable (path.getD settingsFile))

/-- Documents and the folder that they go to. -/
structure Delivery where
  folder : String
  documents : Documents
deriving DecidableEq, Repr

/-- The folder that pages are written to. -/
def outputFolder (o : GenerateOptions) (settings : Settings) : Except Failure String :=
  if !o.includeModule then .ok o.output
  else
    match settings.moduleName with
    | none => .error .moduleNameMissing
    | some name => if name.isEmpty then .error .moduleNameMissing else .ok (Path.join o.output name)

/-- What is to be written, given the settings and what reading the inventory gave. -/
def deliveryOf (o : GenerateOptions) (time : String) (settings : Settings) (found : FileRead) :
    Except Failure Delivery :=
  match found with
  | .absent | .unreadable => .error (.inputUnreadable o.input)
  | .content text =>
    match Inventory.read text with
    | .error e => .error (.inputRefused o.input e)
    | .ok inventory =>
      let settings := settings.forInventory inventory
      match outputFolder o settings with
      | .error f => .error f
      | .ok folder =>
        match Documents.generate settings (if o.reproducible then none else some time)
            inventory.declarations with
        | .error f => .error (.declarationFault f)
        | .ok documents => .ok ⟨folder, documents⟩

/-! ## Writing it -/

section

variable {m : Type → Type} [Monad m]

/-- Writes documents below a folder, in order, up to the first that cannot be written. -/
def writeDocuments (files : FileAccess m) (folder : String) :
    List (String × String) → m (Except Failure Unit)
  | [] => pure (.ok ())
  | (path, content) :: rest => do
    let file := Path.join folder path
    if ← files.makeFolder (Path.parent file) then
      if ← files.write file content then writeDocuments files folder rest
      else pure (.error (.notWritten file))
    else pure (.error (.folderNotCreated (Path.parent file)))

/-- Writes a delivery; the output folder is removed before, if that is asked for. -/
def deliver (files : FileAccess m) (o : GenerateOptions) (d : Delivery) :
    m (Except Failure Unit) := do
  let removal ← if o.clean then files.remove o.output else pure .absent
  if removal = .failed then pure (.error (.notDeleted o.output))
  else writeDocuments files d.folder d.documents.entries

/-- Writes pages. -/
def runGenerate (files : FileAccess m) (time : String) (o : GenerateOptions) : m Report := do
  let settingsText ← files.read (o.config.getD settingsFile)
  match settingsFrom o.config settingsText with
  | .error f => pure ⟨"", .failed f⟩
  | .ok settings =>
    let inputText ← files.read o.input
    match deliveryOf o time (o.overrides.apply settings) inputText with
    | .error f => pure ⟨beginning, .failed f⟩
    | .ok delivery =>
      match ← deliver files o delivery with
      | .error f => pure ⟨beginning, .failed f⟩
      | .ok () => pure ⟨beginning ++ ending, .done⟩

/-- Removes pages. -/
def runClean (files : FileAccess m) (folder : String) : m Report := do
  let beginning := "Removing reference documentation...\n"
  match ← files.remove folder with
  | .removed => pure ⟨beginning ++ ending, .done⟩
  | .absent => pure ⟨beginning ++ "Nothing to remove at " ++ folder ++ "\n" ++ ending, .done⟩
  | .failed => pure ⟨beginning, .failed (.notDeleted folder)⟩

/-- How the program is used. -/
def usage : String :=
  "Usage: sourcedocs generate --input <INPUT> [OPTIONS]\n" ++
  "       sourcedocs clean [--output-folder <OUTPUT_FOLDER>]\n"

/-- Runs the command that arguments ask for, at a time. -/
def run (files : FileAccess m) (time : String) (arguments : List String) : m Report :=
  match ofArguments? arguments with
  | none => pure ⟨"", .refused⟩
  | some .version => pure ⟨"sourcedocs " ++ programVersion ++ "\n", .done⟩
  | some .help => pure ⟨usage, .done⟩
  | some (.generate o) => runGenerate files time o
  | some (.clean folder) => runClean files folder

end

end Command

namespace Workspace

/-- The report of the command that arguments ask for, and the workspace after it. -/
def run (w : Workspace) (time : String) (arguments : List String) : Report × Workspace :=
  (Command.run access time arguments).run w

end Workspace

end ApiPages
