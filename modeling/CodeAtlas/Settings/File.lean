import CodeAtlas.Files.Disk
import CodeAtlas.Settings.Basic

/-!
# Configuration files

Settings are loaded from a file, which need not be there, and written to one, which must not be
there unless it is to be overwritten.
-/

namespace CodeAtlas

/-- Why settings cannot be loaded or written. -/
inductive SettingsError where
  | malformed
  | alreadyThere (file : String)
  | unusable (cause : FileError)
deriving DecidableEq, Repr

/-- The wording of an error. -/
def SettingsError.message : SettingsError → String
  | malformed => "TOML parse error"
  | alreadyThere file => s!"config already exists at {file} (use --force to overwrite)"
  | unusable cause => cause.message

namespace Settings

/-- Loads the settings of a file; there are none if there is no such file. -/
def load (disk : Disk) (file : String) : Except SettingsError (Option Settings) :=
  if disk.has file then
    match disk.readText file with
    | .error cause => .error (.unusable cause)
    | .ok text =>
      match ofText? text with
      | some settings => .ok (some settings)
      | none => .error .malformed
  else .ok none

/-- Writes settings to a file. Only if `force` is set, a file that is there is overwritten. -/
def save (settings : Settings) (disk : Disk) (file : String) (force : Bool) :
    Except SettingsError Disk :=
  if disk.has file && !force then .error (.alreadyThere file)
  else
    match disk.write file settings.toText.toUTF8 with
    | .error cause => .error (.unusable cause)
    | .ok disk => .ok disk

end Settings

end CodeAtlas
