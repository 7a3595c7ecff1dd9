import WorkerLink.Arguments.Given
import WorkerLink.Settings.Environment
import WorkerLink.Toml.Document

/-!
Loading settings. They come in layers, and a later layer counts before an earlier one: the defaults,
a settings file, the environment, and the flags. Of the values for a setting only the one that counts
has to fit. A file may extend another, which then lies below it.
-/

namespace WorkerLink.Settings

/-- Why a settings file gives no layer. -/
inductive FileFault
  | notFound
  | notUtf8
  | malformed
  | badExtension
deriving DecidableEq, Repr

def FileFault.message : FileFault → String
  | .notFound => "required configuration file not found"
  | .notUtf8 => "stream did not contain valid UTF-8"
  | .malformed => "TOML parse error"
  | .badExtension => "'extends' must be a non-empty string"

/-- Why settings could not be loaded. -/
inductive LoadError
  | flags (error : Arguments.UsageError)
  | file (path : String) (fault : FileFault)
  /-- A file extends itself, perhaps through others. -/
  | cycle (path : String)
  /-- The value that counts does not fit its setting. -/
  | merge (setting : Setting)
  | several (errors : List LoadError)

def LoadError.message : LoadError → String
  | .flags error => s!"Failed to parse command-line arguments: {error.message}"
  | .file path fault => s!"Configuration file error in '{path}': {fault.message}"
  | .cycle path => s!"Cyclic extends detected: {path}"
  | .merge setting => s!"Failed to merge CLI with configuration: invalid value for {setting.key}"
  | .several errors => String.intercalate "\n" ("multiple errors:" :: messages errors)
where
  messages : List LoadError → List String
    | [] => []
    | error :: rest => error.message :: messages rest

/-! Files -/

abbrev Files := List (Bytes × Bytes)

namespace Files

/-- The names on the way to a file. Two points go back. -/
def names (path : Bytes) : List Bytes :=
  (Text.splitOn 47 path).foldl
    (fun names part =>
      if part = [] || part = [46] then names
      else if part = [46, 46] then names.dropLast
      else names ++ [part]) []

def isAbsolute (path : Bytes) : Bool := path.head? = some 47

def same (a b : Bytes) : Bool := isAbsolute a = isAbsolute b && names a = names b

def get? (files : Files) (path : Bytes) : Option Bytes :=
  (files.find? fun entry => same entry.1 path).map (·.2)

def beside (file path : Bytes) : Bytes :=
  if isAbsolute path then path
  else (file.reverse.dropWhile (· ≠ 47)).reverse ++ path

end Files

/-- The name under which a file says what it extends. -/
def extendsKey : String := "extends"

/-- The values of a file, and the file that it extends. -/
def readFile (files : Files) (path : Bytes) : Except FileFault (Layer × Option Bytes) :=
  match files.get? path with
  | none => .error .notFound
  | some contents =>
    match Text.Utf8.decode? contents with
    | none => .error .notUtf8
    | some text =>
      match Toml.read? text with
      | none => .error .malformed
      | some layer =>
        let own := layer.filter (·.1 ≠ extendsKey)
        match layer.get? extendsKey with
        | none => .ok (own, none)
        | some (.text base) =>
          if base.isEmpty then .error .badExtension
          else .ok (own, some (Files.beside path (Bytes.ofString base)))
        | some _ => .error .badExtension

/-- The layer of a file and of those that it extends, where the files on the way to it are known. No
chain of extensions is longer than the number of files. -/
def fileLayer (files : Files) : Nat → List Bytes → Bytes → Except LoadError Layer
  | fuel, way, path =>
    let name := Text.Utf8.lossy path
    if way.any (Files.same path) then .error (.cycle name)
    else match readFile files path with
      | .error fault => .error (.file name fault)
      | .ok (own, none) => .ok own
      | .ok (own, some base) =>
        match fuel with
        | 0 => .error (.cycle name)
        | fuel + 1 => (fileLayer files fuel (path :: way) base).map (· ++ own)

/-! Flags -/

def valueOfFlag : Arguments.GivenValue → Value
  | .path path => .text (Text.Utf8.lossy path)
  | .filter text => .text text
  | .format found => .text found.name
  | .number n => .integer n

def flagLayer (given : Arguments.Given) : Layer :=
  given.filterMap fun (flag, value) =>
    match flag with
    | .configPath => none
    | .setting setting => some (setting.key, valueOfFlag value)

/-! All layers -/

/-- The settings that a layer makes of the defaults. -/
def ofLayer (layer : Layer) : Except LoadError Settings :=
  Setting.all.foldlM
    (fun settings setting =>
      match layer.get? setting.key with
      | none => .ok settings
      | some value =>
        match settings.assign? setting value with
        | some settings => .ok settings
        | none => .error (.merge setting)) {}

def orError (result : Except LoadError Layer) : Layer × List LoadError :=
  match result with
  | .ok layer => (layer, [])
  | .error error => ([], [error])

/-- Loads the settings. Errors of all layers are told together. -/
def load (files : Files) (environment : Environment.Variables) (arguments : List Bytes) :
    Except LoadError Settings :=
  let given := Arguments.Given.ofArguments arguments
  let (flags, flagErrors) := orError ((given.map flagLayer).mapError .flags)
  let path := match given with
    | .ok given => given.configPath?
    | .error _ => none
  let (file, fileErrors) := match path with
    | none => ([], [])
    | some path => orError (fileLayer files files.length [] path)
  match ofLayer (file ++ Environment.layer environment ++ flags), flagErrors ++ fileErrors with
  | .ok settings, [] => .ok settings
  | .ok _, [error] => .error error
  | .error error, [] => .error error
  | .ok _, errors => .error (.several errors)
  | .error error, errors => .error (.several (errors ++ [error]))

end WorkerLink.Settings
