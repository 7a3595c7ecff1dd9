import WorkerLink.Settings

/-!
The flags that speak to the bridge and not to its worker: one for each setting, and one for the
path of a settings file.
-/

namespace WorkerLink.Arguments

inductive Flag
  | configPath
  | setting (setting : Setting)
deriving DecidableEq, Repr

namespace Flag

def all : List Flag := .configPath :: Setting.all.map .setting

def name : Flag → String
  | .configPath => "config-path"
  | .setting s => s.key.map fun c => if c = '_' then '-' else c

def written (f : Flag) : String := "--" ++ f.name

/-- The letter of a flag. Where the letter of an earlier flag would be the same, the capital letter
is taken, and then the next letter of the name. -/
def letter? : Flag → Option Char
  | .configPath => none
  | .setting .logFilter => some 'l'
  | .setting .logFormat => some 'L'
  | .setting .sendTimeout => some 's'
  | .setting .shutdownTimeout => some 'S'
  | .setting .closeTimeout => some 'c'
  | .setting .pollInterval => some 'p'
  | .setting .stderrCapacity => some 't'
  | .setting .drainTimeout => some 'd'

/-- What stands for the value of a flag in a usage text. -/
def valueName : Flag → String
  | .configPath => "PATH"
  | .setting s => s.key.map Char.toUpper

def described (f : Flag) : String := s!"{f.written} <{f.valueName}>"

def isHidden (f : Flag) : Bool := f = .configPath

end Flag

end WorkerLink.Arguments
