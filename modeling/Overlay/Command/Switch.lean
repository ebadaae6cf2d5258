import Overlay.Variants

/-!
This module contains the words of the command line: the verbs that choose a command, the switches,
and the words that some values are chosen from.
-/

namespace Overlay

inductive Form where
  | text
  | int
  | long
  | double
  | float
  | boolean
  | bytes
  | list
deriving DecidableEq, Repr

instance : Variants Form where
  listed := [("string", .text), ("int", .int), ("long", .long), ("double", .double),
    ("float", .float), ("bool", .boolean), ("bytes", .bytes), ("list", .list)]

inductive Shell where
  | bash
  | elvish
  | fish
  | powershell
  | zsh
deriving DecidableEq, Repr

instance : Variants Shell where
  listed := [("bash", .bash), ("elvish", .elvish), ("fish", .fish), ("powershell", .powershell),
    ("zsh", .zsh)]

namespace Command

inductive Verb where
  | get
  | list
  | check
  | version
  | completions
deriving DecidableEq, Repr

instance : Variants Verb where
  listed := [("get", .get), ("list", .list), ("check", .check), ("version", .version),
    ("completions", .completions)]

inductive Switch where
  | siteDir
  | define
  | noEnvironment
  | noSite
  | logLevel
  | verbose
  | quiet
  | help
  | version
  | form
  | delimiter
  | json
  | raw
  | start
deriving DecidableEq, Repr

namespace Switch

def long : Switch → String
  | siteDir => "site-dir"
  | define => "define"
  | noEnvironment => "no-env"
  | noSite => "no-site"
  | logLevel => "log-level"
  | verbose => "verbose"
  | quiet => "quiet"
  | help => "help"
  | version => "version"
  | form => "as"
  | delimiter => "delimiter"
  | json => "json"
  | raw => "raw"
  | start => "prefix"

def letter? : Switch → Option Char
  | siteDir => some 's'
  | define => some 'D'
  | logLevel => some 'l'
  | verbose => some 'v'
  | quiet => some 'q'
  | help => some 'h'
  | version => some 'V'
  | start => some 'p'
  | _ => none

def takesValue : Switch → Bool
  | siteDir | define | logLevel | form | delimiter | start => true
  | _ => false

def repeats : Switch → Bool
  | define => true
  | _ => false

def accepts (s : Switch) (value : String) : Bool :=
  match s with
  | define => value.toList.contains '='
  | form => (Variants.ofName? (α := Form) value).isSome
  | _ => true

def shared : List Switch :=
  [siteDir, define, noEnvironment, noSite, logLevel, verbose, quiet, help, version]

end Switch

end Command
end Overlay
