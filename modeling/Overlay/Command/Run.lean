import Overlay.Command.Invocation
import Overlay.Command.Report
import Overlay.Log.Event
import Overlay.Log.Filter

/-!
This module contains the whole program: what a command line prints and logs on a machine, and how it
ends. What happens before the configuration is loaded is not logged.
-/

namespace Overlay

namespace Command

inductive Ending where
  | success
  | help
  | failure (e : ConfigError)
  | usage
deriving DecidableEq, Repr

def Ending.exitCode : Ending → Nat
  | success | help => 0
  | failure _ => 1
  | usage => 2

structure Reply where
  printed : String
  shown : List Log.Event
  format : Log.Format
  ending : Ending
deriving DecidableEq, Repr

def Reply.silent (printed : String) (ending : Ending) : Reply :=
  ⟨printed, [], .pretty, ending⟩

def programName : String := "keel"

def programVersion : String := "0.1.0"

def banner : String := "⚓ Keel v" ++ programVersion

def versionLine (verb : Option Verb) : String :=
  let name := match verb with
    | none => programName
    | some verb => programName ++ "-" ++ Variants.nameOf verb
  name ++ " " ++ programVersion ++ "\n"

/--
The reply to a command line that does not ask for a command. Completions print nothing, not even
their version.
-/
def Halt.reply : Halt → Reply
  | usage => .silent "" .usage
  | help => .silent "" .help
  | version (some .completions) => .silent "" .success
  | version verb => .silent (versionLine verb) .success

def logVariable : String := "RUST_LOG"

/--
The filter of the log. The settings come before the configuration, whose level is `info` if it
cannot be read.
-/
def logFilter (w : World) (settings : Settings) (p : Properties) : Log.Filter :=
  match (w.env? logVariable).bind Log.Filter.ofText? with
  | some filter => filter
  | none =>
    let configured := (p.value Property.logsLevel).result.toOption.getD "info"
    .ofWellFormed (settings.logLevel.getD configured)

def logFormat (p : Properties) : Log.Format :=
  match (p.value Property.logsFormat).result with
  | .ok "json" => .json
  | _ => .pretty

def Reply.ofReport (w : World) (settings : Settings) (p : Properties) (report : Report) :
    Reply where
  printed := report.printed
  shown := (.configurationLoaded :: report.events).filter (logFilter w settings p).shows
  format := logFormat p
  ending := match report.failure with
    | none => .success
    | some e => .failure e

/--
The reply to a command line. What a build of the program decides about is left out: of the version
only the banner is printed, without the lines on the target, the system and the profile below it,
and completions print nothing, because there is no script for any shell.
-/
def run (w : World) (words : List String) : Reply :=
  match Invocation.ofWords words with
  | .error halt => halt.reply
  | .ok ⟨settings, request⟩ =>
    let inspect (report : Configuration → Report) : Reply :=
      match Configuration.load w settings.loadOptions with
      | .error e => .silent "" (.failure e)
      | .ok conf => .ofReport w settings conf.properties (report conf)
    match request with
    | .version => .silent banner .success
    | .completions _ => .silent "" .success
    | .get key form delimiter => inspect (Report.get · key form delimiter)
    | .list json raw start => inspect (Report.list · json raw start)
    | .check => inspect Report.check

end Command
end Overlay
