import Overlay.Error
import Overlay.Text.Quoted

/-!
This module contains the log events of the program and computations that log. Of an event only its
kind is kept, which has a level, an area that logs it and fields. These decide whether a filter
shows it, and what its line is.
-/

namespace Overlay
namespace Log

inductive Level where
  | error
  | warn
  | info
  | debug
  | trace
deriving DecidableEq, Repr

def Level.name : Level → String
  | error => "ERROR"
  | warn => "WARN"
  | info => "INFO"
  | debug => "DEBUG"
  | trace => "TRACE"

def Level.verbosity : Level → Nat
  | error => 1
  | warn => 2
  | info => 3
  | debug => 4
  | trace => 5

inductive Area where
  | expansion
  | configuration
  | command
deriving DecidableEq, Repr

def Area.target : Area → String
  | expansion => "keel_conf::resolve"
  | configuration => "keel_conf::configuration"
  | command => "keel_cli::commands"

/--
The kinds of log events: a token was replaced, a text is not a byte size, a value is not of the kind
that was asked for, there is no implementation of a name, a rule is broken, and the configuration is
loaded.
-/
inductive Event where
  | tokenReplaced
  | sizeMalformed
  | valueMismatched
  | implementationMissing
  | ruleBroken
  | configurationLoaded
deriving DecidableEq, Repr

def Event.level : Event → Level
  | tokenReplaced => .debug
  | sizeMalformed => .debug
  | valueMismatched => .warn
  | implementationMissing => .error
  | ruleBroken => .error
  | configurationLoaded => .debug

def Event.area : Event → Area
  | tokenReplaced => .expansion
  | sizeMalformed => .configuration
  | valueMismatched => .configuration
  | implementationMissing => .configuration
  | ruleBroken => .configuration
  | configurationLoaded => .command

def Event.fields : Event → List String
  | tokenReplaced => ["message", "placeholder", "value"]
  | sizeMalformed => ["message", "key", "error"]
  | valueMismatched => ["message", "key", "value"]
  | implementationMissing => ["message", "class", "error"]
  | ruleBroken => ["message", "rule", "error"]
  | configurationLoaded => ["message", "layers", "keys"]

inductive Format where
  | pretty
  | json
deriving DecidableEq, Repr

def Event.line (e : Event) : Format → String
  | .pretty => e.level.name ++ " " ++ e.area.target
  | .json =>
    "\x7b\"level\":" ++ Text.quote Text.jsonEscape e.level.name
      ++ ",\"target\":" ++ Text.quote Text.jsonEscape e.area.target ++ "\x7d"

end Log

structure Logged (α : Type) where
  events : List Log.Event
  result : Except ConfigError α

namespace Logged

variable {α β : Type}

def andThen (x : Logged α) (f : α → Logged β) : Logged β :=
  match x.result with
  | .error e => ⟨x.events, .error e⟩
  | .ok a => ⟨x.events ++ (f a).events, (f a).result⟩

instance : Monad Logged where
  pure a := ⟨[], .ok a⟩
  bind := andThen

def log (e : Log.Event) : Logged Unit :=
  ⟨[e], .ok ()⟩

def fail (e : ConfigError) : Logged α :=
  ⟨[], .error e⟩

@[simp]
theorem result_pure (a : α) : (pure a : Logged α).result = .ok a := rfl

@[simp]
theorem result_log (e : Log.Event) : (log e).result = .ok () := rfl

theorem result_bind (x : Logged α) (f : α → Logged β) :
    (x >>= f).result = x.result.bind (fun a => (f a).result) := by
  cases x with
  | mk events result => cases result <;> rfl

end Logged
end Overlay
