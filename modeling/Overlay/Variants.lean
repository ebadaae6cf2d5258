import Overlay.Dictionary
import Overlay.Error

/-!
This module contains what is chosen by name: variants of a closed set, and implementations that are
registered. A name is that of the first variant listed under it, and a variant is called by the
first name it is listed under.
-/

namespace Overlay

class Variants (α : Type) where
  listed : List (String × α)

namespace Variants

variable {α : Type} [Variants α]

def ofName? (name : String) : Option α :=
  ((listed (α := α)).find? (fun entry => entry.1 = name)).map Prod.snd

def nameOf [DecidableEq α] (variant : α) : String :=
  (((listed (α := α)).find? (fun entry => entry.2 = variant)).map Prod.fst).getD ""

end Variants

inductive Channel where
  | nio
  | epoll
deriving DecidableEq, Repr

instance : Variants Channel where
  listed := [("NIO", .nio), ("EPOLL", .epoll)]

def Channel.preferred : Channel := epoll

abbrev Registry (α : Type) := Dictionary α

namespace Registry

variable {α : Type}

def load (r : Registry α) (name : String) : Except ConfigError α :=
  match r.get? name with
  | none => .error (.notRegistered name)
  | some implementation => .ok implementation

end Registry
end Overlay
