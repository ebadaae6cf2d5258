import Overlay.Layer.Basic
import Overlay.Property
import Overlay.Variants
import Overlay.World

/-!
This module contains the layer of the built-in defaults. Most are fixed, and some depend on the
machine.
-/

namespace Overlay
namespace Defaults

def fixed : List (String × String) := [
  (Property.home, "/opt/keel"),
  (Property.confDir, "$\x7bkeel.home\x7d/conf"),
  (Property.siteConfDir, "$\x7bkeel.conf.dir\x7d/,$\x7buser.home\x7d/.keel/,/etc/keel/"),
  ("keel.logs.dir", "$\x7bkeel.home\x7d/logs"),
  (Property.logsLevel, "info"),
  (Property.logsFormat, "pretty"),
  (Property.zookeeperEnabled, "false"),
  ("keel.zookeeper.address", "localhost:2181"),
  ("keel.zookeeper.election.path", "/election"),
  ("keel.zookeeper.leader.path", "/leader"),
  (Property.workersPerHostMax, "1"),
  (Property.masterRpcPort, "19998"),
  ("keel.master.web.port", "19999"),
  ("keel.master.journal.folder", "$\x7bkeel.home\x7d/journal/"),
  (Property.workerDataPort, "29999"),
  (Property.workerRpcPort, "29998"),
  (Property.workerWebPort, "30000"),
  ("keel.worker.data.folder", "/keelworker/"),
  ("keel.worker.memory.size", "1GB"),
  ("keel.worker.block.heartbeat.interval.ms", "1000"),
  ("keel.worker.allocator.class", "keel.worker.block.allocator.MaxFreeAllocator"),
  ("keel.worker.evictor.class", "keel.worker.block.evictor.LRUEvictor"),
  (Property.userFileBufferBytes, "1MB"),
  ("keel.user.block.size.bytes.default", "512MB"),
  ("keel.user.heartbeat.interval.ms", "1000")]

/--
The defaults that depend on the machine: its name, its preferred channel, and the user's directory
if there is one, which a variable can set.
-/
def ofWorld (w : World) : List (String × String) :=
  let channel := Variants.nameOf Channel.preferred
  let userHome := (w.env? "HOME").filter (· != "") <|> w.accountHome
  [(Property.masterHostname, Host.name w),
    (Property.workerChannel, channel),
    (Property.userChannel, channel)] ++ (userHome.map fun home => (Property.userHome, home)).toList

def layer (w : World) : Layer :=
  (Layer.new "defaults" .defaults).insertAll (fixed ++ ofWorld w)

end Defaults
end Overlay
