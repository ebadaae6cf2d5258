/-!
This module contains the names of the properties that the library itself interprets. All other
properties are only stored, expanded and read.
-/

namespace Overlay
namespace Property

def home : String := "keel.home"

def confDir : String := "keel.conf.dir"

def siteConfDir : String := "keel.site.conf.dir"

def userHome : String := "user.home"

def logsLevel : String := "keel.logs.level"

def logsFormat : String := "keel.logs.format"

def masterHostname : String := "keel.master.hostname"

def masterRpcPort : String := "keel.master.rpc.port"

def masterAddress : String := "keel.master.address"

def zookeeperEnabled : String := "keel.zookeeper.enabled"

def workerDataPort : String := "keel.worker.data.port"

def workerRpcPort : String := "keel.worker.rpc.port"

def workerWebPort : String := "keel.worker.web.port"

def workerChannel : String := "keel.worker.network.netty.channel"

def userChannel : String := "keel.user.network.netty.channel"

def workersPerHostMax : String := "keel.integration.yarn.workers.per.host.max"

def userFileBufferBytes : String := "keel.user.file.buffer.bytes"

def workerPorts : List String := [workerDataPort, workerRpcPort, workerWebPort]

end Property
end Overlay
