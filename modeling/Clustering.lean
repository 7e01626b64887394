import Clustering.Communication.SharedRequest
import Clustering.Handshake.World
import Clustering.Handshake.Moves
import Clustering.Handshake.TaskSide
import Clustering.Handshake.Attempts
import Clustering.Handshake.Reservations
import Clustering.Handshake.DeathWatch
import Clustering.Handshake.VmSide
import Clustering.Handshake.Effects
import Clustering.Handshake.Posted
import Clustering.Handshake.Results
import Clustering.Handshake.Leaks
import Clustering.Actors.Tokens
import Clustering.Handshake.Slots
import Clustering.Worker.DistributorActor
import Clustering.Worker.Classification
import Clustering.Tree.World
import Clustering.Tree.Moves
import Clustering.Tree.Shape
import Clustering.Handshake.Lives
import Clustering.Tree.Leaves
import Clustering.Tree.Mail
import Clustering.Tree.Purity
import Clustering.Tree.Provenance
import Clustering.Tree.Versions
import Clustering.Tree.Placement
import Clustering.Vm.StillAlive
import Clustering.Vm.NodeMasterActor
import Clustering.Provisioning.Messages
import Clustering.Provisioning.NodeActor
import Clustering.Provisioning.VMActor
import Clustering.Provisioning.World
import Clustering.Provisioning.Turns
import Clustering.Provisioning.Pipeline
import Clustering.Provisioning.Checked
import Clustering.Tree.Attached
import Clustering.Tree.Forwarding
import Clustering.Db.Database
import Clustering.Db.DBQuery
import Clustering.Db.DBActor
import Clustering.Db.Reading
import Clustering.Db.Texts
import Clustering.Db.Meaning
import Clustering.Db.Batches
import Clustering.Db.Params
import Clustering.Db.Connections
import Clustering.Db.Counts
import Clustering.Json.Text
import Clustering.Db.JsonReport
import Clustering.Vm.Requests
import Clustering.Communication.LocalRequests
import Clustering.Webui.ClusteringApi
import Clustering.Provisioning.VmPairs
import Clustering.Tree.PrefixTree
import Clustering.Worker.Registry
import Clustering.Worker.TaskList
import Clustering.Status.Counters
import Clustering.Vm.PollTimer
import Clustering.Status.GlobalStatusActor
import Clustering.Status.Accuracy
import Clustering.Ruby.HereDocs
import Clustering.Vagrant.Emitted
import Clustering.Vagrant.Vagrantfile
import Clustering.Vagrant.PortMapping
import Clustering.Vagrant.Forwardings
import Clustering.Java.Patterns
import Clustering.Vagrant.Status
import Clustering.Ruby.Lines
import Clustering.Provisioning.Retries
import Clustering.Provisioning.Stalls
