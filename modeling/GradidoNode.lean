import GradidoNode.Base.Announce
import GradidoNode.Base.GetTransactions
import GradidoNode.Base.Indexing
import GradidoNode.Base.Messages
import GradidoNode.Base.OutboundRows
import GradidoNode.Base.Reads
import GradidoNode.Base.Siblings
import GradidoNode.Base.Stream
import GradidoNode.Base.Tasks
import GradidoNode.Facade.Locks
import GradidoNode.Facade.SiblingFile
import GradidoNode.Ledger.Clocks
import GradidoNode.Ledger.ConsensusTime
import GradidoNode.Ledger.Credits
import GradidoNode.Ledger.Deflation
import GradidoNode.Ledger.Friends
import GradidoNode.Ledger.Moves
import GradidoNode.Ledger.UnknownUsers
import GradidoNode.Models.OrderingNode
import GradidoNode.Models.Soundness
import GradidoNode.Register.Revalidation
import GradidoNode.Storage.Failures
import GradidoNode.Storage.FileNames
import GradidoNode.Storage.Recovery
import GradidoNode.Storage.Replace
import GradidoNode.Storage.Reset
import GradidoNode.Storage.Resources
import GradidoNode.Storage.TileReads
import GradidoNode.Subcluster.Restart
import GradidoNode.Timer.Timers
import GradidoNode.Wire.TransactionFactory
import GradidoNode.Workers.Joined
