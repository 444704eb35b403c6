import Eeemail.Lib.Actions
import Eeemail.Lib.Runs
import Eeemail.Lib.Tables
import Eeemail.Lib.Texts
import Eeemail.Addr
import Eeemail.Store
import Eeemail.Labels
import Eeemail.ReservedLabels
import Eeemail.Contacts
import Eeemail.Trash
import Eeemail.Gating
import Eeemail.Housekeeping
import Eeemail.Recipients
import Eeemail.Reception
import Eeemail.Frames
import Eeemail.ContactTable
import Eeemail.Mailbox
import Eeemail.TrashSafety
import Eeemail.TrashWindow
import Eeemail.Keeping
import Eeemail.KeySelection
import Eeemail.StructuredTrust
import Eeemail.Policy
import Eeemail.Chats
import Eeemail.MimeFactory
import Eeemail.Sending
import Eeemail.KeyRows
import Eeemail.SendFrames
import Eeemail.Addressees
import Eeemail.Drafting
import Eeemail.Queueing
import Eeemail.Outcome
import Eeemail.Delivery
import Eeemail.Accounting
import Eeemail.Padlock
import Eeemail.Blobs
import Eeemail.BlobFiles
import Eeemail.BlobPasses
import Eeemail.BlobReads
import Eeemail.BlobStore
import Eeemail.Diversion
import Eeemail.Lib.Components
import Eeemail.Lib.Loops
import Eeemail.Threading
import Eeemail.Vault
import Eeemail.ThreadGroups
import Eeemail.ThreadTree
import Eeemail.HoldAgreement
import Eeemail.Acquaintance
import Eeemail.Strangers
import Eeemail.StrangerMail
import Eeemail.TrustGained
import Eeemail.Blocklist
import Eeemail.Blocking
import Eeemail.Boards
import Eeemail.LabelBoards
import Eeemail.Arrivals
import Eeemail.LabelStreams
import Eeemail.LatestIntent
import Eeemail.Lib.Replicas
import Eeemail.DeviceSync
import Eeemail.Refusals
import Eeemail.RawMime
import Eeemail.RetainedSource
import Eeemail.SystemTags
import Eeemail.Tombstones
import Eeemail.Migrations
import Eeemail.Desktop.Fields
import Eeemail.Desktop.Repaint
import Eeemail.Desktop.Replies
import Eeemail.Lib.Like
import Eeemail.Search
import Eeemail.Desktop.RichText
import Eeemail.Desktop.Composer
import Eeemail.Desktop.Sending
import Eeemail.Lib.Queues
import Eeemail.Desktop.Requests
import Eeemail.Destruction
import Eeemail.ThreadPruning
import Eeemail.SentCopy
import Eeemail.MimeParser
import Eeemail.Desktop.Signature
import Eeemail.Desktop.Alternatives
import Eeemail.DefaultTimer
import Eeemail.ServerCopies
import Eeemail.Lib.Documents
import Eeemail.Desktop.Sanitizing
import Eeemail.Lib.ByteTexts
import Eeemail.Lib.JsonTrees
import Eeemail.Structured
import Eeemail.Parameters
