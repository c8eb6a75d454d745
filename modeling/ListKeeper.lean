import ListKeeper.Adding
import ListKeeper.Binary64
import ListKeeper.Characters.Alphanumeric
import ListKeeper.Characters.Composites
import ListKeeper.Characters.Composition
import ListKeeper.Characters.Directions
import ListKeeper.Characters.Folding
import ListKeeper.Characters.Marks
import ListKeeper.Characters.Refused
import ListKeeper.Client
import ListKeeper.Command
import ListKeeper.Committing
import ListKeeper.Config
import ListKeeper.Config.Document
import ListKeeper.Config.Loading
import ListKeeper.Config.Reading
import ListKeeper.Config.Validation
import ListKeeper.Download
import ListKeeper.Entry
import ListKeeper.Entry.Document
import ListKeeper.FileTree
import ListKeeper.FileTree.Location
import ListKeeper.Ids
import ListKeeper.Instant
import ListKeeper.Instant.Civil
import ListKeeper.Instant.Rfc3339
import ListKeeper.Job
import ListKeeper.Json
import ListKeeper.Json.Number
import ListKeeper.Json.Printer
import ListKeeper.Json.Reader
import ListKeeper.Main
import ListKeeper.Network.Domain
import ListKeeper.Network.Host
import ListKeeper.Network.Ip
import ListKeeper.Network.Punycode
import ListKeeper.Network.SocketAddress
import ListKeeper.Operation
import ListKeeper.Percent
import ListKeeper.Pieces
import ListKeeper.Proofs.Admission
import ListKeeper.Proofs.Attribution
import ListKeeper.Proofs.Calls
import ListKeeper.Proofs.Clearing
import ListKeeper.Proofs.Commits
import ListKeeper.Proofs.Completion
import ListKeeper.Proofs.Consumer
import ListKeeper.Proofs.Contents
import ListKeeper.Proofs.Deadlines
import ListKeeper.Proofs.Distance
import ListKeeper.Proofs.Edits
import ListKeeper.Proofs.Fairness
import ListKeeper.Proofs.Faults
import ListKeeper.Proofs.FileNames
import ListKeeper.Proofs.FileTree
import ListKeeper.Proofs.Identity
import ListKeeper.Proofs.Ids
import ListKeeper.Proofs.Isolation
import ListKeeper.Proofs.Leftovers
import ListKeeper.Proofs.Lifetimes
import ListKeeper.Proofs.Linearizability
import ListKeeper.Proofs.Linearization
import ListKeeper.Proofs.Noninterference
import ListKeeper.Proofs.Operations
import ListKeeper.Proofs.Ownership
import ListKeeper.Proofs.Passes
import ListKeeper.Proofs.Places
import ListKeeper.Proofs.Promotions
import ListKeeper.Proofs.Punctuality
import ListKeeper.Proofs.Queue
import ListKeeper.Proofs.Registry
import ListKeeper.Proofs.Renamings
import ListKeeper.Proofs.Repetition
import ListKeeper.Proofs.Residue
import ListKeeper.Proofs.RoleSteps
import ListKeeper.Proofs.Roles
import ListKeeper.Proofs.Run
import ListKeeper.Proofs.Sequential
import ListKeeper.Proofs.Sights
import ListKeeper.Proofs.Slots
import ListKeeper.Proofs.Startup
import ListKeeper.Proofs.Steps
import ListKeeper.Proofs.System
import ListKeeper.Proofs.Turns
import ListKeeper.Proofs.Updates
import ListKeeper.Proofs.Validation
import ListKeeper.Proofs.Waiting
import ListKeeper.Proofs.Writing
import ListKeeper.Refreshing
import ListKeeper.Registry
import ListKeeper.Rules
import ListKeeper.Service
import ListKeeper.Settings.EnvFile
import ListKeeper.Settings.Environment
import ListKeeper.Settings.Setting
import ListKeeper.Settings.Toml.Document
import ListKeeper.Settings.Toml.Scalar
import ListKeeper.Status
import ListKeeper.Store
import ListKeeper.System
import ListKeeper.Url
import ListKeeper.Url.Reader
import ListKeeper.Utf8
import ListKeeper.Whitespace
import ListKeeper.Wire
import ListKeeper.Proofs.Additions
import ListKeeper.Proofs.WrittenPaths
import ListKeeper.Proofs.Replacement
import ListKeeper.Proofs.Requests
import ListKeeper.Proofs.Accounts
import ListKeeper.Proofs.Minting
import ListKeeper.Proofs.Draining
import ListKeeper.Proofs.Pages
import ListKeeper.Proofs.Views
import ListKeeper.Proofs.Keys
import ListKeeper.Proofs.Layers
import ListKeeper.Proofs.VariableFile
import ListKeeper.Proofs.Loading
import ListKeeper.Proofs.Overlay
import ListKeeper.Proofs.Counting
import ListKeeper.Proofs.Periods
import ListKeeper.Proofs.Enclosure
import ListKeeper.Proofs.Calendar
import ListKeeper.Proofs.Timestamps
import ListKeeper.Proofs.Documents
import ListKeeper.Proofs.EntryDocuments
