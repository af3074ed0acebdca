import Statefeed.Library.Effect
import Statefeed.Library.Table
import Statefeed.Library.Children
import Statefeed.Library.Forest
import Statefeed.Library.Lineage
import Statefeed.Library.Join
import Statefeed.Library.BigEndian
import Statefeed.Library.Bitmap
import Statefeed.Library.Chunks
import Statefeed.Library.Slots
import Statefeed.Library.History
import Statefeed.Library.Trace
import Statefeed.Library.Publication
import Statefeed.Library.Acceptor
import Statefeed.Library.FlagWord
import Statefeed.Library.Checked
import Statefeed.Library.Source
import Statefeed.Library.Follower
import Statefeed.Library.Collect
import Statefeed.Model.Watch
import Statefeed.Model.Feed
import Statefeed.Model.Wire
import Statefeed.Model.Config
import Statefeed.Model.Store
import Statefeed.Model.Publisher
import Statefeed.Model.Loop
import Statefeed.Model.Connection
import Statefeed.Model.Dump
import Statefeed.Model.Tracker
import Statefeed.Model.Sample
import Statefeed.Model.Handoff
import Statefeed.Model.Waiting
import Statefeed.Model.Enqueue
import Statefeed.Model.Conversion
import Statefeed.Model.FrameReader
import Statefeed.Model.Node
import Statefeed.Model.Reloader
import Statefeed.Model.Source
import Statefeed.Model.Server
import Statefeed.Model.Validator
import Statefeed.Store.Rules
import Statefeed.Store.Settings
import Statefeed.Store.Records
import Statefeed.Store.Index
import Statefeed.Store.WellFormed
import Statefeed.Store.Placement
import Statefeed.Store.Head
import Statefeed.Store.Tracked
import Statefeed.Store.Eviction
import Statefeed.Store.Subsiding
import Statefeed.Store.Verdict
import Statefeed.Store.Examined
import Statefeed.Store.Sweep
import Statefeed.Machine.Step
import Statefeed.Machine.Failure
import Statefeed.Machine.Simulation
import Statefeed.Machine.Contents
import Statefeed.Machine.Representation
import Statefeed.Machine.Heir
import Statefeed.Machine.Inversion
import Statefeed.Machine.Shape
import Statefeed.Stream.Monitor
import Statefeed.Stream.Refinement
import Statefeed.Stream.Continuity
import Statefeed.Stream.Session
import Statefeed.Stream.Joining
import Statefeed.Stream.Cursor
import Statefeed.Stream.Tracker
import Statefeed.Stream.Dictionary
import Statefeed.Extraction
import Statefeed.Truth
import Statefeed.Head
import Statefeed.Agreement
import Statefeed.Validated
import Statefeed.Anchoring
import Statefeed.FrameSize
import Statefeed.Eviction
import Statefeed.Sweep
import Statefeed.Finality
import Statefeed.Completeness
import Statefeed.Bitmaps
import Statefeed.Content
import Statefeed.Handoff
import Statefeed.Enqueue
import Statefeed.Wakeup
import Statefeed.Capacity
import Statefeed.Quotes
import Statefeed.Framing
import Statefeed.Candidates
import Statefeed.Reflection
import Statefeed.Following
import Statefeed.Convergence
import Statefeed.Recovery
import Statefeed.Reload
import Statefeed.Delivery
import Statefeed.Snapshot
import Statefeed.Confinement
import Statefeed.Serving
import Statefeed.Provenance
import Statefeed.Ledger
