import Herald.Channel.Broker
import Herald.Live.Heartbeat
import Herald.Main
import Herald.Migration
import Herald.Notification.Text
import Herald.Publisher.Desk
import Herald.Service.Respond
import Herald.Service.Work
import Herald.Settings.CommandLine
import Herald.Settings.Endpoint
import Herald.Store.Script
import Herald.Proofs.Text.Digits
import Herald.Proofs.Json.Quotation
import Herald.Proofs.Json.Reads
import Herald.Proofs.Json.Agreement
import Herald.Proofs.Json.Tracking
import Herald.Proofs.Event.Field
import Herald.Proofs.Event.RoundTrip
import Herald.Proofs.Event.Document
import Herald.Proofs.Event.Grammar
import Herald.Proofs.Event.Reading
import Herald.Proofs.Event.Record
import Herald.Proofs.Event.Shapes
import Herald.Proofs.Publisher.Calls
import Herald.Proofs.Publisher.Course
import Herald.Proofs.UnitOfWork
import Herald.Proofs.Dispatch.Phases
import Herald.Proofs.Dispatch.Race
import Herald.Proofs.Dispatch.RaceOutcome
import Herald.Proofs.Dispatch.Answers
import Herald.Proofs.Store.Likeness
import Herald.Proofs.Live.Registry
import Herald.Proofs.Live.Pushing
import Herald.Proofs.Live.Subscribing
import Herald.Proofs.Live.Ledger
import Herald.Proofs.Live.Sessions
import Herald.Proofs.Live.Reading
import Herald.Proofs.Live.SessionSteps
import Herald.Proofs.Live.SingleSession
import Herald.Proofs.Live.MomentSteps
import Herald.Proofs.Live.Contents
import Herald.Proofs.Live.StreamContents
import Herald.Proofs.Live.Gains
import Herald.Proofs.Live.Traffic
import Herald.Proofs.Live.Expiry
import Herald.Proofs.Live.Farewell
import Herald.Proofs.Live.Contention
import Herald.Proofs.Live.Tenure
import Herald.Proofs.Live.Sights
import Herald.Proofs.Json.Controls
import Herald.Proofs.Live.Frames
import Herald.Proofs.Live.Streams
import Herald.Proofs.Live.Additions
import Herald.Proofs.Channel.Backlog
import Herald.Proofs.Channel.Operations
import Herald.Proofs.Channel.Rings
import Herald.Proofs.Channel.Memory
import Herald.Proofs.Channel.Windows
import Herald.Proofs.Service.Publishing
import Herald.Proofs.Service.Pipeline
import Herald.Proofs.Service.Delivery
import Herald.Proofs.Store.Ownership
import Herald.Proofs.Service.Errands
import Herald.Proofs.Service.Isolation
import Herald.Proofs.Channel.Subscriber
import Herald.Proofs.Store.Growth
import Herald.Proofs.History.Marking
import Herald.Proofs.Http.Access
import Herald.Proofs.Http.Ingest
import Herald.Proofs.Http.Key
import Herald.Proofs.Http.Origins
import Herald.Proofs.Live.Sparing
import Herald.Proofs.Service.Gate
import Herald.Proofs.History.Recording
import Herald.Proofs.Dispatch.Setbacks
import Herald.Proofs.Live.Acceptance
import Herald.Proofs.Live.Account
import Herald.Proofs.History.Pages
import Herald.Proofs.Channel.Sender
import Herald.Proofs.Service.Ingestion
import Herald.Proofs.Service.Sharing
import Herald.Proofs.Channel.Waits
import Herald.Proofs.Live.Registration
import Herald.Proofs.Live.Capacity
import Herald.Proofs.Live.Staying
import Herald.Proofs.Live.Stalling
import Herald.Proofs.Live.Schedule
import Herald.Proofs.Publisher.Sharing
import Herald.Proofs.Json.Fields
import Herald.Proofs.Json.Numbers
import Herald.Proofs.Json.Printed
import Herald.Proofs.Json.Shapes
import Herald.Proofs.Token.Base64
import Herald.Proofs.Token.Claims
import Herald.Proofs.Token.Header
import Herald.Proofs.Token.Issue
import Herald.Proofs.Token.Verification
import Herald.Proofs.Event.Members
import Herald.Proofs.Live.Handling
import Herald.Proofs.Notification.Origin
