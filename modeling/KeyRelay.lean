import KeyRelay.Client.Error
import KeyRelay.Client.Sender
import KeyRelay.Client.Watcher
import KeyRelay.CommandLine.Arguments
import KeyRelay.CommandLine.ClientRequest
import KeyRelay.CommandLine.ClientRun
import KeyRelay.CommandLine.Conclusion
import KeyRelay.CommandLine.Help
import KeyRelay.CommandLine.Options
import KeyRelay.CommandLine.RelayOptions
import KeyRelay.CommandLine.RelayStart
import KeyRelay.Config.Basic
import KeyRelay.Config.Document
import KeyRelay.Config.Store
import KeyRelay.Device.Basic
import KeyRelay.Device.Callback
import KeyRelay.Device.CommandServer
import KeyRelay.Device.CommandStream
import KeyRelay.Device.Dispatch
import KeyRelay.Files.Directories
import KeyRelay.Files.Listener
import KeyRelay.Files.Path
import KeyRelay.Files.Tree
import KeyRelay.Frame.Basic
import KeyRelay.Frame.Transfer
import KeyRelay.Main
import KeyRelay.Matrix
import KeyRelay.Message.Command
import KeyRelay.Message.Decode
import KeyRelay.Message.Encode
import KeyRelay.Message.Endpoint
import KeyRelay.Message.Event
import KeyRelay.Message.Size
import KeyRelay.Notification
import KeyRelay.Observer.Audience
import KeyRelay.Observer.Hub
import KeyRelay.Observer.SubscriberTable
import KeyRelay.Relay
import KeyRelay.Stream.Failure
import KeyRelay.Stream.Sink
import KeyRelay.Stream.Source
import KeyRelay.Text.Blank
import KeyRelay.Text.Decimal
import KeyRelay.Text.Descriptor
import KeyRelay.Text.EventLine
import KeyRelay.Text.KeyTarget
import KeyRelay.Text.Plain
import KeyRelay.Text.Utf8
import KeyRelay.Toml.Builtin
import KeyRelay.Toml.Builtin.Document
import KeyRelay.Toml.Builtin.Draft
import KeyRelay.Toml.Builtin.Lexeme
import KeyRelay.Toml.Builtin.Moment
import KeyRelay.Toml.Builtin.Number
import KeyRelay.Toml.Builtin.Quoted
import KeyRelay.Toml.Builtin.Render
import KeyRelay.Toml.Library
import KeyRelay.Toml.Value
import KeyRelay.Wire.Error
import KeyRelay.Wire.Reader
import KeyRelay.Wire.Schema
import KeyRelay.Wire.Varint
import KeyRelay.Wire.Writer
import KeyRelay.Proofs.Wire.Field
import KeyRelay.Proofs.Wire.Put
import KeyRelay.Proofs.Message.Size
import KeyRelay.Proofs.Wire.Schema
import KeyRelay.Proofs.Message.EventRoundTrip
import KeyRelay.Proofs.Frame.Split
import KeyRelay.Proofs.Frame.Receive
import KeyRelay.Proofs.Client.Watcher
import KeyRelay.Proofs.Client.EventStream
import KeyRelay.Proofs.Frame.Offer
import KeyRelay.Proofs.Observer.Table
import KeyRelay.Proofs.Observer.Session
import KeyRelay.Proofs.Client.Sender
import KeyRelay.Proofs.Device.Ingestion
import KeyRelay.Proofs.Matrix
import KeyRelay.Proofs.Relay
import KeyRelay.Proofs.Wire.Form
import KeyRelay.Proofs.Wire.Part
import KeyRelay.Proofs.Message.Reading
import KeyRelay.Proofs.Message.EventForm
import KeyRelay.Proofs.Message.CommandForm
import KeyRelay.Proofs.EnumCode
import KeyRelay.Proofs.Message.Edit
import KeyRelay.Proofs.WideNumber
import KeyRelay.Proofs.Frame.Reassembly
import KeyRelay.Proofs.Text.Decimal
import KeyRelay.Proofs.Toml.Standard
import KeyRelay.Proofs.Toml.Laws
import KeyRelay.Proofs.Toml.Quoted
import KeyRelay.Proofs.Toml.Number
import KeyRelay.Proofs.Files.Tree
import KeyRelay.Proofs.Toml.Document
import KeyRelay.Proofs.Toml.Builtin
import KeyRelay.Proofs.Config.Reading
import KeyRelay.Proofs.Config.RoundTrip
import KeyRelay.Proofs.Observer.Slots
import KeyRelay.Proofs.Observer.Tenancy
import KeyRelay.Proofs.Observer.Producers
import KeyRelay.Proofs.Client.Agreement
import KeyRelay.Proofs.Client.Spawned
import KeyRelay.Proofs.Device.Logbook
import KeyRelay.Proofs.Wire.ReadBack
import KeyRelay.Proofs.Message.Concatenation
import KeyRelay.Proofs.Message.Cut
import KeyRelay.Proofs.Server.Shutdown
import KeyRelay.Proofs.Message.Room
import KeyRelay.Proofs.Frame.InPlace
import KeyRelay.Proofs.Frame.Send
import KeyRelay.Proofs.Wire.Walk
import KeyRelay.Proofs.Wire.Stopping
import KeyRelay.Proofs.Text.Blank
import KeyRelay.Proofs.Text.Descriptor
import KeyRelay.Proofs.Text.KeyTarget
import KeyRelay.Proofs.Notification
import KeyRelay.Proofs.Text.EventLine
import KeyRelay.Proofs.Files.Spelling
import KeyRelay.Proofs.Files.Parent
import KeyRelay.Proofs.Config.Settings
import KeyRelay.Proofs.Config.Validation
import KeyRelay.Proofs.CommandLine.Effective
