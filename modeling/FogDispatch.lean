import FogDispatch.Answer
import FogDispatch.Clock
import FogDispatch.CommandLine
import FogDispatch.Context
import FogDispatch.Dataset
import FogDispatch.Draw
import FogDispatch.Energy
import FogDispatch.Episode
import FogDispatch.Event
import FogDispatch.Experiment
import FogDispatch.Fault
import FogDispatch.FileTree
import FogDispatch.Gateway
import FogDispatch.Host
import FogDispatch.Job
import FogDispatch.Location
import FogDispatch.Main
import FogDispatch.Metrics
import FogDispatch.Network
import FogDispatch.Node
import FogDispatch.Number.Arith
import FogDispatch.Number.Binary64
import FogDispatch.Number.Hexadecimal
import FogDispatch.Number.Literal
import FogDispatch.Number.Notation
import FogDispatch.Number.Rational
import FogDispatch.Number.Shortest
import FogDispatch.Overview
import FogDispatch.Plan
import FogDispatch.Proofs.Actions
import FogDispatch.Proofs.Admission
import FogDispatch.Proofs.Announcement
import FogDispatch.Proofs.AnswerGrammar
import FogDispatch.Proofs.AnswerText
import FogDispatch.Proofs.Appointments
import FogDispatch.Proofs.Attention
import FogDispatch.Proofs.Books
import FogDispatch.Proofs.BoundedWork
import FogDispatch.Proofs.Breakdowns
import FogDispatch.Proofs.Causality
import FogDispatch.Proofs.Chronicle
import FogDispatch.Proofs.Clock
import FogDispatch.Proofs.Conservation
import FogDispatch.Proofs.Consultation
import FogDispatch.Proofs.Conversation
import FogDispatch.Proofs.Coupling
import FogDispatch.Proofs.CutEnergy
import FogDispatch.Proofs.CutStreams
import FogDispatch.Proofs.Deadlines
import FogDispatch.Proofs.DecisionWindows
import FogDispatch.Proofs.Delivery
import FogDispatch.Proofs.DeliveryOrder
import FogDispatch.Proofs.DeviceEnergy
import FogDispatch.Proofs.Exclusivity
import FogDispatch.Proofs.FollowUp
import FogDispatch.Proofs.ForwardClock
import FogDispatch.Proofs.Frames
import FogDispatch.Proofs.GatewayEnergy
import FogDispatch.Proofs.HeadTask
import FogDispatch.Proofs.Histories
import FogDispatch.Proofs.Horizon
import FogDispatch.Proofs.Hosting
import FogDispatch.Proofs.Isolation
import FogDispatch.Proofs.Joining
import FogDispatch.Proofs.Journal
import FogDispatch.Proofs.Keeping
import FogDispatch.Proofs.Layout
import FogDispatch.Proofs.Ledger
import FogDispatch.Proofs.Legend
import FogDispatch.Proofs.Loading
import FogDispatch.Proofs.NestedCounts
import FogDispatch.Proofs.NodeTimes
import FogDispatch.Proofs.NumberTexts
import FogDispatch.Proofs.Observations
import FogDispatch.Proofs.Outcomes
import FogDispatch.Proofs.Pairing
import FogDispatch.Proofs.Paths
import FogDispatch.Proofs.Peers
import FogDispatch.Proofs.Precedence
import FogDispatch.Proofs.Punctuality
import FogDispatch.Proofs.Queue
import FogDispatch.Proofs.Replay
import FogDispatch.Proofs.Requests
import FogDispatch.Proofs.RewardSigns
import FogDispatch.Proofs.Roster
import FogDispatch.Proofs.Rounds
import FogDispatch.Proofs.Rulings
import FogDispatch.Proofs.Run
import FogDispatch.Proofs.SeedAverages
import FogDispatch.Proofs.ShortestDigits
import FogDispatch.Proofs.StartTimes
import FogDispatch.Proofs.Sweep
import FogDispatch.Proofs.SweepCheck
import FogDispatch.Proofs.SweepReport
import FogDispatch.Proofs.TimeLimit
import FogDispatch.Proofs.Timetable
import FogDispatch.Proofs.Traffic
import FogDispatch.Proofs.UndefinedTimes
import FogDispatch.Proofs.Vigilance
import FogDispatch.Proofs.Workload
import FogDispatch.Report
import FogDispatch.Request
import FogDispatch.Reward
import FogDispatch.Service.Client
import FogDispatch.Service.Frame
import FogDispatch.Session
import FogDispatch.Settings.Defaults
import FogDispatch.Settings.Layers
import FogDispatch.Settings.Moment
import FogDispatch.Settings.Reading
import FogDispatch.Settings.Toml
import FogDispatch.Settings.Value
import FogDispatch.Settings.Yaml
import FogDispatch.Strategy
import FogDispatch.Task
import FogDispatch.Text.Blank
import FogDispatch.Text.Bytes
import FogDispatch.Text.Groups
import FogDispatch.Text.Lowercase
import FogDispatch.Text.Record
import FogDispatch.Text.Split
import FogDispatch.Topology
import FogDispatch.Wire
import FogDispatch.Proofs.DocumentTexts
import FogDispatch.Proofs.RequestLines
import FogDispatch.Proofs.SettingDocuments
import FogDispatch.Proofs.PathTexts
import FogDispatch.Proofs.DefaultSettings
import FogDispatch.Proofs.SettingLayers
import FogDispatch.Proofs.SettingPrecedence
import FogDispatch.Proofs.PresetReach
