import Zhaxx.Lib.Dict
import Zhaxx.Lib.Traverse
import Zhaxx.Lib.PyStr
import Zhaxx.Lib.Decimal
import Zhaxx.Lib.Regex
import Zhaxx.Lib.CText
import Zhaxx.Lib.Tokens
import Zhaxx.Lib.LastWrite
import Zhaxx.Lib.Buffer
import Zhaxx.Lib.Query
import Zhaxx.Lib.Firsts
import Zhaxx.Lib.Format
import Zhaxx.Lib.Json
import Zhaxx.Lib.Shuffle
import Zhaxx.Lib.Descent
import Zhaxx.Lib.Monitor
import Zhaxx.Scan.Dump
import Zhaxx.Scan.Parse
import Zhaxx.Scan.Checks
import Zhaxx.Scan.Program
import Zhaxx.Scan.Named
import Zhaxx.Scan.Reach
import Zhaxx.Scan.Planned
import Zhaxx.Scan.Order
import Zhaxx.Scan.Stages
import Zhaxx.Scan.FreeOrder
import Zhaxx.Scan.Accounts
import Zhaxx.Scan.Comments
import Zhaxx.Scan.Removals
import Zhaxx.Scan.Clean
import Zhaxx.Scan.Roles
import Zhaxx.Scan.Snapshots
import Zhaxx.Scan.Capture
import Zhaxx.Scan.Shuffled
import Zhaxx.Scan.EntryOrder
import Zhaxx.Scan.Grounds
import Zhaxx.Scan.ErrorLogs
import Zhaxx.Scan.Alarms
import Zhaxx.Scan.Reported
import Zhaxx.Scan.Recycled
import Zhaxx.Scan.Source
import Zhaxx.Scan.FailedRead
import Zhaxx.Scan.Report
import Zhaxx.Scan.Output
import Zhaxx.Scan.Render
import Zhaxx.Scan.Moving
import Zhaxx.Scan.Names
import Zhaxx.Surgeon.ParsePlan
import Zhaxx.Surgeon.Memory
import Zhaxx.Surgeon.PlanFile
import Zhaxx.Surgeon.Libzpool
import Zhaxx.Surgeon.Main
import Zhaxx.Surgeon.Store
import Zhaxx.Surgeon.Transcript
import Zhaxx.Surgeon.Effects
import Zhaxx.Surgeon.Guards
import Zhaxx.Surgeon.Verify
import Zhaxx.Surgeon.Grammar
import Zhaxx.Surgeon.ErrorLog
import Zhaxx.Surgeon.Codec
import Zhaxx.Surgeon.Sessions
import Zhaxx.Surgeon.DryRun
import Zhaxx.Surgeon.Lifecycle
import Zhaxx.Surgeon.Consent
import Zhaxx.Repair.Handover
import Zhaxx.Repair.Drift
import Zhaxx.Repair.Observed
import Zhaxx.Repair.Outcome
import Zhaxx.Repair.Namespace
import Zhaxx.Repair.Clones
import Zhaxx.Repair.Count
import Zhaxx.Repair.Rescan
import Zhaxx.Repair.Lines
import Zhaxx.Repair.Written
import Zhaxx.Repair.Reorder
import Zhaxx.Repair.Wrap
import Zhaxx.Repair.Loop
import Zhaxx.Repair.Campaign
import Zhaxx.Repair.Leftover
import Zhaxx.Repair.Unalarmed
import Zhaxx.Repair.Backup
