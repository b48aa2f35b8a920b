import OutOfOrder.Assembly.Source
import OutOfOrder.Cache
import OutOfOrder.CommandLine.Folder
import OutOfOrder.Config
import OutOfOrder.Event
import OutOfOrder.Main
import OutOfOrder.Monitor
import OutOfOrder.Proofs.Course
import OutOfOrder.Proofs.Draining
import OutOfOrder.Proofs.Effort
import OutOfOrder.Proofs.InOrderResult
import OutOfOrder.Proofs.LoneStation
import OutOfOrder.Proofs.MonitoredRun
import OutOfOrder.Proofs.Overtaking
import OutOfOrder.Proofs.PortSharing
import OutOfOrder.Proofs.Telling
import OutOfOrder.Report
import OutOfOrder.Text.Columns
import OutOfOrder.Text.Lines
import OutOfOrder.Text.Numeral
import OutOfOrder.Text.Upper
import OutOfOrder.Text.Utf8
import OutOfOrder.Text.WordChar
import OutOfOrder.Proofs.PortTenure
import OutOfOrder.Proofs.Diary
import OutOfOrder.Proofs.Lifecycle
import OutOfOrder.Proofs.Timing
import OutOfOrder.Proofs.Labels
import OutOfOrder.Proofs.Landing
import OutOfOrder.Proofs.FlatMemory
import OutOfOrder.Proofs.WellFormed
import OutOfOrder.Proofs.DataIndependence
import OutOfOrder.Proofs.Residency
import OutOfOrder.Proofs.Penalty
import OutOfOrder.Proofs.BusGrants
import OutOfOrder.Proofs.Decoding
import OutOfOrder.Proofs.WriteAllocation
import OutOfOrder.Proofs.StaleEvents
import OutOfOrder.Proofs.Assembling
import OutOfOrder.Proofs.Layout
import OutOfOrder.Proofs.AccessCounts
import OutOfOrder.Proofs.WordRange
import OutOfOrder.Proofs.Faults
import OutOfOrder.Proofs.RegisterSection
