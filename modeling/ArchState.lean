import ArchState.Access
import ArchState.Fault
import ArchState.Json.Error
import ArchState.Json.Number
import ArchState.Json.Numeric
import ArchState.Json.Reader
import ArchState.Json.Record
import ArchState.Json.Value
import ArchState.Layout.Basic
import ArchState.Layout.Builtin
import ArchState.Layout.Catalog
import ArchState.Layout.Draft
import ArchState.Layout.Error
import ArchState.Layout.Literal
import ArchState.Layout.Range
import ArchState.Layout.Segments
import ArchState.Layout.Slots
import ArchState.Machine.Basic
import ArchState.Machine.Build
import ArchState.Machine.Debug
import ArchState.Memory.Access
import ArchState.Memory.Basic
import ArchState.Memory.BlockTable
import ArchState.Memory.Debug
import ArchState.Memory.Heap
import ArchState.Memory.Image
import ArchState.Memory.Scan
import ArchState.Memory.Store
import ArchState.Memory.Text
import ArchState.Memory.View
import ArchState.Memory.Watch
import ArchState.Proofs.Json.Checks
import ArchState.Proofs.Layout.Catalog
import ArchState.Proofs.Layout.CatalogRun
import ArchState.Proofs.Layout.Literal
import ArchState.Proofs.Layout.Segments
import ArchState.Proofs.Layout.Validation
import ArchState.Proofs.Layout.Written
import ArchState.Proofs.Machine.Backstep
import ArchState.Proofs.Machine.FailedStep
import ArchState.Proofs.Machine.Fresh
import ArchState.Proofs.Machine.Mutation
import ArchState.Proofs.Machine.Protection
import ArchState.Proofs.Machine.Recorded
import ArchState.Proofs.Machine.Renewal
import ArchState.Proofs.Machine.Request
import ArchState.Proofs.Machine.Selection
import ArchState.Proofs.Machine.Sending
import ArchState.Proofs.Machine.Setup
import ArchState.Proofs.Machine.Sinks
import ArchState.Proofs.Machine.StaleLog
import ArchState.Proofs.Machine.UndoneStore
import ArchState.Proofs.Machine.ZeroRegister
import ArchState.Proofs.Memory.Copy
import ArchState.Proofs.Memory.Decoding
import ArchState.Proofs.Memory.DoubleWord
import ArchState.Proofs.Memory.Effects
import ArchState.Proofs.Memory.Faults
import ArchState.Proofs.Memory.FlatBytes
import ArchState.Proofs.Memory.Heap
import ArchState.Proofs.Memory.HeapRoom
import ArchState.Proofs.Memory.Marks
import ArchState.Proofs.Memory.Notices
import ArchState.Proofs.Memory.NullScan
import ArchState.Proofs.Memory.Overlay
import ArchState.Proofs.Memory.PlaceWatch
import ArchState.Proofs.Memory.Pointers
import ArchState.Proofs.Memory.Protection
import ArchState.Proofs.Memory.Request
import ArchState.Proofs.Memory.SlotArray
import ArchState.Proofs.Memory.Spec
import ArchState.Proofs.Memory.TableFamily
import ArchState.Proofs.Memory.Undo
import ArchState.Proofs.Register.ControlRun
import ArchState.Proofs.Register.Fields
import ArchState.Proofs.Register.FileNotices
import ArchState.Proofs.Register.Names
import ArchState.Proofs.Register.NestedViews
import ArchState.Proofs.Register.Notices
import ArchState.Proofs.Register.Protection
import ArchState.Proofs.Register.Request
import ArchState.Proofs.Register.Reset
import ArchState.Proofs.Register.SetAndClear
import ArchState.Proofs.Register.Undo
import ArchState.Proofs.Register.Views
import ArchState.Proofs.Register.ZeroRegister
import ArchState.Proofs.Reservation.CheckAndClear
import ArchState.Proofs.Reservation.Display
import ArchState.Proofs.Reservation.Exclusivity
import ArchState.Proofs.Reservation.Recency
import ArchState.Proofs.Reservation.Run
import ArchState.Proofs.Roster
import ArchState.Proofs.Text.Address
import ArchState.Proofs.Text.Digits
import ArchState.Proofs.Text.Numeral
import ArchState.Proofs.UndoLog
import ArchState.Register.Bank
import ArchState.Register.Block
import ArchState.Register.Control
import ArchState.Register.Debug
import ArchState.Register.Float
import ArchState.Register.Integer
import ArchState.Register.NanBox
import ArchState.Register.Spec
import ArchState.Reservation.Table
import ArchState.Reservation.Tables
import ArchState.Settings.Basic
import ArchState.Settings.Layouts
import ArchState.Signal
import ArchState.Statement
import ArchState.Symbols
import ArchState.Text.Blank
import ArchState.Text.Hex
import ArchState.Text.Numeral
import ArchState.Text.Quoted
import ArchState.Text.Shortest
import ArchState.Text.Shown
import ArchState.Undo
import ArchState.Word
import ArchState.Word.Mask
