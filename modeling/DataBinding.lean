import DataBinding.Config
import DataBinding.Json.Printer
import DataBinding.Json.Reader
import DataBinding.Markup.Document
import DataBinding.Markup.Selector
import DataBinding.Model.Inspect
import DataBinding.Model.Rendering
import DataBinding.Model.Snapshot
import DataBinding.Number.Layout
import DataBinding.Path
import DataBinding.Run
import DataBinding.Template
import DataBinding.Text.Blank
import DataBinding.Text.Search
import DataBinding.View
import DataBinding.ViewModel
import DataBinding.Proofs.Compiling.FailedPass
import DataBinding.Proofs.Compiling.Order
import DataBinding.Proofs.Compiling.WatchedPaths
import DataBinding.Proofs.Config.Decoding
import DataBinding.Proofs.Markup.Balance
import DataBinding.Proofs.Markup.FurthestFailure
import DataBinding.Proofs.Markup.Lexemes
import DataBinding.Proofs.Markup.OnePass
import DataBinding.Proofs.Markup.RoundTrip
import DataBinding.Proofs.Model.Encoding
import DataBinding.Proofs.Runs.CellsForLife
import DataBinding.Proofs.Runs.FailingWrite
import DataBinding.Proofs.Runs.PathWrites
import DataBinding.Proofs.Template.Splitting
import DataBinding.Proofs.View.Lookup
import DataBinding.Proofs.ViewModel.Copies
import DataBinding.Proofs.ViewModel.Disposal
import DataBinding.Proofs.ViewModel.FiniteSnapshots
import DataBinding.Proofs.ViewModel.Mirroring
import DataBinding.Proofs.ViewModel.PlainAndReactive
import DataBinding.Proofs.ViewModel.Rerenders
import DataBinding.Proofs.Watching.Baselines
import DataBinding.Proofs.Watching.Enlisting
import DataBinding.Proofs.Watching.NoLostUpdate
import DataBinding.Proofs.Watching.NotifyCycle
import DataBinding.Proofs.Watching.Settling
import DataBinding.Proofs.Watching.TextInStep
