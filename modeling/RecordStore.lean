import RecordStore.Number.Layout
import RecordStore.Number.Reading
import RecordStore.Text.Folded
import RecordStore.Json.Form
import RecordStore.Json.Printer
import RecordStore.Json.Reader
import RecordStore.Calendar.Instant
import RecordStore.Value.Encode
import RecordStore.Query.Basic
import RecordStore.Store.Call
import RecordStore.Exchange.Calls
import RecordStore.Config.DataFile
import RecordStore.Config.File
import RecordStore.Proofs.Pages
import RecordStore.Proofs.Places
import RecordStore.Proofs.Filters
import RecordStore.Proofs.Slots
import RecordStore.Proofs.Retyping
import RecordStore.Proofs.Dates
import RecordStore.Proofs.Instants
import RecordStore.Proofs.WholeDoubles
import RecordStore.Proofs.Parts
import RecordStore.Proofs.WrittenBack
import RecordStore.Proofs.Shown
import RecordStore.Proofs.IdSets
import RecordStore.Proofs.Pointers
import RecordStore.Proofs.Removals
import RecordStore.Proofs.Found
import RecordStore.Proofs.Required
import RecordStore.Proofs.Hidden
import RecordStore.Proofs.Retrieved
import RecordStore.Proofs.FilterForms
import RecordStore.Proofs.Names
import RecordStore.Proofs.Shares
import RecordStore.Proofs.Confinement
import RecordStore.Proofs.Isolation
import RecordStore.Proofs.Spellings
import RecordStore.Proofs.JsonTexts
import RecordStore.Proofs.ReadBack
import RecordStore.Proofs.MixedRanks
import RecordStore.Proofs.Updates
import RecordStore.Proofs.Conflicts
import RecordStore.Proofs.NaturalKeys
import RecordStore.Proofs.Assertions
import RecordStore.Proofs.Reassertions
import RecordStore.Proofs.Writes
import RecordStore.Proofs.DayStarts
import RecordStore.Proofs.Overflows
import RecordStore.Proofs.Folding
import RecordStore.Proofs.Containment
import RecordStore.Proofs.Blanks
import RecordStore.Proofs.Domains
import RecordStore.Proofs.Members
import RecordStore.Proofs.SetKeys
import RecordStore.Proofs.OperatorLaws
import RecordStore.Proofs.Detachment
import RecordStore.Proofs.KeyedWrites
import RecordStore.Proofs.Uniqueness
import RecordStore.Proofs.TestKinds
import RecordStore.Proofs.ManualOrder
import RecordStore.Proofs.Availability
import RecordStore.Proofs.Configurations
import RecordStore.Proofs.IdTexts
import RecordStore.Proofs.MatcherForms
import RecordStore.Proofs.StoredIds
