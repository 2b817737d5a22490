import QueryStats.Json.Reader
import QueryStats.Main
import QueryStats.Proofs.Pipe
import QueryStats.Proofs.Canonical
import QueryStats.Proofs.Dialects
import QueryStats.Proofs.Occurrences
import QueryStats.Proofs.Opacity
import QueryStats.Proofs.Joining
import QueryStats.Proofs.Operands
import QueryStats.Proofs.Conditions
import QueryStats.Proofs.SortOrders
import QueryStats.Proofs.Stripping
import QueryStats.Proofs.Ungrouped
import QueryStats.Proofs.LetterCase
import QueryStats.Proofs.Layout
import QueryStats.Proofs.Fitting
import QueryStats.Proofs.Columns
import QueryStats.Proofs.LineBreaks
import QueryStats.Proofs.FullTables
import QueryStats.Proofs.Rereading
import QueryStats.Proofs.Sessions
import QueryStats.Proofs.Outcomes
import QueryStats.Proofs.ListItems
import QueryStats.Proofs.MixedLists
import QueryStats.Proofs.Buckets
import QueryStats.Proofs.Blanking
import QueryStats.Proofs.Segments
import QueryStats.Proofs.Bytewise
import QueryStats.Proofs.Progress
import QueryStats.Proofs.Widths
import QueryStats.Proofs.EscapeSequences
import QueryStats.Proofs.PrecedingWord
