import DocFilter.Log.Files
import DocFilter.Paging.Script
import DocFilter.Session
import DocFilter.Paging.Shared
import DocFilter.Settings
import DocFilter.Proofs.Outcome
import DocFilter.Proofs.Store.History
import DocFilter.Proofs.Sql.Order
import DocFilter.Proofs.Sql.Truth
import DocFilter.Proofs.Store.Planning
import DocFilter.Proofs.Store.Selecting
import DocFilter.Proofs.Number.Quotient
import DocFilter.Proofs.Number.Nearest
import DocFilter.Proofs.Number.Order
import DocFilter.Proofs.Json.Numerals
import DocFilter.Proofs.Paging.Fetching
import DocFilter.Proofs.Paging.Growing
import DocFilter.Proofs.Paging.Pages
import DocFilter.Proofs.Filter.Compiling
import DocFilter.Proofs.Filter.Refinement
import DocFilter.Proofs.Value.Reserved
import DocFilter.Proofs.Filter.Safety
import DocFilter.Proofs.Sql.Marks
import DocFilter.Proofs.Sql.Complement
import DocFilter.Proofs.Store.Complements
import DocFilter.Proofs.Paging.Identifying
import DocFilter.Proofs.Paging.Publishing
import DocFilter.Proofs.Paging.Protocol
import DocFilter.Proofs.Store.Memberships
import DocFilter.Proofs.Paging.Wrapping
import DocFilter.Proofs.Number.Shortest
import DocFilter.Proofs.Store.Restoring
import DocFilter.Proofs.Store.Alike
import DocFilter.Proofs.Store.Isolation
import DocFilter.Proofs.Store.Forgetting
import DocFilter.Log.Session
import DocFilter.Proofs.Log.Records
import DocFilter.Proofs.Filter.Overwriting
import DocFilter.Proofs.Json.Shape
import DocFilter.Proofs.Sql.Fields
import DocFilter.Proofs.Store.Scanning
import DocFilter.Proofs.Number.Rounding
import DocFilter.Proofs.Number.StoreText
import DocFilter.Proofs.Store.Labels
import DocFilter.Proofs.Store.Texts
import DocFilter.Proofs.Store.Sameness
import DocFilter.Proofs.Store.Ordering
import DocFilter.Proofs.Store.Sorting
import DocFilter.Proofs.Store.Comparisons
import DocFilter.Proofs.Filter.Searching
import DocFilter.Proofs.Store.Encoding
import DocFilter.Proofs.Store.Lengths
import DocFilter.Proofs.Filter.Refusals
import DocFilter.Proofs.Paging.Counting
import DocFilter.Proofs.Value.Walking
import DocFilter.Proofs.Paging.Reshaping
import DocFilter.Proofs.Paging.Omitting
import DocFilter.Store.Statement
import DocFilter.Proofs.Store.Splicing
