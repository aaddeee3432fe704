import AttributeStore.Client
import AttributeStore.Entry.Json
import AttributeStore.Json.Parser
import AttributeStore.Program.Json
import AttributeStore.Proofs.Encoding
import AttributeStore.Proofs.Schema.Built
import AttributeStore.Proofs.Store.Reachable
import AttributeStore.Proofs.Table.Agreement
import AttributeStore.Proofs.Table.Paging
import AttributeStore.Proofs.Table.Session
import AttributeStore.Proofs.Table.Sweep
import AttributeStore.Record.Item
import AttributeStore.Record.Reader
import AttributeStore.Registry
import AttributeStore.Schema.Json
import AttributeStore.Scripted
import AttributeStore.Selection.Json
import AttributeStore.Proofs.Registry.Service
import AttributeStore.Proofs.Schema.Told
import AttributeStore.Proofs.Registry.Coherent
import AttributeStore.Proofs.Registry.Serving
import AttributeStore.Proofs.Registry.Services
import AttributeStore.Proofs.Table.Capacity
import AttributeStore.Proofs.Table.Shared
import AttributeStore.Proofs.Completion
import AttributeStore.Proofs.Table.Accounts
import AttributeStore.Proofs.Table.Underway
import AttributeStore.Proofs.Table.Traffic
import AttributeStore.Proofs.Reencoding
import AttributeStore.Proofs.Selection.History
import AttributeStore.Proofs.Selection.Acceptance
import AttributeStore.Proofs.Placeholders
import AttributeStore.Proofs.Store.Stable
import AttributeStore.Proofs.Table.Indexed
import AttributeStore.Proofs.Table.Listing
import AttributeStore.Proofs.Store.Grammar
import AttributeStore.Proofs.Record.Numbers
import AttributeStore.Proofs.Table.Staging
import AttributeStore.Proofs.Table.Duplicates
import AttributeStore.Proofs.Schema.KeyValues
import AttributeStore.Proofs.Store.ListedLookup
import AttributeStore.Proofs.Table.Resuming
import AttributeStore.Proofs.Table.Spelling
import AttributeStore.Proofs.Schema.Consistent
import AttributeStore.Proofs.Schema.Registered
import AttributeStore.Proofs.Store.NumberOrder
import AttributeStore.Proofs.Number
import AttributeStore.Proofs.Store.WeakOrder
