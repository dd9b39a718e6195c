import AddressBook.Main
import AddressBook.Proofs.Document.Validation
import AddressBook.Proofs.Text.Utf8
import AddressBook.Proofs.Text.Split
import AddressBook.Proofs.Text.Lowercase
import AddressBook.Proofs.Json.Shape
import AddressBook.Proofs.Json.Reader
import AddressBook.Proofs.Json.Digits
import AddressBook.Proofs.Number.Rounding
import AddressBook.Http.MediaType
import AddressBook.Http.Message
import AddressBook.Http.Multipart
import AddressBook.Http.Percent
import AddressBook.Http.Target
import AddressBook.Service.Contacts
import AddressBook.Service.Files
import AddressBook.Service.Router
import AddressBook.Proofs.Number.Shortest
import AddressBook.Proofs.Json.Scaling
import AddressBook.Proofs.Json.Double
import AddressBook.Proofs.Json.RoundTrip
import AddressBook.Proofs.Service.Run
import AddressBook.Proofs.Service.Steps
import AddressBook.Proofs.Store.Records
import AddressBook.Proofs.Service.Input
import AddressBook.Proofs.Service.Ledger
import AddressBook.Proofs.Service.Listing
import AddressBook.Proofs.Document.Stored
import AddressBook.Proofs.Document.Nulls
import AddressBook.Proofs.Files.Tree
import AddressBook.Proofs.Store.Documents
import AddressBook.Proofs.Service.Schema
import AddressBook.Proofs.Files.Path
import AddressBook.Proofs.Files.Extension
import AddressBook.Proofs.Files.Beside
import AddressBook.Proofs.Store.Saving
import AddressBook.Proofs.Store.Uploads
import AddressBook.Proofs.Schema.Layout
import AddressBook.Proofs.Store.Operations
import AddressBook.Proofs.Service.Folders
import AddressBook.Proofs.Service.Failure
import AddressBook.Proofs.Document.Order
import AddressBook.Proofs.Document.Earliest
import AddressBook.Proofs.Document.FieldOrder
import AddressBook.Proofs.Schema.Checking
import AddressBook.Proofs.Schema.Kinds
import AddressBook.Proofs.Schema.Records
import AddressBook.Proofs.Schema.Satisfying
import AddressBook.Proofs.Command.Agreement
import AddressBook.Proofs.Service.Policy
import AddressBook.Proofs.Service.Fit
import AddressBook.Proofs.Service.Refusals
import AddressBook.Proofs.Store.ContactMap
import AddressBook.Proofs.Service.Interleaving
import AddressBook.Proofs.Service.Serving
import AddressBook.Proofs.Service.Uploads
import AddressBook.Proofs.Assoc.Order
import AddressBook.Proofs.Service.SentOrder
import AddressBook.Proofs.Service.Updates
import AddressBook.Proofs.Service.RepeatedUpdates
import AddressBook.Proofs.Store.StoredNames
import AddressBook.Proofs.Schema.DisplayOrder
import AddressBook.Proofs.Schema.ReferredFiles
import AddressBook.Proofs.Schema.Reordering
import AddressBook.Proofs.Schema.WrittenField
import AddressBook.Proofs.Schema.WrittenSchema
import AddressBook.Proofs.Schema.Nulls
import AddressBook.Proofs.Files.Folder
import AddressBook.Proofs.Store.UploadFolder
import AddressBook.Proofs.Store.UploadRuns
import AddressBook.Proofs.Http.Form
import AddressBook.Proofs.Service.Forms
import AddressBook.Proofs.Schema.Influence
import AddressBook.Proofs.Schema.Policies
import AddressBook.Proofs.Store.SentContacts
import AddressBook.Proofs.Store.Drafts
import AddressBook.Proofs.Document.Redundancy
import AddressBook.Proofs.Schema.ItemKinds
import AddressBook.Proofs.Command.Endings
