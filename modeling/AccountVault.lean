import AccountVault.Account.Document
import AccountVault.Account.Format
import AccountVault.Account.Input
import AccountVault.Account.Service
import AccountVault.ApiDocument.Basic
import AccountVault.ApiDocument.Outline
import AccountVault.ApiDocument.Page
import AccountVault.ApiDocument.Yaml
import AccountVault.Cipher.Block
import AccountVault.Cipher.DataKey
import AccountVault.Cipher.Sealed
import AccountVault.Cloud.Clients
import AccountVault.Cloud.Link
import AccountVault.Cloud.Objects
import AccountVault.Cloud.Random
import AccountVault.Decimal.Binary64
import AccountVault.Decimal.Shortest
import AccountVault.Environment
import AccountVault.Failure
import AccountVault.Files
import AccountVault.Http.Body
import AccountVault.Http.MediaType
import AccountVault.Http.Message
import AccountVault.Http.Negotiation
import AccountVault.Http.Route
import AccountVault.Http.Site
import AccountVault.Http.Target
import AccountVault.Json.Fault
import AccountVault.Json.Field
import AccountVault.Json.Number
import AccountVault.Json.Scan
import AccountVault.Json.Skip
import AccountVault.Json.Value
import AccountVault.Json.Writer
import AccountVault.Log
import AccountVault.Log.Filter
import AccountVault.Main
import AccountVault.Operation
import AccountVault.Program
import AccountVault.Proofs.Account.Conduct
import AccountVault.Proofs.Account.Entries
import AccountVault.Proofs.Account.RoundTrip
import AccountVault.Proofs.Cipher.Blocks
import AccountVault.Proofs.Cipher.Rounds
import AccountVault.Proofs.Cipher.Unsealing
import AccountVault.Proofs.Concurrency.NoLostUpdate
import AccountVault.Proofs.Concurrency.Serial
import AccountVault.Proofs.Concurrency.World
import AccountVault.Proofs.Http.Requests
import AccountVault.Proofs.Json.Numbers
import AccountVault.Proofs.Json.Texts
import AccountVault.Proofs.Program.Contract
import AccountVault.Proofs.Program.Matching
import AccountVault.Proofs.Refinement.MapMachine
import AccountVault.Proofs.Refinement.Simulation
import AccountVault.Proofs.Security.AtRest
import AccountVault.Proofs.Security.Invisible
import AccountVault.Proofs.Session.Runs
import AccountVault.Proofs.Store.Versions
import AccountVault.Session
import AccountVault.Settings
import AccountVault.Startup
import AccountVault.Store.DocumentStore
import AccountVault.Store.Memory
import AccountVault.Store.Object
import AccountVault.Store.Scripted
import AccountVault.Telemetry
import AccountVault.Text.Base64
import AccountVault.Text.Blank
import AccountVault.Text.Escaped
import AccountVault.Text.Hex
import AccountVault.Text.Letter
import AccountVault.Text.Markup
import AccountVault.Text.Percent
import AccountVault.Text.Quoted
import AccountVault.Text.Utf8
import AccountVault.Proofs.Session.Failures
import AccountVault.Proofs.Text.ByteOrder
import AccountVault.Proofs.Account.WireFormats
import AccountVault.Proofs.Decimal.Rounding
import AccountVault.Proofs.Decimal.Shortest
import AccountVault.Proofs.Decimal.Rereading
import AccountVault.Proofs.Json.Reals
import AccountVault.Proofs.Json.Readable
import AccountVault.Proofs.Session.Bystanders
import AccountVault.Proofs.Http.Dispatch
import AccountVault.Proofs.Http.BasePaths
import AccountVault.Proofs.Session.Records
import AccountVault.Proofs.Session.WriteRequests
import AccountVault.Proofs.Http.Agreement
import AccountVault.Proofs.Security.SecretFlow
import AccountVault.Proofs.Session.AllOrNothing
import AccountVault.Proofs.Account.PasswordSpot
import AccountVault.Proofs.Security.Refusals
import AccountVault.Proofs.Account.Course
import AccountVault.Proofs.Session.Checks
import AccountVault.Proofs.Cipher.KeyTexts
import AccountVault.Proofs.Http.Addresses
import AccountVault.Proofs.Session.Steps
import AccountVault.Proofs.Cipher.Shape
import AccountVault.Proofs.Account.Sealing
import AccountVault.Proofs.Session.Issued
import AccountVault.Proofs.Security.Vectors
import AccountVault.Proofs.Store.Histories
import AccountVault.Proofs.Settings.Texts
import AccountVault.Proofs.Settings.Checks
import AccountVault.Proofs.Account.LastMembers
import AccountVault.Proofs.ApiDocument.Literal
import AccountVault.Proofs.ApiDocument.Pointing
import AccountVault.Proofs.ApiDocument.Escaping
