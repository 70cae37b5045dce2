import SignedCall.Bytes.Base64
import SignedCall.Bytes.Hex
import SignedCall.Configuration.Basic
import SignedCall.Configuration.Field
import SignedCall.Configuration.Profile
import SignedCall.Configuration.Sources
import SignedCall.Credentials.Chain
import SignedCall.Credentials.Container
import SignedCall.Credentials.DefaultChain
import SignedCall.Credentials.Document
import SignedCall.Credentials.Environment
import SignedCall.Credentials.Instance
import SignedCall.Credentials.MetadataClient
import SignedCall.Credentials.MetadataConfig
import SignedCall.Credentials.Refreshing
import SignedCall.Credentials.Resolver
import SignedCall.Credentials.Scripted
import SignedCall.Credentials.Shared
import SignedCall.Credentials.Static
import SignedCall.Digest.Hmac
import SignedCall.Digest.Sha1
import SignedCall.Digest.Sha256
import SignedCall.Digest.Words
import SignedCall.Failure
import SignedCall.FieldMap
import SignedCall.Files
import SignedCall.Host
import SignedCall.Http.Address
import SignedCall.Http.Percent
import SignedCall.Http.Query
import SignedCall.Http.Request
import SignedCall.Http.Response
import SignedCall.Http.Sample
import SignedCall.Http.Scripted
import SignedCall.Http.Url
import SignedCall.Identity
import SignedCall.Ini
import SignedCall.Json.Basic
import SignedCall.Json.Inspect
import SignedCall.Json.Reader
import SignedCall.Json.Writer
import SignedCall.Number.Basic
import SignedCall.Number.Binary64
import SignedCall.Number.Reading
import SignedCall.Number.Rounding
import SignedCall.Number.Shortest
import SignedCall.Rehearsal
import SignedCall.Retry.Backoff
import SignedCall.Retry.Classification
import SignedCall.Retry.Policy
import SignedCall.Retry.ServiceReply
import SignedCall.Rsa.Armor
import SignedCall.Rsa.Der
import SignedCall.Rsa.PrivateKey
import SignedCall.Rsa.Signature
import SignedCall.Sender
import SignedCall.Signing.Canonical
import SignedCall.Signing.Key
import SignedCall.Signing.Policy
import SignedCall.Signing.QuerySigner
import SignedCall.Signing.SignedUrl
import SignedCall.Task.Pool
import SignedCall.Task.Program
import SignedCall.Task.Session
import SignedCall.Task.Slot
import SignedCall.Text.Blank
import SignedCall.Text.Case
import SignedCall.Text.CaseTable
import SignedCall.Text.Digit
import SignedCall.Text.DigitTable
import SignedCall.Text.Printable
import SignedCall.Text.PrintableTable
import SignedCall.Text.Quoted
import SignedCall.Text.Split
import SignedCall.Text.Utf8
import SignedCall.Time.Calendar
import SignedCall.Time.DateTime
import SignedCall.Time.IsoDate
import SignedCall.Time.MailDate
import SignedCall.Time.Stamp
import SignedCall.Proofs.Bytes.Base64
import SignedCall.Proofs.Chain.Alike
import SignedCall.Proofs.Chain.Closing
import SignedCall.Proofs.Chain.Defaults
import SignedCall.Proofs.Chain.Memory
import SignedCall.Proofs.Chain.Notes
import SignedCall.Proofs.Chain.Reuse
import SignedCall.Proofs.Configuration.Overwriting
import SignedCall.Proofs.Configuration.Precedence
import SignedCall.Proofs.Configuration.Repetition
import SignedCall.Proofs.Configuration.Resolution
import SignedCall.Proofs.Configuration.Unset
import SignedCall.Proofs.Configuration.Updates
import SignedCall.Proofs.Configuration.Worlds
import SignedCall.Proofs.Container.Answers
import SignedCall.Proofs.Container.Attempts
import SignedCall.Proofs.Container.Hosts
import SignedCall.Proofs.Container.Notes
import SignedCall.Proofs.Container.Requests
import SignedCall.Proofs.Credentials.Answers
import SignedCall.Proofs.Credentials.Background
import SignedCall.Proofs.Credentials.Calls
import SignedCall.Proofs.Credentials.Fetches
import SignedCall.Proofs.Credentials.Frame
import SignedCall.Proofs.Credentials.Keeping
import SignedCall.Proofs.Credentials.Lasting
import SignedCall.Proofs.Credentials.Notes
import SignedCall.Proofs.Credentials.Pieces
import SignedCall.Proofs.Credentials.Promise
import SignedCall.Proofs.Host
import SignedCall.Proofs.Http.Address
import SignedCall.Proofs.Http.Appending
import SignedCall.Proofs.Http.Authority
import SignedCall.Proofs.Http.Builder
import SignedCall.Proofs.Http.Headers
import SignedCall.Proofs.Http.Percent
import SignedCall.Proofs.Http.Query
import SignedCall.Proofs.Http.RoundTrip
import SignedCall.Proofs.Http.Target
import SignedCall.Proofs.Http.Url
import SignedCall.Proofs.Json.Bare
import SignedCall.Proofs.Json.Weight
import SignedCall.Proofs.Metadata.Answers
import SignedCall.Proofs.Metadata.Attempts
import SignedCall.Proofs.Metadata.InTurn
import SignedCall.Proofs.Metadata.Notes
import SignedCall.Proofs.Metadata.Reading
import SignedCall.Proofs.Metadata.Rejections
import SignedCall.Proofs.Metadata.Tokens
import SignedCall.Proofs.Number.Reading
import SignedCall.Proofs.Number.Rounding
import SignedCall.Proofs.Rehearsal
import SignedCall.Proofs.Retry.Jitter
import SignedCall.Proofs.Retry.Verdict
import SignedCall.Proofs.Sender.Course
import SignedCall.Proofs.Sender.Delays
import SignedCall.Proofs.Sender.Notes
import SignedCall.Proofs.Sender.Offset
import SignedCall.Proofs.Sender.Replies
import SignedCall.Proofs.Signing.Again
import SignedCall.Proofs.Signing.Canonical
import SignedCall.Proofs.Signing.Expiration
import SignedCall.Proofs.Signing.Frame
import SignedCall.Proofs.Signing.Policy
import SignedCall.Proofs.Signing.SignedUrl
import SignedCall.Proofs.Signing.Verification
import SignedCall.Proofs.Task.Discipline
import SignedCall.Proofs.Task.Ended
import SignedCall.Proofs.Task.Frame
import SignedCall.Proofs.Task.Guard
import SignedCall.Proofs.Task.Journal
import SignedCall.Proofs.Task.Lines
import SignedCall.Proofs.Task.Moves
import SignedCall.Proofs.Task.Play
import SignedCall.Proofs.Task.Record
import SignedCall.Proofs.Task.Shadow
import SignedCall.Proofs.Task.Surroundings
import SignedCall.Proofs.Task.Turns
import SignedCall.Proofs.Text.Blank
import SignedCall.Proofs.Text.Case
import SignedCall.Proofs.Text.Digit
import SignedCall.Proofs.Text.Split
import SignedCall.Proofs.Text.Utf8
import SignedCall.Proofs.Time.Calendar
import SignedCall.Proofs.Time.Columns
import SignedCall.Proofs.Time.Epoch
import SignedCall.Proofs.Time.Fields
import SignedCall.Proofs.Time.IsoDate
import SignedCall.Proofs.Time.Seconds
import SignedCall.Proofs.Time.Stamp
