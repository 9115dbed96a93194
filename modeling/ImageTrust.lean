import ImageTrust.Backoff
import ImageTrust.Base64
import ImageTrust.Claims
import ImageTrust.Context
import ImageTrust.Crypto.Ed25519
import ImageTrust.Crypto.Sha2
import ImageTrust.Datum.Basic
import ImageTrust.Datum.Check
import ImageTrust.Directory
import ImageTrust.Disk.Basic
import ImageTrust.Disk.Path
import ImageTrust.Envelope
import ImageTrust.Evaluation
import ImageTrust.Fault.Basic
import ImageTrust.Fault.Kind
import ImageTrust.Host
import ImageTrust.Image
import ImageTrust.Journal
import ImageTrust.Json.Basic
import ImageTrust.Json.Reader
import ImageTrust.Json.Token
import ImageTrust.Json.Writer
import ImageTrust.Keys.Block
import ImageTrust.Keys.Bundle
import ImageTrust.Keys.Cache
import ImageTrust.Keys.Curve
import ImageTrust.Keys.Der
import ImageTrust.Lookaside
import ImageTrust.MatchRule
import ImageTrust.Number.Binary64
import ImageTrust.Number.Literal
import ImageTrust.Number.Shown
import ImageTrust.Policy.Basic
import ImageTrust.Policy.Loading
import ImageTrust.Policy.Requirement
import ImageTrust.Proofs.Action
import ImageTrust.Proofs.Decision
import ImageTrust.Proofs.Digits
import ImageTrust.Proofs.Encoding
import ImageTrust.Proofs.Ground
import ImageTrust.Proofs.Independence
import ImageTrust.Proofs.JsonDocuments
import ImageTrust.Proofs.JsonTokens
import ImageTrust.Proofs.Judgement
import ImageTrust.Proofs.Lifecycle
import ImageTrust.Proofs.Listing
import ImageTrust.Proofs.Permission
import ImageTrust.Proofs.Plan
import ImageTrust.Proofs.Profile
import ImageTrust.Proofs.Rearrangement
import ImageTrust.Proofs.Replacement
import ImageTrust.Proofs.Requests
import ImageTrust.Proofs.Retry
import ImageTrust.Proofs.Scope
import ImageTrust.Proofs.Signing
import ImageTrust.Proofs.Stored
import ImageTrust.Proofs.Traffic
import ImageTrust.Proofs.Transport
import ImageTrust.Proofs.Trust
import ImageTrust.Reference.Address
import ImageTrust.Reference.Basic
import ImageTrust.Reference.Grammar
import ImageTrust.Reference.Parser
import ImageTrust.Settings
import ImageTrust.Text.Basic
import ImageTrust.Text.Blank
import ImageTrust.Text.Quoted
import ImageTrust.Text.Utf8
import ImageTrust.Text.Wide
import ImageTrust.Verdict
import ImageTrust.Verifier
import ImageTrust.Yaml.Cursor
import ImageTrust.Yaml.Defect
import ImageTrust.Yaml.Document
import ImageTrust.Yaml.Layout
import ImageTrust.Yaml.Lexer
import ImageTrust.Yaml.Literal
import ImageTrust.Yaml.Moment
import ImageTrust.Yaml.Node
import ImageTrust.Yaml.Reader
import ImageTrust.Yaml.Style.Block
import ImageTrust.Yaml.Style.Plain
import ImageTrust.Yaml.Style.Quoted
import ImageTrust.Yaml.Tag
import ImageTrust.Yaml.Token
import ImageTrust.Proofs.Cuts
import ImageTrust.Proofs.Spelling
import ImageTrust.Proofs.Containment
import ImageTrust.Proofs.History
import ImageTrust.Proofs.Pinning
import ImageTrust.Proofs.Entries
import ImageTrust.Proofs.Files
import ImageTrust.Proofs.ShortCircuit
import ImageTrust.Proofs.PolicyDocuments
import ImageTrust.Proofs.Matching
import ImageTrust.Proofs.Grammar
import ImageTrust.Proofs.Limits
import ImageTrust.Proofs.Refusal
import ImageTrust.Proofs.Conversion
import ImageTrust.Proofs.Loading
import ImageTrust.Proofs.Bundles
import ImageTrust.Proofs.Format
import ImageTrust.Proofs.Attempts
import ImageTrust.Proofs.Respelling
import ImageTrust.Proofs.CheckIn
import ImageTrust.Proofs.Locations
import ImageTrust.Proofs.Completeness
import ImageTrust.Proofs.Recoding
import ImageTrust.Proofs.Integers
