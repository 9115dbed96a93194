/-
# Faults — everything that can go wrong

One constructor for each way to fail.  A fault that answers another one carries it as its
cause.  Kind, wording and cause are functions of the fault, so a decision can be reasoned
about by its causes while a report shows the texts.
-/
import ImageTrust.Fault.Kind
import ImageTrust.Reference.Address
import ImageTrust.Disk.Basic
import ImageTrust.Envelope
import ImageTrust.Keys.Bundle
import ImageTrust.Yaml.Defect

namespace ImageTrust

/-- A failure, with what it is about. -/
inductive Fault where
  /-- What a collaborator reports in words of its own. -/
  | given (kind : FaultKind) (text : Text)
  -- values and formats
  | malformed (why : Reference.Malformed)
  | address (why : Address.Invalid)
  | ambiguous (why : Reference.Ambiguity)
  | json (why : Json.Defect)
  | yaml (why : Yaml.Defect)
  | undecodable
  | unencodable (t : Text)
  | invalid (problems : List Problem)
  | unwritable
  | notAscii
  | badBase64
  | inconsistent (text : Text)
  | notImplemented
  -- files
  | disk (why : Disk.Failure)
  -- keys and signatures
  | unreadableKey
  | unknownAlgorithm
  | unusableKeys (why : KeyBundle.Unusable)
  | undecodableEnvelope (cause : Fault)
  | envelopeNotObject
  | envelopeIncomplete
  | envelopeBase64
  | untrusted (keys : Nat)
  | invalidPayload (problems : List Problem)
  -- configuration
  | policyUnreadable (path : Path) (why : Disk.Failure)
  | policyInvalid (path : Path) (cause : Fault)
  | noIdentity
  | unidentifiable (image : Text) (cause : Fault)
  | unreferenced (image : Text)
  | keysUnreadable (path : Text) (why : Disk.Failure)
  | noStore
  -- requirements
  | signaturesRejected (image : Text)
  | imageRejected (image : Text)
  | unverified (cause : Fault)
  | noManifestDigest (image : Text) (cause : Fault)
  | otherDigest (digest : Text)
  | otherIdentity (reference : Text)
  | unsigned
  | noneAccepted
  | allRejected (reasons : List Text)
  | noBaseLayerCheck
  | noRequirements
  -- the life of a context
  | contextState (expected actual requested : Text)
  -- requests
  | fetchFailed (image : Text) (cause : Fault)
  | noReference (image : Text)
  | httpStatus (code : Int)
  | badStatus (url : Text) (code : Int)
  | unreachable (url : Text) (cause : Fault)
  | tooManySignatures (limit : Int) (manifest : Text)
  | invalidDigest (digest : Text)
  | noAttempts (attempts : Number)
  | attemptsNotWhole
  | delayTooLarge
deriving DecidableEq

namespace Fault

/-- The kind of a JSON defect. -/
def ofJsonDefect : Json.Defect → FaultKind
  | .syntaxError .. => .jsonDecode
  | .longInteger _ => .value
  | .tooDeep _ => .recursion

/-- The kind of a disk failure. -/
def ofDiskFailure : Disk.Failure → FaultKind
  | .system .noEntry _ => .fileNotFound
  | .system .noPermission _ => .permission
  | .system .notDirectory _ => .notADirectory
  | .system .isDirectory _ => .isADirectory
  | .system .nameTooLong _ => .os
  | .zeroByte => .value
  | .surrogate _ => .unicodeEncode

/-- The kind of a YAML defect. -/
def ofYamlDefect : Yaml.Defect → FaultKind
  | .malformed => .yaml
  | .noCodePoint | .longInteger _ | .notInteger .. | .notFloat _ | .noMoment _ => .value
  | .noCodePointWord | .largePlace => .overflow
  | .emptyNumber => .index
  | .notTruth _ => .key
  | .notMoment => .attribute
  | .mappingForMoment => .typeMismatch
  | .tooDeep => .recursion

/-- The kind of a fault. -/
def kind : Fault → FaultKind
  | .given kind _ => kind
  | .malformed _ | .address _ => .invalidReference
  | .ambiguous _ => .value
  | .json why => ofJsonDefect why
  | .yaml why => ofYamlDefect why
  | .undecodable => .unicodeDecode
  | .unencodable _ => .unicodeEncode
  | .invalid _ => .validation
  | .unwritable => .serialization
  | .notAscii => .value
  | .badBase64 => .base64
  | .inconsistent _ => .value
  | .notImplemented => .notImplemented
  | .disk why => ofDiskFailure why
  | .unreadableKey => .value
  | .unknownAlgorithm => .unsupportedAlgorithm
  | .unusableKeys _ | .undecodableEnvelope _ | .envelopeNotObject | .envelopeIncomplete
  | .envelopeBase64 | .untrusted _ | .invalidPayload _ => .signatureVerification
  | .policyUnreadable .. | .policyInvalid .. | .noIdentity | .unidentifiable .. | .unreferenced _
  | .keysUnreadable .. | .noStore => .policyConfiguration
  | .signaturesRejected _ | .imageRejected _ | .unverified _ | .noManifestDigest .. | .otherDigest _
  | .otherIdentity _ | .unsigned | .noneAccepted | .allRejected _ | .noBaseLayerCheck
  | .noRequirements => .policyRequirement
  | .contextState .. => .policyContextState
  | .fetchFailed .. | .noReference _ | .badStatus .. | .unreachable .. | .tooManySignatures .. =>
    .signatureFetch
  | .httpStatus _ => .httpStatus
  | .invalidDigest _ => .value
  | .noAttempts _ => .value
  | .attemptsNotWhole => .typeMismatch
  | .delayTooLarge => .overflow

/-- The place that the details of an invalid document have in a sentence. -/
def detailsElsewhere : Text := "<cause>"

/-- The wording of a fault. -/
def message : Fault → Text
  | .given .key t => t.quoted
  | .given _ t => t
  | .malformed why => why.message
  | .address why => why.message
  | .ambiguous why => why.message
  | .json why => why.message
  | .yaml why => why.message
  | .undecodable => "the bytes are not in the encoding"
  | .unencodable t => Disk.noUtf8Message t
  | .invalid _ => detailsElsewhere
  | .unwritable => "a surrogate has no written form"
  | .notAscii => "string argument should contain only ASCII characters"
  | .badBase64 => "the text is not base64"
  | .inconsistent t => t
  | .notImplemented => []
  | .disk why => why.message
  | .unreadableKey => KeyBundle.unreadableMessage
  | .unknownAlgorithm => KeyBundle.unreadableMessage
  | .unusableKeys why => why.message
  | .undecodableEnvelope _ => "Signature envelope is not valid JSON"
  | .envelopeNotObject => "Signature envelope must be a JSON object"
  | .envelopeIncomplete => "Signature envelope is missing payload or signature"
  | .envelopeBase64 => "Signature envelope contains invalid base64"
  | .untrusted keys =>
    Text.sentence ["Signature is not made by any of the ", Text.decimal keys, " trusted keys"]
  | .invalidPayload problems =>
    Text.sentence ["Invalid signature payload (", Text.decimal problems.length, " validation errors)"]
  | .policyUnreadable path why =>
    Text.sentence ["Cannot read policy ", path.shown, ": ", why.message]
  | .policyInvalid path cause =>
    Text.sentence ["Invalid policy in ", path.shown, ": ", cause.message]
  | .noIdentity => "Can not determine policy for an image without a policy configuration identity"
  | .unidentifiable image cause =>
    Text.sentence ["Can not determine policy identity of image ", image, ": ", cause.message]
  | .unreferenced image =>
    Text.sentence ["Can not determine policy for image ", image, " without a Docker reference identity"]
  | .keysUnreadable path why =>
    Text.sentence ["Cannot read trusted keys from ", path, ": ", why.message]
  | .noStore => "IMAGE_POLICY_LOOKASIDE_URL is not set"
  | .signaturesRejected image =>
    Text.sentence ["Any signatures for image ", image, " are rejected by policy."]
  | .imageRejected image => Text.sentence ["Running image ", image, " is rejected by policy."]
  | .unverified cause => Text.sentence ["Signature verification failed: ", cause.message]
  | .noManifestDigest image cause =>
    Text.sentence ["Cannot determine the manifest digest of ", image, ": ", cause.message]
  | .otherDigest digest => Text.sentence ["Signature for digest ", digest, " does not match"]
  | .otherIdentity reference =>
    Text.sentence ["Signature for identity ", reference, " is not accepted"]
  | .unsigned => "A signature was required, but no signature exists"
  | .noneAccepted => "No signature was accepted by signedBy"
  | .allRejected reasons =>
    Text.sentence ["None of the signatures were accepted, reasons: ", Text.joined "; " reasons]
  | .noBaseLayerCheck =>
    "signedBaseLayer requirements are not supported without a base layer check"
  | .noRequirements => "List of verification policy requirements must not be empty"
  | .contextState expected actual requested =>
    Text.sentence ["Invalid PolicyContext state, expected '", expected, "', found '", actual,
      "' (while moving to '", requested, "')"]
  | .fetchFailed image cause =>
    Text.sentence ["Error reading signatures of ", image, ": ", cause.message]
  | .noReference image => Text.sentence ["Image ", image, " has no Docker reference"]
  | .httpStatus code => Text.sentence ["HTTP ", Text.integer code]
  | .badStatus url code =>
    Text.sentence ["Error reading signature from ", url, ": HTTP ", Text.integer code]
  | .unreachable url cause =>
    Text.sentence ["Error reading signature from ", url, ": ", cause.message]
  | .tooManySignatures limit manifest =>
    Text.sentence ["More than ", Text.integer limit, " signatures for ", manifest]
  | .invalidDigest digest => Text.sentence ["Invalid manifest digest ", digest.quoted]
  | .noAttempts attempts =>
    Text.sentence ["max_attempts must be at least 1, got ", attempts.shown]
  | .attemptsNotWhole => "'float' object cannot be interpreted as an integer"
  | .delayTooLarge => "int too large to convert to float"

/-- The fault that this one answers. -/
def cause? : Fault → Option Fault
  | .unusableKeys .unreadable => some .unreadableKey
  | .unusableKeys .unknownAlgorithm => some .unknownAlgorithm
  | .undecodableEnvelope cause => some cause
  | .envelopeBase64 => some .badBase64
  | .invalidPayload problems => some (.invalid problems)
  | .policyUnreadable _ why => some (.disk why)
  | .policyInvalid _ cause => some cause
  | .unidentifiable _ cause => some cause
  | .keysUnreadable _ why => some (.disk why)
  | .unverified cause => some cause
  | .noManifestDigest _ cause => some cause
  | .fetchFailed _ cause => some cause
  | .badStatus _ code => some (.httpStatus code)
  | .unreachable _ cause => some cause
  | _ => none

/-- Whether a handler for this kind takes the fault. -/
def isA (f : Fault) (group : FaultKind) : Bool := f.kind.isA group

/-- The fault as a message shows it among other values. -/
def described (f : Fault) : Text :=
  let inner : Text := match f with
    | .given _ t => t.quoted
    | .notImplemented => []
    | f => f.message.quoted
  Text.sentence [f.kind.name, "(", inner, ")"]

/-- What an unusable envelope is to a verifier. Limits of the reader are passed on as they
are, everything else is about the signature. -/
def ofEnvelopeFlaw : Envelope.Flaw → Fault
  | .undecodable => .undecodableEnvelope .undecodable
  | .json (.syntaxError what line column offset) =>
    .undecodableEnvelope (.json (.syntaxError what line column offset))
  | .json why => .json why
  | .notObject => .envelopeNotObject
  | .missingMember => .envelopeIncomplete
  | .notAscii => .notAscii
  | .base64 => .envelopeBase64

end Fault

end ImageTrust
