/-
# Kinds of faults

Every fault has a kind, and the kinds form a tree: a handler that takes one kind takes
every kind below it.  The tree has four large branches: the decisions of the policy,
values that make no sense, the operating system, and requests to a server.
-/
import ImageTrust.Text.Basic

namespace ImageTrust

/-- The kinds of faults. -/
inductive FaultKind where
  | any
  | imagePolicy
  | policyConfiguration
  | policyRequirement
  | policyContextState
  | signatureFetch
  | signatureVerification
  | value
  | invalidReference
  | jsonDecode
  | unicodeDecode
  | unicodeEncode
  | validation
  | base64
  | serialization
  | yaml
  | arithmetic
  | overflow
  | lookup
  | key
  | index
  | attribute
  | typeMismatch
  | runtime
  | notImplemented
  | recursion
  | os
  | fileNotFound
  | permission
  | isADirectory
  | notADirectory
  | timeout
  | connection
  | unsupportedAlgorithm
  | http
  | httpStatus
  | request
  | transport
  | decoding
  | tooManyRedirects
  | timeoutException
  | connectTimeout
  | readTimeout
  | writeTimeout
  | poolTimeout
  | network
  | connectError
  | readError
  | writeError
  | closeError
  | protocol
  | localProtocol
  | remoteProtocol
  | proxy
  | unsupportedProtocol
  | invalidUrl
deriving DecidableEq, Repr

namespace FaultKind

/-- The name under which a kind is reported. -/
def name : FaultKind → Text
  | .any => "Exception"
  | .imagePolicy => "ImagePolicyError"
  | .policyConfiguration => "PolicyConfigurationError"
  | .policyRequirement => "PolicyRequirementError"
  | .policyContextState => "PolicyContextStateError"
  | .signatureFetch => "SignatureFetchError"
  | .signatureVerification => "SignatureVerificationError"
  | .value => "ValueError"
  | .invalidReference => "InvalidReferenceError"
  | .jsonDecode => "JSONDecodeError"
  | .unicodeDecode => "UnicodeDecodeError"
  | .unicodeEncode => "UnicodeEncodeError"
  | .validation => "ValidationError"
  | .base64 => "binascii.Error"
  | .serialization => "PydanticSerializationError"
  | .yaml => "YAMLError"
  | .arithmetic => "ArithmeticError"
  | .overflow => "OverflowError"
  | .lookup => "LookupError"
  | .key => "KeyError"
  | .index => "IndexError"
  | .attribute => "AttributeError"
  | .typeMismatch => "TypeError"
  | .runtime => "RuntimeError"
  | .notImplemented => "NotImplementedError"
  | .recursion => "RecursionError"
  | .os => "OSError"
  | .fileNotFound => "FileNotFoundError"
  | .permission => "PermissionError"
  | .isADirectory => "IsADirectoryError"
  | .notADirectory => "NotADirectoryError"
  | .timeout => "TimeoutError"
  | .connection => "ConnectionError"
  | .unsupportedAlgorithm => "UnsupportedAlgorithm"
  | .http => "HTTPError"
  | .httpStatus => "HTTPStatusError"
  | .request => "RequestError"
  | .transport => "TransportError"
  | .decoding => "DecodingError"
  | .tooManyRedirects => "TooManyRedirects"
  | .timeoutException => "TimeoutException"
  | .connectTimeout => "ConnectTimeout"
  | .readTimeout => "ReadTimeout"
  | .writeTimeout => "WriteTimeout"
  | .poolTimeout => "PoolTimeout"
  | .network => "NetworkError"
  | .connectError => "ConnectError"
  | .readError => "ReadError"
  | .writeError => "WriteError"
  | .closeError => "CloseError"
  | .protocol => "ProtocolError"
  | .localProtocol => "LocalProtocolError"
  | .remoteProtocol => "RemoteProtocolError"
  | .proxy => "ProxyError"
  | .unsupportedProtocol => "UnsupportedProtocol"
  | .invalidUrl => "InvalidURL"

/-- The kind right above this one; the root is above itself. -/
def above : FaultKind → FaultKind
  | .policyConfiguration | .policyRequirement | .policyContextState | .signatureFetch
  | .signatureVerification => .imagePolicy
  | .invalidReference | .jsonDecode | .unicodeDecode | .unicodeEncode | .validation | .base64
  | .serialization => .value
  | .overflow => .arithmetic
  | .key | .index => .lookup
  | .notImplemented | .recursion => .runtime
  | .fileNotFound | .permission | .isADirectory | .notADirectory | .timeout | .connection => .os
  | .httpStatus | .request => .http
  | .transport | .decoding | .tooManyRedirects => .request
  | .timeoutException | .network | .protocol | .proxy | .unsupportedProtocol => .transport
  | .connectTimeout | .readTimeout | .writeTimeout | .poolTimeout => .timeoutException
  | .connectError | .readError | .writeError | .closeError => .network
  | .localProtocol | .remoteProtocol => .protocol
  | _ => .any

/-- Every kind. -/
def all : List FaultKind :=
  [.any, .imagePolicy, .policyConfiguration, .policyRequirement, .policyContextState,
   .signatureFetch, .signatureVerification, .value, .invalidReference, .jsonDecode,
   .unicodeDecode, .unicodeEncode, .validation, .base64, .serialization, .yaml, .arithmetic,
   .overflow, .lookup, .key, .index, .attribute, .typeMismatch, .runtime, .notImplemented, .recursion,
   .os, .fileNotFound, .permission, .isADirectory, .notADirectory, .timeout, .connection,
   .unsupportedAlgorithm, .http, .httpStatus, .request, .transport, .decoding, .tooManyRedirects,
   .timeoutException, .connectTimeout, .readTimeout, .writeTimeout, .poolTimeout, .network,
   .connectError, .readError, .writeError, .closeError, .protocol, .localProtocol,
   .remoteProtocol, .proxy, .unsupportedProtocol, .invalidUrl]

/-- The kind with this name. -/
def ofName? (t : Text) : Option FaultKind := all.find? fun k => k.name = t

/-- This kind and the kinds above it; no chain in the tree is longer than six. -/
def chain (k : FaultKind) : List FaultKind := go 6 k
where
  /-- The first kinds of the chain. -/
  go : Nat → FaultKind → List FaultKind
    | 0, k => [k]
    | n + 1, k => k :: go n k.above

/-- Whether a handler for `group` takes this kind. -/
def isA (k group : FaultKind) : Bool := k.chain.contains group

end FaultKind

end ImageTrust
