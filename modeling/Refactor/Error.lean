import Refactor.Number.Decimal
import Refactor.Point

/-!
# Errors

What can go wrong, as causes. Every cause belongs to a kind; the kind gives the first words of
the message and the cause the rest. Texts that come from elsewhere (the file system, the
repository) are carried by `reported`.
-/

namespace Refactor

/-- What an error is about. -/
inductive ErrorKind
  | repository
  | parse
  | io
  | commitHash
  | fileType
  | grammar
  | config
  | location
  | model
  deriving DecidableEq, Repr

/-- How a message of this kind begins. -/
def ErrorKind.headline : ErrorKind → String
  | repository => "Git repository error"
  | parse => "Source parsing error"
  | io => "File I/O error"
  | commitHash => "Invalid commit hash"
  | fileType => "Unsupported file type"
  | grammar => "Tree-sitter parsing failed"
  | config => "Configuration error"
  | location => "Invalid location"
  | model => "Invalid model element"

/-- A cause of failure. -/
inductive Error
  /-- A location needs a file. -/
  | emptyPath
  /-- A location must not end before it starts. -/
  | reversedSpan (file : String) (start stop : Point)
  /-- Only a location within one row has a width. -/
  | multiLineWidth (location : String)
  /-- Locations of different files cannot be merged. -/
  | differentFiles (first second : String)
  | unknownParameterKind (name : String)
  /-- A node has to lie within its source. -/
  | nodeRange (start stop size : Nat)
  | unknownParent (parent : Nat)
  /-- A syntax tree without any node. -/
  | noRoot
  | unsupportedFile (path : String)
  | thresholdOutOfRange (threshold : Binary64)
  | unknownFormat (name : String)
  | emptyRevision
  | emptyHash
  | hashLength (length : Nat)
  | hashFormat (hash : String)
  | unresolvedHash (hash : String)
  | missingDirectory (path : String)
  /-- Told by a collaborator in its own words. -/
  | reported (kind : ErrorKind) (text : String)
  deriving DecidableEq

namespace Error

/-- What the error is about. -/
def kind : Error → ErrorKind
  | emptyPath | reversedSpan .. | multiLineWidth _ | differentFiles .. => .location
  | unknownParameterKind _ => .model
  | nodeRange .. | unknownParent _ | noRoot => .parse
  | unsupportedFile _ => .fileType
  | thresholdOutOfRange _ | unknownFormat _ | emptyRevision => .config
  | emptyHash | hashLength _ | hashFormat _ | unresolvedHash _ => .commitHash
  | missingDirectory _ => .io
  | reported kind _ => kind

/-- The cause in words. -/
def detail : Error → String
  | emptyPath => "file path must not be empty"
  | reversedSpan file start stop =>
    file ++ ": end " ++ stop.display ++ " precedes start " ++ start.display
  | multiLineWidth location => "cannot take the column length of multi-line location " ++ location
  | differentFiles first second => "cannot merge locations from " ++ first ++ " and " ++ second
  | unknownParameterKind name => "unknown parameter kind '" ++ name ++ "'"
  | nodeRange start stop size =>
    s!"Node range {start}..{stop} is outside of the source ({size} bytes)"
  | unknownParent parent => s!"Unknown parent node {parent}"
  | noRoot => "A syntax tree needs at least a root node"
  | unsupportedFile path => path
  | thresholdOutOfRange threshold =>
    "body similarity threshold must be within [0, 1], got " ++ threshold.shortest
  | unknownFormat name => "Unknown output format: " ++ name
  | emptyRevision => "Revision cannot be empty"
  | emptyHash => "Empty commit hash"
  | hashLength length => s!"Invalid commit hash length: {length}"
  | hashFormat hash => "Invalid commit hash format: " ++ hash
  | unresolvedHash hash => "Failed to resolve commit hash " ++ hash
  | missingDirectory path => "Directory does not exist: " ++ path
  | reported _ text => text

/-- The message shown to users. -/
def message (e : Error) : String :=
  e.kind.headline ++ ": " ++ e.detail

/-- Whether the error means that a value of the model would break its own rules. -/
def isInvariantViolation (e : Error) : Bool :=
  e.kind == .location || e.kind == .model

end Error

end Refactor
