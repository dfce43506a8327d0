/-
# The error in a reply

`S3TranslateError` (`ECSUtil/S3Error.cpp`) and `XmlS3ErrorCB`
(`ECSUtil/ECSConnection.cpp`), which takes the code of an `Error` document into an `S3_ERROR`.  Its
texts for a reader, `sDetails` and the like, are left out; `sS3Code` is what
`S3MultiPartComplete` looks at.

The table is searched for the code in any letter case, and a code that is not in it is the unknown
error; so a reply that has a code at all sets an error that is none of success.
-/

import ECSUtil.Xml.Scan

namespace ECSUtil
namespace Xml

/-- The error IDs of `S3ErrorTransTable`, in the order of `E_S3_ERROR_TYPE`, where success and the
unknown error come before them. -/
def s3ErrorIDs : List String :=
  ["AccessDenied", "AccountProblem", "AmbiguousGrantByEmailAddress", "BadDigest",
    "BucketAlreadyExists", "BucketAlreadyOwnedByYou", "BucketNotEmpty", "CredentialsNotSupported",
    "CrossLocationLoggingProhibited", "EntityTooSmall", "EntityTooLarge", "ExpiredToken",
    "IllegalVersioningConfigurationException", "IncompleteBody",
    "IncorrectNumberOfFilesInPostRequest", "InlineDataTooLarge", "InternalError",
    "InvalidAccessKeyId", "InvalidAddressingHeader", "InvalidArgument", "InvalidBucketName",
    "InvalidBucketState", "InvalidDigest", "InvalidEncryptionAlgorithmError",
    "InvalidLocationConstraint", "InvalidObjectState", "InvalidPart", "InvalidPartOrder",
    "InvalidPayer", "InvalidPolicyDocument", "InvalidRange", "InvalidRequest", "InvalidSecurity",
    "InvalidSOAPRequest", "InvalidStorageClass", "InvalidTargetBucketForLogging", "InvalidToken",
    "InvalidURI", "KeyTooLong", "MalformedACLError", "MalformedPOSTRequest", "MalformedXML",
    "MaxMessageLengthExceeded", "MaxPostPreDataLengthExceededError", "MetadataTooLarge",
    "MethodNotAllowed", "MissingAttachment", "MissingContentLength", "MissingRequestBodyError",
    "MissingSecurityElement", "MissingSecurityHeader", "NoLoggingStatusForKey", "NoSuchBucket",
    "NoSuchKey", "NoSuchLifecycleConfiguration", "NoSuchUpload", "NoSuchVersion", "NotImplemented",
    "NotSignedUp", "NotSuchBucketPolicy", "OperationAborted", "PermanentRedirect",
    "PreconditionFailed", "Redirect", "RestoreAlreadyInProgress", "RequestIsNotMultiPartContent",
    "RequestTimeout", "RequestTimeTooSkewed", "RequestTorrentOfBucketError",
    "SignatureDoesNotMatch", "ServiceUnavailable", "SlowDown", "TemporaryRedirect",
    "TokenRefreshRequired", "TooManyBuckets", "UnexpectedContent",
    "UnresolvableGrantByEmailAddress", "UserKeyMustBeSpecified", "ObjectUnderRetention",
    "Metadata search not enabled"]

/-- `S3TranslateError`. -/
def s3TranslateError (pszErrorID : CString) : S3ErrorType :=
  match s3ErrorIDs.find? fun id => compareNoCase pszErrorID id.toList with
  | none => .unknown
  | some id =>
      if id = "MalformedXML" then .malformedXML
      else if id = "NoSuchKey" then .noSuchKey
      else .other (s3ErrorIDs.idxOf id + 2)

/-- An error as a reply tells it, with its code as a text. -/
structure ErrorBody where
  error : S3Error
  sS3Code : CString := []
  deriving DecidableEq, Repr

/-- `XmlS3ErrorCB`. -/
def xmlS3ErrorCB : Callback ErrorBody := fun sXmlPath e c =>
  match e with
  | .text value =>
      if value ≠ [] ∧ compareNoCase sXmlPath "//Error/Code".toList then
        (0, { error := { c.error with s3Error := s3TranslateError value }, sS3Code := value })
      else (0, c)
  | _ => (0, c)

end Xml
end ECSUtil
