/-
  The library's own faults, and the classes of errors.

  `Errc::Ok` is the absence of an error, so an
  `ErrorCode` that may be empty is an `Option` here.

  Key definitions include:
    * `Errc`
    * `ErrorCode`
    * `classify`
-/

------------------------------------------------------------
-- Error Codes
------------------------------------------------------------

namespace Snmpio

/- `snmpio::Errc`, without `Ok`. -/
inductive Errc where
  -- Framing.
  | truncated
  | indefiniteLength
  | lengthTooLarge
  | highTagNumber
  | unexpectedTag
  | trailingData
  | reservedLength
  -- Primitives.
  | emptyContent
  | integerTooLarge
  | badIpAddress
  | badNull
  -- Object identifiers.
  | oidEmpty
  | oidTooLong
  | oidSubidOverflow
  | oidNonMinimal
  | oidTruncatedSubid
  | oidNotEncodable
  | oidBadSyntax
  -- Values.
  | unknownValueTag
  -- Messages and PDUs.
  | badVersion
  | unexpectedPduType
  | missingVarbind
  -- Transport and operations.
  | timeout
  | clientStopped
  | nonIncreasingOid
  | walkIncomplete
  -- Security.
  | unsupportedAuthProtocol
  | unsupportedSecurityLevel
  | unsupportedPrivProtocol
  | legacyProviderUnavailable
  | unsupportedSecurityModel
  | badMessageFlags
  | emptyPassword
  | cryptoFailure
  | authFailed
  | decryptionFailed
  -- Reports of the Authoritative Engine.
  | unknownUserName
  | unknownEngineId
  | notInTimeWindow
  | decryptionError
  | unexpectedReport
  deriving DecidableEq, Repr

/-
  `net::ErrorCode` where it is not empty: a fault of the
  library, the Agent's own error-status, or a fault of the
  system, of which `operation_aborted` is the one the
  source tells apart.
-/
inductive ErrorCode where
  | errc (e : Errc)
  | agent (status : Int32)
  | operationAborted
  | system (code : Nat)
  deriving DecidableEq

end Snmpio

------------------------------------------------------------
-- Error Classes
------------------------------------------------------------

namespace Snmpio

/- What a caller can do about an error. -/
inductive ErrorClass where
  | ok
  | retriable
  | configuration
  | fatal
  | unclassified
  deriving DecidableEq, Repr

def classifyErrc :
    Errc → ErrorClass
| .timeout => .retriable
| .unknownEngineId => .retriable
| .notInTimeWindow => .retriable
| .oidNotEncodable => .configuration
| .oidBadSyntax => .configuration
| .unsupportedAuthProtocol => .configuration
| .unsupportedSecurityLevel => .configuration
| .unsupportedPrivProtocol => .configuration
| .legacyProviderUnavailable => .configuration
| .emptyPassword => .configuration
| .authFailed => .configuration
| .decryptionFailed => .configuration
| .unknownUserName => .configuration
| .decryptionError => .configuration
| .truncated => .fatal
| .indefiniteLength => .fatal
| .lengthTooLarge => .fatal
| .highTagNumber => .fatal
| .unexpectedTag => .fatal
| .trailingData => .fatal
| .reservedLength => .fatal
| .emptyContent => .fatal
| .integerTooLarge => .fatal
| .badIpAddress => .fatal
| .badNull => .fatal
| .oidEmpty => .fatal
| .oidTooLong => .fatal
| .oidSubidOverflow => .fatal
| .oidNonMinimal => .fatal
| .oidTruncatedSubid => .fatal
| .unknownValueTag => .fatal
| .badVersion => .fatal
| .unexpectedPduType => .fatal
| .missingVarbind => .fatal
| .clientStopped => .fatal
| .nonIncreasingOid => .fatal
| .walkIncomplete => .fatal
| .unsupportedSecurityModel => .fatal
| .badMessageFlags => .fatal
| .cryptoFailure => .fatal
| .unexpectedReport => .fatal

/- The Agent's error-status, as far as it has names. -/
inductive ErrorStatus where
  | noError
  | tooBig
  | noSuchName
  | badValue
  | readOnly
  | genErr
  | noAccess
  | wrongType
  | wrongLength
  | wrongEncoding
  | wrongValue
  | noCreation
  | inconsistentValue
  | resourceUnavailable
  | commitFailed
  | undoFailed
  | authorizationError
  | notWritable
  | inconsistentName
  deriving DecidableEq, Repr

/- `static_cast<ErrorStatus>`, where that is a name. -/
def ErrorStatus.ofInt? :
    Int → Option ErrorStatus
| 0 => some noError
| 1 => some tooBig
| 2 => some noSuchName
| 3 => some badValue
| 4 => some readOnly
| 5 => some genErr
| 6 => some noAccess
| 7 => some wrongType
| 8 => some wrongLength
| 9 => some wrongEncoding
| 10 => some wrongValue
| 11 => some noCreation
| 12 => some inconsistentValue
| 13 => some resourceUnavailable
| 14 => some commitFailed
| 15 => some undoFailed
| 16 => some authorizationError
| 17 => some notWritable
| 18 => some inconsistentName
| _ => none

def classifyErrorStatus
    (status : Int32) : ErrorClass :=
  match ErrorStatus.ofInt? status.toInt with
  | some .noError => .ok
  | some .genErr => .retriable
  | some .resourceUnavailable => .retriable
  | some .tooBig => .configuration
  | some .noSuchName => .configuration
  | some .badValue => .configuration
  | some .readOnly => .configuration
  | some .noAccess => .configuration
  | some .wrongType => .configuration
  | some .wrongLength => .configuration
  | some .wrongEncoding => .configuration
  | some .wrongValue => .configuration
  | some .noCreation => .configuration
  | some .inconsistentValue => .configuration
  | some .authorizationError => .configuration
  | some .notWritable => .configuration
  | some .inconsistentName => .configuration
  | some .commitFailed => .fatal
  | some .undoFailed => .fatal
  | none => .unclassified

/-
  What the category of a fault makes of its code: a generic
  condition (`std::errc`), none although the category is the
  system's, or nothing that `classify` knows.
-/
inductive SystemFault where
  | timedOut
  | interrupted
  | networkDown
  | networkUnreachable
  | networkReset
  | hostUnreachable
  | connectionRefused
  | connectionReset
  | noBufferSpace
  | otherCondition
  | noCondition
  | foreign
  deriving DecidableEq

def classifySystem :
    SystemFault → ErrorClass
| .timedOut => .retriable
| .interrupted => .retriable
| .networkDown => .retriable
| .networkUnreachable => .retriable
| .networkReset => .retriable
| .hostUnreachable => .retriable
| .connectionRefused => .retriable
| .connectionReset => .retriable
| .noBufferSpace => .retriable
| _ => .fatal

/- `operation_aborted` is a condition of its own. -/
def classify
    (fault : Nat → SystemFault) :
    Option ErrorCode → ErrorClass
| none => .ok
| some (.errc e) => classifyErrc e
| some (.agent status) => classifyErrorStatus status
| some .operationAborted => classifySystem .otherCondition
| some (.system code) =>
    if fault code = .foreign then .unclassified
    else classifySystem (fault code)

end Snmpio
