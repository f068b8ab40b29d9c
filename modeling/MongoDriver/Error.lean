/-
Errors as the driver classifies them (`src/error.ts`): the class of an error object, the fields the
classification reads, and the predicates that decide retries and server state changes.
-/
import MongoDriver.Bson
import Mathlib.Data.List.Infix

namespace MongoDriver

/-- The class of an error object. Every class but `error` (also the built-in `RangeError`) and
`typeError` extends `MongoError`. -/
inductive ErrorClass
  | error
  | typeError
  | mongoError
  | mongoServerError
  | mongoWriteConcernError
  | mongoNetworkError
  | mongoNetworkTimeoutError
  | mongoParseError
  | mongoRuntimeError
  | mongoInvalidArgumentError
  | mongoTransactionError
  | mongoCompatibilityError
  | mongoServerSelectionError
  | mongoCursorExhaustedError
  | mongoBatchReExecutionError
  | mongoDecompressionError
  | mongoExpiredSessionError
  | mongoAPIError
  | mongoChangeStreamError
deriving DecidableEq, Repr

/-- `AnyError`. A `code` is the numeric code of a server error; a driver's string code is `none`. -/
structure AnyError where
  cls : ErrorClass
  message : String
  code : Option Int := none
  errorLabels : List String := []
  topologyVersion : Option TopologyVersion := none
  /-- the `kBeforeHandshake` mark of a network error -/
  beforeHandshake : Bool := false
  /-- `result.code` of a `MongoWriteConcernError` -/
  resultCode : Option Int := none
deriving DecidableEq

namespace MongoErrorCodes

def hostUnreachable : Int := 6
def hostNotFound : Int := 7
def illegalOperation : Int := 20
def cursorNotFound : Int := 43
def staleShardVersion : Int := 63
def networkTimeout : Int := 89
def shutdownInProgress : Int := 91
def failedToSatisfyReadPreference : Int := 133
def staleEpoch : Int := 150
def primarySteppedDown : Int := 189
def retryChangeStream : Int := 234
def exceededTimeLimit : Int := 262
def socketException : Int := 9001
def legacyNotPrimary : Int := 10058
def notWritablePrimary : Int := 10107
def interruptedAtShutdown : Int := 11600
def interruptedDueToReplStateChange : Int := 11602
def staleConfig : Int := 13388
def notPrimaryNoSecondaryOk : Int := 13435
def notPrimaryOrSecondary : Int := 13436

end MongoErrorCodes

open MongoErrorCodes

def retryableErrorCodes : List Int :=
  [hostUnreachable, hostNotFound, networkTimeout, shutdownInProgress, primarySteppedDown, socketException,
    notWritablePrimary, interruptedAtShutdown, interruptedDueToReplStateChange, notPrimaryNoSecondaryOk,
    notPrimaryOrSecondary]

def retryableWriteErrorCodes : List Int :=
  [interruptedAtShutdown, interruptedDueToReplStateChange, notWritablePrimary, notPrimaryNoSecondaryOk,
    notPrimaryOrSecondary, primarySteppedDown, shutdownInProgress, hostNotFound, hostUnreachable, networkTimeout,
    socketException, exceededTimeLimit]

def getMoreResumableCodes : List Int :=
  [hostUnreachable, hostNotFound, networkTimeout, shutdownInProgress, primarySteppedDown, exceededTimeLimit,
    socketException, notWritablePrimary, interruptedAtShutdown, interruptedDueToReplStateChange,
    notPrimaryNoSecondaryOk, notPrimaryOrSecondary, staleShardVersion, staleEpoch, staleConfig, retryChangeStream,
    failedToSatisfyReadPreference, cursorNotFound]

def sdamRecoveringCodes : List Int :=
  [shutdownInProgress, primarySteppedDown, interruptedAtShutdown, interruptedDueToReplStateChange,
    notPrimaryOrSecondary]

def sdamNotPrimaryCodes : List Int := [notWritablePrimary, notPrimaryNoSecondaryOk, legacyNotPrimary]

def sdamNodeShuttingDownErrorCodes : List Int := [interruptedAtShutdown, shutdownInProgress]

def legacyNotWritablePrimaryErrorMessage : String := "not master"
def legacyNotPrimaryOrSecondaryErrorMessage : String := "not master or secondary"
def nodeIsRecoveringErrorMessage : String := "node is recovering"

namespace AnyError

/-- `new RegExp(text).test(message)` for a text without special characters. -/
def mentions (e : AnyError) (text : String) : Bool := decide (text.toList <:+: e.message.toList)

def isMongoError (e : AnyError) : Bool := e.cls ≠ .error && e.cls ≠ .typeError

/-- `instanceof MongoNetworkError`, which timeouts extend. -/
def isNetworkError (e : AnyError) : Bool :=
  e.cls = .mongoNetworkError || e.cls = .mongoNetworkTimeoutError

def isNetworkErrorBeforeHandshake (e : AnyError) : Bool := e.beforeHandshake

def hasErrorLabel (e : AnyError) (label : String) : Bool := e.errorLabels.contains label

def addErrorLabel (e : AnyError) (label : String) : AnyError :=
  if e.hasErrorLabel label then e else { e with errorLabels := e.errorLabels ++ [label] }

def isRetryableWriteError (e : AnyError) : Bool :=
  if e.cls = .mongoWriteConcernError then
    retryableWriteErrorCodes.contains ((e.resultCode <|> e.code).getD 0)
  else e.code.any (retryableWriteErrorCodes.contains ·)

def isRetryableError (e : AnyError) : Bool :=
  e.code.any (retryableErrorCodes.contains ·) || e.isNetworkError ||
    e.mentions legacyNotWritablePrimaryErrorMessage || e.mentions nodeIsRecoveringErrorMessage

/-- A numeric code decides alone; the message is read only without one. -/
def isRecoveringError (e : AnyError) : Bool :=
  match e.code with
  | some c => sdamRecoveringCodes.contains c
  | none => e.mentions legacyNotPrimaryOrSecondaryErrorMessage || e.mentions nodeIsRecoveringErrorMessage

def isNotWritablePrimaryError (e : AnyError) : Bool :=
  match e.code with
  | some c => sdamNotPrimaryCodes.contains c
  | none => !e.isRecoveringError && e.mentions legacyNotWritablePrimaryErrorMessage

def isNodeShuttingDownError (e : AnyError) : Bool := e.code.any (sdamNodeShuttingDownErrorCodes.contains ·)

/-- A change stream goes on after the error with a new cursor. -/
def isResumableError (e : AnyError) (wireVersion : Nat) : Bool :=
  if e.isNetworkError then true
  else if 9 ≤ wireVersion then
    e.isMongoError && (e.code = some cursorNotFound || e.hasErrorLabel "ResumableChangeStreamError")
  else e.code.any (getMoreResumableCodes.contains ·)

/-- A state-change error: the server's view of itself changed. -/
def isSDAMUnrecoverableError (e : AnyError) : Bool :=
  e.cls = .mongoParseError || e.isRecoveringError || e.isNotWritablePrimaryError

end AnyError

end MongoDriver
