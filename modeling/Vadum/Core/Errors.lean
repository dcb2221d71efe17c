import Vadum.Core.Kit

/-!
# Errors as Text

What an error says about itself, in one line. The submission path reads these
texts for markers, so they are kept as the source makes them: the name, a
colon, the message, and the context of an error that has one.

## Main definitions

* `VadumErrorCode.text`: The code as it is written.
* `VadumError.message`: The message of one of our own errors.
* `text`: What a thrown value says about itself.
-/

namespace Vadum

def VadumErrorCode.text : VadumErrorCode → String
  | .wireVersionUnsupported => "WIRE_VERSION_UNSUPPORTED"
  | .wireReservedFlagSet => "WIRE_RESERVED_FLAG_SET"
  | .wireLengthMismatch => "WIRE_LENGTH_MISMATCH"
  | .wireUnknownType => "WIRE_UNKNOWN_TYPE"
  | .wireUnexpectedType => "WIRE_UNEXPECTED_TYPE"
  | .wireFlagsMismatch => "WIRE_FLAGS_MISMATCH"
  | .wireStaticConstraint => "WIRE_STATIC_CONSTRAINT"
  | .wireBase45Invalid => "WIRE_BASE45_INVALID"
  | .wireFlagNotAllowedForType => "WIRE_FLAG_NOT_ALLOWED_FOR_TYPE"
  | .wireFeePayerSeparateUnsupported => "WIRE_FEE_PAYER_SEPARATE_UNSUPPORTED"
  | .wireFeePayerIsPayer => "WIRE_FEE_PAYER_IS_PAYER"
  | .wireDuplicateAuth => "WIRE_DUPLICATE_AUTH"
  | .mintUnknown => "MINT_UNKNOWN"
  | .mintIncompatible => "MINT_INCOMPATIBLE"
  | .mintDecimalsMismatch => "MINT_DECIMALS_MISMATCH"
  | .mintTokenProgramMismatch => "MINT_TOKEN_PROGRAM_MISMATCH"
  | .mintRecordStale => "MINT_RECORD_STALE"
  | .canonInstructionNotAllowed => "CANON_INSTRUCTION_NOT_ALLOWED"
  | .canonAccountMismatch => "CANON_ACCOUNT_MISMATCH"
  | .canonAmountMismatch => "CANON_AMOUNT_MISMATCH"
  | .canonDestinationMismatch => "CANON_DESTINATION_MISMATCH"
  | .canonInstructionOrder => "CANON_INSTRUCTION_ORDER"
  | .sigInvalid => "SIG_INVALID"
  | .sigLength => "SIG_LENGTH"
  | .sigFeePayerMissing => "SIG_FEE_PAYER_MISSING"
  | .nonceIndexOutOfRange => "NONCE_INDEX_OUT_OF_RANGE"
  | .nonceAlreadySpent => "NONCE_ALREADY_SPENT"
  | .nonceLedgerMissing => "NONCE_LEDGER_MISSING"
  | .noncePoolExhausted => "NONCE_POOL_EXHAUSTED"
  | .noncePoolUnderfunded => "NONCE_POOL_UNDERFUNDED"
  | .nonceDesync => "NONCE_DESYNC"
  | .nonceReturnUntrusted => "NONCE_RETURN_UNTRUSTED"
  | .nonceAccountClosed => "NONCE_ACCOUNT_CLOSED"
  | .limitReceiptCap => "LIMIT_RECEIPT_CAP"
  | .limitQueueExposure => "LIMIT_QUEUE_EXPOSURE"
  | .limitFailedSends => "LIMIT_FAILED_SENDS"
  | .limitSendWindowExpired => "LIMIT_SEND_WINDOW_EXPIRED"
  | .limitPrecheckRequired => "LIMIT_PRECHECK_REQUIRED"
  | .limitPayerAllowance => "LIMIT_PAYER_ALLOWANCE"
  | .submitNonceStale => "SUBMIT_NONCE_STALE"
  | .submitNonceAbsent => "SUBMIT_NONCE_ABSENT"
  | .submitExecutionFailed => "SUBMIT_EXECUTION_FAILED"
  | .submitAlreadyProcessed => "SUBMIT_ALREADY_PROCESSED"
  | .submitBlockhashExpired => "SUBMIT_BLOCKHASH_EXPIRED"
  | .submitRpcUnavailable => "SUBMIT_RPC_UNAVAILABLE"
  | .internalNotImplemented => "INTERNAL_NOT_IMPLEMENTED"
  | .internalNotApplicable => "INTERNAL_NOT_APPLICABLE"

/-- The code, and the detail if there is any. -/
def VadumError.message (kit : Kit) (error : VadumError) : String :=
  if error.detail = [] then error.code.text
  else error.code.text ++ " " ++ kit.showDetail error.detail

def text (kit : Kit) : Thrown → String
  | .vadum error => "VadumError: " ++ error.message kit
  | .error name message none => name ++ ": " ++ message
  | .error name message (some context) => name ++ ": " ++ message ++ " " ++ context

end Vadum
