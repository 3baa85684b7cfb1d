import Locus.Core.Execution

/-!
# Engine events

What an engine reports about a request. Texts are lists of characters.
-/

namespace Locus.Core

inductive EngineFinishReason
  | stop
  | length
  | cancelled
  | error
  | runtimeSpecific (nameSpace value : String)
  deriving DecidableEq

structure Usage where
  inputTokens : UInt64
  outputTokens : UInt64
  deriving DecidableEq

inductive EngineEvent
  | accepted (requestId : RequestId)
  | tokenDelta (requestId : RequestId) (sequenceNumber : UInt64) (tokenIds : List UInt32)
  | textDelta (requestId : RequestId) (sequenceNumber : UInt64) (text : List Char)
  | reasoningDelta (requestId : RequestId) (sequenceNumber : UInt64) (text : List Char)
  | toolCallStarted (requestId : RequestId) (sequenceNumber : UInt64) (callId name : String)
  | toolCallArgumentsDelta (requestId : RequestId) (sequenceNumber : UInt64) (callId : String)
      (delta : List Char)
  | toolCallCompleted (requestId : RequestId) (sequenceNumber : UInt64) (callId : String)
  | usageUpdate (requestId : RequestId) (usage : Usage) (finalUpdate : Bool)
  | finished (requestId : RequestId) (reason : EngineFinishReason) (usage : Usage)

end Locus.Core
