import RootSeeker.ChannelRouting.Security

/-!
# From a webhook payload to a case

A case request is built from a webhook payload.
-/

namespace RootSeeker.ChannelRouting

open Python Contracts Analysis

/-- The channel that a payload names itself. -/
def webhookSource (std : Stdlib) (payload : Fields) : PyStr :=
  textOr std payload ["_channel", "source"] "webhook"

def webhookPayloadToCaseCreate (std : NumberStdlib) (analysis : TextAnalysis)
    (payload : Fields) : Except PyError CaseCreateRequest := do
  let source := webhookSource std.toStdlib payload
  let message ← ChannelMessage.validate source payload [] none
  let normalized ← normalizeInbound std analysis message
  caseCreateRequest normalized source

end RootSeeker.ChannelRouting
