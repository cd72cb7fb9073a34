import RootSeeker.Contracts.Case

/-!
# Inbound messages

What a channel delivers and what normalisation makes of it.  Both models strip
white space from every text and from every key of their dictionaries.
-/

namespace RootSeeker.ChannelRouting

open Python Contracts

structure ChannelMessage where
  channel : RequiredStr
  payload : Mapping
  headers : Dict PyStr PyStr
  remoteIp : Option PyStr

/-- What the model makes of a dictionary of texts. -/
def trimEntries (headers : Dict PyStr PyStr) : Dict PyStr PyStr :=
  Dict.update [] (headers.map fun entry => (trim entry.1, trim entry.2))

def validateHeaders (headers : Dict PyStr PyStr) : Except PyError (Dict PyStr PyStr) :=
  if ∀ entry ∈ headers, Encodable entry.1 ∧ Encodable entry.2 then
    .ok (trimEntries headers)
  else .error .validationError

def ChannelMessage.validate (channel : PyStr) (payload : Fields)
    (headers : Dict PyStr PyStr) (remoteIp : Option PyStr) :
    Except PyError ChannelMessage := do
  let channel ← RequiredStr.validate (trim channel)
  let payload ← Mapping.validate (trimKeys payload)
  let headers ← validateHeaders headers
  let remoteIp ← remoteIp.mapM validateText
  pure { channel, payload, headers, remoteIp }

structure NormalizedInboundMessage where
  channel : RequiredStr
  tenant : PyStr
  environment : PyStr
  serviceName : RequiredStr
  severity : PyStr
  team : PyStr
  title : RequiredStr
  symptom : RequiredStr
  traceId : Option PyStr
  metadata : Mapping

/-- The arguments from which a normalised message is built. -/
structure InboundFields where
  channel : PyStr
  tenant : PyStr
  environment : PyStr
  serviceName : PyStr
  severity : PyStr
  team : PyStr
  title : PyStr
  symptom : PyStr
  traceId : Option PyStr
  metadata : Fields

def NormalizedInboundMessage.validate (raw : InboundFields) :
    Except PyError NormalizedInboundMessage := do
  let channel ← RequiredStr.validate (trim raw.channel)
  let tenant ← validateText raw.tenant
  let environment ← validateText raw.environment
  let serviceName ← RequiredStr.validate (trim raw.serviceName)
  let severity ← validateText raw.severity
  let team ← validateText raw.team
  let title ← RequiredStr.validate (trim raw.title)
  let symptom ← RequiredStr.validate (trim raw.symptom)
  let traceId ← raw.traceId.mapM validateText
  let metadata ← Mapping.validate (trimKeys raw.metadata)
  pure
    { channel, tenant, environment, serviceName, severity, team, title, symptom,
      traceId, metadata }

end RootSeeker.ChannelRouting
