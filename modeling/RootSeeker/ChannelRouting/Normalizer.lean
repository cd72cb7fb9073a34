import RootSeeker.Analysis.LogText
import RootSeeker.Analysis.ServiceIdentity
import RootSeeker.ChannelRouting.Models
import RootSeeker.Contracts.Numbers

/-!
# Normalising inbound messages

`normalize_inbound`: three channels have a format of their own, every other
channel is read as a generic webhook.
-/

namespace RootSeeker.ChannelRouting

open Python Contracts Analysis

section Payload

variable (std : Stdlib) (payload : Fields)

/-- `str(payload.get(first) or payload.get(second) or ... or default)`. -/
def textOr (keys : List String) (default : String) : PyStr :=
  let text := truthyText std (keys.map fun key => payload.get? (py key))
  if text = [] then py default else text

/-- The value printed into a formatted string. -/
def formatted (key default : String) : PyStr :=
  ((payload.get? (py key)).map (str std)).getD (py default)

/-- `str(payload.get(key)) if payload.get(key) else None`. -/
def optionalTextOf (key : String) : Option PyStr :=
  ((payload.get? (py key)).filter Json.truthy).map (str std)

/-- The entries whose key is not reserved. -/
def unreserved (reserved : List String) : Fields :=
  Dict.filterKeys (fun key => decide (key ∉ reserved.map py)) payload

end Payload

def reservedKeys : List String :=
  ["title", "alert_name", "message", "description", "tenant", "environment",
    "service_name", "service", "severity", "team", "trace_id", "_channel"]

def aliyunReservedKeys : List String :=
  ["alertName", "alert_name", "alertState", "curValue", "instanceName", "instance",
    "metricName", "metric", "namespace", "tenant", "environment", "team", "traceId",
    "severity"]

def slsReservedKeys : List String :=
  ["alertName", "alert_name", "project", "logstore", "query", "count", "message",
    "tenant", "environment", "team", "traceId", "severity"]

def aliyunFields (std : Stdlib) (payload : Fields) : InboundFields :=
  let instanceName := textOr std payload ["instanceName", "instance"] "unknown-instance"
  { channel := py "aliyun"
    tenant := textOr std payload ["tenant"] "demo"
    environment := textOr std payload ["environment"] "prod"
    serviceName := instanceName
    severity :=
      if textOr std payload ["alertState"] "ALARM" = py "ALARM" then py "critical"
      else py "warning"
    team := textOr std payload ["team"] "unknown"
    title :=
      py "[Aliyun] " ++ textOr std payload ["alertName", "alert_name"] "Aliyun Alert"
    symptom := textOr std payload ["metricName", "metric"] "unknown-metric" ++ py "=" ++
      formatted std payload "curValue" "N/A" ++ py " on " ++ instanceName
    traceId := optionalTextOf std payload "traceId"
    metadata := unreserved payload aliyunReservedKeys }

/-- `int(payload.get("count") or 0)`. -/
def countOf (std : NumberStdlib) (payload : Fields) : Except PyError ℤ :=
  intOrZero std payload (py "count")

def slsFields (std : NumberStdlib) (payload : Fields) : Except PyError InboundFields := do
  let count ← countOf std payload
  let project := textOr std.toStdlib payload ["project"] "unknown-project"
  let logstore := textOr std.toStdlib payload ["logstore"] "unknown-logstore"
  pure
    { channel := py "sls"
      tenant := textOr std.toStdlib payload ["tenant"] "demo"
      environment := textOr std.toStdlib payload ["environment"] "prod"
      serviceName := project
      severity := textOr std.toStdlib payload ["severity"] "warning"
      team := textOr std.toStdlib payload ["team"] "unknown"
      title := py "[SLS] " ++
        textOr std.toStdlib payload ["alertName", "alert_name"] "SLS Alert"
      symptom := py "Found " ++ intText count ++ py " matches in " ++ project ++ py "/" ++
        logstore ++ py ": " ++ formatted std.toStdlib payload "message" ""
      traceId := optionalTextOf std.toStdlib payload "traceId"
      metadata := unreserved payload slsReservedKeys }

/-- `value.get(key) or {}`, which must be a dictionary to be read further. -/
def dictOf (fields : Fields) (key : String) : Except PyError Fields :=
  match (fields.get? (py key)).filter Json.truthy with
  | none => .ok []
  | some (.obj inner) => .ok inner
  | some _ => .error .attributeError

/-- `alerts[0]` and `len(alerts)` of a value that is not falsy. -/
def firstAlert (alerts : Json) : Except PyError (Fields × ℕ) :=
  match alerts with
  | .arr (.obj alert :: rest) => .ok (alert, rest.length + 1)
  | .arr _ => .error .attributeError
  | .str _ => .error .attributeError
  | .obj _ => .error (.keyError (py "0"))
  | _ => .error .typeError

def emptyPrometheusFields : InboundFields where
  channel := py "prometheus"
  tenant := py "demo"
  environment := py "prod"
  serviceName := py "unknown-service"
  severity := py "warning"
  team := py "unknown"
  title := py "[Prometheus] Alert"
  symptom := py "No alert details provided"
  traceId := none
  metadata := []

def prometheusFields (std : Stdlib) (payload : Fields) : Except PyError InboundFields :=
  match (payload.get? (py "alerts")).filter Json.truthy with
  | none => .ok emptyPrometheusFields
  | some alerts => do
    let (alert, count) ← firstAlert alerts
    let labels ← dictOf alert "labels"
    let annotations ← dictOf alert "annotations"
    let alertName := textOr std labels ["alertname"] "Prometheus Alert"
    let summary := truthyText std
      [annotations.get? (py "summary"), annotations.get? (py "description")]
    pure
      { channel := py "prometheus"
        tenant := textOr std labels ["tenant"] "demo"
        environment := textOr std labels ["environment"] "prod"
        serviceName := textOr std labels ["service", "job"] "unknown-service"
        severity :=
          if textOr std payload ["status"] "firing" = py "firing" then py "critical"
          else py "warning"
        team := textOr std labels ["team"] "unknown"
        title := py "[Prometheus] " ++ alertName
        symptom := if summary = [] then alertName else summary
        traceId := optionalTextOf std labels "trace_id"
        metadata :=
          [(py "labels", .obj labels), (py "annotations", .obj annotations),
            (py "alert_count", .int count)] }

/-- `payload.get("message") or ... or title`. -/
def rawSymptom (payload : Fields) (title : PyStr) : Json :=
  (([py "message", py "description", py "content"].map payload.get?).findSome?
    (Option.filter Json.truthy)).getD (.str title)

/-- The text of a candidate for the service name; `None` reads as empty. -/
def candidateText (std : Stdlib) (payload : Fields) (key : String) : PyStr :=
  truthyText std [payload.get? (py key)]

def webhookFields (std : Stdlib) (analysis : TextAnalysis) (channel : PyStr)
    (payload : Fields) : InboundFields :=
  let title := textOr std payload ["title", "alert_name"] "Untitled alert"
  let raw := rawSymptom payload title
  let unwrapped := unwrapEmbeddedLogText std raw
  let symptom := if unwrapped = [] then str std raw else unwrapped
  { channel := channel
    tenant := textOr std payload ["tenant"] "demo"
    environment := textOr std payload ["environment"] "prod"
    serviceName := resolveServiceName std analysis
      [candidateText std payload "service_name", candidateText std payload "service"]
      symptom (py "unknown-service")
    severity := textOr std payload ["severity"] "warning"
    team := textOr std payload ["team"] "unknown"
    title := title
    symptom := symptom
    traceId := optionalTextOf std payload "trace_id"
    metadata := unreserved payload reservedKeys }

def inboundFields (std : NumberStdlib) (analysis : TextAnalysis)
    (message : ChannelMessage) : Except PyError InboundFields :=
  if message.channel.val = py "aliyun" then
    .ok (aliyunFields std.toStdlib message.payload.val)
  else if message.channel.val = py "sls" then slsFields std message.payload.val
  else if message.channel.val = py "prometheus" then
    prometheusFields std.toStdlib message.payload.val
  else .ok (webhookFields std.toStdlib analysis message.channel.val message.payload.val)

def normalizeInbound (std : NumberStdlib) (analysis : TextAnalysis)
    (message : ChannelMessage) : Except PyError NormalizedInboundMessage := do
  let raw ← inboundFields std analysis message
  NormalizedInboundMessage.validate raw

end RootSeeker.ChannelRouting
