import RootSeeker.ChannelRouting.NotifyDispatch
import RootSeeker.Core.DictUpdate

/-!
# What the requests of a notification carry

The secret of a channel travels in the metadata of its target.  Only the webhook
adapter puts metadata that it does not know into the body, over its own fields.
-/

namespace RootSeeker.ChannelRouting

open Python Contracts Storage

/-- The target of the channel is posted by the adapter of its type, as this request. -/
def Posts (std : Stdlib) (sign : PyStr → PyStr → PyStr) (message : PyStr) (record : Channel)
    (adapter : ChannelAdapter) (request : HttpRequest) : Prop :=
  ∃ target timestampMs, listEnabledOutboundTargets [record] = .ok [target] ∧
    productionRegistry.get? target.channel.val = some adapter ∧
      adapter.request std sign target message timestampMs = .ok request

/-- The endpoint, or the endpoint with a time and a signature. -/
def SignedFrom (endpoint url : PyStr) : Prop :=
  url = endpoint ∨ ∃ separator timestampMs signature,
    url = endpoint ++ separator ++ py "timestamp=" ++ timestampMs ++ py "&sign=" ++ signature

/-- The requests are equal but for the signature in the address of DingTalk. -/
structure SameButSignature (adapter : ChannelAdapter) (first second : HttpRequest) : Prop where
  json : first.json = second.json
  headers : first.headers = second.headers
  url : if adapter = .dingtalk then
      ∃ endpoint, SignedFrom endpoint first.url ∧ SignedFrom endpoint second.url
    else first.url = second.url

/-- The metadata asks for no blocks, no embeds and no image message. -/
def AsksForText (metadata : Fields) : Prop :=
  (metadataOr metadata "blocks" .null).truthy = false ∧
    (metadataOr metadata "embeds" .null).truthy = false ∧
      isLiteral (metadataOr metadata "msg_type" (.str (py "text"))) "image" = false

/-- `json[key]`. -/
def entryOf (json : JsonPayload) (key : String) : Option Json :=
  (json.find? fun entry => isLiteral entry.1 key).map Prod.snd

def fieldOf (value : Option Json) (key : String) : Option Json :=
  match value with
  | some (.obj fields) => Dict.get? fields (py key)
  | _ => none

def firstOf (value : Option Json) : Option Json :=
  match value with
  | some (.arr items) => items.head?
  | _ => none

/-- The text field of a body: by the adapter, and for some by the message type.  The content
of a typed payload is its last entry. -/
def textField (adapter : ChannelAdapter) (msgType : Json) (json : JsonPayload) : Option Json :=
  let content := json.getLast?.map Prod.snd
  match adapter with
  | .webhook => entryOf json "message"
  | .slack => entryOf json "text"
  | .discord => entryOf json "content"
  | .feishu =>
    if isLiteral msgType "post" then
      fieldOf (firstOf (firstOf (fieldOf (fieldOf (fieldOf content "post") "zh_cn") "content")))
        "text"
    else fieldOf content "text"
  | .dingtalk =>
    if isLiteral msgType "markdown" || isLiteral msgType "link" then fieldOf content "text"
    else fieldOf content "content"
  | .wechatWork => fieldOf content "content"

/-- What the body of a webhook shows of a secret: the last entry of the metadata whose key
is `secret` up to white space around it. -/
def shownSecret (metadata : Fields) (secret : PyStr) : Option Json :=
  (trimKeys (if strip secret = [] then metadata
    else metadata.set (py "secret") (.str (strip secret)))).get? (py "secret")

/-! ## The metadata of a target -/

theorem get?_trimKeys (metadata : Fields) (key : PyStr) :
    (trimKeys metadata).get? key =
      Dict.get? (metadata.map fun entry => (trim entry.1, entry.2)).reverse key := by
  rw [trimKeys, Dict.get?_update, Dict.get?_nil, Option.or_none]

theorem get?_trimKeys_cons (entry : PyStr × Json) (metadata : Fields) (key : PyStr) :
    (trimKeys (entry :: metadata)).get? key =
      ((trimKeys metadata).get? key).or (if trim entry.1 = key then some entry.2 else none) := by
  rw [get?_trimKeys, get?_trimKeys, List.map_cons, List.reverse_cons, Dict.get?_append]
  rfl

/-- An entry of another key does not matter. -/
theorem get?_trimKeys_erase (metadata : Fields) {key other : PyStr} (hne : trim other ≠ key) :
    (trimKeys (metadata.erase other)).get? key = (trimKeys metadata).get? key := by
  induction metadata with
  | nil => rfl
  | cons entry metadata ih =>
    rw [get?_trimKeys_cons, ← ih]
    by_cases hentry : entry.1 = other
    · have herase : Dict.erase (entry :: metadata) other = Dict.erase metadata other := by
        simp [Dict.erase, Dict.filterKeys, hentry]
      rw [herase, hentry, if_neg hne, Option.or_none]
    · have herase : Dict.erase (entry :: metadata) other = entry :: Dict.erase metadata other := by
        simp [Dict.erase, Dict.filterKeys, hentry]
      rw [herase, get?_trimKeys_cons]

theorem get?_trimKeys_set (metadata : Fields) {key other : PyStr} (hne : trim other ≠ key)
    (value : Json) :
    (trimKeys (metadata.set other value)).get? key = (trimKeys metadata).get? key := by
  rw [← get?_trimKeys_erase (metadata.set other value) hne, Dict.erase_set_self,
    get?_trimKeys_erase metadata hne]

/-- The fields of a target come from the record, and only the metadata from its secret. -/
theorem outboundTarget_eq_ok {record : Channel} {target : OutboundTarget}
    (htarget : outboundTarget record = .ok target) :
    target.channel.val =
        trim (if record.channelType = [] then py "webhook" else record.channelType) ∧
      target.endpoint.val = trim (endpointOf record) ∧ target.team.val = trim (py "default") ∧
        target.metadata.val = trimKeys (targetMetadata record) := by
  obtain ⟨channel, hchannel, htarget⟩ := Loops.exists_of_bind_eq_ok htarget
  obtain ⟨endpoint, hendpoint, htarget⟩ := Loops.exists_of_bind_eq_ok htarget
  obtain ⟨team, hteam, htarget⟩ := Loops.exists_of_bind_eq_ok htarget
  obtain ⟨metadata, hmetadata, htarget⟩ := Loops.exists_of_bind_eq_ok htarget
  rw [← Except.ok.inj htarget]
  exact ⟨(trimmedField_eq_ok hchannel).1, (trimmedField_eq_ok hendpoint).1,
    (trimmedField_eq_ok hteam).1, (mapping_eq_ok hmetadata).1⟩

theorem target_of_posts {std : Stdlib} {sign : PyStr → PyStr → PyStr} {message : PyStr}
    {record : Channel} {adapter : ChannelAdapter} {request : HttpRequest}
    (hposts : Posts std sign message record adapter request) :
    ∃ target timestampMs, outboundTarget record = .ok target ∧
      productionRegistry.get? target.channel.val = some adapter ∧
        adapter.request std sign target message timestampMs = .ok request := by
  obtain ⟨target, timestampMs, htargets, hadapter, hrequest⟩ := hposts
  refine ⟨target, timestampMs, ?_, hadapter, hrequest⟩
  rw [listEnabledOutboundTargets] at htargets
  by_cases hreachable : Reachable record = true
  · rw [List.filter_cons_of_pos hreachable, List.filter_nil] at htargets
    cases Loops.forall₂_of_mapM_ok htargets with
    | cons hmade _ => exact hmade
  · rw [List.filter_cons_of_neg hreachable, List.filter_nil] at htargets
    exact absurd (Except.ok.inj htargets) (by simp)

/-- The record with another secret. -/
def withSecret (record : Channel) (secret : PyStr) : Channel :=
  { record with secret := secret }

section Metadata

variable (record : Channel)

/-- The metadata after the secret has been put in. -/
def secretMetadata : Fields :=
  if strip record.secret = [] then record.metadata
  else record.metadata.set (py "secret") (.str (strip record.secret))

theorem targetMetadata_eq :
    targetMetadata record =
      ((secretMetadata record).set (py "channel_id") (.str record.channelId)).set
        (py "template_id") (.str record.templateId) := rfl

/-- Other entries do not depend on the secret. -/
theorem get?_targetMetadata_withSecret (secret : PyStr) {key : PyStr} (hkey : key ≠ py "secret") :
    (trimKeys (targetMetadata (withSecret record secret))).get? key =
      (trimKeys (targetMetadata record)).get? key := by
  have hne : trim (py "secret") ≠ key := fun heq => hkey (heq.symm.trans (by decide))
  have herase : ∀ other : Channel, other.metadata = record.metadata →
      (secretMetadata other).erase (py "secret") = record.metadata.erase (py "secret") := by
    intro other hmetadata
    rw [secretMetadata, hmetadata]
    split
    · rfl
    · exact Dict.erase_set_self _ _ _
  rw [← get?_trimKeys_erase _ hne, ← get?_trimKeys_erase (targetMetadata record) hne,
    targetMetadata_eq, targetMetadata_eq, Dict.erase_set_of_ne _ (by decide),
    Dict.erase_set_of_ne _ (by decide), Dict.erase_set_of_ne _ (by decide),
    Dict.erase_set_of_ne _ (by decide), herase record rfl, herase (withSecret record secret) rfl]
  rfl

/-- The entries that the target is not given are those of the record. -/
theorem get?_targetMetadata {key : PyStr}
    (hkey : key ∉ [py "secret", py "channel_id", py "template_id"]) :
    (trimKeys (targetMetadata record)).get? key = (trimKeys record.metadata).get? key := by
  have hne : ∀ other ∈ [py "secret", py "channel_id", py "template_id"], trim other ≠ key := by
    rintro other hother rfl
    have htrim : ∀ other ∈ [py "secret", py "channel_id", py "template_id"],
        trim other = other := by decide
    rw [htrim other hother] at hkey
    exact hkey hother
  rw [targetMetadata_eq, get?_trimKeys_set _ (hne _ (by decide)),
    get?_trimKeys_set _ (hne _ (by decide)), secretMetadata]
  split
  · rfl
  · exact get?_trimKeys_set _ (hne _ (by decide)) _

theorem get?_secret_targetMetadata :
    (trimKeys (targetMetadata record)).get? (py "secret") =
      shownSecret record.metadata record.secret := by
  rw [targetMetadata_eq, get?_trimKeys_set _ (by decide), get?_trimKeys_set _ (by decide)]
  rfl

theorem keys_trimKeys (metadata : Fields) :
    (trimKeys metadata).keys = (metadata.keys.map trim).foldl Dict.addKey [] := by
  have hkeys : Dict.keys (metadata.map fun entry => (trim entry.1, entry.2)) =
      metadata.keys.map trim := keys_map_value trim id metadata
  rw [trimKeys, Dict.keys_update, hkeys]
  rfl

theorem keys_targetMetadata :
    (targetMetadata record).keys =
      Dict.addKey (Dict.addKey (secretMetadata record).keys (py "channel_id"))
        (py "template_id") := by
  rw [targetMetadata_eq, Dict.keys_set, Dict.keys_set]

/-- A secret that is put in takes no place of its own where the metadata has one. -/
theorem keys_withSecret {record : Channel} {secret : PyStr} (hblank : strip record.secret = [])
    (hgiven : strip secret ≠ []) (howned : py "secret" ∈ (trimKeys record.metadata).keys) :
    (trimKeys (targetMetadata (withSecret record secret))).keys =
      (trimKeys (targetMetadata record)).keys := by
  have hfirst : secretMetadata record = record.metadata := if_pos hblank
  have hsecond : (secretMetadata (withSecret record secret)).keys =
      Dict.addKey record.metadata.keys (py "secret") := by
    rw [secretMetadata, withSecret, if_neg hgiven, Dict.keys_set]
  rw [keys_trimKeys, keys_trimKeys, keys_targetMetadata, keys_targetMetadata, hfirst, hsecond]
  by_cases hexact : py "secret" ∈ record.metadata.keys
  · rw [Dict.addKey_of_mem hexact]
  · rw [keys_trimKeys] at howned
    obtain ⟨ids, hids, hidsBehind⟩ := Dict.addKey_between record.metadata.keys []
      (show py "channel_id" ≠ py "secret" by decide)
    obtain ⟨later, hlater, hlaterBehind⟩ := Dict.addKey_between record.metadata.keys ids
      (show py "template_id" ≠ py "secret" by decide)
    rw [List.append_nil] at hids
    have hadd : Dict.addKey record.metadata.keys (py "secret") =
        record.metadata.keys ++ [py "secret"] := if_neg hexact
    rw [hadd, hidsBehind, hlaterBehind, hids, hlater, List.map_append, List.map_append,
      List.foldl_append, List.foldl_append, List.map_cons, List.foldl_cons,
      Dict.addKey_of_mem (by rwa [show trim (py "secret") = py "secret" by decide])]

/-- The target is the same for another secret that shows the same. -/
theorem targetMetadata_withSecret {record : Channel} {secret : PyStr}
    (hshown : shownSecret record.metadata record.secret = shownSecret record.metadata secret) :
    trimKeys (targetMetadata record) = trimKeys (targetMetadata (withSecret record secret)) := by
  have hkeys : (trimKeys (targetMetadata record)).keys =
      (trimKeys (targetMetadata (withSecret record secret))).keys := by
    have hown : ∀ given : PyStr, strip given ≠ [] →
        (shownSecret record.metadata given).isSome = true := by
      intro given hgiven
      rw [shownSecret, if_neg hgiven, ← Dict.mem_keys_iff, mem_keys_trimKeys]
      refine List.mem_map.mpr ⟨py "secret", ?_, by decide⟩
      exact (Dict.mem_keys_set _ _ _ _).mpr (Or.inl rfl)
    by_cases hblank : strip record.secret = []
    · by_cases hgiven : strip secret = []
      · rw [keys_trimKeys, keys_trimKeys, keys_targetMetadata, keys_targetMetadata,
          secretMetadata, secretMetadata, withSecret, if_pos hblank, if_pos hgiven]
      · refine (keys_withSecret hblank hgiven ?_).symm
        have hsome := hown secret hgiven
        rw [← hshown, shownSecret, if_pos hblank] at hsome
        exact (Dict.mem_keys_iff _ _).mpr hsome
    · by_cases hgiven : strip secret = []
      · have hback : withSecret (withSecret record secret) record.secret = record := rfl
        have hsome := hown record.secret hblank
        rw [hshown, shownSecret, if_pos hgiven] at hsome
        rw [← @keys_withSecret (withSecret record secret) record.secret hgiven hblank
          ((Dict.mem_keys_iff _ _).mpr hsome), hback]
      · rw [keys_trimKeys, keys_trimKeys, keys_targetMetadata, keys_targetMetadata,
          secretMetadata, secretMetadata, withSecret, if_neg hblank, if_neg hgiven,
          Dict.keys_set, Dict.keys_set]
  refine Dict.ext_of_keys (nodup_keys_trimKeys _) hkeys fun key => ?_
  by_cases hkey : key = py "secret"
  · rw [hkey, get?_secret_targetMetadata, get?_secret_targetMetadata, hshown]
    rfl
  · exact (get?_targetMetadata_withSecret record secret hkey).symm

end Metadata

section Requests

variable {std : Stdlib} {sign : PyStr → PyStr → PyStr} {message : PyStr}

theorem metadataOr_eq {first second : Fields} {key : String}
    (hsame : first.get? (py key) = second.get? (py key)) (default : Json) :
    metadataOr first key default = metadataOr second key default := by
  rw [metadataOr, metadataOr, hsame]

theorem dingtalkUrl_signed {endpoint url timestampMs : PyStr} {metadata : Fields}
    (hurl : dingtalkUrl std sign endpoint metadata timestampMs = .ok url) :
    SignedFrom endpoint url := by
  rw [dingtalkUrl] at hurl
  split at hurl
  · exact Or.inl (Except.ok.inj hurl).symm
  · rw [buildDingtalkSignedUrl] at hurl
    split at hurl
    · exact Or.inr ⟨_, _, _, (Except.ok.inj hurl).symm⟩
    · exact absurd hurl (by simp)

/-- Adapters other than the webhook one read the metadata by keys that they know. -/
theorem sameButSignature_of_get? {adapter : ChannelAdapter} {first second : OutboundTarget}
    {firstRequest secondRequest : HttpRequest} {firstTime secondTime : PyStr}
    (hadapter : adapter ≠ .webhook) (hendpoint : first.endpoint.val = second.endpoint.val)
    (hmetadata : ∀ key, key ≠ py "secret" →
      first.metadata.val.get? key = second.metadata.val.get? key)
    (hfirst : adapter.request std sign first message firstTime = .ok firstRequest)
    (hsecond : adapter.request std sign second message secondTime = .ok secondRequest) :
    SameButSignature adapter firstRequest secondRequest := by
  have hread : ∀ key default, py key ≠ py "secret" →
      metadataOr first.metadata.val key default = metadataOr second.metadata.val key default :=
    fun key default hne => metadataOr_eq (hmetadata _ hne) default
  cases adapter with
  | webhook => exact absurd rfl hadapter
  | feishu =>
    rw [← Except.ok.inj hfirst, ← Except.ok.inj hsecond]
    constructor
    · simp only [feishuContent, hread _ _ (by decide : py "msg_type" ≠ py "secret"),
        hread _ _ (by decide : py "title" ≠ py "secret")]
    · rfl
    · rw [if_neg (by decide)]
      exact hendpoint
  | dingtalk =>
    obtain ⟨json, hjson, hrest⟩ := Loops.exists_of_bind_eq_ok hfirst
    obtain ⟨url, hurl, hmade⟩ := Loops.exists_of_bind_eq_ok hrest
    obtain ⟨otherJson, hotherJson, hotherRest⟩ := Loops.exists_of_bind_eq_ok hsecond
    obtain ⟨otherUrl, hotherUrl, hotherMade⟩ := Loops.exists_of_bind_eq_ok hotherRest
    rw [← Except.ok.inj hmade, ← Except.ok.inj hotherMade]
    constructor
    · simp only [dingtalkContent, hread _ _ (by decide : py "msg_type" ≠ py "secret"),
        hread _ _ (by decide : py "title" ≠ py "secret"),
        hread _ _ (by decide : py "url" ≠ py "secret")] at hjson
      exact Except.ok.inj (hjson.symm.trans hotherJson)
    · rfl
    · rw [if_pos rfl]
      exact ⟨_, dingtalkUrl_signed hurl, hendpoint ▸ dingtalkUrl_signed hotherUrl⟩
  | wechatWork =>
    obtain ⟨json, hjson, hmade⟩ := Loops.exists_of_bind_eq_ok hfirst
    obtain ⟨otherJson, hotherJson, hotherMade⟩ := Loops.exists_of_bind_eq_ok hsecond
    rw [← Except.ok.inj hmade, ← Except.ok.inj hotherMade]
    constructor
    · simp only [wechatWorkContent, hread _ _ (by decide : py "msg_type" ≠ py "secret"),
        hread _ _ (by decide : py "base64" ≠ py "secret"),
        hread _ _ (by decide : py "md5" ≠ py "secret")] at hjson
      exact Except.ok.inj (hjson.symm.trans hotherJson)
    · rfl
    · rw [if_neg (by decide)]
      exact hendpoint
  | slack =>
    rw [← Except.ok.inj hfirst, ← Except.ok.inj hsecond]
    constructor
    · simp only [slackPayload, hread _ _ (by decide : py "blocks" ≠ py "secret"),
        hmetadata _ (by decide : py "channel" ≠ py "secret")]
    · rfl
    · rw [if_neg (by decide)]
      exact hendpoint
  | discord =>
    rw [← Except.ok.inj hfirst, ← Except.ok.inj hsecond]
    constructor
    · simp only [discordPayload, hread _ _ (by decide : py "embeds" ≠ py "secret"),
        hmetadata _ (by decide : py "username" ≠ py "secret")]
    · rfl
    · rw [if_neg (by decide)]
      exact hendpoint

theorem content_typedPayload {msgType : Json} {content : Fields} {json : JsonPayload}
    (hjson : typedPayload msgType content = .ok json) :
    json.getLast?.map Prod.snd = some (.obj content) := by
  rw [typedPayload] at hjson
  split at hjson
  · exact absurd hjson (by simp)
  · split at hjson
    · rw [← Except.ok.inj hjson]
      rfl
    · rw [← Except.ok.inj hjson]
      rfl

theorem entryOf_textKeys (fields : Fields) (key : String) :
    entryOf (textKeys fields) key = fields.get? (py key) := by
  induction fields with
  | nil => rfl
  | cons entry fields ih =>
    obtain ⟨other, value⟩ := entry
    rw [entryOf, textKeys, List.map_cons, Dict.get?]
    by_cases hkey : other = py key
    · rw [List.find?_cons_of_pos (by simp [isLiteral, hkey]), if_pos hkey]
      rfl
    · rw [List.find?_cons_of_neg (by simp [isLiteral, hkey]), if_neg hkey]
      exact ih

/-- Adapters other than the webhook one put the message into the text field. -/
theorem textField_eq {adapter : ChannelAdapter} {target : OutboundTarget} {request : HttpRequest}
    {timestampMs : PyStr} (hadapter : adapter ≠ .webhook) (htext : AsksForText target.metadata.val)
    (hrequest : adapter.request std sign target message timestampMs = .ok request) :
    textField adapter (metadataOr target.metadata.val "msg_type" (.str (py "text")))
      request.json = some (.str message) := by
  obtain ⟨_, hembeds, himage⟩ := htext
  cases adapter with
  | webhook => exact absurd rfl hadapter
  | feishu =>
    rw [← Except.ok.inj hrequest, textField]
    dsimp only [feishuContent]
    split <;> rfl
  | dingtalk =>
    obtain ⟨json, hjson, hrest⟩ := Loops.exists_of_bind_eq_ok hrequest
    obtain ⟨url, _, hmade⟩ := Loops.exists_of_bind_eq_ok hrest
    rw [← Except.ok.inj hmade, textField]
    dsimp only
    rw [content_typedPayload hjson, dingtalkContent]
    generalize metadataOr target.metadata.val "msg_type" (.str (py "text")) = msgType
    cases isLiteral msgType "markdown" <;> cases isLiteral msgType "link" <;> rfl
  | wechatWork =>
    obtain ⟨json, hjson, hmade⟩ := Loops.exists_of_bind_eq_ok hrequest
    rw [← Except.ok.inj hmade, textField]
    dsimp only
    rw [content_typedPayload hjson, wechatWorkContent, himage]
    rfl
  | slack =>
    rw [← Except.ok.inj hrequest, textField]
    dsimp only
    rw [entryOf_textKeys, slackPayload]
    cases target.metadata.val.get? (py "channel") with
    | none => dsimp only; split <;> rfl
    | some channel =>
      dsimp only
      rw [Dict.get?_set_of_ne _ _ (by decide)]
      split <;> rfl
  | discord =>
    rw [← Except.ok.inj hrequest, textField]
    dsimp only
    rw [entryOf_textKeys, discordPayload, hembeds]
    cases target.metadata.val.get? (py "username") with
    | none => rfl
    | some username =>
      dsimp only
      rw [Dict.get?_set_of_ne _ _ (by decide)]
      rfl

/-! ## The webhook adapter -/

theorem get?_webhookPayload (target : OutboundTarget) {key : PyStr}
    (hnodup : target.metadata.val.keys.Nodup) :
    (webhookPayload target message).get? key = (target.metadata.val.get? key).or
      (Dict.get? [(py "message", .str message), (py "channel", .str target.channel.val),
        (py "team", .str target.team.val)] key) := by
  rw [webhookPayload, Dict.get?_update, Dict.get?_reverse hnodup]

theorem webhook_request {target : OutboundTarget} {request : HttpRequest} {timestampMs : PyStr}
    (hrequest : ChannelAdapter.webhook.request std sign target message timestampMs =
      .ok request) :
    request.url = target.endpoint.val ∧
      request.json = textKeys (webhookPayload target message) ∧
        ∃ headers, webhookHeaders target.metadata.val = .ok headers ∧
          request.headers = some headers := by
  obtain ⟨headers, hheaders, hmade⟩ := Loops.exists_of_bind_eq_ok hrequest
  rw [← Except.ok.inj hmade]
  exact ⟨rfl, rfl, headers, hheaders, rfl⟩

theorem textKeys_injective : Function.Injective textKeys := by
  apply List.map_injective_iff.mpr
  rintro ⟨key, value⟩ ⟨otherKey, otherValue⟩ heq
  obtain ⟨hkey, hvalue⟩ := Prod.mk.inj heq
  exact Prod.ext (Json.str.inj hkey) hvalue

/-- The two webhook requests are the same where the secrets show the same. -/
theorem webhook_same_iff {record : Channel} {secret : PyStr} {first second : OutboundTarget}
    {firstRequest secondRequest : HttpRequest} {firstTime secondTime : PyStr}
    (hfirst : outboundTarget record = .ok first)
    (hsecond : outboundTarget (withSecret record secret) = .ok second)
    (hrequest : ChannelAdapter.webhook.request std sign first message firstTime =
      .ok firstRequest)
    (hother : ChannelAdapter.webhook.request std sign second message secondTime =
      .ok secondRequest) :
    SameButSignature .webhook firstRequest secondRequest ↔
      shownSecret record.metadata record.secret = shownSecret record.metadata secret := by
  obtain ⟨hchannel, hendpoint, hteam, hmetadata⟩ := outboundTarget_eq_ok hfirst
  obtain ⟨hotherChannel, hotherEndpoint, hotherTeam, hotherMetadata⟩ := outboundTarget_eq_ok hsecond
  obtain ⟨hurl, hjson, headers, hheaders, hgiven⟩ := webhook_request hrequest
  obtain ⟨hotherUrl, hotherJson, otherHeaders, hotherHeaders, hotherGiven⟩ := webhook_request hother
  constructor
  · intro hsame
    have hpayloads := hsame.json
    rw [hjson, hotherJson] at hpayloads
    have hsecret : (webhookPayload first message).get? (py "secret") =
        (webhookPayload second message).get? (py "secret") :=
      congrArg (Dict.get? · (py "secret")) (textKeys_injective hpayloads)
    have hbase : ∀ target : OutboundTarget, Dict.get? [(py "message", .str message),
        (py "channel", .str target.channel.val), (py "team", Json.str target.team.val)]
          (py "secret") = none := fun _ => rfl
    rw [get?_webhookPayload _ (hmetadata ▸ nodup_keys_trimKeys _),
      get?_webhookPayload _ (hotherMetadata ▸ nodup_keys_trimKeys _), hbase, hbase,
      Option.or_none, Option.or_none, hmetadata, hotherMetadata, get?_secret_targetMetadata,
      get?_secret_targetMetadata] at hsecret
    exact hsecret
  · intro hshown
    have hsame : first.metadata.val = second.metadata.val := by
      rw [hmetadata, hotherMetadata, targetMetadata_withSecret hshown]
    have hfields : first.channel.val = second.channel.val ∧ first.team.val = second.team.val ∧
        first.endpoint.val = second.endpoint.val :=
      ⟨hchannel.trans hotherChannel.symm, hteam.trans hotherTeam.symm,
        hendpoint.trans hotherEndpoint.symm⟩
    constructor
    · rw [hjson, hotherJson, webhookPayload, webhookPayload, hsame, hfields.1, hfields.2.1]
    · rw [hsame, hotherHeaders] at hheaders
      rw [hgiven, hotherGiven, Except.ok.inj hheaders]
    · rw [if_neg (by decide), hurl, hotherUrl, hfields.2.2]

theorem webhook_text_iff {record : Channel} {target : OutboundTarget} {request : HttpRequest}
    {timestampMs : PyStr} (htarget : outboundTarget record = .ok target)
    (hrequest : ChannelAdapter.webhook.request std sign target message timestampMs =
      .ok request) (msgType : Json) :
    textField .webhook msgType request.json = some (.str message) ↔
      ∀ value ∈ (trimKeys record.metadata).get? (py "message"), value = .str message := by
  obtain ⟨_, _, _, hmetadata⟩ := outboundTarget_eq_ok htarget
  have hread : textField .webhook msgType request.json =
      ((trimKeys record.metadata).get? (py "message")).or (some (.str message)) := by
    rw [(webhook_request hrequest).2.1, textField, entryOf_textKeys,
      get?_webhookPayload _ (hmetadata ▸ nodup_keys_trimKeys _), hmetadata,
      get?_targetMetadata record (by decide)]
    rfl
  rw [hread]
  cases (trimKeys record.metadata).get? (py "message") with
  | none => simp
  | some value => simp

/-- The bodies of two channels that differ in their secret are the same, and hold the
message, exactly unless a webhook shows the secrets or another message. -/
theorem bodies_keep_secret_iff (record : Channel) (secret : PyStr)
    {adapter otherAdapter : ChannelAdapter} {first second : HttpRequest}
    (hfirst : Posts std sign message record adapter first)
    (hsecond : Posts std sign message (withSecret record secret) otherAdapter second) :
    (SameButSignature adapter first second ∧
      (AsksForText (trimKeys record.metadata) →
        textField adapter (metadataOr (trimKeys record.metadata) "msg_type" (.str (py "text")))
          first.json = some (.str message))) ↔
      (adapter = .webhook →
        shownSecret record.metadata record.secret = shownSecret record.metadata secret ∧
          (AsksForText (trimKeys record.metadata) →
            ∀ value ∈ (trimKeys record.metadata).get? (py "message"), value = .str message)) := by
  obtain ⟨target, time, htarget, hadapter, hrequest⟩ := target_of_posts hfirst
  obtain ⟨other, otherTime, hother, hotherAdapter, hotherRequest⟩ := target_of_posts hsecond
  obtain ⟨hchannel, hendpoint, _, hmetadata⟩ := outboundTarget_eq_ok htarget
  obtain ⟨hotherChannel, hotherEndpoint, _, hotherMetadata⟩ := outboundTarget_eq_ok hother
  have hsame : target.channel.val = other.channel.val := hchannel.trans hotherChannel.symm
  rw [hsame, hotherAdapter] at hadapter
  obtain rfl := Option.some.inj hadapter
  by_cases hwebhook : otherAdapter = .webhook
  · subst hwebhook
    rw [webhook_same_iff htarget hother hrequest hotherRequest, webhook_text_iff htarget hrequest]
    exact ⟨fun hboth _ => hboth, fun hcondition => hcondition rfl⟩
  · refine iff_of_true ⟨?_, fun htext => ?_⟩ fun heq => absurd heq hwebhook
    · refine sameButSignature_of_get? hwebhook (hendpoint.trans hotherEndpoint.symm)
        (fun key hkey => ?_) hrequest hotherRequest
      rw [hmetadata, hotherMetadata, get?_targetMetadata_withSecret record secret hkey]
    · have hread : ∀ key default, py key ∉ [py "secret", py "channel_id", py "template_id"] →
          metadataOr target.metadata.val key default =
            metadataOr (trimKeys record.metadata) key default :=
        fun key default hkey => metadataOr_eq (hmetadata ▸ get?_targetMetadata record hkey) default
      rw [← hread _ _ (by decide)]
      apply textField_eq hwebhook _ hrequest
      rwa [AsksForText, hread _ _ (by decide), hread _ _ (by decide), hread _ _ (by decide)]

end Requests

/-- A Slack channel whose metadata has a message of its own. -/
def slackChannel : Channel :=
  withSecret (plainChannel "ops" "slack" [(py "message", .str (py "other"))]) (py "first")

def slackRequest : HttpRequest where
  url := py "http://a"
  json := [(.str (py "text"), .str (py "down"))]
  headers := none

theorem slack_bodies_same :
    SameButSignature .slack slackRequest slackRequest ∧
      (AsksForText (trimKeys slackChannel.metadata) →
        textField .slack
          (metadataOr (trimKeys slackChannel.metadata) "msg_type" (.str (py "text")))
            slackRequest.json = some (.str (py "down"))) :=
  (@bodies_keep_secret_iff asciiStdlib (fun _ _ => []) (py "down") slackChannel (py "second")
    .slack .slack slackRequest slackRequest ⟨_, py "0", rfl, rfl, rfl⟩
    ⟨_, py "0", rfl, rfl, rfl⟩).mpr
      fun hwebhook => absurd hwebhook (by decide)

def webhookChannel (secret : String) : Channel :=
  withSecret (plainChannel "ops" "webhook" []) (py secret)

def webhookRequest (secret : String) : HttpRequest where
  url := py "http://a"
  json := [(.str (py "message"), .str (py "down")), (.str (py "channel"), .str (py "webhook")),
    (.str (py "team"), .str (py "default")), (.str (py "secret"), .str (py secret)),
    (.str (py "channel_id"), .str (py "1")), (.str (py "template_id"), .str [])]
  headers := some [(py "Content-Type", .str (py "application/json"))]

theorem webhook_shows_secret :
    Posts asciiStdlib (fun _ _ => []) (py "down") (webhookChannel "first") .webhook
        (webhookRequest "first") ∧
      Posts asciiStdlib (fun _ _ => []) (py "down")
        (withSecret (webhookChannel "first") (py "second")) .webhook (webhookRequest "second") ∧
      (webhookRequest "first").json ≠ (webhookRequest "second").json := by
  refine ⟨⟨_, py "0", rfl, rfl, rfl⟩, ⟨_, py "0", rfl, rfl, rfl⟩, ?_⟩
  intro hsame
  have hsecrets := congrArg (fun json : JsonPayload => entryOf json "secret") hsame
  exact absurd (Json.str.inj (Option.some.inj hsecrets)) (by decide)

end RootSeeker.ChannelRouting
