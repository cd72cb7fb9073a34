import RootSeeker.ChannelRouting.Security

/-!
# Signed webhooks

What the signature of a webhook proves.  The signing text determines the
payload.  The endpoint, however, verifies the payload after it has added the
channel and after the model has stripped its keys, and it compares the stripped
header: a correctly signed payload passes only where none of this changes
anything.
-/

namespace RootSeeker.ChannelRouting

open Python Contracts Analysis Framing

/-! ## The signing text determines the payload -/

theorem readBefore_reprPair {std : Stdlib} (hfloats : FloatsPrinted std)
    (entry : PyStr × Json) : ReadBefore Delimiter (reprPair std) entry := by
  intro other rest otherRest _ _ heq
  simp only [reprPair, List.append_assoc] at heq
  obtain ⟨hkey, hvalues⟩ := reprText_append_inj std (List.append_cancel_left heq)
  have hclosed : ∀ (tail : PyStr), ∀ c ∈ (py ")" ++ tail).head?, Delimiter c := by
    intro tail c hc
    obtain rfl := Option.some.inj hc
    decide
  obtain ⟨hvalue, hrests⟩ := readBefore_repr hfloats entry.2 other.2 _ _
    (hclosed rest) (hclosed otherRest) (List.append_cancel_left hvalues)
  exact ⟨Prod.ext hkey hvalue, List.append_cancel_left hrests⟩

theorem signingText_injective {std : Stdlib} (hfloats : FloatsPrinted std) {left right : Fields}
    (heq : signingText std left = signingText std right) : left.Perm right := by
  simp only [signingText, List.append_assoc] at heq
  have hhead : ∀ entry : PyStr × Json, ∃ c tail, reprPair std entry = c :: tail ∧
      c ≠ CodePoint.ofChar ']' := by
    intro entry
    exact ⟨CodePoint.ofChar '(', _, by simp only [reprPair, List.append_assoc]; rfl, by decide⟩
  have hsorted : sortedItems left = sortedItems right :=
    (intercalate_inj (by decide) (by decide) (by decide) hhead
      (fun entry _ => readBefore_reprPair hfloats entry)
      (List.append_cancel_left heq)).1
  have hleft : (sortedItems left).Perm left := List.perm_insertionSort _ left
  have hright : (sortedItems right).Perm right := List.perm_insertionSort _ right
  rw [hsorted] at hleft
  exact hleft.symm.trans hright

/-! ## What stripping changes -/

/-- A decoded object: its keys differ. -/
abbrev JsonObject := {fields : Fields // fields.keys.Nodup}

/-- The payload that is verified instead of the posted one. -/
def verifiedPayload (channel : PyStr) (payload : JsonObject) : Fields :=
  trimKeys (payload.val.set (py "_channel") (.str channel))

/-- The posted payload carries the channel already, and no key has white space at
its ends. -/
def SentAsVerified (channel : PyStr) (payload : JsonObject) : Prop :=
  payload.val.get? (py "_channel") = some (.str channel) ∧
    ∀ key ∈ payload.val.keys, trim key = key

theorem verifiedPayload_of_sentAsVerified {channel : PyStr} {payload : JsonObject}
    (hsent : SentAsVerified channel payload) : verifiedPayload channel payload = payload.val := by
  rw [verifiedPayload, Dict.set_eq_self hsent.1]
  exact trimKeys_eq_self payload.property hsent.2

theorem sentAsVerified_of_perm {channel : PyStr} {payload : JsonObject}
    (hperm : (verifiedPayload channel payload).Perm payload.val) :
    SentAsVerified channel payload := by
  have hkeys : (verifiedPayload channel payload).keys.Perm payload.val.keys :=
    hperm.map Prod.fst
  have htrimmed : ∀ key ∈ payload.val.keys, trim key = key := by
    intro key hkey
    have hverified := hkeys.mem_iff.mpr hkey
    rw [verifiedPayload, mem_keys_trimKeys] at hverified
    obtain ⟨original, _, rfl⟩ := List.mem_map.mp hverified
    exact trim_trim original
  refine ⟨?_, htrimmed⟩
  have hset : verifiedPayload channel payload = payload.val.set (py "_channel") (.str channel) := by
    apply trimKeys_eq_self (Dict.nodup_keys_set payload.property _ _)
    intro key hkey
    rcases (Dict.mem_keys_set _ _ _ _).mp hkey with rfl | hold
    · decide
    · exact htrimmed key hold
  rw [hset] at hperm
  apply Dict.get?_of_mem payload.property
  apply hperm.mem_iff.mp
  exact Dict.mem_of_get? (Dict.get?_set_self _ _ _)

theorem signingText_verified_iff {std : Stdlib} (hfloats : FloatsPrinted std)
    (channel : PyStr) (payload : JsonObject) :
    signingText std (verifiedPayload channel payload) = signingText std payload.val ↔
      SentAsVerified channel payload := by
  constructor
  · intro heq
    exact sentAsVerified_of_perm (signingText_injective hfloats heq)
  · intro hsent
    rw [verifiedPayload_of_sentAsVerified hsent]

/-! ## The message -/

theorem trimEntries_requestHeaders (headers : RequestHeaders) :
    trimEntries headers.fields = headers.fields.map fun entry => (entry.1, trim entry.2) := by
  have hnames : (headers.fields.map fun entry => (trim entry.1, trim entry.2)) =
      headers.fields.map fun entry => (entry.1, trim entry.2) := by
    apply List.map_congr_left
    intro entry hentry
    rw [trim_eq_self_of_plain
      (headers.names_tokens entry.1 (List.mem_map_of_mem (f := Prod.fst) hentry))]
  rw [trimEntries, hnames]
  apply Dict.update_nil_of_nodup
  have hkeys := keys_map_value (fun name => name) trim headers.fields
  rw [hkeys, List.map_id']
  exact headers.names_distinct

theorem validateHeaders_requestHeaders (headers : RequestHeaders) :
    validateHeaders headers.fields =
      .ok (headers.fields.map fun entry => (entry.1, trim entry.2)) := by
  rw [← trimEntries_requestHeaders]
  apply if_pos
  intro entry hentry
  constructor
  · exact encodable_of_plain
      (headers.names_tokens entry.1 (List.mem_map_of_mem (f := Prod.fst) hentry))
  · intro c hc
    have hbyte := headers.values_bytes entry hentry c hc
    simp only [isSurrogate, Bool.and_eq_false_iff, decide_eq_false_iff_not]
    omega

/-- What a message with this channel and payload needs to be accepted. -/
def MessageAccepted (channel : PyStr) (payload : Fields) : Prop :=
  (trim channel ≠ [] ∧ Encodable channel) ∧ KeysEncodable payload

theorem keysEncodable_set_iff (fields : Fields) {key : PyStr} (hkey : Encodable key)
    (value : Json) : KeysEncodable (fields.set key value) ↔ KeysEncodable fields := by
  unfold KeysEncodable
  simp only [Dict.mem_keys_set, forall_eq_or_imp]
  exact and_iff_right hkey

section Request

variable {request : WebhookRequest} {payload : JsonObject}

theorem requestMessage_of_accepted (hbody : request.body = some (.obj payload.val))
    (haccepted : MessageAccepted request.channel payload.val) :
    ∃ message, requestMessage request = .ok message ∧
      message.payload.val = verifiedPayload request.channel payload ∧
      message.headers = request.headers.fields.map fun entry => (entry.1, trim entry.2) := by
  have hchannel : trim request.channel ≠ [] ∧ Encodable (trim request.channel) :=
    haccepted.1.imp_right encodable_trim_iff.mpr
  have hkeys : KeysEncodable (verifiedPayload request.channel payload) := by
    rw [verifiedPayload, keysEncodable_trimKeys_iff,
      keysEncodable_set_iff _ (encodable_py "_channel")]
    exact haccepted.2
  have hip : ∃ ip, request.remoteIp.mapM validateText = .ok ip := by
    cases hremote : request.remoteIp with
    | none => exact ⟨none, rfl⟩
    | some ip =>
      have hencodable := request.remoteIp_encodable ip hremote
      exact ⟨some (trim ip), by simp [validateText, hencodable, Option.mapM]⟩
  obtain ⟨ip, hip⟩ := hip
  refine ⟨⟨⟨_, hchannel⟩, ⟨_, hkeys⟩, _, ip⟩, ?_, rfl, rfl⟩
  rw [requestMessage, hbody]
  simp only [requestPayload, ChannelMessage.validate,
    RequiredStr.validate_of_valid hchannel, validateHeaders_requestHeaders, hip, bind,
    Except.bind, pure, Except.pure]
  rw [verifiedPayload] at hkeys
  rw [Mapping.validate_of_encodable hkeys]
  rfl

theorem exists_error_of_not_accepted (hbody : request.body = some (.obj payload.val))
    (hrejected : ¬MessageAccepted request.channel payload.val) :
    requestMessage request = .error .validationError := by
  rw [requestMessage, hbody]
  simp only [requestPayload, ChannelMessage.validate, bind, Except.bind, pure, Except.pure]
  by_cases hchannel : trim request.channel ≠ [] ∧ Encodable (trim request.channel)
  · have hkeys : ¬KeysEncodable (trimKeys
        (payload.val.set (py "_channel") (.str request.channel))) := by
      rw [keysEncodable_trimKeys_iff, keysEncodable_set_iff _ (encodable_py "_channel")]
      intro hkeys
      exact hrejected ⟨hchannel.imp_right encodable_trim_iff.mp, hkeys⟩
    rw [RequiredStr.validate_of_valid hchannel, Mapping.validate_of_not_encodable hkeys]
  · rw [RequiredStr.validate_of_not_valid hchannel]

end Request

/-! ## The law -/

/-- The header as it was sent. -/
def signature (request : WebhookRequest) : Option PyStr :=
  request.headers.fields.get? (py "x-signature")

/-- The header as it is compared. -/
def suppliedSignature (request : WebhookRequest) : PyStr :=
  ((signature request).map trim).getD []

def signedOnly (secret : PyStr) : ChannelSecurity where
  allowlistIps := []
  signingSecret := some secret

/-- The check as the endpoint reaches it. -/
def securityCheck (std : Stdlib) (hmac : Hmac) (secret : PyStr) (request : WebhookRequest) :
    Except PyError Unit := do
  let message ← requestMessage request
  ChannelSecurity.validate std hmac (signedOnly secret) message

section Law

variable {std : NumberStdlib} (analysis : TextAnalysis) (hmac : Hmac) {secret : PyStr}
  {request : WebhookRequest} {payload : JsonObject}

theorem validate_signedOnly (hsecret : secret ≠ []) {message : ChannelMessage}
    (hpayload : message.payload.val = verifiedPayload request.channel payload)
    (hheaders : message.headers =
      request.headers.fields.map fun entry => (entry.1, trim entry.2)) :
    ChannelSecurity.validate std.toStdlib hmac (signedOnly secret) message =
      if (suppliedSignature request).all isAscii then
        if suppliedSignature request = hmac.hexDigest secret
            (signingText std.toStdlib (verifiedPayload request.channel payload)) then .ok ()
        else .error (.valueError (py "invalid signature"))
      else .error .typeError := by
  have hdigest : (hmac.hexDigest secret (signingText std.toStdlib
      (verifiedPayload request.channel payload))).all isAscii = true := by
    rw [List.all_eq_true]
    intro c hc
    exact (hmac.ascii secret _ c hc).1
  have hsupplied : (message.headers.get? (py "x-signature")).getD [] =
      suppliedSignature request := by
    rw [hheaders, Dict.get?_mapValues, suppliedSignature, signature]
  have hfilter : Option.filter (fun secret : PyStr => decide (secret ≠ [])) (some secret) =
      some secret := by
    simp [hsecret]
  simp only [ChannelSecurity.validate, signedOnly, ne_eq, not_true_eq_false, false_and, if_false]
  simp only [ne_eq] at hfilter
  rw [hfilter]
  simp only [hsupplied, hpayload, compareDigest, hdigest, and_true]
  split
  · split
    · rename_i hsame
      simp [hsame, bind, Except.bind, pure, Except.pure]
    · rename_i hdifferent
      simp [hdifferent, bind, Except.bind, throw, throwThe, MonadExceptOf.throw]
  · rfl

/-- The check passes exactly for the signature of the posted payload, and every
other header is answered with 403. -/
structure AcceptsOnlySigned (std : NumberStdlib) (analysis : TextAnalysis) (hmac : Hmac)
    (secret : PyStr) (request : WebhookRequest) (payload : JsonObject) : Prop where
  accepts : securityCheck std.toStdlib hmac secret request = .ok () ↔
    signature request =
      some (hmac.hexDigest secret (signingText std.toStdlib payload.val))
  rejects : signature request ≠
      some (hmac.hexDigest secret (signingText std.toStdlib payload.val)) →
    (∃ text, securityCheck std.toStdlib hmac secret request = .error (.valueError text)) ∧
      ∃ raised, handleWebhook std analysis hmac (some (signedOnly secret)) request =
        .forbidden raised

/-- The message is accepted; the signature of the posted payload comes with a
payload that is verified as it was posted; any other header is ASCII and not the
signature of the payload that is verified instead. -/
structure UsableSignature (std : Stdlib) (hmac : Hmac) (secret : PyStr)
    (request : WebhookRequest) (payload : JsonObject) : Prop where
  accepted : MessageAccepted request.channel payload.val
  signed : signature request = some (hmac.hexDigest secret (signingText std payload.val)) →
    SentAsVerified request.channel payload
  unsigned :
    signature request ≠ some (hmac.hexDigest secret (signingText std payload.val)) →
      (suppliedSignature request).all isAscii = true ∧
        suppliedSignature request ≠ hmac.hexDigest secret
          (signingText std (verifiedPayload request.channel payload))

theorem suppliedSignature_of_posted {text : PyStr}
    (hsigned : signature request = some (hmac.hexDigest secret text)) :
    suppliedSignature request = hmac.hexDigest secret text := by
  rw [suppliedSignature, hsigned]
  exact trim_eq_self_of_plain (hmac.ascii secret text)

theorem all_isAscii_hexDigest (secret text : PyStr) :
    (hmac.hexDigest secret text).all isAscii = true := by
  rw [List.all_eq_true]
  intro c hc
  exact (hmac.ascii secret text c hc).1

theorem securityCheck_of_accepted (std : NumberStdlib) (hmac : Hmac) (hsecret : secret ≠ [])
    (hbody : request.body = some (.obj payload.val))
    (haccepted : MessageAccepted request.channel payload.val) :
    securityCheck std.toStdlib hmac secret request =
      if (suppliedSignature request).all isAscii then
        if suppliedSignature request = hmac.hexDigest secret
            (signingText std.toStdlib (verifiedPayload request.channel payload)) then .ok ()
        else .error (.valueError (py "invalid signature"))
      else .error .typeError := by
  obtain ⟨message, hmessage, hpayload, hheaders⟩ := requestMessage_of_accepted hbody haccepted
  rw [← validate_signedOnly hmac hsecret hpayload hheaders, securityCheck, hmessage]
  rfl

/-- A `ValueError` of the check is answered with 403. -/
theorem forbidden_of_securityCheck {text : PyStr}
    (hcheck : securityCheck std.toStdlib hmac secret request = .error (.valueError text)) :
    (∃ raised, requestMessage request = .error raised) ∨
      handleWebhook std analysis hmac (some (signedOnly secret)) request =
        .forbidden (.valueError text) := by
  unfold securityCheck at hcheck
  unfold handleWebhook ingestChannelMessage
  cases hmessage : requestMessage request with
  | error raised => exact Or.inl ⟨raised, rfl⟩
  | ok message =>
    rw [hmessage] at hcheck
    have hvalidate : ChannelSecurity.validate std.toStdlib hmac (signedOnly secret)
        message = .error (.valueError text) := hcheck
    right
    simp [Option.forM, hvalidate, bind, Except.bind, PyError.isValueError]

theorem acceptsOnlySigned_iff_of_signed (hfloats : FloatsPrinted std.toStdlib)
    (hsecret : secret ≠ []) (hbody : request.body = some (.obj payload.val))
    (haccepted : MessageAccepted request.channel payload.val) (hsigned : signature request =
      some (hmac.hexDigest secret (signingText std.toStdlib payload.val))) :
    AcceptsOnlySigned std analysis hmac secret request payload ↔
      SentAsVerified request.channel payload := by
  have hcheck := securityCheck_of_accepted std hmac hsecret hbody haccepted
  rw [suppliedSignature_of_posted hmac hsigned,
    if_pos (all_isAscii_hexDigest hmac secret _)] at hcheck
  rw [← signingText_verified_iff hfloats]
  constructor
  · intro hlaw
    have hok := hlaw.accepts.mpr hsigned
    rw [hcheck] at hok
    by_contra hdifferent
    rw [if_neg fun hsame => hdifferent (hmac.injective secret hsame).symm] at hok
    exact absurd hok (by simp)
  · intro hsame
    constructor
    · rw [hcheck, hsame, if_pos rfl]
      exact iff_of_true rfl hsigned
    · intro hunsigned
      exact absurd hsigned hunsigned

theorem acceptsOnlySigned_iff_of_unsigned (hsecret : secret ≠ [])
    (hbody : request.body = some (.obj payload.val))
    (haccepted : MessageAccepted request.channel payload.val) (hunsigned : signature request ≠
      some (hmac.hexDigest secret (signingText std.toStdlib payload.val))) :
    AcceptsOnlySigned std analysis hmac secret request payload ↔
      (suppliedSignature request).all isAscii = true ∧
        suppliedSignature request ≠ hmac.hexDigest secret
          (signingText std.toStdlib (verifiedPayload request.channel payload)) := by
  have hcheck := securityCheck_of_accepted std hmac hsecret hbody haccepted
  constructor
  · intro hlaw
    obtain ⟨⟨text, herror⟩, _⟩ := hlaw.rejects hunsigned
    rw [hcheck] at herror
    by_cases hascii : (suppliedSignature request).all isAscii = true
    · refine ⟨hascii, ?_⟩
      intro hsame
      rw [if_pos hascii, if_pos hsame] at herror
      exact absurd herror (by simp)
    · rw [if_neg hascii] at herror
      exact absurd herror (by simp)
  · intro hboth
    rw [if_pos hboth.1, if_neg hboth.2] at hcheck
    constructor
    · rw [hcheck]
      exact iff_of_false (by simp) hunsigned
    · intro _
      refine ⟨⟨_, hcheck⟩, ?_⟩
      rcases forbidden_of_securityCheck analysis hmac hcheck with ⟨raised, hraised⟩ | hreply
      · obtain ⟨message, hmessage, _⟩ := requestMessage_of_accepted hbody haccepted
        rw [hmessage] at hraised
        exact absurd hraised (by simp)
      · exact ⟨_, hreply⟩

/-- Two payloads with one signing text are the same, and the endpoint accepts
the correct signature and nothing else exactly for usable signatures. -/
theorem webhook_signature_law (hfloats : FloatsPrinted std.toStdlib)
    (hsecret : secret ≠ []) (hbody : request.body = some (.obj payload.val)) :
    (∀ left right : JsonObject, signingText std.toStdlib left.val =
        signingText std.toStdlib right.val → left.val.Perm right.val) ∧
      (AcceptsOnlySigned std analysis hmac secret request payload ↔
        UsableSignature std.toStdlib hmac secret request payload) := by
  refine ⟨fun left right heq => signingText_injective hfloats heq, ?_⟩
  by_cases haccepted : MessageAccepted request.channel payload.val
  · by_cases hsigned : signature request =
        some (hmac.hexDigest secret (signingText std.toStdlib payload.val))
    · rw [acceptsOnlySigned_iff_of_signed analysis hmac hfloats hsecret hbody haccepted hsigned]
      constructor
      · intro hsent
        exact ⟨haccepted, fun _ => hsent, fun hunsigned => absurd hsigned hunsigned⟩
      · intro husable
        exact husable.signed hsigned
    · rw [acceptsOnlySigned_iff_of_unsigned analysis hmac hsecret hbody haccepted hsigned]
      constructor
      · intro hboth
        exact ⟨haccepted, fun hposted => absurd hposted hsigned, fun _ => hboth⟩
      · intro husable
        exact husable.unsigned hsigned
  · have hmessage := exists_error_of_not_accepted hbody haccepted
    have hcheck : securityCheck std.toStdlib hmac secret request = .error .validationError := by
      rw [securityCheck, hmessage]
      rfl
    constructor
    · intro hlaw
      by_cases hsigned : signature request =
          some (hmac.hexDigest secret (signingText std.toStdlib payload.val))
      · have hok := hlaw.accepts.mpr hsigned
        rw [hcheck] at hok
        exact absurd hok (by simp)
      · obtain ⟨⟨text, herror⟩, _⟩ := hlaw.rejects hsigned
        rw [hcheck] at herror
        exact absurd herror (by simp)
    · intro husable
      exact absurd husable.accepted haccepted

end Law

/-! ## Two signed requests -/

theorem plain_hexDigit (n : ℕ) : isAscii (hexDigit n) = true ∧ isSpace (hexDigit n) = false := by
  have hval : (0x30 ≤ (hexDigit n).val ∧ (hexDigit n).val ≤ 0x39) ∨
      (0x61 ≤ (hexDigit n).val ∧ (hexDigit n).val ≤ 0x66) := by
    unfold hexDigit
    split
    · left
      simp only
      omega
    · right
      simp only
      omega
  simp only [isAscii, isSpace, decide_eq_true_eq, Bool.or_eq_false_iff,
    Bool.and_eq_false_iff, decide_eq_false_iff_not]
  omega

theorem plain_of_mem_hex {width n : ℕ} {c : CodePoint} (hc : c ∈ hex width n) :
    isAscii c = true ∧ isSpace c = false := by
  induction width generalizing n with
  | zero => exact absurd hc List.not_mem_nil
  | succ width ih =>
    rcases List.mem_append.mp hc with hleft | hlast
    · exact ih hleft
    · rw [List.mem_singleton.mp hlast]
      exact plain_hexDigit n

theorem spelled_injective :
    Function.Injective fun text : PyStr => text.flatMap fun c => hex 6 c.val := by
  intro left right heq
  simp only at heq
  induction left generalizing right with
  | nil =>
    cases right with
    | nil => rfl
    | cons d others => exact absurd (congrArg List.length heq) (by simp [length_hex]; omega)
  | cons c text ih =>
    cases right with
    | nil => exact absurd (congrArg List.length heq) (by simp [length_hex])
    | cons d others =>
      rw [List.flatMap_cons, List.flatMap_cons] at heq
      obtain ⟨hval, hrest⟩ := hex_append_inj (by omega) (by omega) heq
      rw [Fin.ext hval, ih hrest]

/-- A digest that spells out the text in hexadecimal. -/
def spelledHmac : Hmac where
  hexDigest _ text := py "0" ++ text.flatMap fun c => hex 6 c.val
  injective := by
    intro _ left right heq
    exact spelled_injective (List.append_cancel_left heq)
  ascii := by
    intro _ text c hc
    rcases List.mem_append.mp hc with hzero | hspelled
    · rw [List.mem_singleton.mp hzero]
      decide
    · obtain ⟨d, _, hd⟩ := List.mem_flatMap.mp hspelled
      exact plain_of_mem_hex hd
  nonempty := by
    intro _ text
    simp [py]

theorem floatsPrinted_numberStdlib : FloatsPrinted numberStdlib.toStdlib :=
  floatsPrinted_asciiStdlib

/-- A request of the channel `webhook` with the signature of its payload. -/
def signedRequest (payload : JsonObject) : WebhookRequest where
  channel := py "webhook"
  body := some (.obj payload.val)
  headers :=
    { fields := [(py "x-signature",
        spelledHmac.hexDigest (py "secret") (signingText asciiStdlib payload.val))]
      names_distinct := List.nodup_singleton _
      names_tokens := by
        intro name hname c hc
        rw [Dict.keys, List.map_singleton, List.mem_singleton] at hname
        rw [hname] at hc
        have hplain : (py "x-signature").all (fun c => isAscii c && !isSpace c) = true := by decide
        simpa using List.all_eq_true.mp hplain c hc
      values_bytes := by
        intro entry hentry c hc
        rw [List.mem_singleton] at hentry
        rw [hentry] at hc
        have hascii := (spelledHmac.ascii (py "secret") _ c hc).1
        simp only [isAscii, decide_eq_true_eq] at hascii
        exact hascii.trans (by decide) }
  remoteIp := none
  remoteIp_encodable := by simp

def channelObject : JsonObject :=
  ⟨[(py "_channel", .str (py "webhook"))], by simp [Dict.keys]⟩

def emptyObject : JsonObject :=
  ⟨[], by simp [Dict.keys]⟩

theorem messageAccepted_webhook (payload : JsonObject) (hkeys : KeysEncodable payload.val) :
    MessageAccepted (signedRequest payload).channel payload.val :=
  ⟨⟨(by decide : trim (py "webhook") ≠ []), encodable_py "webhook"⟩, hkeys⟩

theorem signature_signedRequest (payload : JsonObject) :
    signature (signedRequest payload) =
      some (spelledHmac.hexDigest (py "secret") (signingText asciiStdlib payload.val)) :=
  rfl

/-- A sender that puts the channel into the payload itself. -/
theorem channelObject_accepted :
    AcceptsOnlySigned numberStdlib noFindings spelledHmac (py "secret")
      (signedRequest channelObject) channelObject := by
  apply (webhook_signature_law noFindings spelledHmac floatsPrinted_asciiStdlib
    (by decide) rfl).2.mpr
  constructor
  · exact messageAccepted_webhook channelObject (by decide)
  · intro _
    exact ⟨rfl, by decide⟩
  · intro hunsigned
    exact absurd (signature_signedRequest channelObject) hunsigned

/-- A sender that does not. -/
theorem emptyObject_rejected :
    ¬AcceptsOnlySigned numberStdlib noFindings spelledHmac (py "secret")
      (signedRequest emptyObject) emptyObject := by
  intro hlaw
  have hbody : (signedRequest emptyObject).body = some (.obj emptyObject.val) := rfl
  have hsent := (acceptsOnlySigned_iff_of_signed noFindings spelledHmac
    floatsPrinted_numberStdlib (by decide) hbody
    (messageAccepted_webhook emptyObject (by decide))
    (signature_signedRequest emptyObject)).mp hlaw
  exact absurd hsent.1 (Option.some_ne_none _).symm

end RootSeeker.ChannelRouting
