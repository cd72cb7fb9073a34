import RootSeeker.Core.Framing
import RootSeeker.Gateway.SignedTokens
import RootSeeker.Python.Utf8

/-!
# Signed tokens, written and read back

A signed token joins its three fields with colons and its capabilities with
commas, inside Base64.  This module says which tokens give back what they were
made of, and which share what is signed.
-/

namespace RootSeeker.Gateway

open Python Contracts Base64

/-! ## The alphabet for URLs -/

def urlsafeSymbols : PyStr :=
  py "ABCDEFGHIJKLMNOPQRSTUVWXYZabcdefghijklmnopqrstuvwxyz0123456789-_"

def urlsafeSymbol (sextet : Sextet) : CodePoint :=
  urlsafeSymbols.getD sextet.val 0

/-- `-` and `_` are translated to `+` and `/` before they are decoded. -/
def urlsafeValue (c : CodePoint) : Option Sextet :=
  if c = CodePoint.ofChar '+' then some 62
  else if c = CodePoint.ofChar '/' then some 63
  else (List.finRange 64).find? fun sextet => urlsafeSymbol sextet = c

def urlsafeAlphabet : Alphabet CodePoint where
  symbol := urlsafeSymbol
  pad := CodePoint.ofChar '='
  value := urlsafeValue
  value_symbol := by decide +kernel
  symbol_ne_pad := by decide +kernel

/-- The codec with the Base64 and UTF-8 of the standard library. -/
def standardCodec (hmacHex : PyStr → PyStr → PyStr) (int : PyStr → Option ℤ)
    (fromTimestamp : ℤ → Except PyError (Option ℤ)) : TokenCodec where
  hmacHex := hmacHex
  urlsafeB64encode text := encode urlsafeAlphabet (utf8 text)
  urlsafeB64decode text := (decode urlsafeAlphabet text).bind utf8Decode
  int := int
  fromTimestamp := fromTimestamp

/-! ## Reading capabilities back -/

section Capabilities

variable {hmacHex : PyStr → PyStr → PyStr} {int : PyStr → Option ℤ}
  {fromTimestamp : ℤ → Except PyError (Option ℤ)}

theorem encodable_join_comma (texts : List PyStr) :
    Encodable (join [comma] texts) ↔ ∀ text ∈ texts, Encodable text := by
  have hcomma : Encodable [comma] := encodable_py ","
  induction texts with
  | nil => simp [join]
  | cons text rest ih =>
    cases rest with
    | nil => simp [join]
    | cons next rest =>
      have hjoin : join [comma] (text :: next :: rest) =
          text ++ ([comma] ++ join [comma] (next :: rest)) :=
        List.intercalate_cons_cons.trans (List.append_assoc _ _ _)
      rw [hjoin, encodable_append, encodable_append, and_iff_right hcomma, List.forall_mem_cons]
      exact and_congr_right' ih

theorem urlsafe_decode_encode {text : PyStr} (hencodable : Encodable text) :
    (standardCodec hmacHex int fromTimestamp).urlsafeB64decode
      ((standardCodec hmacHex int fromTimestamp).urlsafeB64encode text) = some text := by
  change (decode urlsafeAlphabet (encode urlsafeAlphabet (utf8 text))).bind utf8Decode = _
  rw [decode_encode]
  exact utf8Decode_utf8 hencodable

/-- No separator of a token is in its capabilities part. -/
theorem plain_of_mem_encodeCapabilities (capabilities : List PyStr) :
    ∀ c ∈ TokenAuthProvider.encodeCapabilities (standardCodec hmacHex int fromTimestamp)
      capabilities, c ≠ colonChar ∧ isAscii c = true := by
  rw [TokenAuthProvider.encodeCapabilities]
  split
  · exact fun c hc => absurd hc List.not_mem_nil
  · have hsymbol : ∀ sextet, urlsafeSymbol sextet ≠ colonChar ∧
        isAscii (urlsafeSymbol sextet) = true := by decide +kernel
    have hpad : CodePoint.ofChar '=' ≠ colonChar ∧ isAscii (CodePoint.ofChar '=') = true := by
      decide
    exact forall_mem_encode hsymbol hpad _

/-- What the capabilities part is read as. -/
def readBack (capabilities : List PyStr) : List PyStr :=
  if join [comma] capabilities = [] then [] else splitCommas (join [comma] capabilities)

theorem decode_encodeCapabilities {capabilities : List PyStr}
    (hencodable : Encodable (join [comma] capabilities)) :
    TokenAuthProvider.decodeCapabilities (standardCodec hmacHex int fromTimestamp)
      (TokenAuthProvider.encodeCapabilities (standardCodec hmacHex int fromTimestamp)
        capabilities) = readBack capabilities := by
  rw [TokenAuthProvider.encodeCapabilities, readBack]
  by_cases hjoin : join [comma] capabilities = []
  · rw [if_pos hjoin, if_pos hjoin]
    rfl
  · have hpart : (standardCodec hmacHex int fromTimestamp).urlsafeB64encode
        (join [comma] capabilities) ≠ [] := encode_ne_nil (utf8_ne_nil hjoin)
    rw [if_neg hjoin, if_neg hjoin, TokenAuthProvider.decodeCapabilities,
      if_neg hpart, urlsafe_decode_encode hencodable]
    exact if_neg hjoin

theorem readBack_eq_self_iff (capabilities : List PyStr) :
    readBack capabilities = capabilities ↔
      capabilities ≠ [[]] ∧ ∀ capability ∈ capabilities, comma ∉ capability := by
  have hnil := Framing.intercalate_eq_nil_iff comma capabilities
  rw [readBack]
  by_cases hjoin : join [comma] capabilities = []
  · rw [if_pos hjoin]
    cases hnil.mp hjoin with
    | inl hempty => simp [hempty]
    | inr hblank => simp [hblank]
  · obtain ⟨hempty, hblank⟩ := not_or.mp (mt hnil.mpr hjoin)
    rw [if_neg hjoin, and_iff_right hblank]
    exact (Framing.splitOn_intercalate_iff comma capabilities).trans (and_iff_right hempty)

/-- The capabilities part tells the joined text and nothing more. -/
theorem encodeCapabilities_eq_iff {left right : List PyStr}
    (hleft : Encodable (join [comma] left)) (hright : Encodable (join [comma] right)) :
    TokenAuthProvider.encodeCapabilities (standardCodec hmacHex int fromTimestamp) left =
        TokenAuthProvider.encodeCapabilities (standardCodec hmacHex int fromTimestamp) right ↔
      join [comma] left = join [comma] right := by
  have hcode : ∀ capabilities,
      TokenAuthProvider.encodeCapabilities (standardCodec hmacHex int fromTimestamp)
        capabilities = encode urlsafeAlphabet (utf8 (join [comma] capabilities)) := by
    intro capabilities
    rw [TokenAuthProvider.encodeCapabilities]
    split
    · rename_i hjoin
      rw [hjoin]
      rfl
    · rfl
  rw [hcode, hcode]
  constructor
  · intro heq
    have hdecoded := congrArg utf8Decode (encode_injective heq)
    rw [utf8Decode_utf8 hleft, utf8Decode_utf8 hright] at hdecoded
    exact Option.some.inj hdecoded
  · exact fun heq => congrArg (fun text => encode urlsafeAlphabet (utf8 text)) heq

end Capabilities

/-! ## Taking a token apart -/

theorem rsplitColon_append {signature : PyStr} (hsignature : colonChar ∉ signature)
    (body : PyStr) : rsplitColon (body ++ colonChar :: signature) = (body, signature) := by
  have hreverse : (body ++ colonChar :: signature).reverse =
      signature.reverse ++ colonChar :: body.reverse := by simp
  have hkept : ∀ c ∈ signature.reverse, decide (c ≠ colonChar) = true := by
    intro c hc
    simp only [decide_eq_true_eq]
    rintro rfl
    exact hsignature (List.mem_reverse.mp hc)
  rw [rsplitColon, hreverse, List.takeWhile_append_of_pos hkept, List.dropWhile_append_of_pos hkept]
  simp

theorem splitHeader_append {name : PyStr} (hname : colonChar ∉ name) (rest : PyStr) :
    splitHeader (name ++ colonChar :: rest) = (name, rest) := by
  have hkept : ∀ c ∈ name, decide (c ≠ colonChar) = true := by
    intro c hc
    simp only [decide_eq_true_eq]
    rintro rfl
    exact hname hc
  rw [splitHeader, List.takeWhile_append_of_pos hkept, List.dropWhile_append_of_pos hkept]
  simp

theorem colon_not_mem_splitHeader (line : PyStr) : colonChar ∉ (splitHeader line).1 := by
  intro hmem
  have hkept := List.mem_takeWhile_imp hmem
  simp at hkept

/-- The fields of a signed text can be told apart, from the right. -/
theorem signedPayload_inj {clientId otherId timestamp otherTimestamp capsPart otherPart : PyStr}
    (htimestamp : colonChar ∉ timestamp) (hother : colonChar ∉ otherTimestamp)
    (hpart : colonChar ∉ capsPart) (hotherPart : colonChar ∉ otherPart) :
    TokenAuthProvider.signedPayload clientId timestamp capsPart =
        TokenAuthProvider.signedPayload otherId otherTimestamp otherPart ↔
      clientId = otherId ∧ timestamp = otherTimestamp ∧ capsPart = otherPart := by
  constructor
  · intro heq
    rw [TokenAuthProvider.signedPayload, TokenAuthProvider.signedPayload,
      ← List.cons_append, ← List.append_assoc, ← List.cons_append, ← List.append_assoc] at heq
    have houter := congrArg rsplitColon heq
    rw [rsplitColon_append hpart, rsplitColon_append hotherPart] at houter
    have hinner := congrArg rsplitColon (congrArg Prod.fst houter)
    rw [rsplitColon_append htimestamp, rsplitColon_append hother] at hinner
    exact ⟨congrArg Prod.fst hinner, congrArg Prod.snd hinner, congrArg Prod.snd houter⟩
  · rintro ⟨rfl, rfl, rfl⟩
    rfl

variable {codec : TokenCodec}

/-- A verified token names a client without a colon. -/
theorem colon_not_mem_of_verify {provider : TokenAuthProvider} {now : ℤ} {token clientId : PyStr}
    {capabilities : List PyStr} (hverify : provider.verifySignedToken codec now token =
      .ok (some (clientId, capabilities))) : colonChar ∉ clientId := by
  rw [TokenAuthProvider.verifySignedToken] at hverify
  dsimp only at hverify
  split at hverify
  · exact absurd hverify (by simp)
  · split at hverify
    · exact absurd hverify (by simp)
    · split at hverify
      · exact absurd hverify (by simp)
      · split at hverify
        · exact absurd hverify (by simp)
        · split at hverify
          · exact absurd hverify (by simp)
          · split at hverify
            · exact absurd hverify (by simp)
            · exact absurd hverify (by simp)
            · split at hverify
              · exact absurd hverify (by simp)
              · obtain ⟨rfl, _⟩ : _ = clientId ∧ _ = capabilities := by simpa using hverify
                exact colon_not_mem_splitHeader _

/-! ## Round trips -/

/-- Whole seconds after 1970 that a `datetime` can hold. -/
def InDatetimeRange (seconds : ℤ) : Prop :=
  0 ≤ seconds ∧ seconds < 253402300800

instance (seconds : ℤ) : Decidable (InDatetimeRange seconds) :=
  inferInstanceAs (Decidable (_ ∧ _))

/-- The token of a client made at one time and verified at another gives back the
client and the capabilities. -/
def RoundTrips (codec : TokenCodec) (provider : TokenAuthProvider) (clientId : PyStr)
    (capabilities : List PyStr) (createdAt now : ℤ) : Prop :=
  ∃ token, provider.createSignedToken codec clientId capabilities createdAt = .ok token ∧
    provider.verifySignedToken codec now token = .ok (some (clientId, capabilities))

/-- No separator is inside a field, and no single capability is empty. -/
structure Unambiguous (clientId : PyStr) (capabilities : List PyStr) : Prop where
  client : Encodable clientId ∧ colonChar ∉ clientId
  separate : ∀ capability ∈ capabilities, Encodable capability ∧ comma ∉ capability
  not_blank : capabilities ≠ [[]]

/-- The signed time, a whole second, is no further back than the lifetime. -/
def Timely (provider : TokenAuthProvider) (createdAt now : ℤ) : Prop :=
  now - createdAt / 1000000 * 1000000 ≤ provider.lifetime

instance (provider : TokenAuthProvider) (createdAt now : ℤ) :
    Decidable (Timely provider createdAt now) :=
  inferInstanceAs (Decidable (_ ≤ _))

/-- What is signed for a client, its capabilities and a timestamp. -/
def payloadOf (codec : TokenCodec) (clientId : PyStr) (capabilities : List PyStr)
    (seconds : ℤ) : PyStr :=
  TokenAuthProvider.signedPayload clientId (intText seconds)
    (TokenAuthProvider.encodeCapabilities codec capabilities)

section RoundTrip

variable {hmacHex : PyStr → PyStr → PyStr} {int : PyStr → Option ℤ}
  {fromTimestamp : ℤ → Except PyError (Option ℤ)} (provider : TokenAuthProvider)
  {clientId : PyStr} {capabilities : List PyStr} {createdAt : ℤ} (now : ℤ)

theorem plain_of_hexDigit (c : CodePoint) (hc : c ∈ py "0123456789abcdef") :
    c ≠ colonChar ∧ isAscii c = true := by
  have hall : (py "0123456789abcdef").all fun c => c ≠ colonChar ∧ isAscii c = true := by
    decide
  simpa using List.all_eq_true.mp hall c hc

theorem isSurrogate_of_isAscii {c : CodePoint} (hascii : isAscii c = true) :
    isSurrogate c = false := by
  rw [isAscii, decide_eq_true_eq] at hascii
  rw [isSurrogate, Bool.and_eq_false_iff, decide_eq_false_iff_not]
  exact Or.inl (by omega)

theorem isAscii_of_mem_intText {n : ℤ} {c : CodePoint} (hc : c ∈ intText n) : isAscii c = true := by
  cases integer_of_mem_intText hc with
  | inl hdigit =>
    simp only [isDigit, Bool.and_eq_true, decide_eq_true_eq] at hdigit
    rw [isAscii, decide_eq_true_eq]
    omega
  | inr hminus => exact hminus ▸ by decide

theorem encodable_payload {seconds : ℤ} {part : PyStr} (hclient : Encodable clientId)
    (hpart : ∀ c ∈ part, c ≠ colonChar ∧ isAscii c = true) :
    Encodable (TokenAuthProvider.signedPayload clientId (intText seconds) part) := by
  have hcolon : Encodable [colonChar] := encodable_py ":"
  have htime : Encodable (intText seconds) := fun c hc =>
    isSurrogate_of_isAscii (isAscii_of_mem_intText hc)
  have hpart : Encodable part := fun c hc => isSurrogate_of_isAscii (hpart c hc).2
  rw [TokenAuthProvider.signedPayload, ← List.singleton_append (l := part),
    ← List.singleton_append, encodable_append, encodable_append, encodable_append,
    encodable_append]
  exact ⟨hclient, hcolon, htime, hcolon, hpart⟩

/-- The token of a client without a colon is verified as what it was made of,
except that its capabilities are split at their commas. -/
theorem verify_created (hhmac : ∀ key payload, ∀ c ∈ hmacHex key payload, c ∈ py "0123456789abcdef")
    (hint : ∀ seconds, InDatetimeRange seconds → int (intText seconds) = some seconds)
    (hfrom : ∀ seconds, InDatetimeRange seconds →
      fromTimestamp seconds = .ok (some (seconds * 1000000)))
    (hclient : Encodable clientId ∧ colonChar ∉ clientId)
    (hcapabilities : Encodable (join [comma] capabilities))
    (hcreated : InDatetimeRange (createdAt / 1000000)) :
    let codec := standardCodec hmacHex int fromTimestamp
    let payload := payloadOf codec clientId capabilities (createdAt / 1000000)
    provider.verifySignedToken codec now
        (payload ++ colonChar :: hmacHex provider.secretKey payload) =
      if Timely provider createdAt now then .ok (some (clientId, readBack capabilities))
      else .ok none := by
  intro codec payload
  let part := TokenAuthProvider.encodeCapabilities codec capabilities
  let signature := hmacHex provider.secretKey payload
  have hpart : ∀ c ∈ part, c ≠ colonChar ∧ isAscii c = true :=
    plain_of_mem_encodeCapabilities capabilities
  have hsignature : ∀ c ∈ signature, c ≠ colonChar ∧ isAscii c = true := fun c hc =>
    plain_of_hexDigit c (hhmac _ _ c hc)
  have hcolon : colonChar ∉ signature := fun hmem => (hsignature _ hmem).1 rfl
  have hcount : ¬(payload ++ colonChar :: signature).count colonChar < 3 := by
    simp only [payload, payloadOf, TokenAuthProvider.signedPayload, List.count_append,
      List.count_cons_self]
    omega
  have hencodable : Encodable (TokenAuthProvider.signedPayload clientId
      (intText (createdAt / 1000000)) part) := encodable_payload hclient.1 hpart
  have hsigned : signature = codec.hmacHex provider.secretKey
      (TokenAuthProvider.signedPayload clientId (intText (createdAt / 1000000)) part) := rfl
  have hseconds : codec.int (intText (createdAt / 1000000)) = some (createdAt / 1000000) :=
    hint _ hcreated
  have htime : codec.fromTimestamp (createdAt / 1000000) =
      .ok (some (createdAt / 1000000 * 1000000)) := hfrom _ hcreated
  have hcaps : TokenAuthProvider.decodeCapabilities codec part = readBack capabilities :=
    decode_encodeCapabilities hcapabilities
  have hascii : signature.all isAscii = true := by
    rw [List.all_eq_true]
    exact fun c hc => (hsignature c hc).2
  rw [TokenAuthProvider.verifySignedToken, if_neg hcount, rsplitColon_append hcolon]
  dsimp only
  rw [show payload = clientId ++ colonChar :: (intText (createdAt / 1000000) ++
    colonChar :: part) from rfl, splitHeader_append hclient.2]
  dsimp only
  rw [splitHeader_append (colon_not_mem_intText _)]
  dsimp only
  rw [if_neg (not_not.mpr hencodable), if_neg (not_not.mpr hascii),
    if_neg (not_not.mpr hsigned), hseconds]
  dsimp only
  rw [htime]
  dsimp only
  rw [hcaps]
  by_cases htimely : Timely provider createdAt now
  · rw [if_pos htimely, if_neg (not_lt.mpr htimely)]
  · rw [if_neg htimely, if_pos (not_le.mp htimely)]

theorem createSignedToken_ok (hcapabilities : Encodable (join [comma] capabilities))
    (hclient : Encodable clientId) :
    provider.createSignedToken codec clientId capabilities createdAt =
      .ok (payloadOf codec clientId capabilities (createdAt / 1000000) ++ colonChar ::
        codec.hmacHex provider.secretKey
          (payloadOf codec clientId capabilities (createdAt / 1000000))) := by
  rw [TokenAuthProvider.createSignedToken, if_neg]
  · rfl
  · exact fun hraises => hraises.elim (absurd hcapabilities) (absurd hclient)

theorem createSignedToken_error
    (hcreate : ¬(Encodable (join [comma] capabilities) ∧ Encodable clientId)) :
    provider.createSignedToken codec clientId capabilities createdAt =
      .error .unicodeEncodeError := by
  rw [TokenAuthProvider.createSignedToken, if_pos (not_and_or.mp hcreate)]

theorem unambiguous_iff :
    Unambiguous clientId capabilities ↔
      (Encodable (join [comma] capabilities) ∧ Encodable clientId) ∧
        colonChar ∉ clientId ∧ readBack capabilities = capabilities := by
  rw [readBack_eq_self_iff, encodable_join_comma]
  constructor
  · intro hplain
    exact ⟨⟨fun capability hmem => (hplain.separate capability hmem).1, hplain.client.1⟩,
      hplain.client.2, hplain.not_blank,
      fun capability hmem => (hplain.separate capability hmem).2⟩
  · intro ⟨⟨hcapabilities, hclient⟩, hcolon, hblank, hcommas⟩
    exact {
      client := ⟨hclient, hcolon⟩
      separate := fun capability hmem =>
        ⟨hcapabilities capability hmem, hcommas capability hmem⟩
      not_blank := hblank }

theorem roundTrips_iff (hhmac : ∀ key payload, ∀ c ∈ hmacHex key payload, c ∈ py "0123456789abcdef")
    (hint : ∀ seconds, InDatetimeRange seconds → int (intText seconds) = some seconds)
    (hfrom : ∀ seconds, InDatetimeRange seconds →
      fromTimestamp seconds = .ok (some (seconds * 1000000)))
    (hcreated : InDatetimeRange (createdAt / 1000000)) :
    RoundTrips (standardCodec hmacHex int fromTimestamp) provider clientId capabilities
        createdAt now ↔
      Unambiguous clientId capabilities ∧ Timely provider createdAt now := by
  let codec := standardCodec hmacHex int fromTimestamp
  rw [unambiguous_iff]
  by_cases hcreate : Encodable (join [comma] capabilities) ∧ Encodable clientId
  · by_cases hcolon : colonChar ∈ clientId
    · refine iff_of_false ?_ fun hboth => hboth.1.2.1 hcolon
      rintro ⟨token, _, hverify⟩
      exact colon_not_mem_of_verify hverify hcolon
    · have htoken : provider.createSignedToken codec clientId capabilities createdAt = _ :=
        createSignedToken_ok provider hcreate.1 hcreate.2
      have hverify := verify_created provider now hhmac hint hfrom ⟨hcreate.2, hcolon⟩
        hcreate.1 hcreated
      dsimp only at hverify
      have hroundTrips : RoundTrips codec provider clientId capabilities createdAt now ↔
          (if Timely provider createdAt now then
              Except.ok (some (clientId, readBack capabilities))
            else Except.ok none : Except PyError (Option (PyStr × List PyStr))) =
            .ok (some (clientId, capabilities)) := by
        rw [← hverify, RoundTrips, htoken]
        constructor
        · rintro ⟨token, hsame, hread⟩
          rwa [← Except.ok.inj hsame] at hread
        · exact fun hread => ⟨_, rfl, hread⟩
      rw [hroundTrips, and_iff_right hcreate, and_iff_right hcolon]
      by_cases htimely : Timely provider createdAt now
      · rw [if_pos htimely, and_iff_left htimely]
        simp
      · rw [if_neg htimely]
        simp [htimely]
  · refine iff_of_false ?_ fun hboth => hcreate hboth.1.1
    rintro ⟨token, htoken, _⟩
    rw [createSignedToken_error provider hcreate] at htoken
    exact absurd htoken (by simp)

theorem payloadOf_eq_iff {otherId : PyStr} {others : List PyStr} {seconds otherSeconds : ℤ}
    (hcapabilities : Encodable (join [comma] capabilities))
    (hothers : Encodable (join [comma] others)) :
    payloadOf (standardCodec hmacHex int fromTimestamp) clientId capabilities seconds =
        payloadOf (standardCodec hmacHex int fromTimestamp) otherId others otherSeconds ↔
      clientId = otherId ∧ seconds = otherSeconds ∧
        join [comma] capabilities = join [comma] others := by
  have hcolon : ∀ texts : List PyStr, colonChar ∉ TokenAuthProvider.encodeCapabilities
      (standardCodec hmacHex int fromTimestamp) texts := fun texts hmem =>
    (plain_of_mem_encodeCapabilities texts _ hmem).1 rfl
  rw [payloadOf, payloadOf, signedPayload_inj (colon_not_mem_intText _)
    (colon_not_mem_intText _) (hcolon _) (hcolon _), intText_injective.eq_iff,
    encodeCapabilities_eq_iff hcapabilities hothers]

end RoundTrip

/-- A token within its lifetime gives back its client and its capabilities exactly
when no separator is inside a field, no single capability is empty and its whole
second is no further back than the lifetime; and two triples share what is signed
exactly when they differ in how one joined text is cut into capabilities. -/
theorem signed_token_round_trip_iff (hmacHex : PyStr → PyStr → PyStr)
    (int : PyStr → Option ℤ) (fromTimestamp : ℤ → Except PyError (Option ℤ))
    (hhmac : ∀ key payload, ∀ c ∈ hmacHex key payload, c ∈ py "0123456789abcdef")
    (hint : ∀ seconds, InDatetimeRange seconds → int (intText seconds) = some seconds)
    (hfrom : ∀ seconds, InDatetimeRange seconds →
      fromTimestamp seconds = .ok (some (seconds * 1000000)))
    (provider : TokenAuthProvider) (clientId : PyStr) (capabilities : List PyStr)
    (createdAt : ℤ) (hcreated : InDatetimeRange (createdAt / 1000000)) :
    let codec := standardCodec hmacHex int fromTimestamp
    (∀ now, RoundTrips codec provider clientId capabilities createdAt now ↔
      Unambiguous clientId capabilities ∧ Timely provider createdAt now) ∧
    (∀ otherId others otherSeconds, Encodable (join [comma] capabilities) →
      Encodable (join [comma] others) →
      ((payloadOf codec clientId capabilities (createdAt / 1000000) =
            payloadOf codec otherId others otherSeconds →
          (clientId, capabilities, createdAt / 1000000) = (otherId, others, otherSeconds)) ↔
        ¬(clientId = otherId ∧ createdAt / 1000000 = otherSeconds ∧ capabilities ≠ others ∧
          join [comma] capabilities = join [comma] others))) := by
  refine ⟨fun now => roundTrips_iff provider now hhmac hint hfrom hcreated, ?_⟩
  intro otherId others otherSeconds hcapabilities hothers
  rw [payloadOf_eq_iff hcapabilities hothers, Prod.mk.injEq, Prod.mk.injEq]
  tauto

/-! ## The token of an operator -/

/-- `int(text)` of a text of decimal digits. -/
def readDecimal (text : PyStr) : Option ℤ :=
  if text ≠ [] ∧ text.all isDigit then
    some ((text.foldl (fun n c => 10 * n + (c.val - 0x30)) 0 : ℕ) : ℤ)
  else none

theorem readDecimal_decimal (n : ℕ) : readDecimal (decimal n) = some (n : ℤ) := by
  have hdigits : (decimal n).all isDigit = true :=
    List.all_eq_true.mpr isDigit_of_mem_decimal
  have hvalue : (decimal n).foldl (fun n c => 10 * n + (c.val - 0x30)) 0 = n := by
    rw [decimal, List.foldl_map]
    exact Nat.ofDigitChars_ten_toDigits
  rw [readDecimal, if_pos ⟨decimal_ne_nil n, hdigits⟩, hvalue]

theorem readDecimal_intText (seconds : ℤ) (hseconds : InDatetimeRange seconds) :
    readDecimal (intText seconds) = some seconds := by
  obtain ⟨n, rfl⟩ := Int.eq_ofNat_of_zero_le hseconds.1
  exact readDecimal_decimal n

/-- A codec whose signatures are all the same digits. -/
def constantCodec : TokenCodec :=
  standardCodec (fun _ _ => clientDigest) readDecimal fun seconds =>
    .ok (some (seconds * 1000000))

theorem hexDigits_clientDigest (key payload : PyStr) :
    ∀ c ∈ (fun _ _ => clientDigest) key payload, c ∈ py "0123456789abcdef" := by
  have hall : clientDigest.all fun c => c ∈ py "0123456789abcdef" := by decide
  simpa using List.all_eq_true.mp hall

/-- A plain client with a plain capability. -/
theorem plain_token_round_trips :
    RoundTrips constantCodec clientProvider (py "cli") [py "system:read"] 1700000000000000
      1700000060000000 := by
  apply ((signed_token_round_trip_iff _ readDecimal _ hexDigits_clientDigest
    readDecimal_intText (fun _ _ => rfl) clientProvider (py "cli") [py "system:read"]
    1700000000000000 (by decide)).1 1700000060000000).mpr
  refine ⟨⟨⟨by decide, by decide⟩, ?_, by decide⟩, by decide⟩
  intro capability hmem
  rw [List.mem_singleton.mp hmem]
  exact ⟨encodable_py _, by decide⟩

/-- A capability list that allows nothing reads back as the list that restricts nothing. -/
theorem blank_capability_lifts_restrictions :
    ∃ token, clientProvider.createSignedToken constantCodec (py "cli") [[]]
        1700000000000000 = .ok token ∧
      clientProvider.verifySignedToken constantCodec 1700000060000000 token =
        .ok (some (py "cli", [])) ∧
      ¬RoundTrips constantCodec clientProvider (py "cli") [[]] 1700000000000000
        1700000060000000 := by
  have hjoin : Encodable (join [comma] [[]]) := encodable_py ""
  have hclient : Encodable (py "cli") := encodable_py "cli"
  have hverify := verify_created clientProvider 1700000060000000 hexDigits_clientDigest
    readDecimal_intText (fun _ _ => rfl) ⟨hclient, by decide⟩ hjoin
    (by decide : InDatetimeRange (1700000000000000 / 1000000))
  dsimp only at hverify
  rw [if_pos (by decide), show readBack [[]] = [] from rfl] at hverify
  refine ⟨_, createSignedToken_ok clientProvider hjoin hclient, hverify, ?_⟩
  rintro ⟨token, hcreate, hread⟩
  rw [createSignedToken_ok clientProvider hjoin hclient] at hcreate
  rw [← Except.ok.inj hcreate] at hread
  exact absurd (hverify.symm.trans hread) (by simp)

end RootSeeker.Gateway
