import RootSeeker.McpPlane.StdioSession

/-!
# The output of an MCP server

The output of a server, as it is meant, is a sequence of messages in either
framing, of blank lines and of banner lines, which ends or comes to a halt.
This module reads such an output with the functions of the session, item by
item.
-/

namespace RootSeeker.McpPlane

open Python Streams

section Reading

variable {std : Stdlib} {codec : Codec} {tail : PyStr}

/-! ## Reads get on -/

theorem headerTurn_smaller (state next : Dict PyStr PyStr × Output)
    (hturn : headerTurn std codec tail state = .inl next) : next.2.length < state.2.length := by
  rw [headerTurn] at hturn
  split at hturn
  · exact absurd hturn (by simp)
  next line rest hread =>
    split at hturn
    · exact absurd hturn (by simp)
    next hline =>
      have hlength := length_of_readline hread
      have hpos := List.length_pos_of_ne_nil hline
      dsimp only at hturn
      split at hturn
      · exact absurd hturn (by simp)
      split at hturn
      · rw [← Sum.inl.inj hturn]
        dsimp only
        omega
      · rw [← Sum.inl.inj hturn]
        dsimp only
        omega

theorem length_readHeaders_le (headers : Dict PyStr PyStr) (output : Output) :
    (readHeaders std codec tail headers output).2.length ≤ output.length := by
  apply loop_rule (fun state => state.2.length ≤ output.length)
    (fun result => result.2.length ≤ output.length) headerTurn_smaller
  · intro state next hstate hturn
    exact (headerTurn_smaller state next hturn).le.trans hstate
  · intro state result hstate hturn
    rw [headerTurn] at hturn
    split at hturn
    · rw [← Sum.inr.inj hturn]
      exact hstate
    next line rest hread =>
      have hlength := length_of_readline hread
      split at hturn
      · rw [← Sum.inr.inj hturn]
        dsimp only
        omega
      dsimp only at hturn
      split at hturn
      · rw [← Sum.inr.inj hturn]
        dsimp only
        omega
      split at hturn
      · exact absurd hturn (by simp)
      · exact absurd hturn (by simp)
  · exact le_refl _

theorem length_readBody_le (headers : Dict PyStr PyStr) (output : Output) :
    (readBody std codec headers output).2.length ≤ output.length := by
  rw [readBody]
  split
  · exact le_refl _
  split
  · exact le_refl _
  split
  · exact le_refl _
  next body rest hread =>
    have hwhole := congrArg List.length (eq_append_of_read hread)
    rw [List.length_append] at hwhole
    split
    · dsimp only
      omega
    · dsimp only
      omega

theorem length_readContentLengthMessage_le (line : PyStr) (output : Output) :
    (readContentLengthMessage std codec tail line output).2.length ≤ output.length := by
  have hheaders := @length_readHeaders_le std codec tail (addHeader std [] line) output
  rw [readContentLengthMessage]
  split
  next heq =>
    rw [heq] at hheaders
    exact hheaders
  next headers rest heq =>
    rw [heq] at hheaders
    exact (length_readBody_le headers rest).trans hheaders

theorem messageTurn_smaller (output next : Output)
    (hturn : messageTurn std codec tail output = .inl next) : next.length < output.length := by
  rw [messageTurn] at hturn
  split at hturn
  · exact absurd hturn (by simp)
  next line rest hread =>
    split at hturn
    · exact absurd hturn (by simp)
    next hline =>
      have hlength := length_of_readline hread
      have hpos := List.length_pos_of_ne_nil hline
      dsimp only at hturn
      split at hturn
      · rw [← Sum.inl.inj hturn]
        omega
      split at hturn
      · exact absurd hturn (by simp)
      split at hturn
      · exact absurd hturn (by simp)
      split at hturn
      · rw [← Sum.inl.inj hturn]
        omega
      · exact absurd hturn (by simp)

/-- A message takes something of the output. -/
theorem length_readMessage_lt (output : Output) (fields : Fields)
    (hmessage : (readMessage std codec tail output).1 = .message fields) :
    (readMessage std codec tail output).2.length < output.length := by
  revert hmessage
  apply loop_rule (fun state => state.length ≤ output.length)
    (fun result => result.1 = .message fields → result.2.length < output.length)
    messageTurn_smaller
  · intro state next hstate hturn
    exact (messageTurn_smaller state next hturn).le.trans hstate
  · intro state result hstate hturn hmessage
    rw [messageTurn] at hturn
    split at hturn
    · rw [← Sum.inr.inj hturn] at hmessage
      exact absurd hmessage (by simp)
    next line rest hread =>
      split at hturn
      · rw [← Sum.inr.inj hturn] at hmessage
        exact absurd hmessage (by simp)
      next hline =>
        have hlength := length_of_readline hread
        have hpos := List.length_pos_of_ne_nil hline
        have hshorter : rest.length < output.length := by omega
        dsimp only at hturn
        split at hturn
        · exact absurd hturn (by simp)
        split at hturn
        · rw [← Sum.inr.inj hturn]
          exact hshorter
        split at hturn
        · rw [← Sum.inr.inj hturn]
          exact (length_readContentLengthMessage_le _ rest).trans_lt hshorter
        split at hturn
        · exact absurd hturn (by simp)
        · rw [← Sum.inr.inj hturn] at hmessage
          exact absurd hmessage (by simp)
  · exact le_refl _

theorem answerTurn_smaller (msgId : ℕ) (output next : Output)
    (hturn : answerTurn std codec tail msgId output = .inl next) : next.length < output.length := by
  rw [answerTurn] at hturn
  split at hturn
  next fields rest heq =>
    have hshorter := @length_readMessage_lt std codec tail output fields (by rw [heq])
    rw [heq] at hshorter
    split at hturn
    · exact absurd hturn (by simp)
    · rw [← Sum.inl.inj hturn]
      exact hshorter
  · exact absurd hturn (by simp)

/-- What a line is read as. -/
abbrev lineText (codec : Codec) (line : List UInt8) : PyStr :=
  strip (codec.replacing line)

/-- The turn on a line that is there. -/
theorem messageTurn_line {line : List UInt8} (hline : IsLine newline line) (rest : Output) :
    messageTurn std codec tail (ofList line ++ rest) =
      if lineText codec line = [] then .inl rest
      else if (py "\x7b").isPrefixOf (lineText codec line) then
        .inr (loadMessage std (lineText codec line), rest)
      else if (py "content-length:").isPrefixOf (lower std (lineText codec line)) then
        .inr (readContentLengthMessage std codec tail (lineText codec line) rest)
      else if colonChar ∉ lineText codec line then .inl rest
      else .inr (.raised (.mcp (py "unexpected MCP stdout line: " ++ lineText codec line)),
        rest) := by
  rw [messageTurn, readline_line hline]
  dsimp only
  rw [if_neg hline.ne_nil]

end Reading

/-! ## The output as it is meant -/

/-- The keys that a JSON-RPC response has. -/
def isResponse (fields : Fields) : Bool :=
  (fields.get? (py "method")).isNone && (fields.get? (py "id")).isSome &&
    match fields.get? (py "result"), fields.get? (py "error") with
    | some (.obj _), none => true
    | none, some _ => true
    | _, _ => false

def isNotification (fields : Fields) : Bool :=
  (fields.get? (py "method")).isSome && (fields.get? (py "id")).isNone

/-- The keys of a request that the server makes. -/
def isPeerRequest (fields : Fields) : Bool :=
  (fields.get? (py "method")).isSome && (fields.get? (py "id")).isSome &&
    (fields.get? (py "result")).isNone && (fields.get? (py "error")).isNone

def isJsonRpc (fields : Fields) : Bool :=
  isResponse fields || isNotification fields || isPeerRequest fields

def carries (fields : Fields) (msgId : ℕ) : Bool :=
  equalsNumber (fields.get? (py "id")) msgId

inductive Item where
  /-- A message on a line of its own. -/
  | line (fields : Fields) (bytes : List UInt8)
  /-- A message behind the first header line, the others and a blank line. -/
  | framed (fields : Fields) (header : List UInt8) (headers : List (List UInt8))
      (gap body : List UInt8)
  | blank (bytes : List UInt8)
  | banner (bytes : List UInt8)

/-- How the output goes on behind the items: it ends, or an item is cut by a pause that
outlasts the timeout, whatever comes later. -/
inductive Ending where
  | ended
  | stalled (item : Item) (sent : ℕ) (later : Output)

namespace Item

def bytes : Item → List UInt8
  | line _ bytes => bytes
  | framed _ header headers gap body => header ++ headers.flatten ++ gap ++ body
  | blank bytes => bytes
  | banner bytes => bytes

def fields? : Item → Option Fields
  | line fields _ | framed fields .. => some fields
  | _ => none

/-- The response with this id that the item is. -/
def answer (msgId : ℕ) (item : Item) : Option Fields :=
  item.fields?.filter fun fields => isResponse fields && carries fields msgId

section WellFormed

variable (std : Stdlib) (codec : Codec)

def IsHeader (line : List UInt8) : Prop :=
  IsLine newline line ∧ colonChar ∈ lineText codec line ∧
    (py "\x7b").isPrefixOf (lineText codec line) = false

/-- The value of the last length header. -/
def declaredLength (headers : List (List UInt8)) : Option ℤ :=
  (Dict.get? ((headers.map (lineText codec)).foldl (addHeader std) [])
    (py "content-length")).bind codec.int

def WellFormed : Item → Prop
  | line fields bytes =>
    isJsonRpc fields ∧ IsLine newline bytes ∧
      (py "\x7b").isPrefixOf (lineText codec bytes) ∧
      std.jsonLoads (lineText codec bytes) = some (.obj fields)
  | framed fields header headers gap body =>
    isJsonRpc fields ∧ (∀ line ∈ header :: headers, IsHeader codec line) ∧
      IsLine newline gap ∧ lineText codec gap = [] ∧ body ≠ [] ∧
      declaredLength std codec (header :: headers) = some (body.length : ℤ) ∧
      (codec.strict body).bind std.jsonLoads = some (.obj fields)
  | blank bytes => IsLine newline bytes ∧ lineText codec bytes = []
  | banner bytes =>
    IsLine newline bytes ∧ lineText codec bytes ≠ [] ∧ colonChar ∉ lineText codec bytes ∧
      ∀ fields, std.jsonLoads (lineText codec bytes) ≠ some (.obj fields)

/-- The header line that has to be the first. -/
def IsLengthHeader (line : List UInt8) : Prop :=
  (py "content-length:").isPrefixOf (lower std (lineText codec line)) = true

/-- What the session cannot read: a message that has another header before its length, and a
banner that begins like an object. -/
def Misread : Item → Prop
  | framed _ header .. => ¬IsLengthHeader std codec header
  | banner bytes => (py "\x7b").isPrefixOf (lineText codec bytes)
  | _ => False

/-- What the session cannot read, or does not tell from the response: a request of the server
that has the same number. -/
def Confusing (msgId : ℕ) (item : Item) : Prop :=
  item.Misread std codec ∨
    ∃ fields, item.fields? = some fields ∧ isPeerRequest fields ∧ carries fields msgId

end WellFormed

end Item

namespace Ending

def output : Ending → Output
  | ended => []
  | stalled item sent later => ofList (item.bytes.take sent) ++ none :: later

def WellFormed (std : Stdlib) (codec : Codec) : Ending → Prop
  | ended => True
  | stalled item sent _ => item.WellFormed std codec ∧ sent < item.bytes.length

/-- The message that is cut shows another header before its length. -/
def Confusing (std : Stdlib) (codec : Codec) : Ending → Prop
  | stalled (.framed _ header _ _ _) sent _ =>
    header.length ≤ sent ∧ ¬Item.IsLengthHeader std codec header
  | _ => False

end Ending

/-- The output of these items. -/
def outputOf (items : List Item) (ending : Ending) : Output :=
  items.foldr (fun item rest => ofList item.bytes ++ rest) ending.output

/-- The first response with the id, and what is behind it. -/
def expected (msgId : ℕ) : List Item → Option (Fields × List Item)
  | [] => none
  | item :: rest =>
    match item.answer msgId with
    | some fields => some (fields, rest)
    | none => expected msgId rest

/-- Nothing confuses the session before it has the response, or gives up. -/
def ClearUntil (std : Stdlib) (codec : Codec) (msgId : ℕ) : List Item → Ending → Prop
  | [], ending => ¬ending.Confusing std codec
  | item :: rest, ending =>
    ¬item.Confusing std codec msgId ∧
      (item.answer msgId = none → ClearUntil std codec msgId rest ending)

/-- The errors of a request that has no response. -/
def NoResponse (error : SessionError) : Prop :=
  ∃ detail, error = .mcp (py "MCP process ended: " ++ detail) ∨
    error = .mcp (py "MCP response timed out after " ++ detail)

/-- The outcome is that of the first response with the id, which is taken from the output, or
an error that says there is none. -/
def MatchedWith (std : Stdlib) (exchange : Exchange) (items : List Item) (ending : Ending) :
    Prop :=
  match expected exchange.msgId items with
  | some (fields, rest) =>
    exchange.outcome = responseOutcome std fields ∧ exchange.left = outputOf rest ending
  | none => ∃ error, exchange.outcome = .error error ∧ NoResponse error

section Items

variable {std : Stdlib} {codec : Codec} {tail : PyStr}

theorem length_outputOf_cons (item : Item) (items : List Item) (ending : Ending) :
    (outputOf (item :: items) ending).length =
      item.bytes.length + (outputOf items ending).length := by
  rw [outputOf, List.foldr_cons, List.length_append, length_ofList]
  rfl

theorem Item.bytes_ne_nil {item : Item} (hitem : item.WellFormed std codec) : item.bytes ≠ [] := by
  cases item with
  | line fields bytes => exact hitem.2.1.ne_nil
  | framed fields header headers gap body =>
    intro hbytes
    exact hitem.2.2.2.2.1 (List.append_eq_nil_iff.mp hbytes).2
  | blank bytes => exact hitem.1.ne_nil
  | banner bytes => exact hitem.1.ne_nil

theorem loadMessage_obj {text : PyStr} {fields : Fields}
    (hload : std.jsonLoads text = some (.obj fields)) : loadMessage std text = .message fields := by
  rw [loadMessage, hload]

theorem readMessage_of_inr {output : Output} {result : Read × Output}
    (hturn : messageTurn std codec tail output = .inr result) :
    readMessage std codec tail output = result :=
  loop_of_inr hturn

theorem readMessage_of_inl {output rest : Output}
    (hturn : messageTurn std codec tail output = .inl rest) :
    readMessage std codec tail output = readMessage std codec tail rest :=
  loop_of_inl messageTurn_smaller hturn

theorem readMessage_stalled {line : List UInt8} (hline : IsLine newline line) {sent : ℕ}
    (hsent : sent < line.length) (later : Output) :
    readMessage std codec tail (ofList (line.take sent) ++ none :: later) =
      (.timedOut, ofList (line.take sent) ++ none :: later) := by
  apply readMessage_of_inr
  rw [messageTurn, readline_stalled hline hsent]

/-- Lowering a text makes no colon. -/
theorem colon_not_mem_lower (hlower : ∀ c, isAscii c = false → colonChar ∉ std.lowerNonAscii c)
    {text : PyStr} (hcolon : colonChar ∉ text) : colonChar ∉ lower std text := by
  intro hmem
  obtain ⟨c, hc, hin⟩ := List.mem_flatMap.mp hmem
  by_cases hascii : isAscii c = true
  · rw [if_pos hascii] at hin
    split at hin
    · have hval := congrArg Fin.val (List.mem_singleton.mp hin)
      have hcolonVal : colonChar.val = 0x3A := rfl
      dsimp only at hval
      omega
    · rw [← List.mem_singleton.mp hin] at hc
      exact hcolon hc
  · rw [if_neg hascii] at hin
    exact hlower c (Bool.not_eq_true _ ▸ hascii) hin

/-! ## A message behind headers -/

theorem headerTurn_line {line : List UInt8} (hline : IsLine newline line)
    (headers : Dict PyStr PyStr) (rest : Output) :
    headerTurn std codec tail (headers, ofList line ++ rest) =
      if lineText codec line = [] then .inr (.ok headers, rest)
      else if colonChar ∈ lineText codec line then
        .inl (addHeader std headers (lineText codec line), rest)
      else .inl (headers, rest) := by
  rw [headerTurn, readline_line hline]
  dsimp only
  rw [if_neg hline.ne_nil]

theorem headerTurn_header {line : List UInt8} (hline : Item.IsHeader codec line)
    (headers : Dict PyStr PyStr) (rest : Output) :
    headerTurn std codec tail (headers, ofList line ++ rest) =
      .inl (addHeader std headers (lineText codec line), rest) := by
  rw [headerTurn_line hline.1, if_neg (List.ne_nil_of_mem hline.2.1), if_pos hline.2.1]

theorem readHeaders_header {line : List UInt8} (hline : Item.IsHeader codec line)
    (headers : Dict PyStr PyStr) (rest : Output) :
    readHeaders std codec tail headers (ofList line ++ rest) =
      readHeaders std codec tail (addHeader std headers (lineText codec line)) rest :=
  loop_of_inl headerTurn_smaller (headerTurn_header hline headers rest)

theorem readHeaders_lines {lines : List (List UInt8)}
    (hlines : ∀ line ∈ lines, Item.IsHeader codec line) {gap : List UInt8}
    (hgap : IsLine newline gap) (hblank : lineText codec gap = [])
    (headers : Dict PyStr PyStr) (rest : Output) :
    readHeaders std codec tail headers (ofList (lines.flatten ++ gap) ++ rest) =
      (.ok ((lines.map (lineText codec)).foldl (addHeader std) headers), rest) := by
  induction lines generalizing headers with
  | nil =>
    apply loop_of_inr
    exact (headerTurn_line hgap headers rest).trans (if_pos hblank)
  | cons line lines ih =>
    rw [List.forall_mem_cons] at hlines
    have hsplit : ofList ((line :: lines).flatten ++ gap) ++ rest =
        ofList line ++ (ofList (lines.flatten ++ gap) ++ rest) := by
      rw [List.flatten_cons, List.append_assoc, ofList_append, List.append_assoc]
    rw [hsplit, readHeaders_header hlines.1, ih hlines.2]
    rfl

/-- What is sent of two parts, where the first is complete. -/
theorem take_append_of_le {first second : List UInt8} {sent : ℕ} (hsent : first.length ≤ sent) :
    (first ++ second).take sent = first ++ second.take (sent - first.length) := by
  rw [List.take_append, List.take_of_length_le hsent]

theorem readHeaders_stalled {lines : List (List UInt8)}
    (hlines : ∀ line ∈ lines, Item.IsHeader codec line) {gap : List UInt8}
    (hgap : IsLine newline gap) {sent : ℕ} (hsent : sent < (lines.flatten ++ gap).length)
    (headers : Dict PyStr PyStr) (later : Output) :
    (readHeaders std codec tail headers
      (ofList ((lines.flatten ++ gap).take sent) ++ none :: later)).1 = .error .timedOut := by
  induction lines generalizing headers sent with
  | nil =>
    have hturn : headerTurn std codec tail (headers, ofList (gap.take sent) ++ none :: later) =
        .inr (.error .timedOut, ofList (gap.take sent) ++ none :: later) := by
      rw [headerTurn, readline_stalled hgap hsent]
    exact congrArg Prod.fst (loop_of_inr hturn)
  | cons line lines ih =>
    rw [List.forall_mem_cons] at hlines
    rw [List.flatten_cons, List.append_assoc] at hsent ⊢
    by_cases hline : sent < line.length
    · rw [List.take_append_of_le_length hline.le]
      have hturn :
          headerTurn std codec tail (headers, ofList (line.take sent) ++ none :: later) =
            .inr (.error .timedOut, ofList (line.take sent) ++ none :: later) := by
        rw [headerTurn, readline_stalled hlines.1.1 hline]
      exact congrArg Prod.fst (loop_of_inr hturn)
    · rw [not_lt] at hline
      rw [take_append_of_le hline, ofList_append, List.append_assoc, readHeaders_header hlines.1]
      apply ih hlines.2
      rw [List.length_append] at hsent
      omega

theorem readBody_body {headers : Dict PyStr PyStr} {body : List UInt8} {fields : Fields}
    (hlength : (headers.get? (py "content-length")).bind codec.int = some (body.length : ℤ))
    (hbody : body ≠ []) (hload : (codec.strict body).bind std.jsonLoads = some (.obj fields))
    (rest : Output) :
    readBody std codec headers (ofList body ++ rest) = (.message fields, rest) := by
  obtain ⟨value, hvalue, hint⟩ := Option.bind_eq_some_iff.mp hlength
  obtain ⟨text, htext, hjson⟩ := Option.bind_eq_some_iff.mp hload
  have hpos := List.length_pos_of_ne_nil hbody
  rw [readBody, hvalue, Option.getD_some, hint]
  dsimp only
  rw [if_neg (by omega), Int.toNat_natCast, read_ofList]
  dsimp only
  rw [htext]
  dsimp only
  rw [loadMessage_obj hjson]

theorem readBody_stalled {headers : Dict PyStr PyStr} {body : List UInt8}
    (hlength : (headers.get? (py "content-length")).bind codec.int = some (body.length : ℤ))
    {sent : ℕ} (hsent : sent < body.length) (later : Output) :
    (readBody std codec headers (ofList (body.take sent) ++ none :: later)).1 = .timedOut := by
  obtain ⟨value, hvalue, hint⟩ := Option.bind_eq_some_iff.mp hlength
  have htake : (body.take sent).length < body.length := by
    rw [List.length_take]
    omega
  rw [readBody, hvalue, Option.getD_some, hint]
  dsimp only
  rw [if_neg (by omega), Int.toNat_natCast, read_stalled htake]

/-- The turn on a first header line. -/
theorem messageTurn_header {header : List UInt8} (hheader : Item.IsHeader codec header)
    (rest : Output) :
    messageTurn std codec tail (ofList header ++ rest) =
      if (py "content-length:").isPrefixOf (lower std (lineText codec header)) then
        .inr (readContentLengthMessage std codec tail (lineText codec header) rest)
      else .inr (.raised (.mcp (py "unexpected MCP stdout line: " ++ lineText codec header)),
        rest) := by
  have hobject : ¬(py "\x7b").isPrefixOf (lineText codec header) = true := by
    rw [hheader.2.2]
    exact Bool.false_ne_true
  rw [messageTurn_line hheader.1, if_neg (List.ne_nil_of_mem hheader.2.1), if_neg hobject,
    if_neg (not_not_intro hheader.2.1)]

/-! ## An item -/

/-- An item that the session can read is read as it is meant. -/
theorem readMessage_item (hlower : ∀ c, isAscii c = false → colonChar ∉ std.lowerNonAscii c)
    {item : Item} (hitem : item.WellFormed std codec) (hread : ¬item.Misread std codec)
    (rest : Output) :
    readMessage std codec tail (ofList item.bytes ++ rest) =
      match item.fields? with
      | some fields => (.message fields, rest)
      | none => readMessage std codec tail rest := by
  cases item with
  | line fields bytes =>
    obtain ⟨_, hline, hobject, hload⟩ := hitem
    have hne : lineText codec bytes ≠ [] := by
      intro hnil
      rw [hnil] at hobject
      exact absurd hobject (by decide)
    have hturn : messageTurn std codec tail (ofList bytes ++ rest) =
        .inr (loadMessage std (lineText codec bytes), rest) :=
      ((messageTurn_line hline rest).trans (if_neg hne)).trans (if_pos hobject)
    rw [loadMessage_obj hload] at hturn
    exact readMessage_of_inr hturn
  | framed fields header headers gap body =>
    obtain ⟨_, hheaders, hgap, hblank, hbody, hlength, hload⟩ := hitem
    rw [List.forall_mem_cons] at hheaders
    have hsplit : ofList (header ++ headers.flatten ++ gap ++ body) ++ rest =
        ofList header ++ (ofList (headers.flatten ++ gap) ++ (ofList body ++ rest)) := by
      simp only [ofList_append, List.append_assoc]
    apply readMessage_of_inr
    refine (congrArg (messageTurn std codec tail) hsplit).trans
      ((messageTurn_header hheaders.1 _).trans ((if_pos (not_not.mp hread)).trans ?_))
    rw [readContentLengthMessage, readHeaders_lines hheaders.2 hgap hblank]
    exact congrArg Sum.inr (readBody_body hlength hbody hload rest)
  | blank bytes =>
    apply readMessage_of_inl
    exact (messageTurn_line hitem.1 rest).trans (if_pos hitem.2)
  | banner bytes =>
    obtain ⟨hline, hne, hcolon, _⟩ := hitem
    have hnone : ¬(py "content-length:").isPrefixOf (lower std (lineText codec bytes)) := by
      intro hprefix
      exact colon_not_mem_lower hlower hcolon
        ((List.isPrefixOf_iff_prefix.mp hprefix).subset (by decide))
    apply readMessage_of_inl
    exact (messageTurn_line hline rest).trans ((if_neg hne).trans
      ((if_neg hread).trans ((if_neg hnone).trans (if_pos hcolon))))

/-! ## What the session does not read as it is meant -/

theorem not_noResponse {text : PyStr} (hhead : text.head? ≠ (py "M").head?) :
    ¬NoResponse (.mcp text) := by
  intro hnone
  obtain ⟨detail, hended | htimed⟩ := hnone
  · rw [SessionError.mcp.inj hended] at hhead
    exact hhead rfl
  · rw [SessionError.mcp.inj htimed] at hhead
    exact hhead rfl

theorem readMessage_badHeader {header : List UInt8} (hheader : Item.IsHeader codec header)
    (hlength : ¬Item.IsLengthHeader std codec header) (rest : Output) :
    ∃ error, readMessage std codec tail (ofList header ++ rest) = (.raised error, rest) ∧
      ¬NoResponse error := by
  refine ⟨.mcp (py "unexpected MCP stdout line: " ++ lineText codec header), ?_, ?_⟩
  · apply readMessage_of_inr
    exact (messageTurn_header hheader rest).trans (if_neg hlength)
  · apply not_noResponse
    rw [List.head?_append_of_ne_nil _ (by decide)]
    decide

theorem readMessage_misread {item : Item} (hitem : item.WellFormed std codec)
    (hmisread : item.Misread std codec) (rest : Output) :
    ∃ error left, readMessage std codec tail (ofList item.bytes ++ rest) =
        (.raised error, left) ∧ ¬NoResponse error ∧ rest.length ≤ left.length ∧
      (item.fields? ≠ none → rest.length < left.length) := by
  cases item with
  | line fields bytes => exact hmisread.elim
  | framed fields header headers gap body =>
    obtain ⟨_, hheaders, hgap, _⟩ := hitem
    rw [List.forall_mem_cons] at hheaders
    have hsplit : ofList (header ++ headers.flatten ++ gap ++ body) ++ rest =
        ofList header ++ (ofList (headers.flatten ++ gap ++ body) ++ rest) := by
      simp only [ofList_append, List.append_assoc]
    have hpos := List.length_pos_of_ne_nil hgap.ne_nil
    have hlonger :
        rest.length < (ofList (headers.flatten ++ gap ++ body) ++ rest).length := by
      simp only [List.length_append, length_ofList]
      omega
    obtain ⟨error, hread, hother⟩ := @readMessage_badHeader std codec tail header hheaders.1
      hmisread (ofList (headers.flatten ++ gap ++ body) ++ rest)
    rw [← hsplit] at hread
    exact ⟨error, _, hread, hother, hlonger.le, fun _ => hlonger⟩
  | blank bytes => exact hmisread.elim
  | banner bytes =>
    obtain ⟨hline, hne, _, hother⟩ := hitem
    have hturn : messageTurn std codec tail (ofList bytes ++ rest) =
        .inr (loadMessage std (lineText codec bytes), rest) :=
      ((messageTurn_line hline rest).trans (if_neg hne)).trans (if_pos hmisread)
    have hread := readMessage_of_inr hturn
    rw [loadMessage] at hread
    split at hread
    · refine ⟨_, _, hread, ?_, le_refl _, fun hnone => absurd rfl hnone⟩
      intro hnone
      obtain ⟨_, hended | htimed⟩ := hnone
      · exact SessionError.noConfusion hended
      · exact SessionError.noConfusion htimed
    next fields hload => exact absurd hload (hother fields)
    · exact ⟨_, _, hread, not_noResponse (by decide), le_refl _, fun hnone => absurd rfl hnone⟩

/-! ## Answers -/

theorem readAnswer_of_message {output rest : Output} {fields : Fields}
    (hread : readMessage std codec tail output = (.message fields, rest)) (msgId : ℕ) :
    readAnswer std codec tail msgId output =
      if carries fields msgId then (.message fields, rest)
      else readAnswer std codec tail msgId rest := by
  have hturn : answerTurn std codec tail msgId output =
      if carries fields msgId then .inr (.message fields, rest) else .inl rest := by
    rw [answerTurn, hread]
    rfl
  by_cases hcarries : carries fields msgId = true
  · rw [if_pos hcarries] at hturn ⊢
    exact loop_of_inr hturn
  · rw [if_neg hcarries] at hturn ⊢
    exact loop_of_inl (answerTurn_smaller msgId) hturn

theorem readAnswer_of_raised {output left : Output} {error : SessionError}
    (hread : readMessage std codec tail output = (.raised error, left)) (msgId : ℕ) :
    readAnswer std codec tail msgId output = (.raised error, left) := by
  apply loop_of_inr
  rw [answerTurn, hread]

theorem readAnswer_of_timedOut {output left : Output}
    (hread : readMessage std codec tail output = (.timedOut, left)) (msgId : ℕ) :
    readAnswer std codec tail msgId output = (.timedOut, left) := by
  apply loop_of_inr
  rw [answerTurn, hread]

theorem readAnswer_of_skipped {output rest : Output}
    (hread : readMessage std codec tail output = readMessage std codec tail rest) (msgId : ℕ) :
    readAnswer std codec tail msgId output = readAnswer std codec tail msgId rest := by
  cases hrest : readMessage std codec tail rest with
  | mk read left =>
    have houtput := hread.trans hrest
    cases read with
    | message fields => rw [readAnswer_of_message houtput, readAnswer_of_message hrest]
    | raised error => rw [readAnswer_of_raised houtput, readAnswer_of_raised hrest]
    | timedOut => rw [readAnswer_of_timedOut houtput, readAnswer_of_timedOut hrest]

/-- What a request takes that is no answer to it. -/
def Stray : Read → Prop
  | .message fields => fields.get? (py "error") = none ∧ fields.get? (py "result") = none
  | .raised error => ¬NoResponse error
  | .timedOut => False

/-- A message with the id is the response, unless it is a request of the server. -/
theorem isResponse_of_carries {fields : Fields} {msgId : ℕ} (hkind : isJsonRpc fields = true)
    (hcarries : carries fields msgId = true) (hpeer : ¬isPeerRequest fields = true) :
    isResponse fields = true := by
  rw [isJsonRpc, Bool.or_eq_true, Bool.or_eq_true] at hkind
  obtain (hresponse | hnotification) | hrequest := hkind
  · exact hresponse
  · rw [isNotification, Bool.and_eq_true, Option.isNone_iff_eq_none] at hnotification
    rw [carries, hnotification.2] at hcarries
    exact absurd hcarries (by simp [equalsNumber])
  · exact absurd hrequest hpeer

theorem isJsonRpc_of_wellFormed {item : Item} (hitem : item.WellFormed std codec)
    {fields : Fields} (hfields : item.fields? = some fields) : isJsonRpc fields = true := by
  cases item with
  | line message bytes =>
    obtain rfl := Option.some.inj hfields
    exact hitem.1
  | framed message header headers gap body =>
    obtain rfl := Option.some.inj hfields
    exact hitem.1
  | blank bytes => exact absurd hfields (by simp [Item.fields?])
  | banner bytes => exact absurd hfields (by simp [Item.fields?])

theorem readAnswer_item (hlower : ∀ c, isAscii c = false → colonChar ∉ std.lowerNonAscii c)
    {item : Item} (hitem : item.WellFormed std codec) {msgId : ℕ}
    (hclear : ¬item.Confusing std codec msgId) (rest : Output) :
    readAnswer std codec tail msgId (ofList item.bytes ++ rest) =
      match item.answer msgId with
      | some fields => (.message fields, rest)
      | none => readAnswer std codec tail msgId rest := by
  rw [Item.Confusing, not_or] at hclear
  have hread := @readMessage_item std codec tail hlower item hitem hclear.1 rest
  cases hfields : item.fields? with
  | none =>
    rw [hfields] at hread
    rw [readAnswer_of_skipped hread, Item.answer, hfields]
    rfl
  | some fields =>
    rw [hfields] at hread
    rw [readAnswer_of_message hread, Item.answer, hfields]
    by_cases hcarries : carries fields msgId = true
    · have hpeer : ¬isPeerRequest fields = true :=
        fun hpeer => hclear.2 ⟨fields, hfields, hpeer, hcarries⟩
      have hresponse :=
        isResponse_of_carries (isJsonRpc_of_wellFormed hitem hfields) hcarries hpeer
      rw [if_pos hcarries, Option.filter_some, if_pos (by rw [hresponse, hcarries]; rfl)]
    · rw [if_neg hcarries, Option.filter_some, if_neg]
      rw [Bool.and_eq_true]
      exact fun hboth => hcarries hboth.2

theorem readAnswer_confusing (hlower : ∀ c, isAscii c = false → colonChar ∉ std.lowerNonAscii c)
    {item : Item} (hitem : item.WellFormed std codec) {msgId : ℕ}
    (hconfusing : item.Confusing std codec msgId) (rest : Output) :
    ∃ read left, readAnswer std codec tail msgId (ofList item.bytes ++ rest) = (read, left) ∧
      Stray read ∧ rest.length ≤ left.length ∧
      (item.answer msgId ≠ none → rest.length < left.length) := by
  by_cases hmisread : item.Misread std codec
  · obtain ⟨error, left, hread, hother, hle, hlt⟩ :=
      @readMessage_misread std codec tail item hitem hmisread rest
    refine ⟨_, left, readAnswer_of_raised hread msgId, hother, hle, fun hanswer => hlt ?_⟩
    intro hnone
    rw [Item.answer, hnone] at hanswer
    exact hanswer rfl
  · obtain ⟨fields, hfields, hpeer, hcarries⟩ := hconfusing.resolve_left hmisread
    have hread := @readMessage_item std codec tail hlower item hitem hmisread rest
    rw [hfields] at hread
    have hanswer := readAnswer_of_message hread msgId
    rw [if_pos hcarries] at hanswer
    simp only [isPeerRequest, Bool.and_eq_true, Option.isNone_iff_eq_none,
      Option.isSome_iff_ne_none] at hpeer
    refine ⟨_, rest, hanswer, ⟨hpeer.2, hpeer.1.2⟩, le_refl _, fun hresponse => ?_⟩
    have hno : isResponse fields = false := by
      rw [isResponse, Option.isNone_eq_false_iff.mpr (Option.isSome_iff_ne_none.mpr hpeer.1.1.1)]
      rfl
    rw [Item.answer, hfields, Option.filter_some, hno] at hresponse
    exact absurd rfl hresponse

theorem readAnswer_ended (msgId : ℕ) :
    readAnswer std codec tail msgId [] = (.raised (processEnded tail), []) := by
  apply readAnswer_of_raised
  exact readMessage_of_inr rfl

/-- The session waits for the rest of a message that is cut. -/
theorem readMessage_cut {item : Item} (hitem : item.WellFormed std codec) {sent : ℕ}
    (hsent : sent < item.bytes.length) {later : Output}
    (hclear : ¬(Ending.stalled item sent later).Confusing std codec) :
    (readMessage std codec tail (ofList (item.bytes.take sent) ++ none :: later)).1 =
      .timedOut := by
  cases item with
  | line fields bytes => exact congrArg Prod.fst (readMessage_stalled hitem.2.1 hsent later)
  | blank bytes => exact congrArg Prod.fst (readMessage_stalled hitem.1 hsent later)
  | banner bytes => exact congrArg Prod.fst (readMessage_stalled hitem.1 hsent later)
  | framed fields header headers gap body =>
    obtain ⟨_, hheaders, hgap, hblank, hbody, hlength, hload⟩ := hitem
    rw [List.forall_mem_cons] at hheaders
    have hassoc : (Item.framed fields header headers gap body).bytes =
        header ++ (headers.flatten ++ gap ++ body) := by
      simp only [Item.bytes, List.append_assoc]
    rw [hassoc] at hsent ⊢
    by_cases hheader : sent < header.length
    · rw [List.take_append_of_le_length hheader.le]
      exact congrArg Prod.fst (readMessage_stalled hheaders.1.1 hheader later)
    · rw [not_lt] at hheader
      have hgood : Item.IsLengthHeader std codec header :=
        not_not.mp fun hbad => hclear ⟨hheader, hbad⟩
      rw [take_append_of_le hheader, ofList_append, List.append_assoc,
        readMessage_of_inr ((messageTurn_header hheaders.1 _).trans (if_pos hgood)),
        readContentLengthMessage]
      rw [List.length_append] at hsent
      by_cases hlines : sent - header.length < (headers.flatten ++ gap).length
      · have hstalled := @readHeaders_stalled std codec tail headers hheaders.2 gap hgap _ hlines
          (addHeader std [] (lineText codec header)) later
        rw [List.take_append_of_le_length hlines.le]
        cases hresult : readHeaders std codec tail (addHeader std [] (lineText codec header))
          (ofList ((headers.flatten ++ gap).take (sent - header.length)) ++ none :: later) with
        | mk outcome left =>
          rw [hresult] at hstalled
          rw [show outcome = .error .timedOut from hstalled]
      · rw [not_lt] at hlines
        rw [take_append_of_le hlines, ofList_append, List.append_assoc,
          readHeaders_lines hheaders.2 hgap hblank]
        rw [List.length_append] at hsent
        exact readBody_stalled hlength (by omega) later

theorem readAnswer_cut {item : Item} (hitem : item.WellFormed std codec) {sent : ℕ}
    (hsent : sent < item.bytes.length) {later : Output}
    (hclear : ¬(Ending.stalled item sent later).Confusing std codec) (msgId : ℕ) :
    (readAnswer std codec tail msgId (ofList (item.bytes.take sent) ++ none :: later)).1 =
      .timedOut := by
  have hread := @readMessage_cut std codec tail item hitem sent hsent later hclear
  rw [readAnswer_of_timedOut (Prod.ext hread rfl)]

theorem readAnswer_cut_confusing {ending : Ending} (hending : ending.WellFormed std codec)
    (hconfusing : ending.Confusing std codec) (msgId : ℕ) :
    ∃ read left, readAnswer std codec tail msgId ending.output = (read, left) ∧ Stray read := by
  cases ending with
  | ended => exact hconfusing.elim
  | stalled item sent later =>
    cases item with
    | line fields bytes => exact hconfusing.elim
    | blank bytes => exact hconfusing.elim
    | banner bytes => exact hconfusing.elim
    | framed fields header headers gap body =>
      obtain ⟨_, hheaders, _⟩ := hending.1
      rw [List.forall_mem_cons] at hheaders
      have hsplit : (Ending.stalled (.framed fields header headers gap body) sent later).output =
          ofList header ++
            (ofList ((headers.flatten ++ gap ++ body).take (sent - header.length)) ++
              none :: later) := by
        rw [Ending.output, ← List.append_assoc, ← ofList_append, ← take_append_of_le hconfusing.1]
        simp only [Item.bytes, List.append_assoc]
      obtain ⟨error, hread, hother⟩ :=
        @readMessage_badHeader std codec tail header hheaders.1 hconfusing.2 _
      exact ⟨.raised error, _, hsplit ▸ readAnswer_of_raised hread msgId, hother⟩

/-! ## The whole output -/

theorem suffix_of_expected {msgId : ℕ} {items rest : List Item} {fields : Fields}
    (hexpected : expected msgId items = some (fields, rest)) : rest <:+ items := by
  induction items with
  | nil => exact absurd hexpected (by simp [expected])
  | cons item items ih =>
    rw [expected] at hexpected
    split at hexpected
    · rw [← (Prod.mk.inj (Option.some.inj hexpected)).2]
      exact List.suffix_cons item items
    · exact (ih hexpected).trans (List.suffix_cons item items)

/-- A response takes something of the output. -/
theorem length_of_expected {msgId : ℕ} {items rest : List Item} {fields : Fields}
    (hitems : ∀ item ∈ items, item.WellFormed std codec)
    (hexpected : expected msgId items = some (fields, rest)) (ending : Ending) :
    (outputOf rest ending).length < (outputOf items ending).length := by
  induction items with
  | nil => exact absurd hexpected (by simp [expected])
  | cons item items ih =>
    rw [List.forall_mem_cons] at hitems
    have hpos := List.length_pos_of_ne_nil (Item.bytes_ne_nil hitems.1)
    rw [length_outputOf_cons]
    rw [expected] at hexpected
    split at hexpected
    · rw [← (Prod.mk.inj (Option.some.inj hexpected)).2]
      omega
    · have hshorter := ih hitems.2 hexpected
      omega

theorem readAnswer_outputOf (hlower : ∀ c, isAscii c = false → colonChar ∉ std.lowerNonAscii c)
    {items : List Item} {ending : Ending} (hitems : ∀ item ∈ items, item.WellFormed std codec)
    (hending : ending.WellFormed std codec) {msgId : ℕ}
    (hclear : ClearUntil std codec msgId items ending) :
    match expected msgId items with
    | some (fields, rest) =>
      readAnswer std codec tail msgId (outputOf items ending) =
        (.message fields, outputOf rest ending)
    | none =>
      (readAnswer std codec tail msgId (outputOf items ending)).1 = .timedOut ∨
        readAnswer std codec tail msgId (outputOf items ending) =
          (.raised (processEnded tail), []) := by
  induction items with
  | nil =>
    cases ending with
    | ended => exact Or.inr (readAnswer_ended msgId)
    | stalled item sent later => exact Or.inl (readAnswer_cut hending.1 hending.2 hclear msgId)
  | cons item items ih =>
    rw [List.forall_mem_cons] at hitems
    have hread := @readAnswer_item std codec tail hlower item hitems.1 msgId hclear.1
      (outputOf items ending)
    rw [expected]
    cases hanswer : item.answer msgId with
    | some fields =>
      rw [hanswer] at hread
      exact hread
    | none =>
      rw [hanswer] at hread
      have hrest := ih hitems.2 (hclear.2 hanswer)
      dsimp only at hread
      rw [← hread] at hrest
      exact hrest

theorem readAnswer_outputOf_confusing
    (hlower : ∀ c, isAscii c = false → colonChar ∉ std.lowerNonAscii c) {items : List Item}
    {ending : Ending} (hitems : ∀ item ∈ items, item.WellFormed std codec)
    (hending : ending.WellFormed std codec) {msgId : ℕ}
    (hconfusing : ¬ClearUntil std codec msgId items ending) :
    ∃ read left, readAnswer std codec tail msgId (outputOf items ending) = (read, left) ∧
      Stray read ∧ ∀ fields rest, expected msgId items = some (fields, rest) →
        (outputOf rest ending).length < left.length := by
  induction items with
  | nil =>
    obtain ⟨read, left, hread, hstray⟩ :=
      readAnswer_cut_confusing hending (not_not.mp hconfusing) msgId
    exact ⟨read, left, hread, hstray, fun _ _ hexpected => absurd hexpected (by simp [expected])⟩
  | cons item items ih =>
    rw [List.forall_mem_cons] at hitems
    by_cases hitem : item.Confusing std codec msgId
    · obtain ⟨read, left, hread, hstray, hle, hlt⟩ := @readAnswer_confusing std codec tail
        hlower item hitems.1 msgId hitem (outputOf items ending)
      refine ⟨read, left, hread, hstray, fun fields rest hexpected => ?_⟩
      rw [expected] at hexpected
      split at hexpected
      next answered hanswer =>
        rw [← (Prod.mk.inj (Option.some.inj hexpected)).2]
        exact hlt (by rw [hanswer]; exact Option.some_ne_none _)
      next =>
        exact (length_of_expected hitems.2 hexpected ending).trans_le hle
    · have hrest : item.answer msgId = none ∧ ¬ClearUntil std codec msgId items ending := by
        rw [ClearUntil, not_and, Classical.not_imp] at hconfusing
        exact hconfusing hitem
      have hread := @readAnswer_item std codec tail hlower item hitems.1 msgId hitem
        (outputOf items ending)
      rw [hrest.1] at hread
      obtain ⟨read, left, hleft, hstray, hlt⟩ := ih hitems.2 hrest.2
      refine ⟨read, left, hread.trans hleft, hstray, fun fields rest hexpected => ?_⟩
      rw [expected, hrest.1] at hexpected
      exact hlt fields rest hexpected

end Items

end RootSeeker.McpPlane
