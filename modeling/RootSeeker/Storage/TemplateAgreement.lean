import RootSeeker.Core.KeyedList
import RootSeeker.Core.Loops
import RootSeeker.Core.Transition
import RootSeeker.Storage.MessageTemplates

/-!
# Agreement of the template stores

Both stores are given the same calls.  They keep the same templates until a text
arrives that cannot be encoded, or until an upsert finds a custom template by a
name that the system template has as well.  An upsert that names no template may
still change the one with its name.
-/

namespace RootSeeker.Storage

open Python Contracts Transition

/-! ## Two stores under the same calls -/

structure TemplateStores where
  file : FileMessageTemplateStore
  sqlite : SqliteMessageTemplateStore

def TemplateStores.new (now : PlainText) : TemplateStores where
  file := .new now
  sqlite := .new now

def TemplateStores.step (std : NumberStdlib) (stores : TemplateStores) (call : TemplateCall) :
    TemplateStores where
  file := (stores.file.perform std call).2
  sqlite := (stores.sqlite.perform std call).2

/-- Identifiers differ, and the one system template is the one with the system identifier. -/
structure WellKept (items : List MessageTemplate) : Prop where
  ids : (items.map MessageTemplate.templateId).Nodup
  system : ∀ item ∈ items, item.kind = .system ↔ item.templateId = systemTemplateId
  present : ∃ item ∈ items, item.templateId = systemTemplateId

/-- An upsert whose payload names none of the listed templates keeps them all. -/
def KeepsListed (std : NumberStdlib) (call : TemplateCall)
    (listed relisted : Except PyError (List MessageTemplate)) : Prop :=
  ∀ template items, call.op = .upsert template → listed = .ok items →
    (∀ item ∈ items, item.templateId ≠ lookupTemplateId std template) →
      ∃ after, relisted = .ok after ∧ ∀ item ∈ items, item ∈ after

/-- The stores answer the call alike and list the same templates afterwards, which are well
kept; a call that raises changes nothing, and an upsert keeps what it does not name. -/
structure AgreeOnTemplates (std : NumberStdlib) (before : TemplateStores) (call : TemplateCall)
    (after : TemplateStores) : Prop where
  answers : SameOutcome (before.file.perform std call).1 (before.sqlite.perform std call).1
  listed : SameOutcome (after.file.listTemplates call.draw.now).1
    (.ok (after.sqlite.listTemplates call.draw.now))
  wellKept : WellKept (after.sqlite.listTemplates call.draw.now)
  fileRaises : ∀ raised, (before.file.perform std call).1 = .error raised →
    after.file = before.file
  sqliteRaises : ∀ raised, (before.sqlite.perform std call).1 = .error raised →
    after.sqlite = before.sqlite
  fileKeeps : KeepsListed std call (before.file.listTemplates call.draw.now).1
    (after.file.listTemplates call.draw.now).1
  sqliteKeeps : KeepsListed std call (.ok (before.sqlite.listTemplates call.draw.now))
    (.ok (after.sqlite.listTemplates call.draw.now))

/-! ## The calls on which they agree -/

/-- What an upsert finds in the file. -/
abbrev foundInFile (std : NumberStdlib) (template : Fields) (items : List MessageTemplate) :
    Option MessageTemplate :=
  FileMessageTemplateStore.existing std template items

/-- What an upsert finds in the table: the names are searched in the listed order. -/
def foundInTable (std : NumberStdlib) (template : Fields) (items : List MessageTemplate) :
    Option MessageTemplate :=
  (templateById (lookupTemplateId std template) items).or
    (templateByName (lookupTemplateName std template) (sortTemplates items))

/-- A payload that is rejected with the template found in the file is rejected with the one found
in the table, or cannot be looked up or stored.  An accepted one finds the same template in both
stores, can be looked up and stored, and replaces no template unless it names one. -/
def TemplateUpsertHarmless (std : NumberStdlib) (items : List MessageTemplate)
    (template : Fields) (draw : TemplateDraw) : Prop :=
  match normalizeTemplatePayload std template (foundInFile std template items) draw with
  | .error _ =>
    ∀ listed, normalizeTemplatePayload std template (foundInTable std template items) draw =
      .ok listed → Encodable (lookupTemplateId std template) → ¬listed.Encodable
  | .ok normalized =>
    Encodable (lookupTemplateId std template) ∧
      foundInFile std template items = foundInTable std template items ∧
        normalized.Encodable ∧
          ((∀ item ∈ items, item.templateId ≠ lookupTemplateId std template) →
            ∀ item ∈ items, item.templateId = normalized.templateId → item = normalized)

def TemplateHarmless (std : NumberStdlib) (stores : TemplateStores) (call : TemplateCall) :
    Prop :=
  match call.op with
  | .upsert template =>
    ∀ items ∈ stores.file.document, TemplateUpsertHarmless std items template call.draw
  | .delete templateId => strip templateId = systemTemplateId ∨ Encodable templateId
  | .get templateId => Encodable templateId

/-- What a run keeps of the templates, beside what is listed. -/
structure Sound (items : List MessageTemplate) : Prop where
  wellKept : WellKept items
  encodable : ∀ item ∈ items, item.Encodable
  stripped : ∀ item ∈ items, strip item.templateId = item.templateId
  named : ∀ item ∈ items, item.templateId ≠ []

/-! ## Looking up names in the listed order -/

variable {templateId : PyStr} {item : MessageTemplate}

section Lookup

variable {items : List MessageTemplate}

instance : Std.Total fun left right : MessageTemplate =>
    templateSortKey left ≤ templateSortKey right :=
  ⟨fun _ _ => le_total _ _⟩

instance : IsTrans MessageTemplate fun left right =>
    templateSortKey left ≤ templateSortKey right :=
  ⟨fun _ _ _ => le_trans⟩

theorem mem_sortTemplates : item ∈ sortTemplates items ↔ item ∈ items :=
  List.mem_insertionSort _

theorem wellKept_sortTemplates (hkept : WellKept items) : WellKept (sortTemplates items) where
  ids := by
    have hperm : (sortTemplates items).Perm items := List.perm_insertionSort _ items
    exact (hperm.map _).nodup_iff.mpr hkept.ids
  system := fun item hitem => hkept.system item (mem_sortTemplates.mp hitem)
  present := by
    obtain ⟨item, hitem, hid⟩ := hkept.present
    exact ⟨item, mem_sortTemplates.mpr hitem, hid⟩

/-- There is one system template. -/
theorem WellKept.eq_of_system (hkept : WellKept items) {left right : MessageTemplate}
    (hleft : left ∈ items) (hright : right ∈ items) (hleftKind : left.kind = .system)
    (hrightKind : right.kind = .system) : left = right := by
  apply List.inj_on_of_nodup_map hkept.ids hleft hright
  rw [(hkept.system left hleft).mp hleftKind, (hkept.system right hright).mp hrightKind]

theorem templateByName_eq_some {name : PyStr} (hfound : templateByName name items = some item) :
    item ∈ items ∧ item.name = name :=
  ⟨List.mem_of_find?_eq_some hfound, by simpa using List.find?_some hfound⟩

/-- The system template is listed before every template with its name. -/
theorem system_of_listed {name : PyStr} {system : MessageTemplate} (hsystem : system ∈ items)
    (hkind : system.kind = .system) (hname : system.name = name) :
    ∃ first, templateByName name (sortTemplates items) = some first ∧ first.kind = .system := by
  cases hfound : templateByName name (sortTemplates items) with
  | none =>
    have hnot := List.find?_eq_none.mp hfound system (mem_sortTemplates.mpr hsystem)
    exact absurd hname (by simpa using hnot)
  | some first =>
    refine ⟨first, rfl, ?_⟩
    obtain ⟨hfirst, before, after, hsplit, hbefore⟩ := List.find?_eq_some_iff_append.mp hfound
    have hpairwise : (sortTemplates items).Pairwise fun left right =>
        templateSortKey left ≤ templateSortKey right := List.pairwise_insertionSort _ items
    have hmem := mem_sortTemplates.mpr hsystem
    rw [hsplit] at hpairwise hmem
    rcases List.mem_append.mp hmem with hearly | hlate
    · exact absurd hname (by simpa using hbefore system hearly)
    · rcases List.mem_cons.mp hlate with rfl | hlater
      · exact hkind
      · have hle := (List.pairwise_cons.mp (List.pairwise_append.mp hpairwise).2.1).1 system hlater
        by_contra hcustom
        rw [templateSortKey, templateSortKey, if_neg hcustom, if_pos hkind,
          Prod.Lex.toLex_le_toLex] at hle
        omega

/-- The two orders lead to different templates only if the listed order leads to the system
template, and the order of the file to another one before it. -/
theorem templateByName_sorted (hkept : WellKept items) (name : PyStr) :
    templateByName name (sortTemplates items) = templateByName name items ∨
      ∃ system custom, templateByName name (sortTemplates items) = some system ∧
        system.kind = .system ∧ templateByName name items = some custom ∧
          custom.kind = .custom := by
  by_cases hnamed : ∃ system ∈ items, system.kind = .system ∧ system.name = name
  · obtain ⟨system, hsystem, hkind, hname⟩ := hnamed
    obtain ⟨first, hfirst, hfirstKind⟩ := system_of_listed hsystem hkind hname
    cases hfound : templateByName name items with
    | none =>
      have hnot := List.find?_eq_none.mp hfound system hsystem
      exact absurd hname (by simpa using hnot)
    | some custom =>
      cases hcustom : custom.kind with
      | custom => exact Or.inr ⟨first, custom, hfirst, hfirstKind, rfl, hcustom⟩
      | system =>
        have hfirstMem := mem_sortTemplates.mp (templateByName_eq_some hfirst).1
        rw [hfirst, hkept.eq_of_system hfirstMem (templateByName_eq_some hfound).1 hfirstKind
          hcustom]
        exact Or.inl rfl
  · apply Or.inl
    apply KeyedList.find?_insertionSort
    have hsame : ∀ item ∈ items.filter (fun item => item.name = name),
        templateSortKey item = toLex (1, name) := by
      intro item hitem
      obtain ⟨hmem, hname⟩ := List.mem_filter.mp hitem
      rw [decide_eq_true_eq] at hname
      rw [templateSortKey, hname, if_neg (fun hkind => hnamed ⟨item, hmem, hkind, hname⟩)]
    apply List.pairwise_of_forall_mem_list
    intro left hleft right hright
    rw [hsame left hleft, hsame right hright]

end Lookup

/-! ## What a payload is normalized to -/

section Normalized

variable {std : NumberStdlib} {template : Fields} {existing : Option MessageTemplate}
  {draw : TemplateDraw} {normalized : MessageTemplate} {raised : PyError}

theorem isValueError_of_required {field : String} {text : PyStr}
    (hrequired : required field text = .error raised) : raised.isValueError = true := by
  rw [required] at hrequired
  split at hrequired
  · rw [← Except.error.inj hrequired]
    rfl
  · exact absurd hrequired (by simp)

theorem isValueError_of_normalizeKind
    (hkind : normalizeKind std template existing templateId = .error raised) :
    raised.isValueError = true := by
  rw [normalizeKind] at hkind
  split at hkind
  · exact absurd hkind (by simp)
  · split at hkind
    · rw [← Except.error.inj hkind]
      rfl
    · exact absurd hkind (by simp)

/-- A payload is rejected with a `ValueError`. -/
theorem isValueError_of_rejected
    (hrejected : normalizeTemplatePayload std template existing draw = .error raised) :
    raised.isValueError = true := by
  rw [normalizeTemplatePayload] at hrejected
  cases hname : required "name"
      (strip (textOrInherited std template "name" (existing.map MessageTemplate.name) [])) with
  | error other =>
    rw [hname] at hrejected
    rw [← Except.error.inj hrejected]
    exact isValueError_of_required hname
  | ok name =>
    cases hbody : required "body"
        (givenText std template "body" (existing.map MessageTemplate.body)) with
    | error other =>
      rw [hname, hbody] at hrejected
      rw [← Except.error.inj hrejected]
      exact isValueError_of_required hbody
    | ok body =>
      cases hkind : normalizeKind std template existing
          (normalizeTemplateId std template existing draw) with
      | error other =>
        rw [hname, hbody, hkind] at hrejected
        rw [← Except.error.inj hrejected]
        exact isValueError_of_normalizeKind hkind
      | ok given =>
        rw [hname, hbody, hkind] at hrejected
        exact absurd hrejected (by simp [bind, Except.bind, pure, Except.pure])

theorem kind_of_normalize
    (hnormalize : normalizeTemplatePayload std template existing draw = .ok normalized) :
    normalizeKind std template existing (normalizeTemplateId std template existing draw) =
      .ok (normalized.templateId, normalized.kind) := by
  obtain ⟨_, _, hnormalize⟩ := Loops.exists_of_bind_eq_ok hnormalize
  obtain ⟨_, _, hnormalize⟩ := Loops.exists_of_bind_eq_ok hnormalize
  obtain ⟨given, hgiven, hnormalize⟩ := Loops.exists_of_bind_eq_ok hnormalize
  rw [hgiven, ← Except.ok.inj hnormalize]

theorem strip_plain (text : PlainText) : strip text.val = text.val :=
  stripBy_eq_self_of_forall fun c hc => (text.forall_mem c hc).2

theorem strip_strip (text : PyStr) : strip (strip text) = strip text :=
  stripBy_idem isSpace text

theorem strip_normalizeTemplateId :
    strip (normalizeTemplateId std template existing draw) =
      normalizeTemplateId std template existing draw := by
  rw [normalizeTemplateId]
  split
  · exact strip_plain draw.uuid
  · exact strip_strip _

theorem normalizeTemplateId_ne_nil : normalizeTemplateId std template existing draw ≠ [] := by
  rw [normalizeTemplateId]
  split
  · exact draw.uuid.property.1
  · rename_i hgiven
    exact hgiven

section

variable (hnormalize : normalizeTemplatePayload std template existing draw = .ok normalized)

include hnormalize

/-- The two ways in which a kind is settled. -/
theorem kind_cases :
    (normalized.kind = .system ∧ normalized.templateId = systemTemplateId) ∨
      (normalized.kind = .custom ∧
        normalized.templateId = normalizeTemplateId std template existing draw ∧
          normalized.templateId ≠ systemTemplateId ∧
            existing.map MessageTemplate.kind ≠ some .system) := by
  have hkind := kind_of_normalize hnormalize
  rw [normalizeKind] at hkind
  split at hkind
  · obtain ⟨hid, hkind⟩ := Prod.mk.inj (Except.ok.inj hkind)
    exact Or.inl ⟨hkind.symm, hid.symm⟩
  · rename_i hneither
    rw [not_or] at hneither
    split at hkind
    · exact absurd hkind (by simp)
    · obtain ⟨hid, hkind⟩ := Prod.mk.inj (Except.ok.inj hkind)
      rw [← hid]
      exact Or.inr ⟨hkind.symm, rfl, hneither.1, hneither.2⟩

theorem system_iff_of_normalize :
    normalized.kind = .system ↔ normalized.templateId = systemTemplateId := by
  rcases kind_cases hnormalize with ⟨hkind, hid⟩ | ⟨hkind, _, hid, _⟩
  · exact iff_of_true hkind hid
  · exact iff_of_false (by rw [hkind]; decide) hid

theorem templateId_of_normalize :
    strip normalized.templateId = normalized.templateId ∧ normalized.templateId ≠ [] := by
  rcases kind_cases hnormalize with ⟨_, hid⟩ | ⟨_, hid, _⟩
  · rw [hid]
    exact ⟨by decide, by decide⟩
  · rw [hid]
    exact ⟨strip_normalizeTemplateId, normalizeTemplateId_ne_nil⟩

end

/-- What was found makes the template a system one. -/
theorem kind_of_system_found {found : MessageTemplate} (hfound : found.kind = .system)
    (hnormalize : normalizeTemplatePayload std template (some found) draw = .ok normalized) :
    normalized.kind = .system := by
  rcases kind_cases hnormalize with ⟨hkind, _⟩ | ⟨_, _, _, hcustom⟩
  · exact hkind
  · exact absurd (congrArg some hfound) hcustom

/-- A text that is given comes first. -/
theorem given_cases (key : String) (inherited : Option PyStr) (default : PyStr) :
    textOrInherited std template key inherited default =
        truthyText std.toStdlib [template.get? (py key)] ∨
      textOrInherited std template key inherited default =
        truthyText std.toStdlib [inherited.map Json.str, some (.str default)] := by
  rw [textOrInherited]
  cases htruthy : (template.get? (py key)).filter Json.truthy with
  | none =>
    apply Or.inr
    rw [truthyText, List.findSome?_cons, htruthy]
    rfl
  | some value =>
    apply Or.inl
    simp only [truthyText, List.findSome?_cons, htruthy]

/-- A custom template found by its name keeps the payload from naming the system template. -/
theorem kind_of_custom_found {found : MessageTemplate} (hfound : found.kind = .custom)
    (hid : found.templateId ≠ systemTemplateId) (hstripped : strip found.templateId =
      found.templateId) (hnamed : found.templateId ≠ [])
    (hlookup : lookupTemplateId std template ≠ systemTemplateId)
    (hnormalize : normalizeTemplatePayload std template (some found) draw = .ok normalized) :
    normalized.kind = .custom := by
  have hgiven : normalizeTemplateId std template (some found) draw ≠ systemTemplateId := by
    have hdrawn : draw.uuid.val ≠ systemTemplateId := by
      intro hsame
      have hlength := draw.uuid_length
      rw [hsame] at hlength
      exact absurd hlength (by decide)
    rw [normalizeTemplateId]
    split
    · exact hdrawn
    · rcases @given_cases std template "template_id" (some found.templateId)
        draw.uuid.val with hcase | hcase
      · rw [Option.map_some, hcase]
        exact hlookup
      · rw [Option.map_some, hcase, Option.map_some, truthyText_text _ hnamed, hstripped]
        exact hid
  have hkind := kind_of_normalize hnormalize
  rw [normalizeKind, if_neg (by simp [hgiven, hfound])] at hkind
  split at hkind
  · exact absurd hkind (by simp)
  · exact (Prod.mk.inj (Except.ok.inj hkind)).2.symm

end Normalized

/-! ## What the changes keep -/

section Changes

variable {items : List MessageTemplate}

theorem mem_withoutTemplate :
    item ∈ withoutTemplate templateId items ↔ item ∈ items ∧ item.templateId ≠ templateId := by
  rw [withoutTemplate, List.mem_filter, decide_eq_true_eq]

theorem sound_withoutTemplate (hsound : Sound items) (hid : templateId ≠ systemTemplateId) :
    Sound (withoutTemplate templateId items) where
  wellKept :=
    { ids := hsound.wellKept.ids.sublist (List.filter_sublist.map _)
      system := fun item hitem => hsound.wellKept.system item (mem_withoutTemplate.mp hitem).1
      present := by
        obtain ⟨item, hitem, hsystem⟩ := hsound.wellKept.present
        exact ⟨item, mem_withoutTemplate.mpr ⟨hitem, by rw [hsystem]; exact hid.symm⟩, hsystem⟩ }
  encodable := fun item hitem => hsound.encodable item (mem_withoutTemplate.mp hitem).1
  stripped := fun item hitem => hsound.stripped item (mem_withoutTemplate.mp hitem).1
  named := fun item hitem => hsound.named item (mem_withoutTemplate.mp hitem).1

/-- The templates after the upsert of a template. -/
def withTemplate (normalized : MessageTemplate) (items : List MessageTemplate) :
    List MessageTemplate :=
  withoutTemplate normalized.templateId items ++ [normalized]

theorem mem_withTemplate {normalized : MessageTemplate} :
    item ∈ withTemplate normalized items ↔
      (item ∈ items ∧ item.templateId ≠ normalized.templateId) ∨ item = normalized := by
  rw [withTemplate, List.mem_append, mem_withoutTemplate, List.mem_singleton]

theorem wellKept_withTemplate (hkept : WellKept items) {normalized : MessageTemplate}
    (hsystem : normalized.kind = .system ↔ normalized.templateId = systemTemplateId) :
    WellKept (withTemplate normalized items) where
  ids := by
    rw [withTemplate, List.map_append, List.map_singleton, List.nodup_append_comm,
      List.singleton_append, List.nodup_cons]
    constructor
    · intro hmem
      obtain ⟨item, hitem, hid⟩ := List.mem_map.mp hmem
      exact (mem_withoutTemplate.mp hitem).2 hid
    · exact hkept.ids.sublist (List.filter_sublist.map _)
  system := by
    intro item hitem
    rcases mem_withTemplate.mp hitem with ⟨hmem, _⟩ | rfl
    · exact hkept.system item hmem
    · exact hsystem
  present := by
    by_cases hid : normalized.templateId = systemTemplateId
    · exact ⟨normalized, mem_withTemplate.mpr (Or.inr rfl), hid⟩
    · obtain ⟨item, hitem, hitemId⟩ := hkept.present
      refine ⟨item, mem_withTemplate.mpr (Or.inl ⟨hitem, ?_⟩), hitemId⟩
      rw [hitemId]
      exact fun hsame => hid hsame.symm

theorem sound_withTemplate (hsound : Sound items) {std : NumberStdlib} {template : Fields}
    {existing : Option MessageTemplate} {draw : TemplateDraw} {normalized : MessageTemplate}
    (hnormalize : normalizeTemplatePayload std template existing draw = .ok normalized)
    (hencodable : normalized.Encodable) : Sound (withTemplate normalized items) := by
  obtain ⟨hstripped, hnamed⟩ := templateId_of_normalize hnormalize
  have hall : ∀ {good : MessageTemplate → Prop}, (∀ item ∈ items, good item) → good normalized →
      ∀ item ∈ withTemplate normalized items, good item := by
    intro good hgood hnormalized item hitem
    rcases mem_withTemplate.mp hitem with ⟨hmem, _⟩ | rfl
    · exact hgood item hmem
    · exact hnormalized
  exact
    { wellKept := wellKept_withTemplate hsound.wellKept (system_iff_of_normalize hnormalize)
      encodable := hall hsound.encodable hencodable
      stripped := hall hsound.stripped hstripped
      named := hall hsound.named hnamed }

end Changes

/-! ## One call -/

section Step

variable {std : NumberStdlib} {stores : TemplateStores} {items : List MessageTemplate}
  {call : TemplateCall}

/-- Both stores hold the templates. -/
structure Holds (stores : TemplateStores) (items : List MessageTemplate) : Prop where
  file : stores.file = { document := some items }
  sqlite : stores.sqlite = { rows := items }
  sound : Sound items

theorem file_ensured (hsound : Sound items) (now : PlainText) :
    FileMessageTemplateStore.ensured { document := some items } now =
      (.ok items, { document := some items }) := by
  rw [FileMessageTemplateStore.ensured, FileMessageTemplateStore.ensureSystemTemplate,
    FileMessageTemplateStore.load]
  simp only [if_pos hsound.wellKept.present]
  rfl

theorem file_listTemplates (hsound : Sound items) (now : PlainText) :
    FileMessageTemplateStore.listTemplates { document := some items } now =
      (.ok (sortTemplates items), { document := some items }) := by
  rw [FileMessageTemplateStore.listTemplates, file_ensured hsound]
  rfl

theorem sqlite_ensured (hsound : Sound items) (now : PlainText) :
    SqliteMessageTemplateStore.ensureSystemTemplate { rows := items } now = { rows := items } := by
  obtain ⟨system, hsystem, hid⟩ := hsound.wellKept.present
  rw [SqliteMessageTemplateStore.ensureSystemTemplate]
  cases hfound : templateById systemTemplateId items with
  | some found => rfl
  | none =>
    have hnot := List.find?_eq_none.mp hfound system hsystem
    exact absurd hid (by simpa using hnot)

theorem sqlite_listTemplates (hsound : Sound items) (now : PlainText) :
    SqliteMessageTemplateStore.listTemplates { rows := items } now = sortTemplates items := by
  rw [SqliteMessageTemplateStore.listTemplates, sqlite_ensured hsound]

/-- An upsert that names no template keeps them all. -/
def KeepsUnnamed (std : NumberStdlib) (call : TemplateCall)
    (items after : List MessageTemplate) : Prop :=
  ∀ template, call.op = .upsert template →
    (∀ item ∈ items, item.templateId ≠ lookupTemplateId std template) →
      ∀ item ∈ items, item ∈ after

variable {after : List MessageTemplate} {condition : Prop}

theorem keepsListed_iff :
    KeepsListed std call (.ok (sortTemplates items)) (.ok (sortTemplates after)) ↔
      KeepsUnnamed std call items after := by
  constructor
  · intro hkeeps template hop hunnamed item hitem
    obtain ⟨listed, hlisted, hall⟩ := hkeeps template (sortTemplates items) hop rfl
      (fun other hother => hunnamed other (mem_sortTemplates.mp hother))
    obtain rfl := Except.ok.inj hlisted
    exact mem_sortTemplates.mp (hall item (mem_sortTemplates.mpr hitem))
  · intro hkeeps template listed hop hlisted hunnamed
    obtain rfl := Except.ok.inj hlisted
    refine ⟨_, rfl, ?_⟩
    intro item hitem
    apply mem_sortTemplates.mpr
    exact hkeeps template hop (fun other hother => hunnamed other (mem_sortTemplates.mpr hother))
      item (mem_sortTemplates.mp hitem)

/-- Where both stores come to hold the same templates, they agree if their answers do, nothing
changes under an exception, and what is not named is kept. -/
theorem agreeOn_iff (hholds : Holds stores items) (hafter : Holds (stores.step std call) after) :
    AgreeOnTemplates std stores call (stores.step std call) ↔
      SameOutcome (stores.file.perform std call).1 (stores.sqlite.perform std call).1 ∧
        (∀ raised, (stores.file.perform std call).1 = .error raised → after = items) ∧
          KeepsUnnamed std call items after := by
  constructor
  · intro hagree
    refine ⟨hagree.answers, ?_, ?_⟩
    · intro raised hraised
      have hsame := hagree.fileRaises raised hraised
      rw [hafter.file, hholds.file] at hsame
      exact Option.some.inj (FileMessageTemplateStore.mk.inj hsame)
    · have hkeeps := hagree.sqliteKeeps
      rw [hholds.sqlite, hafter.sqlite, sqlite_listTemplates hholds.sound,
        sqlite_listTemplates hafter.sound] at hkeeps
      exact keepsListed_iff.mp hkeeps
  · rintro ⟨hanswers, hraises, hkeeps⟩
    have hsqliteRaises : ∀ raised, (stores.sqlite.perform std call).1 = .error raised →
        after = items := by
      intro raised hraised
      rw [hraised] at hanswers
      cases hfile : (stores.file.perform std call).1 with
      | error other => exact hraises other hfile
      | ok answer =>
        rw [hfile] at hanswers
        exact absurd hanswers id
    refine ⟨hanswers, ?_, ?_, ?_, ?_, ?_, ?_⟩
    · rw [hafter.file, hafter.sqlite, file_listTemplates hafter.sound,
        sqlite_listTemplates hafter.sound]
      exact rfl
    · rw [hafter.sqlite, sqlite_listTemplates hafter.sound]
      exact wellKept_sortTemplates hafter.sound.wellKept
    · intro raised hraised
      rw [hafter.file, hholds.file, hraises raised hraised]
    · intro raised hraised
      rw [hafter.sqlite, hholds.sqlite, hsqliteRaises raised hraised]
    · rw [hholds.file, hafter.file, file_listTemplates hholds.sound,
        file_listTemplates hafter.sound]
      exact keepsListed_iff.mpr hkeeps
    · rw [hholds.sqlite, hafter.sqlite, sqlite_listTemplates hholds.sound,
        sqlite_listTemplates hafter.sound]
      exact keepsListed_iff.mpr hkeeps

/-- The stores agree on the call exactly under the condition, and hold the same then. -/
structure AgreeExactlyWhen (std : NumberStdlib) (stores : TemplateStores)
    (call : TemplateCall) (condition : Prop) : Prop where
  iff : AgreeOnTemplates std stores call (stores.step std call) ↔ condition
  holds : AgreeOnTemplates std stores call (stores.step std call) →
    ∃ after, Holds (stores.step std call) after

theorem agreeExactlyWhen_not
    (hanswers : ¬SameOutcome (stores.file.perform std call).1 (stores.sqlite.perform std call).1)
    (hcondition : ¬condition) : AgreeExactlyWhen std stores call condition :=
  ⟨iff_of_false (fun hagree => hanswers hagree.answers) hcondition,
    fun hagree => absurd hagree.answers hanswers⟩

/-- A call that changes nothing. -/
theorem agreeExactlyWhen_unchanged {left right : Except PyError TemplateAnswer}
    (hholds : Holds stores items) (hfile : stores.file.perform std call = (left, stores.file))
    (hsqlite : stores.sqlite.perform std call = (right, stores.sqlite)) :
    AgreeExactlyWhen std stores call (SameOutcome left right) := by
  have hsame : stores.step std call = stores := by
    rw [TemplateStores.step, hfile, hsqlite]
  have hafter : Holds (stores.step std call) items := by
    rw [hsame]
    exact hholds
  refine ⟨?_, fun _ => ⟨items, hafter⟩⟩
  rw [agreeOn_iff hholds hafter, hfile, hsqlite]
  exact and_iff_left ⟨fun _ _ => rfl, fun _ _ _ _ hitem => hitem⟩

/-- A call that succeeds in both stores with one answer. -/
theorem agreeExactlyWhen_changed {answer : TemplateAnswer} (hholds : Holds stores items)
    (hafter : Sound after)
    (hfile : stores.file.perform std call = (.ok answer, { document := some after }))
    (hsqlite : stores.sqlite.perform std call = (.ok answer, { rows := after })) :
    AgreeExactlyWhen std stores call (KeepsUnnamed std call items after) := by
  have hnext : Holds (stores.step std call) after := by
    rw [TemplateStores.step, hfile, hsqlite]
    exact ⟨rfl, rfl, hafter⟩
  refine ⟨?_, fun _ => ⟨after, hnext⟩⟩
  rw [agreeOn_iff hholds hnext, hfile, hsqlite]
  constructor
  · exact fun hall => hall.2.2
  · exact fun hkeeps => ⟨rfl, fun _ hraised => absurd hraised (by simp), hkeeps⟩

/-! ### Reading and deleting -/

theorem templateById_sorted (hsound : Sound items) (templateId : PyStr) :
    templateById templateId (sortTemplates items) = templateById templateId items := by
  have hperm : (sortTemplates items).Perm items := List.perm_insertionSort _ items
  exact KeyedList.find?_eq_of_perm hperm
    ((hperm.map MessageTemplate.templateId).nodup_iff.mpr hsound.wellKept.ids) templateId

theorem file_getTemplate (hsound : Sound items) (templateId : PyStr) (now : PlainText) :
    FileMessageTemplateStore.getTemplate { document := some items } templateId now =
      (.ok (templateById (strip templateId) items), { document := some items }) := by
  rw [FileMessageTemplateStore.getTemplate, file_listTemplates hsound]
  dsimp only [Except.map]
  rw [templateById_sorted hsound]

theorem sqlite_getTemplate (items : List MessageTemplate) (templateId : PyStr) :
    SqliteMessageTemplateStore.getTemplate { rows := items } templateId =
      if Encodable templateId then .ok (templateById (strip templateId) items)
      else .error .unicodeEncodeError := by
  rw [SqliteMessageTemplateStore.getTemplate]
  by_cases hid : Encodable templateId
  · simp [bindError, SqlParameter.bindError, hid]
  · simp [bindError, SqlParameter.bindError, hid]

theorem agreeExactlyWhen_get (hholds : Holds stores items) (templateId : PyStr)
    (draw : TemplateDraw) :
    AgreeExactlyWhen std stores { op := .get templateId, draw := draw }
      (Encodable templateId) := by
  have hfile : stores.file.perform std { op := .get templateId, draw := draw } =
      (.ok (.found (templateById (strip templateId) items)), stores.file) := by
    rw [FileMessageTemplateStore.perform, hholds.file]
    dsimp only
    rw [file_getTemplate hholds.sound]
    rfl
  by_cases hid : Encodable templateId
  · have hsqlite : stores.sqlite.perform std { op := .get templateId, draw := draw } =
        (.ok (.found (templateById (strip templateId) items)), stores.sqlite) := by
      rw [SqliteMessageTemplateStore.perform, hholds.sqlite]
      dsimp only
      rw [sqlite_getTemplate, if_pos hid]
      rfl
    have hexact := agreeExactlyWhen_unchanged hholds hfile hsqlite
    exact ⟨hexact.iff.trans (iff_of_true rfl hid), hexact.holds⟩
  · apply agreeExactlyWhen_not _ hid
    rw [hfile, SqliteMessageTemplateStore.perform, hholds.sqlite]
    dsimp only
    rw [sqlite_getTemplate, if_neg hid]
    exact id

/-- No other template is a system one. -/
theorem kind_of_templateById (hsound : Sound items) (hid : templateId ≠ systemTemplateId) :
    (templateById templateId items).map MessageTemplate.kind ≠ some .system := by
  intro hsystem
  obtain ⟨item, hitem, hkind⟩ := Option.map_eq_some_iff.mp hsystem
  have hitemId : item.templateId = templateId := by simpa using List.find?_some hitem
  apply hid
  rw [← hitemId]
  exact (hsound.wellKept.system item (List.mem_of_find?_eq_some hitem)).mp hkind

theorem file_save_withoutTemplate (hsound : Sound items) (templateId : PyStr) :
    FileMessageTemplateStore.save (withoutTemplate templateId items) =
      (.ok (), { document := some (withoutTemplate templateId items) }) := by
  rw [FileMessageTemplateStore.save]
  apply if_pos
  exact fun item hitem => hsound.encodable item (mem_withoutTemplate.mp hitem).1

theorem file_deleteTemplate (hsound : Sound items) (hid : strip templateId ≠ systemTemplateId)
    (now : PlainText) :
    FileMessageTemplateStore.deleteTemplate { document := some items } templateId now =
      (.ok (), { document := some (withoutTemplate (strip templateId) items) }) := by
  rw [FileMessageTemplateStore.deleteTemplate]
  simp only [if_neg hid, file_getTemplate hsound, strip_strip,
    if_neg (kind_of_templateById hsound hid), FileMessageTemplateStore.load,
    file_save_withoutTemplate hsound]
  rw [FileMessageTemplateStore.ensureSystemTemplate, FileMessageTemplateStore.load]
  exact if_pos (sound_withoutTemplate hsound hid).wellKept.present

theorem sqlite_deleteTemplate (hsound : Sound items) (hid : strip templateId ≠ systemTemplateId)
    (now : PlainText) :
    SqliteMessageTemplateStore.deleteTemplate { rows := items } templateId now =
      if Encodable templateId then (.ok (), { rows := withoutTemplate (strip templateId) items })
      else (.error .unicodeEncodeError, { rows := items }) := by
  rw [SqliteMessageTemplateStore.deleteTemplate]
  by_cases hencodable : Encodable templateId
  · simp only [if_neg hid, sqlite_getTemplate, encodable_strip_iff, if_pos hencodable,
      strip_strip, if_neg (kind_of_templateById hsound hid),
      sqlite_ensured (sound_withoutTemplate hsound hid)]
  · simp only [if_neg hid, sqlite_getTemplate, encodable_strip_iff, if_neg hencodable]

theorem agreeExactlyWhen_delete (hholds : Holds stores items) (templateId : PyStr)
    (draw : TemplateDraw) :
    AgreeExactlyWhen std stores { op := .delete templateId, draw := draw }
      (strip templateId = systemTemplateId ∨ Encodable templateId) := by
  by_cases hid : strip templateId = systemTemplateId
  · have hfile : stores.file.perform std { op := .delete templateId, draw := draw } =
        (.error cannotDelete, stores.file) := by
      rw [FileMessageTemplateStore.perform]
      simp only [FileMessageTemplateStore.deleteTemplate, if_pos hid]
      rfl
    have hsqlite : stores.sqlite.perform std { op := .delete templateId, draw := draw } =
        (.error cannotDelete, stores.sqlite) := by
      rw [SqliteMessageTemplateStore.perform]
      simp only [SqliteMessageTemplateStore.deleteTemplate, if_pos hid]
      rfl
    have hexact := agreeExactlyWhen_unchanged hholds hfile hsqlite
    exact ⟨hexact.iff.trans (iff_of_true (Or.inl rfl) (Or.inl hid)), hexact.holds⟩
  · have hfile : stores.file.perform std { op := .delete templateId, draw := draw } =
        (.ok .done, { document := some (withoutTemplate (strip templateId) items) }) := by
      rw [FileMessageTemplateStore.perform, hholds.file]
      simp only [file_deleteTemplate hholds.sound hid]
      rfl
    by_cases hencodable : Encodable templateId
    · have hsqlite : stores.sqlite.perform std { op := .delete templateId, draw := draw } =
          (.ok .done, { rows := withoutTemplate (strip templateId) items }) := by
        rw [SqliteMessageTemplateStore.perform, hholds.sqlite]
        simp only [sqlite_deleteTemplate hholds.sound hid, if_pos hencodable]
        rfl
      have hexact := agreeExactlyWhen_changed hholds (sound_withoutTemplate hholds.sound hid)
        hfile hsqlite
      have hkeeps : KeepsUnnamed std { op := .delete templateId, draw := draw } items
          (withoutTemplate (strip templateId) items) :=
        fun _ hop => absurd hop (by simp)
      exact ⟨hexact.iff.trans (iff_of_true hkeeps (Or.inr hencodable)), hexact.holds⟩
    · apply agreeExactlyWhen_not _ (by simp [hid, hencodable])
      rw [hfile, SqliteMessageTemplateStore.perform, hholds.sqlite]
      simp only [sqlite_deleteTemplate hholds.sound hid, if_neg hencodable]
      exact id

/-! ### Upserts -/

section Upsert

variable {template : Fields} {draw : TemplateDraw} {normalized : MessageTemplate}
  {raised : PyError}

theorem file_upsert_rejected (hsound : Sound items)
    (hrejected : normalizeTemplatePayload std template (foundInFile std template items) draw =
      .error raised) :
    FileMessageTemplateStore.upsertTemplate std { document := some items } template draw =
      (.error raised, { document := some items }) := by
  rw [FileMessageTemplateStore.upsertTemplate, file_ensured hsound]
  simp only [hrejected]

theorem file_upsert_normalized (hsound : Sound items)
    (hnormalize : normalizeTemplatePayload std template (foundInFile std template items) draw =
      .ok normalized) :
    FileMessageTemplateStore.upsertTemplate std { document := some items } template draw =
      if normalized.Encodable then
        (.ok normalized, { document := some (withTemplate normalized items) })
      else (.error .unicodeEncodeError, { document := none }) := by
  rw [FileMessageTemplateStore.upsertTemplate, file_ensured hsound]
  simp only [hnormalize]
  rw [FileMessageTemplateStore.save, ← withTemplate]
  by_cases hencodable : normalized.Encodable
  · rw [if_pos hencodable, if_pos]
    · rfl
    · intro item hitem
      rcases mem_withTemplate.mp hitem with ⟨hmem, _⟩ | rfl
      · exact hsound.encodable item hmem
      · exact hencodable
  · rw [if_neg hencodable, if_neg]
    · rfl
    · exact fun hall => hencodable (hall normalized (mem_withTemplate.mpr (Or.inr rfl)))

/-- What the SQLite store finds; an identifier that cannot be bound cannot be looked up. -/
theorem sqlite_existing (hsound : Sound items) :
    SqliteMessageTemplateStore.existing std { rows := items } template =
      if Encodable (lookupTemplateId std template) then .ok (foundInTable std template items)
      else .error .unicodeEncodeError := by
  rw [SqliteMessageTemplateStore.existing, foundInTable]
  by_cases hnil : lookupTemplateId std template = []
  · have hnone : templateById [] items = none := by
      apply List.find?_eq_none.mpr
      intro item hitem
      simpa using hsound.named item hitem
    rw [if_pos hnil, hnil, hnone, if_pos encodable_nil]
    rfl
  · have hstripped : strip (lookupTemplateId std template) = lookupTemplateId std template :=
      strip_strip _
    rw [if_neg hnil, sqlite_getTemplate, hstripped]
    by_cases hid : Encodable (lookupTemplateId std template)
    · rw [if_pos hid, if_pos hid]
      rfl
    · rw [if_neg hid, if_neg hid]
      rfl

theorem sqlite_upsert_of_lookup (hsound : Sound items)
    (hid : ¬Encodable (lookupTemplateId std template)) :
    SqliteMessageTemplateStore.upsertTemplate std { rows := items } template draw =
      (.error .unicodeEncodeError, { rows := items }) := by
  rw [SqliteMessageTemplateStore.upsertTemplate, sqlite_ensured hsound]
  simp only [sqlite_existing hsound, if_neg hid]

theorem sqlite_upsert_rejected (hsound : Sound items)
    (hid : Encodable (lookupTemplateId std template))
    (hrejected : normalizeTemplatePayload std template (foundInTable std template items) draw =
      .error raised) :
    SqliteMessageTemplateStore.upsertTemplate std { rows := items } template draw =
      (.error raised, { rows := items }) := by
  rw [SqliteMessageTemplateStore.upsertTemplate, sqlite_ensured hsound]
  simp only [sqlite_existing hsound, if_pos hid, hrejected]

/-- Only the encoding of a text can fail. -/
theorem bindError_of_not_encodable (hencodable : ¬normalized.Encodable) :
    bindError normalized.parameters = some .unicodeEncodeError := by
  obtain ⟨raised, hraised⟩ := Option.ne_none_iff_exists'.mp hencodable
  rw [hraised]
  obtain ⟨parameter, hparameter, hbind⟩ := List.exists_of_findSome?_eq_some hraised
  have htext : ∃ text, parameter = .text text := by
    simp only [MessageTemplate.parameters, List.mem_cons, List.not_mem_nil, or_false] at hparameter
    rcases hparameter with rfl | rfl | rfl | rfl | rfl | rfl | rfl <;> exact ⟨_, rfl⟩
  obtain ⟨text, rfl⟩ := htext
  rw [SqlParameter.bindError] at hbind
  split at hbind
  · exact absurd hbind (by simp)
  · exact hbind.symm

theorem sqlite_upsert_normalized (hsound : Sound items)
    (hid : Encodable (lookupTemplateId std template))
    (hnormalize : normalizeTemplatePayload std template (foundInTable std template items) draw =
      .ok normalized) :
    SqliteMessageTemplateStore.upsertTemplate std { rows := items } template draw =
      if normalized.Encodable then (.ok normalized, { rows := withTemplate normalized items })
      else (.error .unicodeEncodeError, { rows := items }) := by
  rw [SqliteMessageTemplateStore.upsertTemplate, sqlite_ensured hsound]
  simp only [sqlite_existing hsound, if_pos hid, hnormalize]
  by_cases hencodable : normalized.Encodable
  · rw [if_pos hencodable, show bindError normalized.parameters = none from hencodable]
    rfl
  · rw [if_neg hencodable, bindError_of_not_encodable hencodable]

/-- Finding different templates ends in different ones. -/
theorem normalized_ne_of_found_ne (hsound : Sound items) {listed : MessageTemplate}
    (hne : foundInFile std template items ≠ foundInTable std template items)
    (hfile : normalizeTemplatePayload std template (foundInFile std template items) draw =
      .ok normalized)
    (htable : normalizeTemplatePayload std template (foundInTable std template items) draw =
      .ok listed) : listed ≠ normalized := by
  rw [foundInFile, FileMessageTemplateStore.existing] at hne hfile
  rw [foundInTable] at hne htable
  cases hbyId : templateById (lookupTemplateId std template) items with
  | some found =>
    rw [hbyId, Option.some_or, Option.some_or] at hne
    exact absurd rfl hne
  | none =>
    rw [hbyId, Option.none_or] at hne hfile htable
    rw [Option.none_or] at hne
    rcases templateByName_sorted hsound.wellKept (lookupTemplateName std template) with
      hsame | ⟨system, custom, hsystem, hsystemKind, hcustom, hcustomKind⟩
    · exact absurd hsame.symm hne
    · rw [hsystem] at htable
      rw [hcustom] at hfile
      have hmem := (templateByName_eq_some hcustom).1
      have hlookup : lookupTemplateId std template ≠ systemTemplateId := by
        intro hsame
        obtain ⟨item, hitem, hitemId⟩ := hsound.wellKept.present
        have hnot := List.find?_eq_none.mp hbyId item hitem
        rw [hsame] at hnot
        exact absurd hitemId (by simpa using hnot)
      have hid : custom.templateId ≠ systemTemplateId := by
        intro hsame
        have hkind := (hsound.wellKept.system custom hmem).mpr hsame
        exact absurd (hcustomKind.symm.trans hkind) (by decide)
      have hnormalizedKind := kind_of_custom_found hcustomKind hid (hsound.stripped custom hmem)
        (hsound.named custom hmem) hlookup hfile
      have hlistedKind := kind_of_system_found hsystemKind htable
      intro hsame
      rw [hsame, hnormalizedKind] at hlistedKind
      exact absurd hlistedKind (by decide)

/-- An upsert that names no template keeps them if it replaces none. -/
theorem keepsUnnamed_iff :
    KeepsUnnamed std { op := .upsert template, draw := draw } items
        (withTemplate normalized items) ↔
      ((∀ item ∈ items, item.templateId ≠ lookupTemplateId std template) →
        ∀ item ∈ items, item.templateId = normalized.templateId → item = normalized) := by
  constructor
  · intro hkeeps hunnamed item hitem hid
    rcases mem_withTemplate.mp (hkeeps template rfl hunnamed item hitem) with ⟨_, hother⟩ | hsame
    · exact absurd hid hother
    · exact hsame
  · intro hkeeps other hop hunnamed item hitem
    obtain rfl := TemplateOp.upsert.inj hop
    apply mem_withTemplate.mpr
    by_cases hid : item.templateId = normalized.templateId
    · exact Or.inr (hkeeps hunnamed item hitem hid)
    · exact Or.inl ⟨hitem, hid⟩

theorem file_perform_upsert (hholds : Holds stores items) :
    stores.file.perform std { op := .upsert template, draw := draw } =
      ((FileMessageTemplateStore.upsertTemplate std { document := some items } template
          draw).1.map .template,
        (FileMessageTemplateStore.upsertTemplate std { document := some items } template
          draw).2) := by
  rw [FileMessageTemplateStore.perform, hholds.file]

theorem sqlite_perform_upsert (hholds : Holds stores items) :
    stores.sqlite.perform std { op := .upsert template, draw := draw } =
      ((SqliteMessageTemplateStore.upsertTemplate std { rows := items } template draw).1.map
          .template,
        (SqliteMessageTemplateStore.upsertTemplate std { rows := items } template draw).2) := by
  rw [SqliteMessageTemplateStore.perform, hholds.sqlite]

/-- Both stores raise a `ValueError`. -/
theorem agreeExactlyWhen_failures {left right : PyError} (hholds : Holds stores items)
    (hfile : stores.file.perform std call = (.error left, stores.file))
    (hsqlite : stores.sqlite.perform std call = (.error right, stores.sqlite))
    (hleft : left.isValueError = true) (hright : right.isValueError = true)
    (hcondition : condition) : AgreeExactlyWhen std stores call condition := by
  have hexact := agreeExactlyWhen_unchanged hholds hfile hsqlite
  have hsame : SameOutcome (Except.error left : Except PyError TemplateAnswer) (.error right) :=
    Or.inr ⟨hleft, hright⟩
  exact ⟨hexact.iff.trans (iff_of_true hsame hcondition), hexact.holds⟩

/-- The payload is rejected with the template that the file store finds. -/
theorem agreeExactlyWhen_rejected (hholds : Holds stores items)
    (hrejected : normalizeTemplatePayload std template (foundInFile std template items) draw =
      .error raised) :
    AgreeExactlyWhen std stores { op := .upsert template, draw := draw }
      (∀ listed, normalizeTemplatePayload std template (foundInTable std template items) draw =
        .ok listed → Encodable (lookupTemplateId std template) → ¬listed.Encodable) := by
  have hfile : stores.file.perform std { op := .upsert template, draw := draw } =
      (.error raised, stores.file) := by
    rw [file_perform_upsert hholds, file_upsert_rejected hholds.sound hrejected, hholds.file]
    rfl
  have hraised := isValueError_of_rejected hrejected
  by_cases hid : Encodable (lookupTemplateId std template)
  · cases hlisted : normalizeTemplatePayload std template (foundInTable std template items)
        draw with
    | error other =>
      have hsqlite : stores.sqlite.perform std { op := .upsert template, draw := draw } =
          (.error other, stores.sqlite) := by
        rw [sqlite_perform_upsert hholds, sqlite_upsert_rejected hholds.sound hid hlisted,
          hholds.sqlite]
        rfl
      exact agreeExactlyWhen_failures hholds hfile hsqlite hraised
        (isValueError_of_rejected hlisted) (by simp)
    | ok listed =>
      by_cases hencodable : listed.Encodable
      · apply agreeExactlyWhen_not
        · rw [hfile, sqlite_perform_upsert hholds,
            sqlite_upsert_normalized hholds.sound hid hlisted, if_pos hencodable]
          exact id
        · exact fun hcondition => hcondition listed rfl hid hencodable
      · have hsqlite : stores.sqlite.perform std { op := .upsert template, draw := draw } =
            (.error .unicodeEncodeError, stores.sqlite) := by
          rw [sqlite_perform_upsert hholds, sqlite_upsert_normalized hholds.sound hid hlisted,
            if_neg hencodable, hholds.sqlite]
          rfl
        apply agreeExactlyWhen_failures hholds hfile hsqlite hraised rfl
        intro other hother _
        rwa [← Except.ok.inj hother]
  · have hsqlite : stores.sqlite.perform std { op := .upsert template, draw := draw } =
        (.error .unicodeEncodeError, stores.sqlite) := by
      rw [sqlite_perform_upsert hholds, sqlite_upsert_of_lookup hholds.sound hid, hholds.sqlite]
      rfl
    exact agreeExactlyWhen_failures hholds hfile hsqlite hraised rfl
      (fun _ _ hencodable => absurd hencodable hid)

/-- A write that fails leaves no templates behind. -/
theorem agreeExactlyWhen_emptied {answer : Except PyError TemplateAnswer}
    (hfile : stores.file.perform std call = (answer, { document := none }))
    (hcondition : ¬condition) : AgreeExactlyWhen std stores call condition := by
  have hnot : ¬AgreeOnTemplates std stores call (stores.step std call) := by
    intro hagree
    have hlisted := hagree.listed
    rw [TemplateStores.step, hfile] at hlisted
    exact hlisted
  exact ⟨iff_of_false hnot hcondition, fun hagree => absurd hagree hnot⟩

/-- The payload is accepted with the template that the file store finds. -/
theorem agreeExactlyWhen_accepted (hholds : Holds stores items)
    (hnormalize : normalizeTemplatePayload std template (foundInFile std template items) draw =
      .ok normalized) :
    AgreeExactlyWhen std stores { op := .upsert template, draw := draw }
      (Encodable (lookupTemplateId std template) ∧
        foundInFile std template items = foundInTable std template items ∧
          normalized.Encodable ∧
            ((∀ item ∈ items, item.templateId ≠ lookupTemplateId std template) →
              ∀ item ∈ items, item.templateId = normalized.templateId → item = normalized)) := by
  by_cases hencodable : normalized.Encodable
  · have hfile : stores.file.perform std { op := .upsert template, draw := draw } =
        (.ok (.template normalized), { document := some (withTemplate normalized items) }) := by
      rw [file_perform_upsert hholds, file_upsert_normalized hholds.sound hnormalize,
        if_pos hencodable]
      rfl
    by_cases hid : Encodable (lookupTemplateId std template)
    · by_cases hfound : foundInFile std template items = foundInTable std template items
      · have hsqlite : stores.sqlite.perform std { op := .upsert template, draw := draw } =
            (.ok (.template normalized), { rows := withTemplate normalized items }) := by
          rw [sqlite_perform_upsert hholds, sqlite_upsert_normalized hholds.sound hid
            (hfound ▸ hnormalize), if_pos hencodable]
          rfl
        have hexact := agreeExactlyWhen_changed hholds
          (sound_withTemplate hholds.sound hnormalize hencodable) hfile hsqlite
        refine ⟨hexact.iff.trans ?_, hexact.holds⟩
        rw [keepsUnnamed_iff, and_iff_right hid, and_iff_right hfound, and_iff_right hencodable]
      · apply agreeExactlyWhen_not
        · rw [hfile, sqlite_perform_upsert hholds]
          cases hlisted : normalizeTemplatePayload std template
              (foundInTable std template items) draw with
          | error other =>
            rw [sqlite_upsert_rejected hholds.sound hid hlisted]
            exact id
          | ok listed =>
            rw [sqlite_upsert_normalized hholds.sound hid hlisted]
            by_cases hlistedEncodable : listed.Encodable
            · rw [if_pos hlistedEncodable]
              intro hsame
              have hne := normalized_ne_of_found_ne hholds.sound hfound hnormalize hlisted
              exact hne (TemplateAnswer.template.inj hsame).symm
            · rw [if_neg hlistedEncodable]
              exact id
        · exact fun hcondition => hfound hcondition.2.1
    · apply agreeExactlyWhen_not
      · rw [hfile, sqlite_perform_upsert hholds, sqlite_upsert_of_lookup hholds.sound hid]
        exact id
      · exact fun hcondition => hid hcondition.1
  · have hfile : stores.file.perform std { op := .upsert template, draw := draw } =
        (.error .unicodeEncodeError, { document := none }) := by
      rw [file_perform_upsert hholds, file_upsert_normalized hholds.sound hnormalize,
        if_neg hencodable]
      rfl
    exact agreeExactlyWhen_emptied hfile (fun hcondition => hencodable hcondition.2.2.1)

end Upsert

theorem agreeExactlyWhen_harmless (hholds : Holds stores items) (call : TemplateCall) :
    AgreeExactlyWhen std stores call (TemplateHarmless std stores call) := by
  obtain ⟨op, draw⟩ := call
  cases op with
  | get templateId => exact agreeExactlyWhen_get hholds templateId draw
  | delete templateId => exact agreeExactlyWhen_delete hholds templateId draw
  | upsert template =>
    have hcondition : TemplateHarmless std stores { op := .upsert template, draw := draw } ↔
        TemplateUpsertHarmless std items template draw := by
      simp only [TemplateHarmless, hholds.file, Option.mem_some_iff, forall_eq']
    have hexact : AgreeExactlyWhen std stores { op := .upsert template, draw := draw }
        (TemplateUpsertHarmless std items template draw) := by
      unfold TemplateUpsertHarmless
      cases hnormalize : normalizeTemplatePayload std template
          (foundInFile std template items) draw with
      | error raised => exact agreeExactlyWhen_rejected hholds hnormalize
      | ok normalized => exact agreeExactlyWhen_accepted hholds hnormalize
    exact ⟨hexact.iff.trans hcondition.symm, hexact.holds⟩

end Step

/-! ## Runs of both stores -/

theorem holds_new (now : PlainText) :
    Holds (TemplateStores.new now) [systemTemplatePayload now] := by
  refine ⟨rfl, rfl, ?_⟩
  refine ⟨⟨by simp, ?_, ⟨_, List.mem_singleton_self _, rfl⟩⟩, ?_, ?_, ?_⟩
  · intro item hitem
    rw [List.mem_singleton.mp hitem]
    exact iff_of_true rfl rfl
  · intro item hitem
    rw [List.mem_singleton.mp hitem]
    have hbody : Encodable systemDefaultTemplateBody := by
      simp [systemDefaultTemplateBody, encodable_append, encodable_py]
    simp [MessageTemplate.Encodable, bindError, MessageTemplate.parameters,
      SqlParameter.bindError, systemTemplatePayload, systemTemplateId, encodable_py,
      TemplateKind.value, hbody, now.encodable]
  · intro item hitem
    rw [List.mem_singleton.mp hitem]
    exact show strip systemTemplateId = systemTemplateId by decide
  · intro item hitem
    rw [List.mem_singleton.mp hitem]
    exact show systemTemplateId ≠ [] by decide

/-! ## A custom template with the name of the system template -/

def templateDraw : TemplateDraw where
  uuid := ⟨py "00000000-0000-4000-8000-000000000000", by decide⟩
  now := ⟨py "2026-01-01T00:00:00+00:00", by decide⟩
  uuid_length := by decide

def templateUpsert (fields : List (String × String)) : TemplateCall where
  op := .upsert (fields.map fun field => (py field.1, .str (py field.2)))
  draw := templateDraw

/-- A template is created and given the name of the system template, the system template is
written anew, and the name is used for an upsert. -/
def sharedName : List TemplateCall :=
  [templateUpsert [("template_id", "x"), ("name", "a"), ("body", "b")],
    templateUpsert [("template_id", "x"), ("name", "默认通知"), ("body", "b")],
    templateUpsert [("template_id", "system-default"), ("body", "c")],
    templateUpsert [("name", "默认通知"), ("body", "d")]]

/-- The kind of the template that an upsert returns. -/
def answeredKind : Except PyError TemplateAnswer → Option TemplateKind
  | .ok (.template stored) => some stored.kind
  | _ => none

theorem answeredKind_of_agree {std : NumberStdlib} {before after : TemplateStores}
    {call : TemplateCall} (hagree : AgreeOnTemplates std before call after) :
    answeredKind (before.file.perform std call).1 =
      answeredKind (before.sqlite.perform std call).1 := by
  have hsame := hagree.answers
  cases hfile : (before.file.perform std call).1 with
  | ok answer =>
    cases hsqlite : (before.sqlite.perform std call).1 with
    | ok other =>
      rw [hfile, hsqlite] at hsame
      exact congrArg (fun value => answeredKind (.ok value)) hsame
    | error raised =>
      rw [hfile, hsqlite] at hsame
      exact absurd hsame id
  | error raised =>
    cases hsqlite : (before.sqlite.perform std call).1 with
    | ok other =>
      rw [hfile, hsqlite] at hsame
      exact absurd hsame id
    | error other => rfl

/-- The stores agree on every call of a run exactly when every call is harmless. -/
theorem templates_agree_iff (std : NumberStdlib) (now : PlainText) (calls : List TemplateCall) :
    let run := history (TemplateStores.step std) (.new now) calls
    Follows (AgreeOnTemplates std) (.new now) run ↔
      Guarded (TemplateHarmless std) (.new now) run := by
  intro run
  apply follows_iff_guarded_of_inv (fun stores => ∃ items, Holds stores items)
    (follows_history (TemplateStores.step std) (.new now) calls) ⟨_, holds_new now⟩
  rintro stores call _ ⟨items, hholds⟩ rfl
  have hexact := @agreeExactlyWhen_harmless std stores items hholds call
  exact ⟨hexact.iff, hexact.holds⟩

/-- The last upsert changes the custom template in one store and the system template in the
other. -/
theorem sharedName_disagrees :
    ¬Follows (AgreeOnTemplates numberStdlib) (.new templateDraw.now)
      (history (TemplateStores.step numberStdlib) (.new templateDraw.now) sharedName) := by
  intro hfollows
  have hsame := answeredKind_of_agree hfollows.2.2.2.1
  exact absurd hsame (by decide +kernel)

end RootSeeker.Storage
