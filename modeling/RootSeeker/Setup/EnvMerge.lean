import RootSeeker.Setup.EnvWriter

/-!
# The lines that a merge writes

The lines of the file without repeated keys, each key with its merged value, and a line for
each key that is added.
-/

namespace RootSeeker.Setup

open Python Contracts

/-- The updates of a caller: keys and values that fit on a line. -/
structure EnvUpdates where
  entries : Dict PyStr PyStr
  nodup : entries.keys.Nodup
  noEquals : ∀ entry ∈ entries, equalsSign ∉ entry.1
  onOneLine : ∀ entry ∈ entries, OnOneLine entry.1 ∧ OnOneLine entry.2
  stripped : ∀ entry ∈ entries, strip entry.1 = entry.1 ∧ strip entry.2 = entry.2

/-- The blank lines, the comments and the lines without `=`. -/
def otherLines (lines : List PyStr) : List PyStr :=
  lines.filter fun line => (envLine line).isNone

def lineKeys (lines : List PyStr) : List PyStr :=
  (lines.filterMap envLine).map Prod.fst

/-- What a key is to have after the merge. -/
def mergedValue (overwrite : Bool) (values updates : Dict PyStr PyStr) (key : PyStr) :
    Option PyStr :=
  match updates.get? key with
  | none => values.get? key
  | some value => if isProtected overwrite values key then values.get? key else some value

/-- The lines without those that repeat a key. -/
def keptLines : List PyStr → List PyStr → List PyStr
  | _, [] => []
  | seen, line :: rest =>
    match envLine line with
    | none => line :: keptLines seen rest
    | some (key, _) =>
      if key ∈ seen then keptLines seen rest else line :: keptLines (key :: seen) rest

def newKeys (values updates : Dict PyStr PyStr) : List PyStr :=
  updates.keys.filter (· ∉ values.keys)

/-! ## The updated table -/

section Updates

variable {overwrite : Bool} {updates : Dict PyStr PyStr}

theorem isProtected_set_of_ne {values : Dict PyStr PyStr} {key other : PyStr} (hne : other ≠ key)
    (value : PyStr) :
    isProtected overwrite (values.set key value) other = isProtected overwrite values other := by
  rw [isProtected, isProtected, Dict.get?_set_of_ne _ _ hne]

theorem mem_keys_of_isProtected {values : Dict PyStr PyStr} {key : PyStr}
    (hprotected : isProtected overwrite values key = true) : key ∈ values.keys := by
  rw [Dict.mem_keys_iff]
  cases hget : values.get? key with
  | some value => rfl
  | none =>
    rw [isProtected, hget] at hprotected
    simp at hprotected

theorem newKeys_cons_of_mem {values : Dict PyStr PyStr} {key value : PyStr}
    (hmem : key ∈ values.keys) :
    newKeys values ((key, value) :: updates) = newKeys values updates :=
  List.filter_cons_of_neg (by simpa using hmem)

theorem newKeys_set {values : Dict PyStr PyStr} {key value : PyStr} (hnew : key ∉ updates.keys) :
    newKeys (values.set key value) updates = newKeys values updates := by
  rw [newKeys, newKeys]
  apply List.filter_congr
  intro other hother
  have hne : other ≠ key := ne_of_mem_of_not_mem hother hnew
  simp [Dict.mem_keys_set, hne]

/-- What the updates do to a table. -/
theorem foldl_applyUpdate (hnodup : updates.keys.Nodup) (table : EnvTable) :
    (updates.foldl (applyUpdate overwrite) table).1 =
        table.1 ++ (newKeys table.2 updates).map keyMarker ∧
      (updates.foldl (applyUpdate overwrite) table).2.keys =
        table.2.keys ++ newKeys table.2 updates ∧
      ∀ key, (updates.foldl (applyUpdate overwrite) table).2.get? key =
        mergedValue overwrite table.2 updates key := by
  induction updates generalizing table with
  | nil => simp [newKeys, mergedValue, Dict.keys]
  | cons update updates ih =>
    obtain ⟨key, value⟩ := update
    obtain ⟨hfresh, hrest⟩ := List.nodup_cons.mp hnodup
    have hother : ∀ {other}, other ∈ Dict.keys updates → other ≠ key := fun hmem heq =>
      hfresh (heq ▸ hmem)
    have hget : Dict.get? updates key = none := by
      rw [← Option.not_isSome_iff_eq_none, ← Dict.mem_keys_iff]
      exact hfresh
    rw [List.foldl_cons]
    cases hprotected : isProtected overwrite table.2 key with
    | true =>
      have hmem := mem_keys_of_isProtected hprotected
      have hstep : applyUpdate overwrite table (key, value) = table := by
        rw [applyUpdate, if_pos hprotected]
      obtain ⟨horder, hkeys, hvalues⟩ := ih hrest table
      rw [hstep, newKeys_cons_of_mem hmem]
      refine ⟨horder, hkeys, fun other => ?_⟩
      rw [hvalues other, mergedValue, mergedValue, Dict.get?]
      by_cases hsame : key = other
      · rw [if_pos hsame, ← hsame, hget]
        simp [hprotected]
      · rw [if_neg hsame]
    | false =>
      have hnext : (applyUpdate overwrite table (key, value)).2 = table.2.set key value := by
        rw [applyUpdate, if_neg (by rw [hprotected]; simp)]
      obtain ⟨horder, hkeys, hvalues⟩ := ih hrest (applyUpdate overwrite table (key, value))
      rw [hnext, newKeys_set hfresh] at horder hkeys
      rw [hnext] at hvalues
      have hmerged : ∀ other, mergedValue overwrite (table.2.set key value) updates other =
          mergedValue overwrite table.2 ((key, value) :: updates) other := by
        intro other
        rw [mergedValue, mergedValue, Dict.get?]
        by_cases hsame : key = other
        · subst hsame
          rw [if_pos rfl, hget]
          simp [hprotected]
        · rw [if_neg hsame, isProtected_set_of_ne (Ne.symm hsame),
            Dict.get?_set_of_ne _ _ (Ne.symm hsame)]
      by_cases hmem : key ∈ table.2.keys
      · have horder' : (applyUpdate overwrite table (key, value)).1 = table.1 := by
          rw [applyUpdate, if_neg (by rw [hprotected]; simp)]
          exact if_pos hmem
        rw [horder'] at horder
        rw [Dict.keys_set, Dict.addKey_of_mem hmem] at hkeys
        rw [newKeys_cons_of_mem hmem]
        exact ⟨horder, hkeys, fun other => (hvalues other).trans (hmerged other)⟩
      · have horder' : (applyUpdate overwrite table (key, value)).1 =
            table.1 ++ [keyMarker key] := by
          rw [applyUpdate, if_neg (by rw [hprotected]; simp)]
          exact if_neg hmem
        have hcons : newKeys table.2 ((key, value) :: updates) = key :: newKeys table.2 updates :=
          List.filter_cons_of_pos (by simpa using hmem)
        rw [horder', List.append_assoc] at horder
        rw [Dict.keys_set, Dict.addKey, if_neg hmem, List.append_assoc] at hkeys
        rw [hcons]
        exact ⟨horder, hkeys, fun other => (hvalues other).trans (hmerged other)⟩

end Updates

/-! ## The written lines -/

/-- The line of a key with its value. -/
def keyLine (values : Dict PyStr PyStr) (key : PyStr) : PyStr :=
  envText key ((values.get? key).getD [])

/-- A line with the value that its key has now. -/
def rewriteLine (values : Dict PyStr PyStr) (line : PyStr) : PyStr :=
  match envLine line with
  | none => line
  | some (key, _) => keyLine values key

def seenKeys (seen lines : List PyStr) : List PyStr :=
  lines.foldl (fun seen line =>
    match envLine line with
    | none => seen
    | some (key, _) => if key ∈ seen then seen else key :: seen) seen

theorem otherLines_cons_none {line : PyStr} (hline : envLine line = none) (lines : List PyStr) :
    otherLines (line :: lines) = line :: otherLines lines :=
  List.filter_cons_of_pos (by rw [hline]; rfl)

theorem otherLines_cons_some {line : PyStr} {entry : PyStr × PyStr}
    (hline : envLine line = some entry) (lines : List PyStr) :
    otherLines (line :: lines) = otherLines lines :=
  List.filter_cons_of_neg (by rw [hline]; exact Bool.false_ne_true)

theorem lineKeys_cons_none {line : PyStr} (hline : envLine line = none) (lines : List PyStr) :
    lineKeys (line :: lines) = lineKeys lines := by
  rw [lineKeys, List.filterMap_cons_none hline]
  rfl

theorem lineKeys_cons_some {line key value : PyStr} (hline : envLine line = some (key, value))
    (lines : List PyStr) : lineKeys (line :: lines) = key :: lineKeys lines := by
  rw [lineKeys, List.filterMap_cons_some hline]
  rfl

theorem mem_seenKeys {seen lines : List PyStr} {key : PyStr} :
    key ∈ seenKeys seen lines ↔ key ∈ seen ∨ key ∈ lineKeys lines := by
  induction lines generalizing seen with
  | nil => simp [seenKeys, lineKeys]
  | cons line lines ih =>
    rw [seenKeys, List.foldl_cons]
    change key ∈ seenKeys _ lines ↔ _
    rw [ih]
    cases hline : envLine line with
    | none => rw [lineKeys_cons_none hline]
    | some entry =>
      obtain ⟨other, value⟩ := entry
      rw [lineKeys_cons_some hline, List.mem_cons]
      simp only
      by_cases hseen : other ∈ seen
      · rw [if_pos hseen]
        have hkey : key = other → key ∈ seen := fun heq => heq ▸ hseen
        tauto
      · rw [if_neg hseen, List.mem_cons]
        tauto

theorem mem_lineKeys {lines : List PyStr} {key : PyStr} :
    key ∈ lineKeys lines ↔ key ∈ (lineValues lines).keys := by
  rw [mem_keys_lineValues, lineKeys]
  apply Iff.intro
  · intro hmem
    obtain ⟨entry, hentry, rfl⟩ := List.mem_map.mp hmem
    obtain ⟨line, hline, hread⟩ := List.mem_filterMap.mp hentry
    exact ⟨line, hline, entry.2, hread⟩
  · rintro ⟨line, hline, value, hread⟩
    exact List.mem_map.mpr ⟨(key, value), List.mem_filterMap.mpr ⟨line, hline, hread⟩, rfl⟩

section Render

variable {values : Dict PyStr PyStr}

theorem keyPrefix_keyMarker (key : PyStr) : keyPrefix <+: keyMarker key :=
  List.prefix_append keyPrefix key

theorem drop_keyMarker (key : PyStr) : (keyMarker key).drop keyPrefix.length = key :=
  List.drop_left

theorem renderItems_seen {key : PyStr} {seen : List PyStr} (hseen : key ∈ seen) (items : List PyStr) :
    renderItems values (keyMarker key :: items) seen = renderItems values items seen := by
  rw [renderItems, if_pos (keyPrefix_keyMarker key)]
  simp only [drop_keyMarker]
  rw [if_pos hseen]

theorem renderItems_key {key : PyStr} {seen : List PyStr} (hnew : key ∉ seen)
    (hmem : key ∈ values.keys) (items : List PyStr) :
    renderItems values (keyMarker key :: items) seen =
      (renderItems values items (key :: seen)).map (keyLine values key :: ·) := by
  rw [Dict.mem_keys_iff, Option.isSome_iff_exists] at hmem
  obtain ⟨value, hvalue⟩ := hmem
  rw [renderItems, if_pos (keyPrefix_keyMarker key)]
  simp only [drop_keyMarker]
  rw [if_neg hnew, hvalue, keyLine, hvalue]
  rfl

theorem map_map_except {α : Type*} (result : Except PyError (List α)) (first second : List α) :
    (result.map (second ++ ·)).map (first ++ ·) = result.map ((first ++ second) ++ ·) := by
  cases result with
  | error error => rfl
  | ok items => simp [Except.map]

/-- The lines of the file come out with the repeated keys left out. -/
theorem renderItems_lines {lines : List PyStr}
    (hmarker : ∀ line ∈ otherLines lines, ¬keyPrefix <+: line)
    (hkeys : ∀ key ∈ lineKeys lines, key ∈ values.keys) (tail seen : List PyStr) :
    renderItems values (lines.map markerOf ++ tail) seen =
      (renderItems values tail (seenKeys seen lines)).map
        ((keptLines seen lines).map (rewriteLine values) ++ ·) := by
  induction lines generalizing seen with
  | nil =>
    have hid : ∀ result : Except PyError (List PyStr), result = result.map ([] ++ ·) := by
      intro result
      cases result <;> rfl
    exact hid _
  | cons line lines ih =>
    cases hline : envLine line with
    | none =>
      rw [otherLines_cons_none hline] at hmarker
      obtain ⟨hother, hrest⟩ := List.forall_mem_cons.mp hmarker
      rw [lineKeys_cons_none hline] at hkeys
      have hitem : markerOf line = line := by simp only [markerOf, hline]
      have hkept : keptLines seen (line :: lines) = line :: keptLines seen lines := by
        simp only [keptLines, hline]
      have hseen : seenKeys seen (line :: lines) = seenKeys seen lines := by
        simp only [seenKeys, List.foldl_cons, hline]
      have hrewrite : rewriteLine values line = line := by simp only [rewriteLine, hline]
      rw [List.map_cons, List.cons_append, renderItems, hitem, if_neg hother,
        ih hrest hkeys, hkept, hseen, List.map_cons, hrewrite]
      exact map_map_except _ [line] _
    | some entry =>
      obtain ⟨key, value⟩ := entry
      rw [otherLines_cons_some hline] at hmarker
      rw [lineKeys_cons_some hline] at hkeys
      obtain ⟨hkey, hkeys⟩ := List.forall_mem_cons.mp hkeys
      have hitem : markerOf line = keyMarker key := by simp only [markerOf, hline]
      rw [List.map_cons, List.cons_append, hitem]
      by_cases hseen : key ∈ seen
      · have hkept : keptLines seen (line :: lines) = keptLines seen lines := by
          simp only [keptLines, hline, if_pos hseen]
        have hafter : seenKeys seen (line :: lines) = seenKeys seen lines := by
          simp only [seenKeys, List.foldl_cons, hline, if_pos hseen]
        rw [renderItems_seen hseen, ih hmarker hkeys, hkept, hafter]
      · have hkept : keptLines seen (line :: lines) = line :: keptLines (key :: seen) lines := by
          simp only [keptLines, hline, if_neg hseen]
        have hafter : seenKeys seen (line :: lines) = seenKeys (key :: seen) lines := by
          simp only [seenKeys, List.foldl_cons, hline, if_neg hseen]
        have hrewrite : rewriteLine values line = keyLine values key := by
          simp only [rewriteLine, hline]
        rw [renderItems_key hseen hkey, ih hmarker hkeys, hkept, hafter, List.map_cons, hrewrite]
        exact map_map_except _ [keyLine values key] _

/-- The new keys come out at the end. -/
theorem renderItems_keys {keys : List PyStr} (hnodup : keys.Nodup)
    (hkeys : ∀ key ∈ keys, key ∈ values.keys) {seen : List PyStr}
    (hnew : ∀ key ∈ keys, key ∉ seen) (hall : ∀ key ∈ values.keys, key ∈ seen ∨ key ∈ keys) :
    renderItems values (keys.map keyMarker) seen = .ok (keys.map (keyLine values)) := by
  induction keys generalizing seen with
  | nil =>
    have hnone : values.filter (fun entry => entry.1 ∉ seen) = [] := by
      apply List.filter_eq_nil_iff.mpr
      intro entry hentry
      have hseen := (hall entry.1 (List.mem_map_of_mem hentry)).resolve_right List.not_mem_nil
      simpa using hseen
    rw [List.map_nil, renderItems, hnone]
    rfl
  | cons key keys ih =>
    obtain ⟨hfresh, hrest⟩ := List.nodup_cons.mp hnodup
    obtain ⟨hkey, hkeys⟩ := List.forall_mem_cons.mp hkeys
    obtain ⟨hunseen, hnew⟩ := List.forall_mem_cons.mp hnew
    rw [List.map_cons, renderItems_key hunseen hkey, ih hrest hkeys]
    · rfl
    · intro other hother hmem
      cases List.mem_cons.mp hmem with
      | inl hsame => exact hfresh (hsame ▸ hother)
      | inr hold => exact hnew other hother hold
    · intro other hother
      rcases hall other hother with hold | hlater
      · exact Or.inl (List.mem_cons_of_mem key hold)
      · cases List.mem_cons.mp hlater with
        | inl hsame => exact Or.inl (hsame ▸ List.mem_cons_self)
        | inr hlater => exact Or.inr hlater

end Render

/-! ## Reading the written lines -/

/-- The values after the updates. -/
def updatedValues (existing : PyStr) (updates : Dict PyStr PyStr) (overwrite : Bool) :
    Dict PyStr PyStr :=
  (updates.foldl (applyUpdate overwrite) (parseEnvLines existing)).2

def mergedLines (existing : PyStr) (updates : Dict PyStr PyStr) (overwrite : Bool) :
    List PyStr :=
  (keptLines [] (splitLines existing)).map
      (rewriteLine (updatedValues existing updates overwrite)) ++
    (newKeys (envValues existing) updates).map
      (keyLine (updatedValues existing updates overwrite))

section Kept

theorem otherLines_keptLines (seen lines : List PyStr) :
    otherLines (keptLines seen lines) = otherLines lines := by
  induction lines generalizing seen with
  | nil => rfl
  | cons line lines ih =>
    cases hline : envLine line with
    | none =>
      have hkept : keptLines seen (line :: lines) = line :: keptLines seen lines := by
        simp only [keptLines, hline]
      rw [hkept, otherLines_cons_none hline, otherLines_cons_none hline, ih seen]
    | some entry =>
      rw [otherLines_cons_some hline]
      by_cases hseen : entry.1 ∈ seen
      · have hkept : keptLines seen (line :: lines) = keptLines seen lines := by
          simp only [keptLines, hline, if_pos hseen]
        rw [hkept, ih seen]
      · have hkept : keptLines seen (line :: lines) =
            line :: keptLines (entry.1 :: seen) lines := by
          simp only [keptLines, hline, if_neg hseen]
        rw [hkept, otherLines_cons_some hline, ih _]

theorem lineKeys_keptLines (seen lines : List PyStr) :
    (lineKeys (keptLines seen lines)).Nodup ∧
      ∀ key, key ∈ lineKeys (keptLines seen lines) ↔ key ∉ seen ∧ key ∈ lineKeys lines := by
  induction lines generalizing seen with
  | nil => simp [keptLines, lineKeys]
  | cons line lines ih =>
    cases hline : envLine line with
    | none =>
      have hkept : keptLines seen (line :: lines) = line :: keptLines seen lines := by
        simp only [keptLines, hline]
      rw [hkept, lineKeys_cons_none hline, lineKeys_cons_none hline]
      exact ih seen
    | some entry =>
      obtain ⟨other, value⟩ := entry
      rw [lineKeys_cons_some hline]
      by_cases hseen : other ∈ seen
      · have hkept : keptLines seen (line :: lines) = keptLines seen lines := by
          simp only [keptLines, hline, if_pos hseen]
        rw [hkept]
        refine ⟨(ih seen).1, fun key => ?_⟩
        rw [(ih seen).2, List.mem_cons]
        have hkey : key = other → key ∈ seen := fun heq => heq ▸ hseen
        tauto
      · have hkept : keptLines seen (line :: lines) = line :: keptLines (other :: seen) lines := by
          simp only [keptLines, hline, if_neg hseen]
        rw [hkept, lineKeys_cons_some hline]
        refine ⟨List.nodup_cons.mpr ⟨fun hmem => ?_, (ih _).1⟩, fun key => ?_⟩
        · exact ((ih _).2 other).mp hmem |>.1 List.mem_cons_self
        · rw [List.mem_cons, (ih _).2, List.mem_cons, List.mem_cons]
          have hkey : key = other → key ∉ seen := fun heq => heq ▸ hseen
          tauto

/-- Without repeated keys every line stays. -/
theorem keptLines_of_nodup {lines : List PyStr} (hnodup : (lineKeys lines).Nodup)
    {seen : List PyStr} (hnew : ∀ key ∈ lineKeys lines, key ∉ seen) :
    keptLines seen lines = lines := by
  induction lines generalizing seen with
  | nil => rfl
  | cons line lines ih =>
    cases hline : envLine line with
    | none =>
      rw [lineKeys_cons_none hline] at hnodup hnew
      have hkept : keptLines seen (line :: lines) = line :: keptLines seen lines := by
        simp only [keptLines, hline]
      rw [hkept, ih hnodup hnew]
    | some entry =>
      obtain ⟨other, value⟩ := entry
      rw [lineKeys_cons_some hline] at hnodup hnew
      obtain ⟨hother, hnew⟩ := List.forall_mem_cons.mp hnew
      obtain ⟨hfresh, hnodup⟩ := List.nodup_cons.mp hnodup
      have hkept : keptLines seen (line :: lines) = line :: keptLines (other :: seen) lines := by
        simp only [keptLines, hline, if_neg hother]
      rw [hkept, ih hnodup]
      intro key hkey hmem
      cases List.mem_cons.mp hmem with
      | inl hsame => exact hfresh (hsame ▸ hkey)
      | inr hold => exact hnew key hkey hold

theorem keptLines_subset (seen lines : List PyStr) :
    ∀ line ∈ keptLines seen lines, line ∈ lines := by
  induction lines generalizing seen with
  | nil => exact fun _ h => h
  | cons first lines ih =>
    intro line hline
    rw [keptLines] at hline
    split at hline
    · cases List.mem_cons.mp hline with
      | inl hfirst => exact hfirst ▸ List.mem_cons_self
      | inr hlater => exact List.mem_cons_of_mem first (ih _ line hlater)
    · split at hline
      · exact List.mem_cons_of_mem first (ih _ line hline)
      · cases List.mem_cons.mp hline with
        | inl hfirst => exact hfirst ▸ List.mem_cons_self
        | inr hlater => exact List.mem_cons_of_mem first (ih _ line hlater)

end Kept

section Written

variable {existing : PyStr} {updates : EnvUpdates} {overwrite : Bool}

theorem get?_updatedValues (key : PyStr) :
    (updatedValues existing updates.entries overwrite).get? key =
      mergedValue overwrite (envValues existing) updates.entries key := by
  have hall := @foldl_applyUpdate overwrite _ updates.nodup (parseEnvLines existing)
  rw [parseEnvLines_eq] at hall
  rw [updatedValues, parseEnvLines_eq]
  exact hall.2.2 key

theorem keys_updatedValues :
    (updatedValues existing updates.entries overwrite).keys =
      (envValues existing).keys ++ newKeys (envValues existing) updates.entries := by
  have hall := @foldl_applyUpdate overwrite _ updates.nodup (parseEnvLines existing)
  rw [parseEnvLines_eq] at hall
  rw [updatedValues, parseEnvLines_eq]
  exact hall.2.1

theorem nodup_newKeys : (newKeys (envValues existing) updates.entries).Nodup :=
  updates.nodup.filter _

theorem not_mem_of_mem_newKeys {key : PyStr}
    (hkey : key ∈ newKeys (envValues existing) updates.entries) :
    key ∉ (envValues existing).keys := by
  simpa using (List.mem_filter.mp hkey).2

/-- What is written when no line looks like a marker. -/
theorem mergeEnvFile_eq (hmarker : ∀ line ∈ otherLines (splitLines existing), ¬keyPrefix <+: line) :
    mergeEnvFile existing updates.entries overwrite =
      if Encodable (textOfLines (mergedLines existing updates.entries overwrite)) then
        .ok (textOfLines (mergedLines existing updates.entries overwrite))
      else .error .unicodeEncodeError := by
  have hall := @foldl_applyUpdate overwrite _ updates.nodup (parseEnvLines existing)
  have horder := hall.1
  rw [parseEnvLines_eq] at horder
  have hkeys := @keys_updatedValues existing updates overwrite
  have hold : ∀ key ∈ lineKeys (splitLines existing),
      key ∈ (updatedValues existing updates.entries overwrite).keys := by
    intro key hkey
    rw [hkeys]
    exact List.mem_append_left _ (mem_lineKeys.mp hkey)
  have hnew : ∀ key ∈ newKeys (envValues existing) updates.entries,
      key ∈ (updatedValues existing updates.entries overwrite).keys := by
    intro key hkey
    rw [hkeys]
    exact List.mem_append_right _ hkey
  have hunseen : ∀ key ∈ newKeys (envValues existing) updates.entries,
      key ∉ seenKeys [] (splitLines existing) := by
    intro key hkey hseen
    rcases mem_seenKeys.mp hseen with hnone | hline
    · cases hnone
    · exact not_mem_of_mem_newKeys hkey (mem_lineKeys.mp hline)
  have hcover : ∀ key ∈ (updatedValues existing updates.entries overwrite).keys,
      key ∈ seenKeys [] (splitLines existing) ∨
        key ∈ newKeys (envValues existing) updates.entries := by
    intro key hkey
    rw [hkeys] at hkey
    rcases List.mem_append.mp hkey with hline | hadded
    · exact Or.inl (mem_seenKeys.mpr (Or.inr (mem_lineKeys.mpr hline)))
    · exact Or.inr hadded
  have hrender : renderItems (updatedValues existing updates.entries overwrite)
      (updates.entries.foldl (applyUpdate overwrite) (parseEnvLines existing)).1 [] =
        .ok (mergedLines existing updates.entries overwrite) := by
    rw [parseEnvLines_eq, horder, renderItems_lines hmarker hold,
      renderItems_keys nodup_newKeys hnew hunseen hcover]
    rfl
  rw [mergeEnvFile]
  change (renderItems (updatedValues existing updates.entries overwrite) _ []).bind _ = _
  rw [hrender]
  rfl

/-- A value that can be written and read. -/
structure FitsLine (key value : PyStr) : Prop where
  isKey : IsEnvKey key
  endsPlain : EndsPlain value

theorem onOneLine_of_get? {key value : PyStr}
    (hget : (updatedValues existing updates.entries overwrite).get? key = some value) :
    OnOneLine key ∧ OnOneLine value := by
  have hlines : ∀ {value}, (envValues existing).get? key = some value →
      OnOneLine key ∧ OnOneLine value := by
    intro value hvalue
    obtain ⟨line, hline, hread⟩ := exists_line_of_get? hvalue
    have hone := onOneLine_of_mem_splitLines hline
    exact ⟨fun c hc => hone c (mem_line_of_mem_key hread hc),
      fun c hc => hone c (mem_line_of_mem_value hread hc)⟩
  rw [get?_updatedValues, mergedValue] at hget
  cases hupdate : updates.entries.get? key with
  | none =>
    rw [hupdate] at hget
    exact hlines hget
  | some new =>
    rw [hupdate] at hget
    simp only at hget
    split at hget
    · exact hlines hget
    · cases hget
      exact updates.onOneLine _ (Dict.mem_of_get? hupdate)

theorem fitsLine_of_get? (hcomment : ∀ key ∈ updates.entries.keys, key.head? ≠ some hashSign)
    {key value : PyStr}
    (hget : (updatedValues existing updates.entries overwrite).get? key = some value) :
    FitsLine key value := by
  have hlines : ∀ {value}, (envValues existing).get? key = some value → FitsLine key value := by
    intro value hvalue
    obtain ⟨line, _, hread⟩ := exists_line_of_get? hvalue
    exact ⟨isEnvKey_of_envLine hread, endsPlain_of_envLine hread⟩
  rw [get?_updatedValues, mergedValue] at hget
  cases hupdate : updates.entries.get? key with
  | none =>
    rw [hupdate] at hget
    exact hlines hget
  | some new =>
    rw [hupdate] at hget
    simp only at hget
    split at hget
    · exact hlines hget
    · cases hget
      have hentry := Dict.mem_of_get? hupdate
      have hstripped := updates.stripped _ hentry
      exact ⟨⟨updates.noEquals _ hentry, hstripped.1, hcomment key (List.mem_map_of_mem hentry)⟩,
        last_of_stripBy_eq_self hstripped.2⟩

end Written

end RootSeeker.Setup
