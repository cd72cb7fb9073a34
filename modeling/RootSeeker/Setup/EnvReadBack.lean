import RootSeeker.Setup.EnvMerge

/-!
# What a merged env file reads as

Updates reach their keys and everything else stays, unless a line or a key looks like
something else to the reader or the writer.
-/

namespace RootSeeker.Setup

open Python Contracts

/-- The written file reads as the merged values, each key on one line, with the other lines as
they were, and a second merge leaves it. -/
structure ReadsBack (existing : PyStr) (updates : Dict PyStr PyStr) (overwrite : Bool)
    (written : PyStr) : Prop where
  succeeds : mergeEnvFile existing updates overwrite = .ok written
  values : ∀ key, (envValues written).get? key =
    mergedValue overwrite (envValues existing) updates key
  oneLine : (lineKeys (splitLines written)).Nodup
  others : otherLines (splitLines written) = otherLines (splitLines existing)
  again : mergeEnvFile written updates overwrite = .ok written

/-- The files and updates that are merged as they should be. -/
structure Mergeable (existing : PyStr) (updates : Dict PyStr PyStr) (overwrite : Bool) : Prop where
  /-- No line without a key looks like a marker. -/
  noMarker : ∀ line ∈ otherLines (splitLines existing), ¬keyPrefix <+: line
  /-- No update looks like a comment. -/
  noComment : ∀ key ∈ updates.keys, key.head? ≠ some hashSign
  /-- The file does not end with an empty line, or a key is added after it. -/
  lastLine : newKeys (envValues existing) updates ≠ [] ∨
    (keptLines [] (splitLines existing)).getLast? ≠ some []
  encodable : ∀ entry ∈ updates, isProtected overwrite (envValues existing) entry.1 = false →
    Encodable entry.1 ∧ Encodable entry.2

/-! ## Reading what is written -/

theorem isSome_mergedValue {overwrite : Bool} {values updates : Dict PyStr PyStr} {key : PyStr}
    (hkey : key ∈ updates.keys) : (mergedValue overwrite values updates key).isSome = true := by
  rw [Dict.mem_keys_iff, Option.isSome_iff_exists] at hkey
  obtain ⟨value, hvalue⟩ := hkey
  rw [mergedValue, hvalue]
  simp only
  split
  · next hprotected => exact (Dict.mem_keys_iff _ _).mp (mem_keys_of_isProtected hprotected)
  · rfl

theorem get?_map_of_nodup {keys : List PyStr} (f : PyStr → PyStr) (key : PyStr) :
    Dict.get? (keys.map fun name => (name, f name)) key =
      if key ∈ keys then some (f key) else none := by
  induction keys with
  | nil => rfl
  | cons name keys ih =>
    rw [List.map_cons, Dict.get?, ih]
    by_cases hsame : name = key
    · rw [if_pos hsame, if_pos (hsame ▸ List.mem_cons_self), hsame]
    · rw [if_neg hsame]
      have hmem : key ∈ name :: keys ↔ key ∈ keys := by
        rw [List.mem_cons, or_iff_right (Ne.symm hsame)]
      simp only [hmem]

section Reading

variable {values : Dict PyStr PyStr}
  (hfits : ∀ key value, values.get? key = some value → FitsLine key value)

theorem rewriteLine_of_none {line : PyStr} (hline : envLine line = none) :
    rewriteLine values line = line := by
  simp only [rewriteLine, hline]

theorem rewriteLine_of_some {line : PyStr} {entry : PyStr × PyStr}
    (hline : envLine line = some entry) : rewriteLine values line = keyLine values entry.1 := by
  simp only [rewriteLine, hline]

include hfits

theorem envLine_keyLine {key : PyStr} (hkey : key ∈ values.keys) :
    envLine (keyLine values key) = some (key, (values.get? key).getD []) := by
  rw [Dict.mem_keys_iff, Option.isSome_iff_exists] at hkey
  obtain ⟨value, hvalue⟩ := hkey
  have hboth := hfits key value hvalue
  rw [keyLine, hvalue]
  exact envLine_envText hboth.isKey hboth.endsPlain

theorem filterMap_keyLines {keys : List PyStr} (hkeys : ∀ key ∈ keys, key ∈ values.keys) :
    (keys.map (keyLine values)).filterMap envLine =
      keys.map fun key => (key, (values.get? key).getD []) := by
  induction keys with
  | nil => rfl
  | cons key keys ih =>
    obtain ⟨hkey, hkeys⟩ := List.forall_mem_cons.mp hkeys
    rw [List.map_cons, List.filterMap_cons_some (envLine_keyLine hfits hkey), ih hkeys,
      List.map_cons]

theorem otherLines_keyLines {keys : List PyStr} (hkeys : ∀ key ∈ keys, key ∈ values.keys) :
    otherLines (keys.map (keyLine values)) = [] := by
  apply List.filter_eq_nil_iff.mpr
  intro line hline
  obtain ⟨key, hkey, rfl⟩ := List.mem_map.mp hline
  rw [envLine_keyLine hfits (hkeys key hkey)]
  exact Bool.false_ne_true

theorem filterMap_rewriteLines {lines : List PyStr}
    (hkeys : ∀ key ∈ lineKeys lines, key ∈ values.keys) :
    (lines.map (rewriteLine values)).filterMap envLine =
      (lineKeys lines).map fun key => (key, (values.get? key).getD []) := by
  induction lines with
  | nil => rfl
  | cons line lines ih =>
    rw [List.map_cons]
    cases hline : envLine line with
    | none =>
      rw [lineKeys_cons_none hline] at hkeys ⊢
      rw [rewriteLine_of_none hline, List.filterMap_cons_none hline, ih hkeys]
    | some entry =>
      rw [lineKeys_cons_some hline] at hkeys ⊢
      obtain ⟨hkey, hkeys⟩ := List.forall_mem_cons.mp hkeys
      rw [rewriteLine_of_some hline,
        List.filterMap_cons_some (envLine_keyLine hfits hkey), ih hkeys, List.map_cons]

theorem otherLines_rewriteLines {lines : List PyStr}
    (hkeys : ∀ key ∈ lineKeys lines, key ∈ values.keys) :
    otherLines (lines.map (rewriteLine values)) = otherLines lines := by
  induction lines with
  | nil => rfl
  | cons line lines ih =>
    rw [List.map_cons]
    cases hline : envLine line with
    | none =>
      rw [lineKeys_cons_none hline] at hkeys
      rw [rewriteLine_of_none hline, otherLines_cons_none hline, otherLines_cons_none hline,
        ih hkeys]
    | some entry =>
      rw [lineKeys_cons_some hline] at hkeys
      obtain ⟨hkey, hkeys⟩ := List.forall_mem_cons.mp hkeys
      rw [rewriteLine_of_some hline, otherLines_cons_some (envLine_keyLine hfits hkey),
        otherLines_cons_some hline, ih hkeys]

end Reading

theorem keyLine_ne_nil (values : Dict PyStr PyStr) (key : PyStr) : keyLine values key ≠ [] := by
  simp [keyLine, envText]

theorem rewriteLine_eq_nil_iff {values : Dict PyStr PyStr} {line : PyStr} :
    rewriteLine values line = [] ↔ line = [] := by
  cases hline : envLine line with
  | none => rw [rewriteLine_of_none hline]
  | some entry =>
    rw [rewriteLine_of_some hline]
    refine iff_of_false (keyLine_ne_nil values _) fun hnil => ?_
    rw [hnil] at hline
    cases hline

section Merged

variable {existing : PyStr} {updates : EnvUpdates} {overwrite : Bool}

/-- The keys of the lines that stay have values. -/
theorem mem_updatedValues_of_kept {key : PyStr}
    (hkey : key ∈ lineKeys (keptLines [] (splitLines existing))) :
    key ∈ (updatedValues existing updates.entries overwrite).keys := by
  rw [keys_updatedValues]
  exact List.mem_append_left _
    (mem_lineKeys.mp (((lineKeys_keptLines [] (splitLines existing)).2 key).mp hkey).2)

theorem mem_updatedValues_of_new {key : PyStr}
    (hkey : key ∈ newKeys (envValues existing) updates.entries) :
    key ∈ (updatedValues existing updates.entries overwrite).keys := by
  rw [keys_updatedValues]
  exact List.mem_append_right _ hkey

/-- An empty last line is the last one of the file. -/
theorem getLast?_mergedLines_iff :
    (mergedLines existing updates.entries overwrite).getLast? = some [] ↔
      ¬(newKeys (envValues existing) updates.entries ≠ [] ∨
        (keptLines [] (splitLines existing)).getLast? ≠ some []) := by
  rw [mergedLines, not_or, not_not, not_not]
  cases hnew : newKeys (envValues existing) updates.entries using List.reverseRecOn with
  | nil =>
    rw [List.map_nil, List.append_nil, List.getLast?_map, Option.map_eq_some_iff]
    simp only [rewriteLine_eq_nil_iff, true_and, exists_eq_right]
  | append_singleton init last =>
    rw [List.map_append, List.map_singleton, ← List.append_assoc, List.getLast?_concat]
    refine iff_of_false (fun hlast => ?_) fun hboth => ?_
    · exact keyLine_ne_nil _ _ (Option.some.inj hlast)
    · exact absurd hboth.1 (by simp)

theorem onOneLine_keyLine {key : PyStr}
    (hkey : key ∈ (updatedValues existing updates.entries overwrite).keys) :
    OnOneLine (keyLine (updatedValues existing updates.entries overwrite) key) := by
  rw [Dict.mem_keys_iff, Option.isSome_iff_exists] at hkey
  obtain ⟨value, hvalue⟩ := hkey
  obtain ⟨hone, hother⟩ := onOneLine_of_get? hvalue
  intro c hc
  rw [keyLine, hvalue, envText, List.append_assoc] at hc
  rcases List.mem_append.mp hc with hinside | hrest
  · exact hone c hinside
  · rcases List.mem_append.mp hrest with hequals | hinside
    · rw [List.mem_singleton.mp hequals]
      decide
    · exact hother c hinside

theorem mem_mergedLines {line : PyStr}
    (hline : line ∈ mergedLines existing updates.entries overwrite) :
    line ∈ otherLines (splitLines existing) ∨
      ∃ key ∈ (updatedValues existing updates.entries overwrite).keys,
        line = keyLine (updatedValues existing updates.entries overwrite) key := by
  rcases List.mem_append.mp hline with hkept | hnew
  · obtain ⟨old, hold, rfl⟩ := List.mem_map.mp hkept
    cases hread : envLine old with
    | none =>
      left
      rw [rewriteLine_of_none hread]
      exact List.mem_filter.mpr ⟨keptLines_subset _ _ old hold, by rw [hread]; rfl⟩
    | some entry =>
      right
      refine ⟨entry.1, mem_updatedValues_of_kept ?_, rewriteLine_of_some hread⟩
      exact List.mem_map_of_mem (List.mem_filterMap.mpr ⟨old, hold, hread⟩)
  · obtain ⟨key, hkey, rfl⟩ := List.mem_map.mp hnew
    exact Or.inr ⟨key, mem_updatedValues_of_new hkey, rfl⟩

theorem keyLine_mem_mergedLines {key : PyStr}
    (hkey : key ∈ (updatedValues existing updates.entries overwrite).keys) :
    keyLine (updatedValues existing updates.entries overwrite) key ∈
      mergedLines existing updates.entries overwrite := by
  rw [keys_updatedValues] at hkey
  rcases List.mem_append.mp hkey with hold | hnew
  · have hkept := ((lineKeys_keptLines [] (splitLines existing)).2 key).mpr
      ⟨List.not_mem_nil, mem_lineKeys.mpr hold⟩
    obtain ⟨entry, hentry, rfl⟩ := List.mem_map.mp hkept
    obtain ⟨line, hline, hread⟩ := List.mem_filterMap.mp hentry
    exact List.mem_append_left _ (List.mem_map.mpr ⟨line, hline, rewriteLine_of_some hread⟩)
  · exact List.mem_append_right _ (List.mem_map_of_mem hnew)

theorem onOneLine_mergedLines :
    ∀ line ∈ mergedLines existing updates.entries overwrite, OnOneLine line := by
  intro line hline
  rcases mem_mergedLines hline with hother | ⟨key, hkey, rfl⟩
  · exact onOneLine_of_mem_splitLines (List.mem_of_mem_filter hother)
  · exact onOneLine_keyLine hkey

section Reads

variable (hcomment : ∀ key ∈ updates.entries.keys, key.head? ≠ some hashSign)

include hcomment

theorem filterMap_mergedLines :
    (mergedLines existing updates.entries overwrite).filterMap envLine =
      (lineKeys (keptLines [] (splitLines existing)) ++
        newKeys (envValues existing) updates.entries).map fun key =>
          (key, ((updatedValues existing updates.entries overwrite).get? key).getD []) := by
  have hfits := fun key value => @fitsLine_of_get? existing updates overwrite hcomment key value
  rw [mergedLines, List.filterMap_append,
    filterMap_rewriteLines hfits fun key => mem_updatedValues_of_kept,
    filterMap_keyLines hfits fun key => mem_updatedValues_of_new, List.map_append]

theorem otherLines_mergedLines :
    otherLines (mergedLines existing updates.entries overwrite) =
      otherLines (splitLines existing) := by
  have hfits := fun key value => @fitsLine_of_get? existing updates overwrite hcomment key value
  have happend : ∀ first second, otherLines (first ++ second) =
      otherLines first ++ otherLines second := fun first second => List.filter_append first second
  rw [mergedLines, happend, otherLines_rewriteLines hfits fun key => mem_updatedValues_of_kept,
    otherLines_keyLines hfits fun key => mem_updatedValues_of_new, List.append_nil,
    otherLines_keptLines]

theorem lineKeys_mergedLines :
    lineKeys (mergedLines existing updates.entries overwrite) =
      lineKeys (keptLines [] (splitLines existing)) ++
        newKeys (envValues existing) updates.entries := by
  rw [lineKeys, filterMap_mergedLines hcomment, List.map_map]
  exact List.map_id _

theorem nodup_lineKeys_mergedLines :
    (lineKeys (mergedLines existing updates.entries overwrite)).Nodup := by
  rw [lineKeys_mergedLines hcomment]
  refine List.nodup_append.mpr ⟨(lineKeys_keptLines [] _).1, nodup_newKeys, ?_⟩
  intro key hkept other hnew hsame
  have hline := (((lineKeys_keptLines [] (splitLines existing)).2 key).mp hkept).2
  exact not_mem_of_mem_newKeys hnew (hsame ▸ mem_lineKeys.mp hline)

theorem get?_lineValues_mergedLines (key : PyStr) :
    (lineValues (mergedLines existing updates.entries overwrite)).get? key =
      mergedValue overwrite (envValues existing) updates.entries key := by
  have hnodup := @nodup_lineKeys_mergedLines existing updates overwrite hcomment
  rw [lineKeys] at hnodup
  rw [lineValues, Dict.update_nil_of_nodup hnodup, filterMap_mergedLines hcomment,
    get?_map_of_nodup, ← get?_updatedValues]
  have hmem : key ∈ lineKeys (keptLines [] (splitLines existing)) ++
      newKeys (envValues existing) updates.entries ↔
        key ∈ (updatedValues existing updates.entries overwrite).keys := by
    rw [keys_updatedValues, List.mem_append, List.mem_append, (lineKeys_keptLines [] _).2,
      mem_lineKeys]
    exact or_congr_left (and_iff_right List.not_mem_nil)
  simp only [hmem, Dict.mem_keys_iff]
  cases (updatedValues existing updates.entries overwrite).get? key with
  | none => rfl
  | some value => rfl

end Reads

end Merged

/-! ## Files that are merged as they should be -/

section Mergeable

variable {existing : PyStr} {updates : EnvUpdates} {overwrite : Bool}

theorem splitLines_mergedLines (hlast : newKeys (envValues existing) updates.entries ≠ [] ∨
      (keptLines [] (splitLines existing)).getLast? ≠ some []) :
    splitLines (textOfLines (mergedLines existing updates.entries overwrite)) =
      mergedLines existing updates.entries overwrite := by
  rw [splitLines_textOfLines onOneLine_mergedLines, if_neg]
  intro hempty
  exact getLast?_mergedLines_iff.mp hempty hlast

/-- The merged values can be encoded exactly when those that the updates write can. -/
theorem encodable_mergedLines_iff (hexisting : Encodable existing) :
    Encodable (textOfLines (mergedLines existing updates.entries overwrite)) ↔
      ∀ entry ∈ updates.entries, isProtected overwrite (envValues existing) entry.1 = false →
        Encodable entry.1 ∧ Encodable entry.2 := by
  rw [encodable_textOfLines_iff]
  have hparts : ∀ {key value}, Encodable (envText key value) ↔ Encodable key ∧ Encodable value := by
    intro key value
    rw [envText, encodable_append, encodable_append]
    have hequals : Encodable [equalsSign] := by decide
    exact and_congr_left fun _ => and_iff_left hequals
  apply Iff.intro
  · intro hlines entry hentry hopen
    have hupdate := Dict.get?_of_mem updates.nodup hentry
    have hvalue : (updatedValues existing updates.entries overwrite).get? entry.1 =
        some entry.2 := by
      rw [get?_updatedValues, mergedValue, hupdate]
      simp only
      rw [if_neg (by rw [hopen]; exact Bool.false_ne_true)]
    have hmem : entry.1 ∈ (updatedValues existing updates.entries overwrite).keys := by
      rw [Dict.mem_keys_iff, hvalue]
      rfl
    have hline := hlines _ (keyLine_mem_mergedLines hmem)
    rw [keyLine, hvalue] at hline
    exact hparts.mp hline
  · intro hupdates line hline
    rcases mem_mergedLines hline with hother | ⟨key, hkey, rfl⟩
    · exact encodable_of_mem_splitLines hexisting (List.mem_of_mem_filter hother)
    · rw [Dict.mem_keys_iff, Option.isSome_iff_exists] at hkey
      obtain ⟨value, hvalue⟩ := hkey
      rw [keyLine, hvalue]
      apply hparts.mpr
      have hlines : ∀ {value}, (envValues existing).get? key = some value →
          Encodable key ∧ Encodable value := by
        intro value hold
        obtain ⟨source, hsource, hread⟩ := exists_line_of_get? hold
        have hencodable := encodable_of_mem_splitLines hexisting hsource
        exact ⟨fun c hc => hencodable c (mem_line_of_mem_key hread hc),
          fun c hc => hencodable c (mem_line_of_mem_value hread hc)⟩
      rw [get?_updatedValues, mergedValue] at hvalue
      cases hupdate : updates.entries.get? key with
      | none =>
        rw [hupdate] at hvalue
        exact hlines hvalue
      | some new =>
        rw [hupdate] at hvalue
        simp only at hvalue
        cases hprotected : isProtected overwrite (envValues existing) key with
        | true =>
          rw [if_pos hprotected] at hvalue
          exact hlines hvalue
        | false =>
          rw [if_neg (by rw [hprotected]; exact Bool.false_ne_true)] at hvalue
          cases hvalue
          exact hupdates _ (Dict.mem_of_get? hupdate) hprotected

/-- The second merge finds every key and leaves its value. -/
theorem mergedValue_again {written : PyStr} (hvalues : ∀ key, (envValues written).get? key =
      mergedValue overwrite (envValues existing) updates.entries key) (key : PyStr) :
    mergedValue overwrite (envValues written) updates.entries key =
      mergedValue overwrite (envValues existing) updates.entries key := by
  cases hupdate : updates.entries.get? key with
  | none =>
    have hnone : ∀ values, mergedValue overwrite values updates.entries key =
        values.get? key := fun values => by simp only [mergedValue, hupdate]
    rw [hnone, hvalues, hnone]
  | some value =>
    have hsome : ∀ values, mergedValue overwrite values updates.entries key =
        if isProtected overwrite values key then values.get? key else some value :=
      fun values => by simp only [mergedValue, hupdate]
    rw [hsome, hvalues, hsome]
    cases hprotected : isProtected overwrite (envValues existing) key with
    | false =>
      rw [if_neg Bool.false_ne_true]
      exact ite_self (some value)
    | true =>
      rw [if_pos rfl]
      have hstill : isProtected overwrite (envValues written) key = true := by
        have hkept : (envValues written).get? key = (envValues existing).get? key := by
          rw [hvalues, hsome, if_pos hprotected]
        rw [isProtected, hkept]
        exact hprotected
      rw [if_pos hstill]

theorem readsBack_of_mergeable (hexisting : Encodable existing)
    (hmergeable : Mergeable existing updates.entries overwrite) :
    ReadsBack existing updates.entries overwrite
      (textOfLines (mergedLines existing updates.entries overwrite)) := by
  have hlines := @splitLines_mergedLines existing updates overwrite hmergeable.lastLine
  have hcomment := hmergeable.noComment
  have hothers := @otherLines_mergedLines existing updates overwrite hcomment
  have hnodup := @nodup_lineKeys_mergedLines existing updates overwrite hcomment
  have hencodable := (encodable_mergedLines_iff hexisting).mpr hmergeable.encodable
  have hvalues : ∀ key, (envValues
      (textOfLines (mergedLines existing updates.entries overwrite))).get? key =
        mergedValue overwrite (envValues existing) updates.entries key := by
    intro key
    rw [envValues, hlines]
    exact get?_lineValues_mergedLines hcomment key
  refine ⟨?_, hvalues, by rwa [hlines], by rwa [hlines], ?_⟩
  · rw [mergeEnvFile_eq hmergeable.noMarker, if_pos hencodable]
  · -- the merged lines once more
    have hmarker : ∀ line ∈ otherLines (splitLines
        (textOfLines (mergedLines existing updates.entries overwrite))), ¬keyPrefix <+: line := by
      rw [hlines, hothers]
      exact hmergeable.noMarker
    have hnone : newKeys (envValues
        (textOfLines (mergedLines existing updates.entries overwrite))) updates.entries = [] := by
      apply List.filter_eq_nil_iff.mpr
      intro key hkey
      have hsome := @isSome_mergedValue overwrite (envValues existing) _ _ hkey
      rw [← hvalues, ← Dict.mem_keys_iff] at hsome
      simpa using hsome
    have hsame : mergedLines (textOfLines (mergedLines existing updates.entries overwrite))
        updates.entries overwrite = mergedLines existing updates.entries overwrite := by
      rw [mergedLines, hnone, hlines, keptLines_of_nodup hnodup fun _ _ => List.not_mem_nil,
        List.map_nil, List.append_nil]
      conv_rhs => rw [← List.map_id (mergedLines existing updates.entries overwrite)]
      apply List.map_congr_left
      intro line hline
      cases hread : envLine line with
      | none => exact rewriteLine_of_none hread
      | some entry =>
        rw [rewriteLine_of_some hread]
        rcases mem_mergedLines hline with hother | ⟨key, hkey, hkeyLine⟩
        · have hnot := (List.mem_filter.mp hother).2
          rw [hread] at hnot
          cases hnot
        · have hfits := fun key value =>
            @fitsLine_of_get? existing updates overwrite hcomment key value
          rw [hkeyLine, envLine_keyLine hfits hkey] at hread
          have hvalue : (updatedValues (textOfLines (mergedLines existing updates.entries
              overwrite)) updates.entries overwrite).get? key =
                (updatedValues existing updates.entries overwrite).get? key := by
            rw [get?_updatedValues, get?_updatedValues, mergedValue_again hvalues]
          rw [hkeyLine, ← Option.some.inj hread, keyLine, hvalue]
          rfl
    rw [mergeEnvFile_eq hmarker, hsame, if_pos hencodable]

/-! ## Nothing else is -/

theorem noComment_of_readsBack {written : PyStr}
    (hreads : ReadsBack existing updates.entries overwrite written) :
    ∀ key ∈ updates.entries.keys, key.head? ≠ some hashSign := by
  intro key hkey
  have hsome := @isSome_mergedValue overwrite (envValues existing) _ _ hkey
  rw [← hreads.values, ← Dict.mem_keys_iff] at hsome
  obtain ⟨line, _, value, hread⟩ := mem_keys_lineValues.mp hsome
  exact (isEnvKey_of_envLine hread).noComment

/-- A line that comes out was an item, or holds a key with its value. -/
theorem mem_of_renderItems {values : Dict PyStr PyStr} {items seen out : List PyStr}
    (hout : renderItems values items seen = .ok out) :
    ∀ line ∈ out, (line ∈ items ∧ ¬keyPrefix <+: line) ∨
      ∃ entry ∈ values, line = envText entry.1 entry.2 := by
  induction items generalizing seen out with
  | nil =>
    cases hout
    intro line hline
    obtain ⟨entry, hentry, rfl⟩ := List.mem_map.mp hline
    exact Or.inr ⟨entry, List.mem_of_mem_filter hentry, rfl⟩
  | cons item items ih =>
    have hmore : ∀ {line : PyStr}, ((line ∈ items ∧ ¬keyPrefix <+: line) ∨
        ∃ entry ∈ values, line = envText entry.1 entry.2) →
        (line ∈ item :: items ∧ ¬keyPrefix <+: line) ∨
          ∃ entry ∈ values, line = envText entry.1 entry.2 :=
      fun h => h.imp_left fun hold => ⟨List.mem_cons_of_mem item hold.1, hold.2⟩
    rw [renderItems] at hout
    by_cases hprefix : keyPrefix <+: item
    · rw [if_pos hprefix] at hout
      simp only at hout
      split at hout
      · exact fun line hline => hmore (ih hout line hline)
      · cases hget : values.get? (item.drop keyPrefix.length) with
        | none =>
          rw [hget] at hout
          cases hout
        | some value =>
          rw [hget] at hout
          simp only at hout
          cases hrest : renderItems values items (item.drop keyPrefix.length :: seen) with
          | error error =>
            rw [hrest] at hout
            cases hout
          | ok rest =>
            rw [hrest] at hout
            cases hout
            intro line hline
            cases List.mem_cons.mp hline with
            | inl hfirst => exact Or.inr ⟨_, Dict.mem_of_get? hget, hfirst⟩
            | inr hlater => exact hmore (ih hrest line hlater)
    · rw [if_neg hprefix] at hout
      cases hrest : renderItems values items seen with
      | error error =>
        rw [hrest] at hout
        cases hout
      | ok rest =>
        rw [hrest] at hout
        cases hout
        intro line hline
        cases List.mem_cons.mp hline with
        | inl hfirst => exact Or.inl ⟨hfirst ▸ List.mem_cons_self, hfirst ▸ hprefix⟩
        | inr hlater => exact hmore (ih hrest line hlater)

/-- A line with `=` that begins like a marker has a key. -/
theorem envLine_of_marker {line : PyStr} (hmarked : keyPrefix <+: line)
    (hequals : equalsSign ∈ line) : envLine line ≠ none := by
  obtain ⟨rest, rfl⟩ := hmarked
  have hshape : keyPrefix = CodePoint.ofChar '_' :: py "_KEY__:" := by decide
  have hkept : (keyPrefix ++ rest).dropWhile isSpace = keyPrefix ++ rest := by
    rw [hshape]
    exact List.dropWhile_cons_of_neg (by decide)
  have hfront : strip (keyPrefix ++ rest) <+: keyPrefix ++ rest := by
    rw [strip, stripBy, hkept]
    exact List.rdropWhile_prefix isSpace _
  have hinside : equalsSign ∈ strip (keyPrefix ++ rest) := mem_stripBy_of_mem hequals (by decide)
  have hne : strip (keyPrefix ++ rest) ≠ [] := List.ne_nil_of_mem hinside
  have hhead : (strip (keyPrefix ++ rest)).head? ≠ some hashSign := by
    obtain ⟨tail, htail⟩ := hfront
    cases hstrip : strip (keyPrefix ++ rest) with
    | nil => exact absurd hstrip hne
    | cons c text =>
      rw [hstrip, hshape] at htail
      rw [List.head?_cons, (List.cons.inj htail).1]
      decide
  rw [envLine, if_neg (not_or.mpr ⟨hne, hhead⟩), if_neg (not_not.mpr hinside)]
  exact Option.some_ne_none _

theorem noMarker_of_readsBack {written : PyStr}
    (hreads : ReadsBack existing updates.entries overwrite written) :
    ∀ line ∈ otherLines (splitLines existing), ¬keyPrefix <+: line := by
  intro line hline hprefix
  have hsucceeds := hreads.succeeds
  rw [mergeEnvFile] at hsucceeds
  simp only at hsucceeds
  obtain ⟨out, hout, hpayload⟩ : ∃ out,
      renderItems (updatedValues existing updates.entries overwrite)
      (updates.entries.foldl (applyUpdate overwrite) (parseEnvLines existing)).1 [] = .ok out ∧
        written = textOfLines out := by
    cases hrender : renderItems (updatedValues existing updates.entries overwrite)
        (updates.entries.foldl (applyUpdate overwrite) (parseEnvLines existing)).1 [] with
    | error error =>
      change (renderItems (updatedValues existing updates.entries overwrite) _ []).bind _ = _
        at hsucceeds
      rw [hrender] at hsucceeds
      cases hsucceeds
    | ok out =>
      change (renderItems (updatedValues existing updates.entries overwrite) _ []).bind _ = _
        at hsucceeds
      rw [hrender] at hsucceeds
      change (if Encodable (textOfLines out) then Except.ok (textOfLines out) else _) = _
        at hsucceeds
      split at hsucceeds
      · exact ⟨out, rfl, (Except.ok.inj hsucceeds).symm⟩
      · cases hsucceeds
  have horder := (@foldl_applyUpdate overwrite _ updates.nodup (parseEnvLines existing)).1
  rw [parseEnvLines_eq] at horder
  have hnodup : (updatedValues existing updates.entries overwrite).keys.Nodup := by
    rw [keys_updatedValues]
    refine List.nodup_append.mpr ⟨nodup_keys_lineValues _, nodup_newKeys, ?_⟩
    intro key hold other hnew hsame
    exact not_mem_of_mem_newKeys hnew (hsame ▸ hold)
  have hkeyLine : ∀ entry ∈ updatedValues existing updates.entries overwrite,
      envText entry.1 entry.2 = keyLine (updatedValues existing updates.entries overwrite)
        entry.1 := by
    intro entry hentry
    rw [keyLine, Dict.get?_of_mem hnodup hentry]
    rfl
  have hone : ∀ other ∈ out, OnOneLine other := by
    intro other hother
    rcases mem_of_renderItems hout other hother with ⟨hitem, hplain⟩ | ⟨entry, hentry, rfl⟩
    · rw [parseEnvLines_eq, horder] at hitem
      rcases List.mem_append.mp hitem with hsource | hadded
      · obtain ⟨source, hmem, rfl⟩ := List.mem_map.mp hsource
        cases hread : envLine source with
        | none =>
          have hsame : markerOf source = source := by simp only [markerOf, hread]
          rw [hsame]
          exact onOneLine_of_mem_splitLines hmem
        | some entry =>
          have hsame : markerOf source = keyMarker entry.1 := by simp only [markerOf, hread]
          rw [hsame] at hplain
          exact absurd (keyPrefix_keyMarker _) hplain
      · obtain ⟨key, _, rfl⟩ := List.mem_map.mp hadded
        exact absurd (keyPrefix_keyMarker key) hplain
    · rw [hkeyLine entry hentry]
      exact onOneLine_keyLine (List.mem_map_of_mem hentry)
  have hwritten : line ∈ splitLines written := by
    rw [← hreads.others] at hline
    exact List.mem_of_mem_filter hline
  have hmem : line ∈ out := by
    rw [hpayload, splitLines_textOfLines hone] at hwritten
    split at hwritten
    · exact List.dropLast_subset out hwritten
    · exact hwritten
  rcases mem_of_renderItems hout line hmem with ⟨_, hplain⟩ | ⟨entry, _, htext⟩
  · exact hplain hprefix
  · have hequals : equalsSign ∈ line := by rw [htext]; simp [envText]
    have hnone := (List.mem_filter.mp hline).2
    exact envLine_of_marker hprefix hequals (Option.isNone_iff_eq_none.mp hnone)

theorem mergeable_of_readsBack (hexisting : Encodable existing) {written : PyStr}
    (hreads : ReadsBack existing updates.entries overwrite written) :
    Mergeable existing updates.entries overwrite := by
  have hmarker := noMarker_of_readsBack hreads
  have hcomment := noComment_of_readsBack hreads
  have hsucceeds := hreads.succeeds
  rw [mergeEnvFile_eq hmarker] at hsucceeds
  by_cases hencodable : Encodable (textOfLines (mergedLines existing updates.entries overwrite))
  · rw [if_pos hencodable] at hsucceeds
    have hwritten := Except.ok.inj hsucceeds
    refine ⟨hmarker, hcomment, ?_, (encodable_mergedLines_iff hexisting).mp hencodable⟩
    by_contra hlast
    have hempty := (@getLast?_mergedLines_iff existing updates overwrite).mpr hlast
    obtain ⟨front, hfront⟩ := List.getLast?_eq_some_iff.mp hempty
    have hothers := hreads.others
    rw [← hwritten, splitLines_textOfLines onOneLine_mergedLines, if_pos hempty,
      ← @otherLines_mergedLines existing updates overwrite hcomment, hfront, List.dropLast_concat]
      at hothers
    have hlength := congrArg List.length hothers
    have hblank : otherLines [[]] = [[]] := by decide
    rw [otherLines, otherLines, List.filter_append, List.length_append] at hlength
    change _ = _ + (otherLines [[]]).length at hlength
    rw [hblank, List.length_singleton] at hlength
    omega
  · rw [if_neg hencodable] at hsucceeds
    cases hsucceeds

end Mergeable

/-- The merged file reads as it should exactly when no line looks like a marker, no update like a
comment, the file does not end with an empty line that stays the last, and what is written can
be encoded. -/
theorem merge_env_file_reads_back_iff (existing : {text : PyStr // Encodable text})
    (updates : EnvUpdates) (overwrite : Bool) :
    (∃ written, ReadsBack existing.val updates.entries overwrite written) ↔
      Mergeable existing.val updates.entries overwrite := by
  apply Iff.intro
  · rintro ⟨written, hreads⟩
    exact mergeable_of_readsBack existing.property hreads
  · intro hmergeable
    exact ⟨_, readsBack_of_mergeable existing.property hmergeable⟩

/-- A blank line at the end of the file is lost. -/
theorem blank_last_line_is_lost :
    ¬∃ written, ReadsBack (py "A=1\n\n") [(py "A", py "2")] false written := by
  rintro ⟨written, hreads⟩
  have hmerged : mergeEnvFile (py "A=1\n\n") [(py "A", py "2")] false = .ok (py "A=2\n") := by
    decide +kernel
  have hwritten : written = py "A=2\n" := by
    have hsame := hreads.succeeds
    rw [hmerged] at hsame
    exact (Except.ok.inj hsame).symm
  have hothers := hreads.others
  rw [hwritten] at hothers
  exact absurd hothers (by decide +kernel)

end RootSeeker.Setup
